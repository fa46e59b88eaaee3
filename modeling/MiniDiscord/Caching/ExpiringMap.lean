import Mathlib.Logic.Function.Basic
import Mathlib.Order.Defs.LinearOrder
import Mathlib.Order.Lattice

/-! # Expiring maps

A map whose entries may have a deadline. It forgets nothing: what is past its deadline only
is not found. A cache trims it where the cache holds some of the map's entries, and all of
those that are not past their deadline.
-/
namespace ExpiringMap

/-- No deadline is never. -/
structure Entry (V T : Type) where
  value : V
  deadline : Option T
  deriving DecidableEq

variable {K V T I : Type} [LinearOrder T]

/-- An entry still lives at its deadline. -/
def Entry.live (e : Entry V T) (now : T) : Bool := e.deadline.all (fun d => decide (now ≤ d))

abbrev Map (K V T : Type) := K → Option (Entry V T)

def get (m : Map K V T) (now : T) (k : K) : Option V := ((m k).filter (·.live now)).map (·.value)

inductive Write (K V T : Type) where
  | set (k : K) (e : Entry V T)
  | deleteWhere (p : K → Bool)

variable [DecidableEq K]

def Write.touches (k : K) : Write K V T → Bool
  | .set k' _ => decide (k = k')
  | .deleteWhere p => p k

def Write.apply (m : Map K V T) : Write K V T → Map K V T
  | .set k e => Function.update m k (some e)
  | .deleteWhere p => fun k => if p k then none else m k

variable {e : Entry V T} {m : Map K V T} {c c' : K → Option I} {R : I → Entry V T → Prop}
  {now now' : T} {k : K} {item : I} {w : Write K V T} {v : V}

omit [DecidableEq K] in
theorem get_eq_some_iff :
    get m now k = some v ↔ ∃ e, m k = some e ∧ e.live now = true ∧ e.value = v := by
  simp only [get,Option.map_eq_some_iff,Option.filter_eq_some_iff,and_assoc]

omit [DecidableEq K] in
theorem get_eq_none_iff : get m now k = none ↔ ∀ e, m k = some e → e.live now = false := by
  unfold get
  cases hm : m k with
  | none => simp
  | some e => by_cases hl : e.live now <;> simp [hl]

/-- What lives later lives now. -/
theorem Entry.live_of_le (h : e.live now' = true) (hn : now ≤ now') : e.live now = true := by
  unfold Entry.live at h ⊢
  cases hd : e.deadline with
  | none => rfl
  | some d =>
    rw [hd] at h
    exact decide_eq_true (le_trans hn (of_decide_eq_true h))

omit [LinearOrder T] in
theorem Write.apply_of_not_touches (h : w.touches k = false) : w.apply m k = m k := by
  cases w with
  | set k' e => exact Function.update_of_ne (of_decide_eq_false h) _ _
  | deleteWhere p => simp only [apply,show p k = false from h,Bool.false_eq_true,if_false]

/-- `R` is which entry an item of the cache stands for. -/
structure Trims (R : I → Entry V T → Prop) (now : T) (c : K → Option I) (m : Map K V T) : Prop where
  sound : ∀ k item, c k = some item → ∃ e, m k = some e ∧ R item e
  complete : ∀ k e, m k = some e → e.live now = true → ∃ item, c k = some item

namespace Trims

omit [DecidableEq K] in
theorem empty : Trims R now (fun _ : K => none) (fun _ => none) :=
  ⟨fun _ _ h => (nomatch h),fun _ _ h => (nomatch h)⟩

omit [DecidableEq K] in
theorem mono (h : Trims R now c m) (hn : now ≤ now') : Trims R now' c m where
  sound := h.sound
  complete k e he hl := h.complete k e he (Entry.live_of_le hl hn)

omit [DecidableEq K] in
theorem congr (h : Trims R now c m) (hc : ∀ k, c' k = c k) : Trims R now c' m := by
  obtain rfl : c' = c := funext hc
  exact h

omit [DecidableEq K] in
theorem get_eq_none (h : Trims R now c m) (hc : c k = none) : get m now k = none := by
  apply get_eq_none_iff.mpr
  intro e he
  cases hl : e.live now with
  | false => rfl
  | true =>
    obtain ⟨item,hi⟩ := h.complete k e he hl
    cases hc.symm.trans hi

theorem set (h : Trims R now c m) (hR : R item e) :
    Trims R now (Function.update c k (some item)) ((Write.set k e).apply m) where
  sound k' item' hc := by
    by_cases hk : k' = k
    · subst hk
      rw [Function.update_self] at hc
      cases hc
      exact ⟨e,Function.update_self ..,hR⟩
    · rw [Function.update_of_ne hk] at hc
      obtain ⟨e',he,hR'⟩ := h.sound k' item' hc
      exact ⟨e',(Function.update_of_ne hk _ _).trans he,hR'⟩
  complete k' e' he hl := by
    by_cases hk : k' = k
    · subst hk
      exact ⟨item,Function.update_self ..⟩
    · obtain ⟨item',hc⟩ := h.complete k' e' ((Function.update_of_ne hk _ _).symm.trans he) hl
      exact ⟨item',(Function.update_of_ne hk _ _).trans hc⟩

theorem deleteWhere (h : Trims R now c m) (p : K → Bool) :
    Trims R now (fun k => if p k then none else c k) ((Write.deleteWhere p).apply m) where
  sound k item hc := by
    simp only [Write.apply]
    split at hc
    · cases hc
    · rename_i hp
      rw [if_neg hp]
      exact h.sound k item hc
  complete k e he hl := by
    simp only [Write.apply] at he
    split at he
    · cases he
    · rename_i hp
      rw [if_neg hp]
      exact h.complete k e he hl

omit [DecidableEq K] in
/-- Items that stand for entries past their deadline may go. -/
theorem evict (h : Trims R now c m)
    (hc : ∀ k, c' k = c k ∨ c' k = none ∧ ∀ item e, c k = some item → R item e → e.live now = false) :
    Trims R now c' m where
  sound k item hi := by
    rcases hc k with he | ⟨hn,-⟩
    · exact h.sound k item (he.symm.trans hi)
    · cases hn.symm.trans hi
  complete k e he hl := by
    obtain ⟨item,hi⟩ := h.complete k e he hl
    rcases hc k with heq | ⟨-,hdead⟩
    · exact ⟨item,heq.trans hi⟩
    · obtain ⟨e',he',hR⟩ := h.sound k item hi
      cases he.symm.trans he'
      rw [hdead item e hi hR] at hl
      cases hl

end Trims
end ExpiringMap
