import Mathlib.Logic.Function.Basic

/-! # Read-through caches

A cache beside a store: a query is answered from the cache where it can be, and its answer
is kept. Entries go away by themselves at any time. The cache is coherent where it holds
nothing but what the store would answer now.
-/
namespace ReadThrough
variable {K S : Type} {V : K → Type}

/-- One possible entry for every key. -/
abbrev Cache (V : K → Type) := (k : K) → Option (V k)

def empty : Cache V := fun _ => none

/-- What is left when the keys with property `p` are dropped. -/
def Cache.deleteWhere (c : Cache V) (p : K → Prop) [DecidablePred p] : Cache V :=
  fun k => if p k then none else c k

/-- Under the keys with property `p`, one cache holds no more than another. -/
def Cache.Within (p : K → Prop) (c c' : Cache V) : Prop :=
  ∀ k, p k → ∀ v, c k = some v → c' k = some v

/-- The entries under the keys with property `p` are what `query` answers. -/
def CoherentOn (p : K → Prop) (query : S → (k : K) → V k) (s : S) (c : Cache V) : Prop :=
  ∀ k, p k → ∀ v, c k = some v → v = query s k

variable {p q : K → Prop} {query : S → (k : K) → V k} {s s' : S} {c c' c'' : Cache V}

theorem Cache.within_refl (c : Cache V) : c.Within p c := fun _ _ _ h => h

theorem Cache.Within.trans (h : c.Within p c') (h' : c'.Within p c'') : c.Within p c'' :=
  fun k hk v hv => h' k hk v (h k hk v hv)

/-- What is not in the larger one is not in the smaller. -/
theorem Cache.Within.eq_none (h : c.Within p c') {k : K} (hk : p k) (hn : c' k = none) :
    c k = none := by
  cases hc : c k with
  | none => rfl
  | some v => rw [h k hk v hc] at hn; cases hn

theorem Cache.deleteWhere_within (c : Cache V) (q : K → Prop) [DecidablePred q] :
    (c.deleteWhere q).Within p c := by
  intro k _ v h
  unfold Cache.deleteWhere at h
  split at h
  · cases h
  · exact h

theorem Cache.deleteWhere_of (c : Cache V) (p : K → Prop) [DecidablePred p] {k : K} (h : p k) :
    c.deleteWhere p k = none := if_pos h

theorem coherentOn_empty (p : K → Prop) (query : S → (k : K) → V k) (s : S) :
    CoherentOn p query s empty := fun _ _ _ h => nomatch h

/-- A write of the store keeps the cache coherent just where what is left in the cache is
not about what it changes. -/
theorem coherentOn_write_iff (h : CoherentOn p query s c) (hw : c'.Within p c) :
    CoherentOn p query s' c' ↔ ∀ k, p k → c' k ≠ none → query s' k = query s k := by
  constructor
  · intro h' k hk hne
    obtain ⟨v,hv⟩ := Option.ne_none_iff_exists'.mp hne
    rw [← h' k hk v hv]
    exact h k hk v (hw k hk v hv)
  · intro h' k hk v hv
    rw [h' k hk (by rw [hv]; exact Option.some_ne_none v)]
    exact h k hk v (hw k hk v hv)

theorem CoherentOn.write (h : CoherentOn p query s c) (hw : c'.Within p c)
    (hq : ∀ k, p k → c' k ≠ none → query s' k = query s k) : CoherentOn p query s' c' :=
  (coherentOn_write_iff h hw).mpr hq

theorem CoherentOn.within (h : CoherentOn p query s c) (hw : c'.Within p c) :
    CoherentOn p query s c' := h.write hw (fun _ _ _ => rfl)

section Reads
variable [DecidableEq K]

def Cache.set (c : Cache V) (k : K) (v : V k) : Cache V := Function.update c k (some v)

def Cache.delete (c : Cache V) (k : K) : Cache V := Function.update c k none

/-- The answer to a query, and the cache after it. -/
def read (query : S → (k : K) → V k) (s : S) (c : Cache V) (k : K) : V k × Cache V :=
  match c k with
  | some v => (v,c)
  | none => (query s k,c.set k (query s k))

theorem Cache.delete_within (c : Cache V) (k : K) : (c.delete k).Within p c := by
  intro k' _ v h
  by_cases hk : k' = k
  · subst hk
    rw [Cache.delete,Function.update_self] at h
    cases h
  · rwa [Cache.delete,Function.update_of_ne hk] at h

theorem Cache.delete_self (c : Cache V) (k : K) : c.delete k k = none := Function.update_self _ _ _

theorem read_fst (query : S → (k : K) → V k) (s : S) (c : Cache V) (k : K) :
    (read query s c k).1 = (c k).getD (query s k) := by
  unfold read
  cases c k with
  | none => rfl
  | some v => rfl

/-- The answer is kept. -/
theorem read_snd_self (query : S → (k : K) → V k) (s : S) (c : Cache V) (k : K) :
    (read query s c k).2 k = some (read query s c k).1 := by
  unfold read
  cases hc : c k with
  | none => exact Function.update_self _ _ _
  | some v => exact hc

theorem read_snd_of_ne (query : S → (k : K) → V k) (s : S) (c : Cache V) {k k' : K} (h : k' ≠ k) :
    (read query s c k).2 k' = c k' := by
  unfold read
  cases c k with
  | none => exact Function.update_of_ne h _ _
  | some v => rfl

/-- Where the cache is coherent a read answers as the store does. -/
theorem CoherentOn.read_fst (h : CoherentOn p query s c) {k : K} (hk : p k) :
    (read query s c k).1 = query s k := by
  rw [ReadThrough.read_fst]
  cases hc : c k with
  | none => rfl
  | some v => exact h k hk v hc

theorem CoherentOn.read (h : CoherentOn p query s c) (k : K) :
    CoherentOn p query s (read query s c k).2 := by
  intro k' hk' v hv
  by_cases hkk : k' = k
  · subst hkk
    rw [read_snd_self,Option.some_inj] at hv
    rw [← hv]
    exact h.read_fst hk'
  · rw [read_snd_of_ne query s c hkk] at hv
    exact h k' hk' v hv

end Reads
end ReadThrough
