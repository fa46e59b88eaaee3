import Mathlib.Algebra.Order.Field.Basic
import Mathlib.Tactic.Linarith
import Mathlib.Tactic.Ring

/-! # A level that time refills

A level rises at a rate up to its cap, and each request takes one unit of it where there
is one. However the requests come, a window of time admits no more of them than the cap
and what is refilled within the window.
-/
namespace MiniDiscord.Refill

variable {K : Type*} [LinearOrder K] {rate cap level last now s t d e : K} {times : List K}

def inWindow (s t : K) (times : List K) : List K := times.filter fun u => s ≤ u ∧ u ≤ t

theorem inWindow_eq_nil (h : ∀ u ∈ times, t < u) : inWindow s t times = [] := by
  apply List.filter_eq_nil_iff.mpr
  intro u hu
  simpa using fun _ => h u hu

theorem inWindow_cons (now : K) (times : List K) : inWindow s t (now :: times) =
    if s ≤ now ∧ now ≤ t then now :: inWindow s t times else inWindow s t times := by
  simp [inWindow,List.filter_cons]

variable [Field K]

def refill (rate cap level elapsed : K) : K := min (level + elapsed * rate) cap

theorem refill_le_cap : refill rate cap level d ≤ cap := min_le_right _ _

theorem refill_le : refill rate cap level d ≤ level + d * rate := min_le_left _ _

theorem refill_zero (h : level ≤ cap) : refill rate cap level 0 = level := by
  rw [refill,zero_mul,add_zero,min_eq_left h]

theorem refill_full (h : cap ≤ level + d * rate) : refill rate cap level d = cap :=
  min_eq_right h

/-- The times of the requests that are admitted, the level being known at the time `last`. -/
def admitted (rate cap : K) : K → K → List K → List K
  | _,_,[] => []
  | level,last,now :: times =>
    let l := refill rate cap level (now - last)
    if 1 ≤ l then now :: admitted rate cap (l - 1) now times else admitted rate cap l now times

theorem mem_of_mem_admitted (h : t ∈ admitted rate cap level last times) : t ∈ times := by
  induction times generalizing level last with
  | nil => cases h
  | cons now times ih =>
    unfold admitted at h
    dsimp only at h
    split at h
    · rcases List.mem_cons.mp h with rfl | hm
      · exact List.mem_cons_self
      · exact List.mem_cons_of_mem _ (ih hm)
    · exact List.mem_cons_of_mem _ (ih h)

variable [IsStrictOrderedRing K]

theorem refill_nonneg (hr : 0 ≤ rate) (hc : 0 ≤ cap) (hl : 0 ≤ level) (hd : 0 ≤ d) :
    0 ≤ refill rate cap level d :=
  le_min (add_nonneg hl (mul_nonneg hd hr)) hc

/-- The cap is reached whether or not the level is looked at on the way. -/
theorem refill_refill (hr : 0 ≤ rate) (he : 0 ≤ e) :
    refill rate cap (refill rate cap level d) e = refill rate cap level (d + e) := by
  have hg : 0 ≤ e * rate := mul_nonneg he hr
  unfold refill
  rw [add_mul,← add_assoc,← min_add_add_right,min_assoc,min_eq_right (le_add_of_nonneg_right hg)]

/-- Nothing changes where the level is brought up to date before the next request. -/
theorem admitted_refill (hr : 0 ≤ rate) (h : ∀ u ∈ times, now ≤ u) :
    admitted rate cap (refill rate cap level (now - last)) now times =
      admitted rate cap level last times := by
  cases times with
  | nil => rfl
  | cons u times =>
    have hu : 0 ≤ u - now := sub_nonneg.mpr (h u List.mem_cons_self)
    have hd : now - last + (u - now) = u - last := by ring
    simp only [admitted,refill_refill hr hu,hd]

/-- Up to a time, no more are admitted than the level allows and what is refilled. -/
theorem length_admitted_le (hr : 0 ≤ rate) (hc : 0 ≤ cap) (h : (last :: times).Pairwise (· ≤ ·))
    (hl : 0 ≤ level) (ht : last ≤ t) :
    ((inWindow s t (admitted rate cap level last times)).length : K) ≤
      level + (t - last) * rate := by
  induction times generalizing level last with
  | nil =>
    simpa [admitted,inWindow] using add_nonneg hl (mul_nonneg (sub_nonneg.mpr ht) hr)
  | cons now times ih =>
    obtain ⟨hlast,htail⟩ := List.pairwise_cons.mp h
    have hnow : 0 ≤ now - last := sub_nonneg.mpr (hlast now List.mem_cons_self)
    by_cases hn : now ≤ t
    · have hle : refill rate cap level (now - last) ≤ level + (now - last) * rate := refill_le
      have hnn := refill_nonneg hr hc hl hnow
      simp only [admitted]
      split
      · rename_i hone
        have hrest := ih htail (sub_nonneg.mpr hone) hn
        rw [inWindow_cons]
        split
        · push_cast [List.length_cons]
          linarith
        · linarith
      · have hrest := ih htail hnn hn
        linarith
    · -- every request is later
      have hnil : inWindow s t (admitted rate cap level last (now :: times)) = [] := by
        apply inWindow_eq_nil
        intro u hu
        rcases List.mem_cons.mp (mem_of_mem_admitted hu) with rfl | hm
        · exact lt_of_not_ge hn
        · exact (lt_of_not_ge hn).trans_le ((List.pairwise_cons.mp htail).1 u hm)
      rw [hnil]
      simpa using add_nonneg hl (mul_nonneg (sub_nonneg.mpr ht) hr)

/-- At the start of a window the level is at most the cap. -/
theorem length_inWindow_le (hr : 0 ≤ rate) (hc : 0 ≤ cap)
    (h : (last :: times).Pairwise (· ≤ ·)) (hl : 0 ≤ level) (hst : s ≤ t) :
    ((inWindow s t (admitted rate cap level last times)).length : K) ≤ cap + (t - s) * rate := by
  have hw : 0 ≤ (t - s) * rate := mul_nonneg (sub_nonneg.mpr hst) hr
  induction times generalizing level last with
  | nil => simpa [admitted,inWindow] using add_nonneg hc hw
  | cons now times ih =>
    obtain ⟨hlast,htail⟩ := List.pairwise_cons.mp h
    have hnow : 0 ≤ now - last := sub_nonneg.mpr (hlast now List.mem_cons_self)
    have hnn := refill_nonneg hr hc hl hnow
    have hcap : refill rate cap level (now - last) ≤ cap := refill_le_cap
    by_cases hs : s ≤ now ∧ now ≤ t
    · -- the first request of the window
      have hgap : 0 ≤ (now - s) * rate := mul_nonneg (sub_nonneg.mpr hs.1) hr
      simp only [admitted]
      split
      · rename_i hone
        have hrest := length_admitted_le (s := s) hr hc htail (sub_nonneg.mpr hone) hs.2
        rw [inWindow_cons,if_pos hs]
        push_cast [List.length_cons]
        linarith
      · have hrest := length_admitted_le (s := s) hr hc htail hnn hs.2
        linarith
    · simp only [admitted]
      split
      · rename_i hone
        rw [inWindow_cons,if_neg hs]
        exact ih htail (sub_nonneg.mpr hone)
      · exact ih htail hnn

end MiniDiscord.Refill
