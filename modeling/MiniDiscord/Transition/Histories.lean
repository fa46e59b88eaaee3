import Mathlib.Data.List.Forall2
import MiniDiscord.Transition.LabelledRuns

/-! # Records of what has happened

A system runs beside a record into which every event notes something. No step reads the
record, so every run has one, and conditions on steps may speak of what came before.
What some steps begin and others end holds exactly since it was begun last.
-/
namespace MiniDiscord.Transition
variable {S H E : Type*}

structure Recorded (S H : Type*) where
  state : S
  record : H

/-- A step of the system, and what is noted of it. -/
def recording (step : S → E → Option S) (note : S → H → E → H) (x : Recorded S H) (e : E) :
    Option (Recorded S H) :=
  (step x.state e).map (fun t => ⟨t,note x.state x.record e⟩)

variable {step : S → E → Option S} {note : S → H → E → H} {x y : Recorded S H} {e : E} {es : List E}

theorem recording_eq_some_iff : recording step note x e = some y ↔
    step x.state e = some y.state ∧ note x.state x.record e = y.record := by
  unfold recording
  rw [Option.map_eq_some_iff]
  constructor
  · rintro ⟨t,ht,rfl⟩
    exact ⟨ht,rfl⟩
  · rintro ⟨ht,hr⟩
    exact ⟨y.state,ht,by rw [hr]⟩

theorem RunsWhen.forget {guard : Recorded S H → E → Prop}
    (h : RunsWhen (recording step note) guard x es y) : Runs step x.state es y.state := by
  induction h with
  | refl => exact RunsWhen.refl _
  | step _ he _ ih => exact Runs.cons (recording_eq_some_iff.mp he).1 ih

/-! ## A note on each element of a list -/

section Notes
variable {A B : Type*} {R : A → B → Prop} {as : List A} {bs : List B} {a : A} {b : B}

theorem forall₂_set (h : List.Forall₂ R as bs) (hab : R a b) (i : ℕ) :
    List.Forall₂ R (as.set i a) (bs.set i b) := by
  induction h generalizing i with
  | nil => exact .nil
  | cons h₀ hrest ih =>
    cases i with
    | zero => exact .cons hab hrest
    | succ i => exact .cons h₀ (ih i)

theorem forall₂_eraseIdx (h : List.Forall₂ R as bs) (i : ℕ) :
    List.Forall₂ R (as.eraseIdx i) (bs.eraseIdx i) := by
  induction h generalizing i with
  | nil => exact .nil
  | cons h₀ hrest ih =>
    cases i with
    | zero => exact hrest
    | succ i => exact .cons h₀ (ih i)

theorem forall₂_getElem? (h : List.Forall₂ R as bs) {i : ℕ} (ha : as[i]? = some a) :
    ∃ b, bs[i]? = some b ∧ R a b := by
  induction h generalizing i with
  | nil => cases ha
  | cons h₀ _ ih =>
    cases i with
    | zero =>
      cases ha
      exact ⟨_,rfl,h₀⟩
    | succ i => exact ih ha

end Notes

/-! ## Since -/

/-- Some step of the run has begun it, and none has ended it since. -/
inductive Since (step : S → E → Option S) (begins ends : S → E → Prop) (s : S) : List E → S → Prop
  | begun {es : List E} {t u : S} {e : E} :
      Runs step s es t → begins t e → step t e = some u → Since step begins ends s (es ++ [e]) u
  | kept {es : List E} {t u : S} {e : E} :
      Since step begins ends s es t → ¬ ends t e → step t e = some u →
        Since step begins ends s (es ++ [e]) u

variable {begins ends guard : S → E → Prop} {s t u : S}

theorem Since.runs (h : Since step begins ends s es t) : Runs step s es t := by
  induction h with
  | begun hr _ he => exact hr.append (Runs.single he)
  | kept _ _ he ih => exact ih.append (Runs.single he)

theorem not_since_nil : ¬ Since step begins ends s [] t := by
  generalize hes : ([] : List E) = es
  rintro (⟨-,-,-⟩ | ⟨-,-,-⟩) <;> simp at hes

theorem since_snoc_iff (hr : Runs step s es t) (he : step t e = some u) :
    Since step begins ends s (es ++ [e]) u ↔
      begins t e ∨ Since step begins ends s es t ∧ ¬ ends t e := by
  have hsame : ∀ {fs : List E} {f : E} {v : S}, es ++ [e] = fs ++ [f] → Runs step s fs v →
      es = fs ∧ e = f ∧ t = v := by
    intro fs f v hes hv
    obtain ⟨rfl,hf⟩ := List.append_inj' hes rfl
    cases hf
    exact ⟨rfl,rfl,Option.some.inj ((runs_iff_exec.mp hr).symm.trans (runs_iff_exec.mp hv))⟩
  constructor
  · generalize hes : es ++ [e] = fs
    intro h
    cases h with
    | begun hv hb _ =>
      obtain ⟨rfl,rfl,rfl⟩ := hsame hes hv
      exact Or.inl hb
    | kept hv hk _ =>
      obtain ⟨rfl,rfl,rfl⟩ := hsame hes hv.runs
      exact Or.inr ⟨hv,hk⟩
  · rintro (hb | ⟨hs,hk⟩)
    · exact .begun hr hb he
    · exact .kept hs hk he

/-- What each step of a run begins, ends or leaves alone holds exactly since it was begun. -/
theorem RunsWhen.since_iff {P : S → Prop} (h : RunsWhen step guard s es t) (h0 : ¬ P s)
    (hstep : ∀ {fs : List E} {t u : S} {e : E}, RunsWhen step guard s fs t → guard t e →
      step t e = some u → (P u ↔ begins t e ∨ P t ∧ ¬ ends t e)) :
    P t ↔ Since step begins ends s es t := by
  refine h.history (P := fun es t => P t ↔ Since step begins ends s es t) ?_ ?_
  · exact iff_of_false h0 not_since_nil
  · intro fs t u e hr ih hg he
    rw [hstep hr hg he,since_snoc_iff hr.runs he,ih]

end MiniDiscord.Transition
