import Mathlib.Logic.Basic

/-! # Finite runs of a partial labelled transition function

A system is a function `step : S → E → Option S`: an event either is disabled or
names the successor. Interleavings are lists of events, so a statement about
every list of events is a statement about every schedule. A run may be taken
under a guard on the state before each step; the unguarded run is the special
case of the trivial guard.
-/
namespace MiniDiscord.Transition
variable {S E : Type*}

/-- `RunsWhen step guard s es t`: the events `es` lead from `s` to `t`, and each of
them is taken in a state in which the guard allows it. -/
inductive RunsWhen (step : S → E → Option S) (guard : S → E → Prop) : S → List E → S → Prop
  | refl (s : S) : RunsWhen step guard s [] s
  | step {s t u : S} {e : E} {es : List E} :
      guard s e → step s e = some t → RunsWhen step guard t es u → RunsWhen step guard s (e :: es) u

/-- An interleaving without any assumption on its steps. -/
abbrev Runs (step : S → E → Option S) : S → List E → S → Prop := RunsWhen step (fun _ _ => True)

/-- Deterministic execution of a schedule; `none` when some event was disabled. -/
def exec (step : S → E → Option S) : S → List E → Option S
  | s, [] => some s
  | s, e :: es => (step s e).bind (fun t => exec step t es)

variable {step : S → E → Option S} {guard : S → E → Prop}

theorem RunsWhen.append {s t u : S} {es fs : List E}
    (h : RunsWhen step guard s es t) (h' : RunsWhen step guard t fs u) :
    RunsWhen step guard s (es ++ fs) u := by
  induction h with
  | refl => exact h'
  | step hg he _ ih => exact RunsWhen.step hg he (ih h')

theorem RunsWhen.weaken {guard' : S → E → Prop} {s t : S} {es : List E}
    (h : RunsWhen step guard s es t) (hw : ∀ s e, guard s e → guard' s e) :
    RunsWhen step guard' s es t := by
  induction h with
  | refl => exact RunsWhen.refl _
  | step hg he _ ih => exact RunsWhen.step (hw _ _ hg) he ih

theorem RunsWhen.runs {s t : S} {es : List E} (h : RunsWhen step guard s es t) : Runs step s es t :=
  h.weaken (fun _ _ _ => trivial)

/-- Events the guard never forbids can be run under it. -/
theorem RunsWhen.guarded {s t : S} {es : List E} (h : Runs step s es t)
    (hg : ∀ e ∈ es, ∀ s, guard s e) : RunsWhen step guard s es t := by
  induction h with
  | refl => exact RunsWhen.refl _
  | step _ he _ ih =>
    exact RunsWhen.step (hg _ List.mem_cons_self _) he
      (ih (fun e hm => hg e (List.mem_cons_of_mem _ hm)))

theorem Runs.cons {s t u : S} {e : E} {es : List E} (he : step s e = some t)
    (h : Runs step t es u) : Runs step s (e :: es) u := RunsWhen.step trivial he h

theorem Runs.single {s t : S} {e : E} (he : step s e = some t) : Runs step s [e] t :=
  Runs.cons he (RunsWhen.refl t)

theorem runs_iff_exec {s t : S} {es : List E} : Runs step s es t ↔ exec step s es = some t := by
  constructor
  · intro h
    induction h with
    | refl => rfl
    | step _ he _ ih => simpa only [exec, he, Option.bind_some] using ih
  · intro h
    induction es generalizing s with
    | nil =>
      cases h
      exact RunsWhen.refl _
    | cons e es ih =>
      obtain ⟨u,hu,hr⟩ := Option.bind_eq_some_iff.mp h
      exact Runs.cons hu (ih hr)

theorem exec_append (step : S → E → Option S) (s : S) (es fs : List E) :
    exec step s (es ++ fs) = (exec step s es).bind (fun t => exec step t fs) := by
  induction es generalizing s with
  | nil => rfl
  | cons e es ih =>
    rw [List.cons_append,exec,exec,Option.bind_assoc]
    exact congrArg _ (funext ih)

/-- A schedule whose outcome was computed is a run with that outcome. -/
theorem exists_runs_of_exec {B : Type*} (step : S → E → Option S) (s : S) (es : List E)
    (f : S → B) (b : B) (h : (exec step s es).map f = some b) :
    ∃ t, Runs step s es t ∧ f t = b := by
  obtain ⟨t,ht,hf⟩ := Option.map_eq_some_iff.mp h
  exact ⟨t,runs_iff_exec.mpr ht,hf⟩

/-- The same for a guard that can be tested. -/
theorem runsWhen_of_exec {step : S → E → Option S} {guard : S → E → Prop}
    [∀ s e, Decidable (guard s e)] {s t : S} {es : List E}
    (h : exec (fun s e => if guard s e then step s e else none) s es = some t) :
    RunsWhen step guard s es t := by
  induction es generalizing s with
  | nil =>
    cases h
    exact RunsWhen.refl _
  | cons e es ih =>
    obtain ⟨u,hu,hr⟩ := Option.bind_eq_some_iff.mp h
    by_cases hg : guard s e
    · exact RunsWhen.step hg (by simpa only [if_pos hg] using hu) (ih hr)
    · simp only [if_neg hg] at hu
      cases hu

theorem exists_runsWhen_of_exec {B : Type*} (step : S → E → Option S) (guard : S → E → Prop)
    [∀ s e, Decidable (guard s e)] (s : S) (es : List E) (f : S → B) (b : B)
    (h : (exec (fun s e => if guard s e then step s e else none) s es).map f = some b) :
    ∃ t, RunsWhen step guard s es t ∧ f t = b := by
  obtain ⟨t,ht,hf⟩ := Option.map_eq_some_iff.mp h
  exact ⟨t,runsWhen_of_exec ht,hf⟩

/-- The state a schedule leads to; the first one when some event was disabled. -/
def after (step : S → E → Option S) (s : S) (es : List E) : S := (exec step s es).getD s

theorem runs_after {s : S} {es : List E} (h : (exec step s es).isSome = true) :
    Runs step s es (after step s es) := by
  obtain ⟨t,ht⟩ := Option.isSome_iff_exists.mp h
  rw [runs_iff_exec,after,ht]
  rfl

theorem runsWhen_after [∀ s e, Decidable (guard s e)] {s : S} {es : List E}
    (h : (exec (fun s e => if guard s e then step s e else none) s es).isSome = true) :
    RunsWhen step guard s es (after step s es) := by
  obtain ⟨t,ht⟩ := Option.isSome_iff_exists.mp h
  have hr := runsWhen_of_exec ht
  rw [after,runs_iff_exec.mp hr.runs]
  exact hr

theorem step_after {s : S} {e : E} (h : (exec step s [e]).isSome = true) :
    step s e = some (after step s [e]) := by
  cases runs_after h with
  | step _ he hr =>
    cases hr
    exact he

/-- The invariant rule: what holds at the start and is kept by every allowed step
holds at the end of every run. -/
theorem RunsWhen.invariant {P : S → Prop} {s t : S} {es : List E}
    (h : RunsWhen step guard s es t) (h0 : P s)
    (hstep : ∀ {s t : S} {e : E}, P s → guard s e → step s e = some t → P t) : P t := by
  induction h with
  | refl => exact h0
  | step hg he _ ih => exact ih (hstep h0 hg he)

/-- What every event of a run leaves alone, the run leaves alone. -/
theorem RunsWhen.frame {A : Type*} {f : S → A} {s t : S} {es : List E}
    (h : RunsWhen step guard s es t)
    (hstep : ∀ {s t : S} {e : E}, e ∈ es → step s e = some t → f t = f s) : f t = f s := by
  induction h with
  | refl => rfl
  | step _ he _ ih =>
    exact (ih (fun hm => hstep (List.mem_cons_of_mem _ hm))).trans
      (hstep List.mem_cons_self he)

/-- An invariant may be carried relative to one already known on every run. -/
theorem RunsWhen.invariant_of {P Q : S → Prop} {s t : S} {es : List E}
    (h : RunsWhen step guard s es t) (hQ0 : Q s) (h0 : P s)
    (hQ : ∀ {s t : S} {e : E}, Q s → guard s e → step s e = some t → Q t)
    (hstep : ∀ {s t : S} {e : E}, Q s → P s → guard s e → step s e = some t → P t) : P t :=
  (h.invariant (P := fun s => Q s ∧ P s) ⟨hQ0,h0⟩
    (fun hs hg he => ⟨hQ hs.1 hg he,hstep hs.1 hs.2 hg he⟩)).2

/-- The invariant rule for what the steps so far are part of: a run grows at its end. -/
theorem RunsWhen.history {P : List E → S → Prop} {s t : S} {es : List E}
    (h : RunsWhen step guard s es t) (h0 : P [] s)
    (hstep : ∀ {fs : List E} {t u : S} {e : E}, RunsWhen step guard s fs t → P fs t → guard t e →
      step t e = some u → P (fs ++ [e]) u) : P es t := by
  have hrest : ∀ {u : S} {gs : List E}, RunsWhen step guard u gs t → ∀ fs,
      RunsWhen step guard s fs u → P fs u → P (fs ++ gs) t := by
    intro u gs hu
    induction hu with
    | refl =>
      intro fs _ hP
      rwa [List.append_nil]
    | step hg he _ ih =>
      intro fs hr hP
      have hnext := ih h (fs ++ [_]) (hr.append (.step hg he (.refl _))) (hstep hr hP hg he)
      rwa [List.append_assoc] at hnext
  exact hrest h [] (.refl s) h0

/-- The rule for an exact guard: where each step is allowed if and only if it keeps `Q`,
the allowed runs are those along which `Q` holds. -/
theorem RunsWhen.iff_along {I Q : S → Prop} {s t : S} {es : List E} (h : Runs step s es t)
    (hI : I s) (hQ : Q s) (hinv : ∀ {s t : S} {e : E}, I s → step s e = some t → I t)
    (hstep : ∀ {s t : S} {e : E}, I s → Q s → step s e = some t → (guard s e ↔ Q t)) :
    RunsWhen step guard s es t ↔
      ∀ fs gs u, es = fs ++ gs → Runs step s fs u → Q u := by
  constructor
  · intro hr fs
    induction hr generalizing fs with
    | refl s =>
      intro gs u hes hu
      cases fs with
      | nil =>
        cases hu
        exact hQ
      | cons => cases hes
    | @step s t u e es hg he _ ih =>
      intro gs v hes hv
      cases fs with
      | nil =>
        cases hv
        exact hQ
      | cons f fs =>
        obtain ⟨rfl,rfl⟩ := List.cons.inj hes
        cases hv with
        | step _ he' hv =>
          rw [he] at he'
          cases he'
          cases h with
          | step _ he' h =>
            rw [he] at he'
            cases he'
            exact ih h (hinv hI he) ((hstep hI hQ he).mp hg) fs gs v rfl hv
  · intro hall
    induction h with
    | refl => exact RunsWhen.refl _
    | @step s t u e es _ he h ih =>
      have hq : Q t := hall [e] es t rfl (Runs.single he)
      refine RunsWhen.step ((hstep hI hQ he).mpr hq) he (ih (hinv hI he) hq ?_)
      intro fs gs v hes hv
      exact hall (e :: fs) gs v (congrArg (e :: ·) hes) (Runs.cons he hv)

end MiniDiscord.Transition
