import Mathlib.Algebra.Order.Group.Int
import Mathlib.Data.List.Basic
import Mathlib.Data.List.Induction
import Mathlib.Tactic.Common

/-! # The connection quality that is shown

A worse sample is shown at once, a better one has to wait for its confirmation.
-/
namespace MiniDiscord.ConnectionQuality

inductive MeasuredLevel
  | good
  | medium
  | bad
deriving DecidableEq

/-- A measured level, or one that the state of the connection tells. -/
inductive QualityLevel
  | measured (level : MeasuredLevel)
  | connecting
  | disconnected
deriving DecidableEq

def rankOf : QualityLevel → ℤ
  | .measured .good => 0
  | .measured .medium => 1
  | .measured .bad => 2
  | .connecting => -1
  | .disconnected => -1

structure QualityTracker where
  level : QualityLevel
  pendingLevel : Option MeasuredLevel
  pendingCount : ℕ
deriving DecidableEq

def createQualityTracker : QualityTracker := ⟨.connecting,none,0⟩

def recoverySamples : ℕ := 2

/-- The tracker after a sample, and the level that is shown. -/
def applyHysteresis (tracker : QualityTracker) (candidate : QualityLevel) :
    QualityTracker × QualityLevel :=
  match candidate with
  | .connecting => (⟨.connecting,none,0⟩,.connecting)
  | .disconnected => (⟨.disconnected,none,0⟩,.disconnected)
  | .measured measured =>
    if tracker.level = .connecting ∨ tracker.level = .disconnected ∨
        rankOf tracker.level ≤ rankOf (.measured measured) then
      (⟨.measured measured,none,0⟩,.measured measured)
    else
      let pendingCount :=
        if tracker.pendingLevel = some measured then tracker.pendingCount + 1 else 1
      if recoverySamples ≤ pendingCount then
        (⟨.measured measured,none,0⟩,.measured measured)
      else (⟨tracker.level,some measured,pendingCount⟩,tracker.level)

def trackerAfter (calls : List QualityLevel) : QualityTracker :=
  calls.foldl (fun tracker candidate => (applyHysteresis tracker candidate).1)
    createQualityTracker

/-- The level that is shown after some calls. -/
def shown (calls : List QualityLevel) : QualityLevel := (trackerAfter calls).level

theorem applyHysteresis_shown (tracker : QualityTracker) (candidate : QualityLevel) :
    (applyHysteresis tracker candidate).2 = (applyHysteresis tracker candidate).1.level := by
  cases candidate with
  | connecting => rfl
  | disconnected => rfl
  | measured level =>
    simp only [applyHysteresis]
    split
    · rfl
    · split <;> split <;> rfl

theorem trackerAfter_concat (calls : List QualityLevel) (candidate : QualityLevel) :
    trackerAfter (calls ++ [candidate]) =
      (applyHysteresis (trackerAfter calls) candidate).1 := by
  rw [trackerAfter,List.foldl_append]
  rfl

theorem rankOf_measured (level : MeasuredLevel) : 0 ≤ rankOf (.measured level) := by
  cases level <;> decide

/-! ## What a call does -/

/-- A pending level has been seen once. -/
def Counted (tracker : QualityTracker) : Prop :=
  tracker.pendingLevel = none ∧ tracker.pendingCount = 0 ∨
    tracker.pendingLevel ≠ none ∧ tracker.pendingCount = 1

/-- A call shows a level at once, or confirms the pending one, or waits for a confirmation. -/
inductive Does (tracker : QualityTracker) : QualityLevel → QualityTracker → Prop
  | service (candidate : QualityLevel) : rankOf candidate = -1 →
      Does tracker candidate ⟨candidate,none,0⟩
  | atOnce (level : MeasuredLevel) : rankOf tracker.level ≤ rankOf (.measured level) →
      Does tracker (.measured level) ⟨.measured level,none,0⟩
  | confirmed (level : MeasuredLevel) : rankOf (.measured level) < rankOf tracker.level →
      tracker.pendingLevel = some level → Does tracker (.measured level) ⟨.measured level,none,0⟩
  | waits (level : MeasuredLevel) : rankOf (.measured level) < rankOf tracker.level →
      tracker.pendingLevel ≠ some level →
      Does tracker (.measured level) ⟨tracker.level,some level,1⟩

theorem does_of_apply {tracker : QualityTracker} (h : Counted tracker)
    (candidate : QualityLevel) :
    Does tracker candidate (applyHysteresis tracker candidate).1 := by
  cases candidate with
  | connecting => exact .service _ rfl
  | disconnected => exact .service _ rfl
  | measured level =>
    have hrank := rankOf_measured level
    simp only [applyHysteresis]
    split
    · rename_i hfirst
      refine .atOnce level ?_
      rcases hfirst with hlevel | hlevel | hle
      · rw [hlevel]
        exact le_trans (by decide) hrank
      · rw [hlevel]
        exact le_trans (by decide) hrank
      · exact hle
    · rename_i hfirst
      have hlt : rankOf (.measured level) < rankOf tracker.level :=
        lt_of_not_ge fun hle => hfirst (Or.inr (Or.inr hle))
      by_cases hpending : tracker.pendingLevel = some level
      · have hcount : tracker.pendingCount = 1 := by
          rcases h with ⟨hnone,-⟩ | ⟨-,hone⟩
          · rw [hnone] at hpending
            cases hpending
          · exact hone
        simp only [if_pos hpending,hcount,recoverySamples,le_refl,if_true]
        exact .confirmed level hlt hpending
      · simp only [if_neg hpending,recoverySamples]
        exact .waits level hlt hpending

theorem Does.counted {tracker tracker' : QualityTracker} {candidate : QualityLevel}
    (h : Does tracker candidate tracker') : Counted tracker' := by
  cases h with
  | service candidate _ => exact Or.inl ⟨rfl,rfl⟩
  | atOnce level _ => exact Or.inl ⟨rfl,rfl⟩
  | confirmed level _ _ => exact Or.inl ⟨rfl,rfl⟩
  | waits level _ _ => exact Or.inr ⟨by simp,rfl⟩

theorem counted_trackerAfter (calls : List QualityLevel) : Counted (trackerAfter calls) := by
  induction calls using List.reverseRecOn with
  | nil => exact Or.inl ⟨rfl,rfl⟩
  | append_singleton calls candidate ih =>
    rw [trackerAfter_concat]
    exact (does_of_apply ih candidate).counted

/-- The last call after any others. -/
theorem does_last (calls : List QualityLevel) (candidate : QualityLevel) :
    Does (trackerAfter calls) candidate (trackerAfter (calls ++ [candidate])) := by
  rw [trackerAfter_concat]
  exact does_of_apply (counted_trackerAfter calls) candidate

/-- A pending level is the last sample, and was better than what is still shown. -/
theorem last_of_pending {calls : List QualityLevel} {level : MeasuredLevel}
    (h : (trackerAfter calls).pendingLevel = some level) :
    ∃ before, calls = before ++ [.measured level] ∧ shown before = shown calls ∧
      rankOf (.measured level) < rankOf (shown before) := by
  induction calls using List.reverseRecOn with
  | nil => cases h
  | append_singleton before candidate _ =>
    have hdoes := does_last before candidate
    rw [shown]
    generalize trackerAfter (before ++ [candidate]) = tracker' at hdoes h
    cases hdoes with
    | service candidate _ => cases h
    | atOnce level' _ => cases h
    | confirmed level' _ _ => cases h
    | waits level' hlt _ =>
      cases h
      exact ⟨before,rfl,rfl,hlt⟩

/-! ## What is asked of the shown levels -/

/-- Samples that are each better than what is shown when they come. -/
def Better (calls : List QualityLevel) : List QualityLevel → Prop
  | [] => True
  | candidate :: rest =>
    0 ≤ rankOf candidate ∧ rankOf candidate < rankOf (shown calls) ∧
      Better (calls ++ [candidate]) rest

structure Hysteresis (calls : List QualityLevel) : Prop where
  recovers : ∀ before window after, calls = before ++ window ++ after →
    window.length = recoverySamples → Better before window →
    rankOf (shown (before ++ window)) < rankOf (shown before)
  worsens : ∀ before candidate after, calls = before ++ candidate :: after →
    rankOf (shown before) < rankOf candidate → shown (before ++ [candidate]) = candidate
  bounded : ∀ before candidate after, calls = before ++ candidate :: after →
    0 ≤ rankOf (shown (before ++ [candidate])) →
    rankOf (shown (before ++ [candidate])) < rankOf (shown before) →
    ∃ earlier window, before ++ [candidate] = earlier ++ window ∧
      window.length = recoverySamples ∧ Better earlier window ∧
      ∀ sample ∈ window, rankOf sample ≤ rankOf (shown (before ++ [candidate]))

/-- A better sample comes that differs from the better one before it. -/
def Mixed (tracker : QualityTracker) (candidate : QualityLevel) : Prop :=
  ∃ pending level, tracker.pendingLevel = some pending ∧ candidate = .measured level ∧
    level ≠ pending ∧ rankOf (.measured level) < rankOf tracker.level

theorem worse_at_once {calls : List QualityLevel} {candidate : QualityLevel}
    (h : rankOf (shown calls) < rankOf candidate) : shown (calls ++ [candidate]) = candidate := by
  have hdoes := does_last calls candidate
  rw [shown] at h ⊢
  generalize trackerAfter (calls ++ [candidate]) = tracker' at hdoes ⊢
  cases hdoes with
  | service candidate _ => rfl
  | atOnce level _ => rfl
  | confirmed level _ _ => rfl
  | waits level hlt _ => omega

theorem improvement_confirmed {calls : List QualityLevel} {candidate : QualityLevel}
    (hmeasured : 0 ≤ rankOf (shown (calls ++ [candidate])))
    (h : rankOf (shown (calls ++ [candidate])) < rankOf (shown calls)) :
    ∃ level, candidate = .measured level ∧ shown (calls ++ [candidate]) = candidate ∧
      (trackerAfter calls).pendingLevel = some level ∧
      rankOf candidate < rankOf (shown calls) := by
  have hdoes := does_last calls candidate
  rw [shown] at hmeasured h
  rw [shown,shown]
  rw [shown] at h
  generalize trackerAfter (calls ++ [candidate]) = tracker' at hdoes hmeasured h ⊢
  cases hdoes with
  | service candidate hservice =>
    change 0 ≤ rankOf candidate at hmeasured
    omega
  | atOnce level hle =>
    change rankOf (.measured level) < _ at h
    omega
  | confirmed level hlt hpending => exact ⟨level,rfl,rfl,hpending,hlt⟩
  | waits level _ _ => exact absurd h (lt_irrefl _)

theorem bounded_by_samples {calls : List QualityLevel} {candidate : QualityLevel}
    (hmeasured : 0 ≤ rankOf (shown (calls ++ [candidate])))
    (h : rankOf (shown (calls ++ [candidate])) < rankOf (shown calls)) :
    ∃ earlier window, calls ++ [candidate] = earlier ++ window ∧
      window.length = recoverySamples ∧ Better earlier window ∧
      ∀ sample ∈ window, rankOf sample ≤ rankOf (shown (calls ++ [candidate])) := by
  obtain ⟨level,rfl,hshown,hpending,hlt⟩ := improvement_confirmed hmeasured h
  obtain ⟨earlier,rfl,-,hearlier⟩ := last_of_pending hpending
  have hrank := rankOf_measured level
  refine ⟨earlier,[.measured level,.measured level],by simp,rfl,
    ⟨hrank,hearlier,hrank,hlt,trivial⟩,?_⟩
  intro sample hsample
  rw [hshown]
  have heq : sample = .measured level := by simpa using hsample
  rw [heq]

/-- A better sample is shown when it confirms the pending one, otherwise it becomes pending. -/
theorem better_sample {calls : List QualityLevel} {level : MeasuredLevel}
    (h : rankOf (.measured level) < rankOf (shown calls)) :
    shown (calls ++ [.measured level]) = .measured level ∨
      shown (calls ++ [.measured level]) = shown calls ∧
        (trackerAfter (calls ++ [.measured level])).pendingLevel = some level := by
  have hdoes := does_last calls (.measured level)
  rw [shown] at h ⊢
  rw [shown]
  generalize trackerAfter (calls ++ [.measured level]) = tracker' at hdoes ⊢
  cases hdoes with
  | service _ _ => exact Or.inl rfl
  | atOnce _ hle => exact absurd h (not_lt_of_ge hle)
  | confirmed _ _ _ => exact Or.inl rfl
  | waits _ _ _ => exact Or.inr ⟨rfl,rfl⟩

theorem shown_confirmed {calls : List QualityLevel} {level : MeasuredLevel}
    (h : (trackerAfter calls).pendingLevel = some level) :
    shown (calls ++ [.measured level]) = .measured level := by
  have hdoes := does_last calls (.measured level)
  rw [shown]
  generalize trackerAfter (calls ++ [.measured level]) = tracker' at hdoes ⊢
  cases hdoes with
  | service _ _ => rfl
  | atOnce _ _ => rfl
  | confirmed _ _ _ => rfl
  | waits _ _ hne => exact absurd h hne

theorem shown_mixed {calls : List QualityLevel} {candidate : QualityLevel}
    (h : Mixed (trackerAfter calls) candidate) : shown (calls ++ [candidate]) = shown calls := by
  obtain ⟨pending,level,hpending,rfl,hne,hlt⟩ := h
  have hdoes := does_last calls (.measured level)
  rw [shown,shown]
  generalize trackerAfter (calls ++ [.measured level]) = tracker' at hdoes ⊢
  cases hdoes with
  | service _ hservice =>
    have hrank := rankOf_measured level
    omega
  | atOnce _ hle => exact absurd hlt (not_lt_of_ge hle)
  | confirmed _ _ hsame =>
    rw [hpending] at hsame
    exact absurd (Option.some.inj hsame).symm hne
  | waits _ _ _ => rfl

theorem measured_of_rank {candidate : QualityLevel} (h : 0 ≤ rankOf candidate) :
    ∃ level, candidate = .measured level := by
  cases candidate with
  | measured level => exact ⟨level,rfl⟩
  | connecting => exact absurd h (by decide)
  | disconnected => exact absurd h (by decide)

/-- Two better samples improve what is shown unless they differ while the first is pending. -/
theorem recovers_unmixed {calls : List QualityLevel} {window : List QualityLevel}
    (hlen : window.length = recoverySamples) (h : Better calls window)
    (hunmixed : ∀ first second, window = [first,second] →
      ¬ Mixed (trackerAfter (calls ++ [first])) second) :
    rankOf (shown (calls ++ window)) < rankOf (shown calls) := by
  obtain ⟨first,second,rfl⟩ := List.length_eq_two.mp hlen
  obtain ⟨hfirst,hbetter,hsecond,hbetter',-⟩ := h
  obtain ⟨level,rfl⟩ := measured_of_rank hfirst
  obtain ⟨level',rfl⟩ := measured_of_rank hsecond
  have hsplit : calls ++ [.measured level,.measured level'] =
      calls ++ [.measured level] ++ [.measured level'] := by simp
  rw [hsplit]
  rcases better_sample hbetter with hraised | ⟨hkept,hpending⟩
  · rw [hraised] at hbetter'
    have hbetter'' : rankOf (.measured level') < rankOf (shown (calls ++ [.measured level])) := by
      rw [hraised]
      exact hbetter'
    rcases better_sample hbetter'' with hshown | ⟨hshown,-⟩
    · rw [hshown]
      exact hbetter'.trans hbetter
    · rw [hshown,hraised]
      exact hbetter
  · have hsame : level' = level := by
      by_contra hne
      exact hunmixed _ _ rfl ⟨level,level',hpending,rfl,hne,hbetter'⟩
    subst hsame
    rw [shown_confirmed hpending]
    exact hbetter

/-- The shown level behaves as asked exactly when no better sample differs from the pending
one. -/
theorem hysteresis_iff_unmixed (calls : List QualityLevel) :
    Hysteresis calls ↔ ∀ before candidate after, calls = before ++ candidate :: after →
      ¬ Mixed (trackerAfter before) candidate := by
  constructor
  · rintro h before candidate after rfl hmixed
    have hkept := shown_mixed hmixed
    obtain ⟨pending,level,hpending,rfl,-,hlt⟩ := hmixed
    obtain ⟨earlier,rfl,hearlier,hbetter⟩ := last_of_pending hpending
    have hwindow : Better earlier [.measured pending,.measured level] :=
      ⟨rankOf_measured pending,hbetter,rankOf_measured level,hlt,trivial⟩
    have himproved := h.recovers earlier [.measured pending,.measured level] after (by simp) rfl
      hwindow
    have hsplit : earlier ++ [.measured pending,.measured level] =
        earlier ++ [.measured pending] ++ [.measured level] := by simp
    rw [hsplit,hkept,hearlier] at himproved
    exact lt_irrefl _ himproved
  · intro hunmixed
    refine ⟨?_,?_,?_⟩
    · intro before window after heq hlen hbetter
      apply recovers_unmixed hlen hbetter
      rintro first second rfl
      exact hunmixed (before ++ [first]) second after (by rw [heq]; simp)
    · intro before candidate after _ hworse
      exact worse_at_once hworse
    · intro before candidate after _ hmeasured himproved
      exact bounded_by_samples hmeasured himproved

/-- While a bad connection is shown a good and then a medium sample come: it stays bad. -/
theorem good_then_medium_stays_bad : ¬ ∀ calls, Hysteresis calls := by
  intro h
  have hrecovers := (h [.measured .bad,.measured .good,.measured .medium]).recovers
    [.measured .bad] [.measured .good,.measured .medium] [] rfl rfl
    ⟨by decide,by decide,by decide,by decide,trivial⟩
  exact absurd hrecovers (by decide)

end MiniDiscord.ConnectionQuality
