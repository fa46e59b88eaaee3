import MiniDiscord.Hub.TimerTable

/-! # A session is joined once

`Router.Join` makes a new session ID for every call, and the locked section that
follows it is the only one that maps a user to it. So a session whose join has
committed is never joined again: once it is not its user's session any more, it is
not that for good.
-/
namespace MiniDiscord.VoiceHub
open Transition
variable {cfg : Config}

/-- The router made the session, and no join of it is left to commit. -/
structure State.Joined (s : State) (sid : SessionID) : Prop where
  issued : sid ∈ s.issued
  committed : ∀ t cl u c, s.threads t ≠ .joinLocked cl u c sid

/-- The session that a `handleSfuResume` past its ownership check resumes. -/
def Proc.resumes : Proc → Option SessionID
  | .routerResume _ _ sid => some sid
  | .resumeAccess _ _ sid => some sid
  | .cancelTimer _ _ sid => some sid
  | _ => none

/-- Whatever session is in use had its join committed. -/
structure JoinedOnce (s : State) : Prop where
  mapped : ∀ u sid, s.hub.sfuSessionByUser.lookup u = some sid → s.Joined sid
  resuming : ∀ t sid, (s.threads t).resumes = some sid → s.Joined sid
  pending : ∀ t cl u c sid, s.threads t = .joinLocked cl u c sid → sid ∈ s.issued

theorem LocalMove.not_joinLocked {s : State} {t : ThreadID} {p p' : Proc}
    (h : LocalMove cfg s t p p') (cl : ClientID) (u : UserID) (c : ChannelID) (sid : SessionID) :
    p' ≠ .joinLocked cl u c sid := by
  intro hp
  cases h with
  | @leaveNone t v k hv => cases k <;> cases hp
  | @routerLeave t v sid' k => cases k <;> cases hp
  | _ => cases hp

theorem LocalMove.resumes {s : State} {t : ThreadID} {p p' : Proc} {sid : SessionID}
    (h : LocalMove cfg s t p p') (hp : p'.resumes = some sid) :
    p.resumes = some sid ∨ ∃ u, s.hub.sfuSessionByUser.lookup u = some sid := by
  cases h with
  | @leaveNone t v k hv => cases k <;> cases hp
  | @routerLeave t v sid' k => cases k <;> cases hp
  | owns ho =>
    cases hp
    exact Or.inr ⟨_,ho⟩
  | resumeFound => exact Or.inl hp
  | accessGranted => exact Or.inl hp
  | _ => cases hp

/-- A goroutine goes on that is not about to join. -/
theorem State.Joined.other {s s' : State} {t : ThreadID} {p : Proc} {sid : SessionID}
    (h : s.Joined sid) (hthreads : s'.threads = Function.update s.threads t p)
    (hissued : s'.issued = s.issued) (hp : ∀ cl u c, p ≠ .joinLocked cl u c sid) :
    s'.Joined sid := by
  constructor
  · rw [hissued]
    exact h.issued
  · exact forall_threads (P := fun _ p => ∀ cl u c, p ≠ .joinLocked cl u c sid) hthreads hp
      (fun t' _ => h.committed t')

/-- The IDs that `Router.Join` makes are new, so what was joined stays joined. -/
theorem step_joined {s s' : State} {e : Event} {sid : SessionID} (h : s.Joined sid)
    (he : step cfg s e = some s') : s'.Joined sid := by
  cases step_view he with
  | quiet o => exact ⟨h.issued,h.committed⟩
  | move o hm => exact h.other rfl rfl (fun cl u c => hm.not_joinLocked cl u c sid)
  | changeStatus o => exact ⟨h.issued,h.committed⟩
  | registered o => exact ⟨h.issued,h.committed⟩
  | routerJoin o hr hf =>
    constructor
    · exact Finmap.mem_insert.mpr (Or.inr h.issued)
    · apply forall_threads (P := fun _ p => ∀ cl u c, p ≠ .joinLocked cl u c sid) rfl
      · intro cl u c hp
        cases hp
        exact hf h.issued
      · exact fun t _ => h.committed t
  | @expire t u sid' timer ht =>
    refine h.other rfl rfl (fun cl v c hp => ?_)
    split at hp <;> cases hp
  | _ => exact h.other rfl rfl (fun _ _ _ => by simp)

/-- A goroutine goes on, and nobody gets a session. -/
theorem JoinedOnce.update {s s' : State} {t : ThreadID} {p : Proc} (h : JoinedOnce s)
    (hthreads : s'.threads = Function.update s.threads t p)
    (hjoined : ∀ sid, s.Joined sid → s'.Joined sid)
    (hissued : ∀ sid, sid ∈ s.issued → sid ∈ s'.issued)
    (hmapped : ∀ u sid, s'.hub.sfuSessionByUser.lookup u = some sid →
      s.hub.sfuSessionByUser.lookup u = some sid)
    (hresumes : ∀ sid, p.resumes = some sid → s.Joined sid)
    (hp : ∀ cl u c sid, p = .joinLocked cl u c sid → sid ∈ s'.issued) : JoinedOnce s' := by
  constructor
  · exact fun u sid hu => hjoined sid (h.mapped u sid (hmapped u sid hu))
  · exact forall_threads (P := fun _ p => ∀ sid, p.resumes = some sid → s'.Joined sid) hthreads
      (fun sid hr => hjoined sid (hresumes sid hr))
      (fun t' _ sid hr => hjoined sid (h.resuming t' sid hr))
  · exact forall_threads (P := fun _ p => ∀ cl u c sid, p = .joinLocked cl u c sid → sid ∈ s'.issued)
      hthreads hp (fun t' _ cl u c sid ht => hissued sid (h.pending t' cl u c sid ht))

/-- No goroutine goes on, and nobody gets a session. -/
theorem JoinedOnce.same {s s' : State} (h : JoinedOnce s) (hthreads : s'.threads = s.threads)
    (hjoined : ∀ sid, s.Joined sid → s'.Joined sid)
    (hissued : ∀ sid, sid ∈ s.issued → sid ∈ s'.issued)
    (hmapped : s'.hub.sfuSessionByUser = s.hub.sfuSessionByUser) : JoinedOnce s' := by
  apply h.update (t := .run) (hthreads.trans (Function.update_eq_self _ _).symm) hjoined hissued
  · intro u sid hu
    rwa [hmapped] at hu
  · exact h.resuming .run
  · exact fun cl u c sid hp => hissued sid (h.pending .run cl u c sid hp)

theorem step_joinedOnce {s s' : State} {e : Event} (hj : JoinsSerial s) (h : JoinedOnce s)
    (he : step cfg s e = some s') : JoinedOnce s' := by
  have hkept : ∀ sid, s.Joined sid → s'.Joined sid := fun sid hs => step_joined hs he
  cases step_view he with
  | quiet o => exact h.same rfl hkept (fun _ hs => hs) rfl
  | @move e t p o hm =>
    apply h.update rfl hkept (fun _ hs => hs) (fun _ _ hu => hu)
    · intro sid hr
      rcases hm.resumes hr with hr | ⟨u,hu⟩
      · exact h.resuming t sid hr
      · exact h.mapped u sid hu
    · exact fun cl u c sid hp => absurd hp (hm.not_joinLocked cl u c sid)
  | changeStatus o => exact h.same rfl hkept (fun _ hs => hs) (Hub.changeVoiceStatus_sessions _ _ _)
  | registered o => exact h.same rfl hkept (fun _ hs => hs) rfl
  | routerJoin o hr hf =>
    apply h.update rfl hkept (fun _ hs => Finmap.mem_insert.mpr (Or.inr hs)) (fun _ _ hu => hu)
    · intro sid hs
      cases hs
    · intro cl u c sid hp
      cases hp
      exact Finmap.mem_insert.mpr (Or.inl rfl)
  | leave ht hu =>
    apply h.update rfl hkept (fun _ hs => hs) (fun v sid hv => (GoMap.lookup_of_erase hv).2)
    · intro sid hs
      cases hs
    · intro cl v c sid hp
      cases hp
  | @joinLocked t cl u c sid ht =>
    -- no other goroutine is joining, so the join that commits is the only one of its session
    have hnew : (s.joinLocked t cl u c sid).Joined sid := by
      constructor
      · exact h.pending t cl u c sid ht
      · apply forall_threads (P := fun _ p => ∀ cl u c, p ≠ .joinLocked cl u c sid) rfl
        · exact fun _ _ _ => by simp
        · intro t' hne cl' u' c' ht'
          apply hne
          rw [hj.only_run t' (by rw [ht']; rfl),hj.only_run t (by rw [ht]; rfl)]
    constructor
    · intro v sid' hv
      have hv' : (s.hub.sfuSessionByUser.insert u sid).lookup v = some sid' := hv
      rw [GoMap.lookup_insert_eq] at hv'
      split at hv'
      · cases hv'
        exact hnew
      · exact hkept sid' (h.mapped v sid' hv')
    · exact forall_threads (P := fun _ p => ∀ sid', p.resumes = some sid' → State.Joined _ sid') rfl
        (fun _ hr => by cases hr) (fun t' _ sid' hr => hkept sid' (h.resuming t' sid' hr))
    · exact forall_threads (P := fun _ p => ∀ cl u c sid', p = .joinLocked cl u c sid' → sid' ∈ s.issued)
        rfl (fun _ _ _ _ hp => by cases hp) (fun t' _ => h.pending t')
  | @expire t u sid timer ht =>
    apply h.update rfl hkept (fun _ hs => hs) (fun _ _ hu => hu)
    · intro sid' hs
      split at hs <;> cases hs
    · intro cl v c sid' hp
      split at hp <;> cases hp
  | _ =>
    exact h.update rfl hkept (fun _ hs => hs) (fun _ _ hu => hu) (fun sid hs => by cases hs)
      (fun cl v c sid hp => by cases hp)

theorem joinedOnce_init : JoinedOnce init where
  mapped u sid h := by cases h
  resuming t sid h := by cases h
  pending t cl u c sid h := by cases h

end MiniDiscord.VoiceHub
