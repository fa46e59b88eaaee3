import MiniDiscord.Hub.TimerTable

/-! # Grace timers and detachment

`handleVoiceDisconnect` decides in one section that the user is gone and records its
timer two router calls later. The record is right exactly as long as nothing
brought the user back in between, so the condition is on the section that records.
-/
namespace MiniDiscord.VoiceHub
open Transition
variable {cfg : Config}

/-- Timer `t` waits for a user in voice to come back to the session it will expire:
the registered connection, if any, has neither joined or resumed that session, nor
joined or resumed any since the timer was armed. -/
structure State.Awaits (s : State) (u : UserID) (t : TimerID) : Prop where
  user : (s.timers t).userID = u
  inVoice : u ∈ s.hub.userVoiceChannel
  session : s.hub.sfuSessionByUser.lookup u = some (s.timers t).sessionID
  detached : ∀ a, s.attached.lookup u = some a →
    (s.timers t).sessionID ∉ a.sessions ∧ a.timers ≤ t

/-- Every entry of `sfuGraceTimers` waits for its user, so a snapshot says `detached`
of users only who are. -/
structure GraceMatches (s : State) : Prop where
  entries : ∀ u t, s.hub.sfuGraceTimers.lookup u = some t → s.Awaits u t
  snapshots : ∀ u, (s.hub.resolveVoiceParticipant u).detached = true → ∃ t, s.Awaits u t

/-- The registered connection of `u` has come back, before or after timer `t` was armed. -/
def State.cameBack (s : State) (u : UserID) (t : TimerID) : Bool :=
  match s.attached.lookup u with
  | none => false
  | some a => decide ((s.timers t).sessionID ∈ a.sessions) || decide (t < a.timers)

/-- When `handleVoiceDisconnect` records its timer, the session it read is still the
user's, and the user has not come back to it. -/
def RecordsAbsent (s : State) : Event → Prop
  | .advance t =>
    match s.threads t with
    | .storeTimer u timer =>
      s.hub.sfuSessionByUser.lookup u = some (s.timers timer).sessionID ∧ s.cameBack u timer = false
    | _ => True
  | _ => True

instance (s : State) (e : Event) : Decidable (RecordsAbsent s e) := by
  unfold RecordsAbsent
  cases e with
  | advance t =>
    dsimp only
    split <;> infer_instance
  | _ => infer_instance

theorem State.cameBack_eq_false {s : State} {u : UserID} {t : TimerID} :
    s.cameBack u t = false ↔ ∀ a, s.attached.lookup u = some a →
      (s.timers t).sessionID ∉ a.sessions ∧ a.timers ≤ t := by
  unfold State.cameBack
  cases s.attached.lookup u with
  | none => simp
  | some a => simp

/-- What `Awaits` reads of the user and the timer has not changed, or only for less. -/
theorem State.Awaits.congr {s s' : State} {u : UserID} {t : TimerID} (h : s.Awaits u t)
    (hcall : (s'.timers t).userID = (s.timers t).userID ∧
      (s'.timers t).sessionID = (s.timers t).sessionID)
    (hvoice : s'.hub.userVoiceChannel.lookup u = s.hub.userVoiceChannel.lookup u)
    (hsession : s'.hub.sfuSessionByUser.lookup u = s.hub.sfuSessionByUser.lookup u)
    (hattached : ∀ a, s'.attached.lookup u = some a → s.attached.lookup u = some a) :
    s'.Awaits u t where
  user := hcall.1.trans h.user
  inVoice := by
    rw [Finmap.mem_iff,hvoice]
    exact Finmap.mem_iff.mp h.inVoice
  session := by rw [hsession,hcall.2,h.session]
  detached a ha := by
    rw [hcall.2]
    exact h.detached a (hattached a ha)

theorem State.attach_other {s : State} {cl : ClientID} {u v : UserID} {sid : SessionID} (hv : v ≠ u) :
    (s.attach cl u sid).lookup v = s.attached.lookup v := by
  unfold State.attach
  split
  · rw [GoMap.lookup_insert_eq,if_neg hv]
  · rfl

/-- Recorded timers wait for their users. -/
def EntriesAwait (s : State) : Prop :=
  ∀ u t, s.hub.sfuGraceTimers.lookup u = some t → s.Awaits u t

/-- The entries, and what `Awaits` reads, have not changed. -/
theorem EntriesAwait.same {s s' : State} (h : EntriesAwait s) (hcalls : SameCalls s.timers s'.timers)
    (hentries : s'.hub.sfuGraceTimers = s.hub.sfuGraceTimers := by rfl)
    (hvoice : s'.hub.userVoiceChannel = s.hub.userVoiceChannel := by rfl)
    (hsession : s'.hub.sfuSessionByUser = s.hub.sfuSessionByUser := by rfl)
    (hattached : s'.attached = s.attached := by rfl) : EntriesAwait s' := by
  intro u t ht
  rw [hentries] at ht
  apply (h u t ht).congr (hcalls t)
  · rw [hvoice]
  · rw [hsession]
  · intro a ha
    rwa [hattached] at ha

theorem EntriesAwait.setHubClients {s : State} (h : EntriesAwait s) (o : Outer) (u : UserID)
    (m : GoMap UserID ClientID) (f : State → State)
    (hf : ∀ s, (f s).hub = s.hub ∧ (f s).timers = s.timers ∧ (f s).attached = s.attached) :
    EntriesAwait (f ((s.withOuter o).setHubClients u { s.hub with clientsByUser := m })) := by
  obtain ⟨hhub,htimers,hattached⟩ := hf ((s.withOuter o).setHubClients u { s.hub with clientsByUser := m })
  intro v t ht
  rw [hhub] at ht
  refine (h v t ht).congr ?_ ?_ ?_ ?_
  · rw [htimers]
    exact ⟨rfl,rfl⟩
  · rw [hhub]
    rfl
  · rw [hhub]
    rfl
  · intro a ha
    rw [hattached] at ha
    exact (GoMap.lookup_of_erase ha).2

theorem step_entriesAwait {s s' : State} {e : Event} (hc : Consistent s) (h : EntriesAwait s)
    (hg : RecordsAbsent s e) (he : step cfg s e = some s') : EntriesAwait s' := by
  cases step_view he with
  | quiet o => exact h.same (.refl _)
  | move o hm => exact h.same (.refl _)
  | sessionClosed o => exact h.same (.refl _)
  | resumeCommand o => exact h.same (.refl _)
  | changeStatus o =>
    exact h.same (.refl _) (Hub.changeVoiceStatus_timers _ _ _) (Hub.changeVoiceStatus_channel _ _ _)
      (Hub.changeVoiceStatus_sessions _ _ _)
  | @registered e u cl o => exact h.setHubClients o u _ id (fun _ => ⟨rfl,rfl,rfl⟩)
  | @evicted e u cl o =>
    exact h.setHubClients o u _ (fun s => s.spawn (.disconnect u false)) (fun _ => ⟨rfl,rfl,rfl⟩)
  | @unregistered e u graceful o hi =>
    exact h.setHubClients o u _ (fun s => s.setThread .run (.disconnect u graceful))
      (fun _ => ⟨rfl,rfl,rfl⟩)
  | @fire x hx hs => exact h.same (sameCalls_fire s x)
  | routerJoin o hr hf => exact h.same (.refl _)
  | @leave x u k c hx hu =>
    intro v t ht
    obtain ⟨hv,ht⟩ := GoMap.lookup_of_erase ht
    exact (h v t ht).congr (sameCalls_stopTimer _ _ t) (Hub.leaveLocked_other c hv).1
      (Hub.leaveLocked_other c hv).2 (fun _ h => h)
  | @joinLocked x cl u c sid hx =>
    intro v t ht
    have hv : v ≠ u := by
      rintro rfl
      exact Finmap.lookup_eq_none.mp (hc.joins.absent x v (by rw [hx]; rfl)) (h v t ht).inVoice
    refine (h v t ht).congr ⟨rfl,rfl⟩ (Hub.joinLocked_other c sid s.now hv).1
      (Hub.joinLocked_other c sid s.now hv).2 (fun a ha => ?_)
    exact (State.attach_other hv).symm.trans ha
  | @armTimer x u sid hx =>
    intro v t ht
    have hne : t ≠ s.nextTimer := (hc.timers.entry v t ht).1.ne
    refine (h v t ht).congr ?_ rfl rfl (fun _ h => h)
    simp [State.armTimer, State.setThread, hne]
  | @storeTimer x u timer hx =>
    simp only [RecordsAbsent, hx] at hg
    obtain ⟨hs,hb⟩ := hg
    intro v t ht
    have ht' : (s.hub.sfuGraceTimers.insert u timer).lookup v = some t := ht
    rw [GoMap.lookup_insert_eq] at ht'
    split at ht'
    · rename_i hv
      subst hv
      cases ht'
      have hnew : s.Awaits v timer :=
        ⟨(hc.timers.pending x v timer hx).2,Finmap.mem_iff.mpr (hc.maps.channel_of_session hs),hs,
          State.cameBack_eq_false.mp hb⟩
      exact hnew.congr (sameCalls_stopTimer _ _ timer) rfl rfl (fun _ h => h)
    · exact (h v t ht').congr (sameCalls_stopTimer _ _ t) rfl rfl (fun _ h => h)
  | @expire x u sid timer hx =>
    intro v t ht
    exact (h v t (GoMap.lookup_of_erase ht).2).congr ⟨rfl,rfl⟩ rfl rfl (fun _ h => h)
  | @cancelTimer x cl u sid hx =>
    intro v t ht
    obtain ⟨hv,ht⟩ := GoMap.lookup_of_erase ht
    refine (h v t ht).congr (sameCalls_stopTimer _ _ t) rfl rfl (fun a ha => ?_)
    exact (State.attach_other hv).symm.trans ha

theorem GraceMatches.of_entriesAwait {s : State} (h : EntriesAwait s) : GraceMatches s where
  entries := h
  snapshots u hd := by
    obtain ⟨t,ht⟩ := Option.isSome_iff_exists.mp hd
    exact ⟨t,h u t ht⟩

/-- A timer recorded for a user who came back, or for a session the user no longer
has, is wrong at once. -/
theorem not_graceMatches_of_stored {s s' : State} {e : Event} (he : step cfg s e = some s')
    (hg : ¬ RecordsAbsent s e) : ¬ GraceMatches s' := by
  cases e with
  | advance t =>
    cases hp : s.threads t with
    | storeTimer u timer =>
      have hs' : s' = s.storeTimer t u timer := by simpa [step, State.advance, hp] using he.symm
      subst hs'
      intro hm
      have hentry : (s.storeTimer t u timer).hub.sfuGraceTimers.lookup u = some timer :=
        (GoMap.lookup_insert_eq _ _ _ _).trans (if_pos rfl)
      have ha := hm.entries u timer hentry
      have hcall := (sameCalls_stopTimer s.timers (s.hub.sfuGraceTimers.lookup u) timer).2
      apply hg
      simp only [RecordsAbsent, hp]
      constructor
      · rw [← hcall]
        exact ha.session
      · apply State.cameBack_eq_false.mpr
        rw [← hcall]
        exact ha.detached
    | _ => exact absurd (by simp [RecordsAbsent, hp]) hg
  | _ => exact absurd trivial hg

/-- Grace timers match detachment in every run that records them for absent users
only; the first step that records one for a user who is back ends that. -/
theorem grace_timers_match {es : List Event} {s : State}
    (h : RunsWhen (step cfg) RecordsAbsent init es s) :
    GraceMatches s ∧
      ∀ e s', step cfg s e = some s' → ¬ RecordsAbsent s e → ¬ GraceMatches s' := by
  constructor
  · apply GraceMatches.of_entriesAwait
    apply h.invariant_of (Q := Consistent) (P := EntriesAwait) consistent_init
    · intro u t ht
      cases ht
    · exact fun hc _ he => step_consistent hc he
    · exact step_entriesAwait
  · exact fun e s' he hg => not_graceMatches_of_stored he hg

/-- User 1 joins channel 7. -/
def joinSeven : List Event :=
  [.register 1, .send 0 (.joinVoiceChannel 7), .command true, .advance .run,
   .routerJoin (some "a"), .advance .run]

/-- The connection of user 1 drops, and `Run` records a grace timer. -/
def dropped : List Event :=
  joinSeven ++ [.readError 0 false, .unregister 0, .advance .run, .advance .run, .advance .run,
    .advance .run]

theorem grace_timers_match_dropped : ∃ s, Runs (step ⟨30,15⟩) init dropped s ∧
    s.hub.sfuGraceTimers.lookup 1 = some 0 ∧ GraceMatches s := by
  obtain ⟨s,hrun,hs⟩ := exists_runsWhen_of_exec (step ⟨30,15⟩) RecordsAbsent init dropped
    (fun s => s.hub.sfuGraceTimers.lookup 1) (some 0) (by decide)
  exact ⟨s,hrun.runs,hs,(grace_timers_match hrun).1⟩

/-- A second connection evicts the first and leaves voice while the goroutine of the
evicted one is between reading the session and recording its timer. -/
def leftMeanwhile : List Event :=
  joinSeven ++ [.register 1, .advance (.go 0), .send 1 .leaveVoiceChannel, .command true,
    .advance .run, .advance .run, .advance (.go 0), .advance (.go 0), .advance (.go 0)]

theorem timer_outlives_voice : ¬ ∀ cfg es s, Runs (step cfg) init es s → GraceMatches s := by
  intro h
  obtain ⟨s,hrun,hs⟩ := exists_runs_of_exec (step ⟨30,15⟩) init leftMeanwhile
    (fun s => (s.hub.sfuGraceTimers.lookup 1,s.hub.userVoiceChannel.lookup 1)) (some 0,none)
    (by decide)
  simp only [Prod.mk.injEq] at hs
  have ha := (h _ _ _ hrun).entries 1 0 hs.1
  exact Finmap.lookup_eq_none.mp hs.2 ha.inVoice

end MiniDiscord.VoiceHub
