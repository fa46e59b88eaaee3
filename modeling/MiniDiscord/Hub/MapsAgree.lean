import MiniDiscord.Hub.StepView

/-! # The voice maps agree

`joinVoiceChannel` and `leaveVoiceChannelInternal` write the same six maps in one
section each. The agreement survives a join because only `Run` joins, and the user
it joins left before: nobody else can put that user back in between.
-/
namespace MiniDiscord.VoiceHub
open Transition
variable {cfg : Config}

structure MapsAgree (h : Hub) : Prop where
  participant_iff : ∀ u c, u ∈ h.participants c ↔ h.userVoiceChannel.lookup u = some c
  session_keys : h.sfuSessionByUser.keys = h.userVoiceChannel.keys
  status_keys : h.voiceStatusByUser.keys = h.userVoiceChannel.keys
  joinedAt_keys : h.voiceJoinedAt.keys = h.userVoiceChannel.keys
  no_empty : ∀ c, h.voiceParticipants.lookup c ≠ some ∅

theorem mapsAgree_newHub : MapsAgree newHub where
  participant_iff u c := by
    constructor <;> intro h <;> cases h
  session_keys := rfl
  status_keys := rfl
  joinedAt_keys := rfl
  no_empty c h := by cases h

namespace MapsAgree
variable {h : Hub}

theorem setClients (ha : MapsAgree h) (m : GoMap UserID ClientID) :
    MapsAgree { h with clientsByUser := m } :=
  ⟨ha.participant_iff,ha.session_keys,ha.status_keys,ha.joinedAt_keys,ha.no_empty⟩

theorem setTimers (ha : MapsAgree h) (m : GoMap UserID TimerID) :
    MapsAgree { h with sfuGraceTimers := m } :=
  ⟨ha.participant_iff,ha.session_keys,ha.status_keys,ha.joinedAt_keys,ha.no_empty⟩

theorem joinLocked (ha : MapsAgree h) {u : UserID} (hu : h.userVoiceChannel.lookup u = none)
    (c : ChannelID) (sid : SessionID) (now : Time) : MapsAgree (h.joinLocked u c sid now) := by
  constructor
  · intro u' c'
    rw [Hub.mem_participants_joinLocked,ha.participant_iff]
    simp only [Hub.joinLocked, GoMap.lookup_insert_eq]
    by_cases huu : u' = u
    · subst huu
      simp [hu, eq_comm]
    · simp [huu]
  · simp only [Hub.joinLocked, GoMap.keys_insert, ha.session_keys]
  · simp only [Hub.joinLocked, GoMap.keys_insert, ha.status_keys]
  · simp only [Hub.joinLocked, GoMap.keys_insert, ha.joinedAt_keys]
  · intro c'
    simp only [Hub.joinLocked, GoMap.lookup_insert_eq]
    split
    · simp
    · exact ha.no_empty c'

theorem leaveLocked (ha : MapsAgree h) {u : UserID} {c : ChannelID}
    (hu : h.userVoiceChannel.lookup u = some c) : MapsAgree (h.leaveLocked u c) := by
  constructor
  · intro u' c'
    rw [Hub.mem_participants_leaveLocked,ha.participant_iff]
    simp only [Hub.leaveLocked, GoMap.lookup_erase_eq]
    by_cases huu : u' = u
    · subst huu
      simp [hu, eq_comm]
    · simp [huu]
  · simp only [Hub.leaveLocked, GoMap.keys_erase, ha.session_keys]
  · simp only [Hub.leaveLocked, GoMap.keys_erase, ha.status_keys]
  · simp only [Hub.leaveLocked, GoMap.keys_erase, ha.joinedAt_keys]
  · intro c'
    exact dropParticipant_ne_empty _ _ _ (ha.no_empty c')

theorem changeVoiceStatus (ha : MapsAgree h) (u : UserID) (st : VoiceStatus) :
    MapsAgree (h.changeVoiceStatus u st) := by
  rcases h.changeVoiceStatus_eq u st with he | ⟨⟨c,hc⟩,he⟩
  · rw [he]
    exact ha
  · have hm : u ∈ h.voiceStatusByUser.keys := by
      rw [ha.status_keys]
      exact (GoMap.mem_keys_iff _ _).mpr ⟨c,hc⟩
    rw [he]
    refine ⟨ha.participant_iff,ha.session_keys,?_,ha.joinedAt_keys,ha.no_empty⟩
    simp only [GoMap.keys_insert, Finset.insert_eq_of_mem hm]
    exact ha.status_keys

theorem session_of_channel (ha : MapsAgree h) {u : UserID} {c : ChannelID}
    (hu : h.userVoiceChannel.lookup u = some c) : ∃ sid, h.sfuSessionByUser.lookup u = some sid := by
  rw [← GoMap.mem_keys_iff,ha.session_keys,GoMap.mem_keys_iff]
  exact ⟨c,hu⟩

theorem channel_of_session (ha : MapsAgree h) {u : UserID} {sid : SessionID}
    (hu : h.sfuSessionByUser.lookup u = some sid) : ∃ c, h.userVoiceChannel.lookup u = some c := by
  rw [← GoMap.mem_keys_iff,← ha.session_keys,GoMap.mem_keys_iff]
  exact ⟨sid,hu⟩

theorem session_eq_none (ha : MapsAgree h) {u : UserID}
    (hu : h.userVoiceChannel.lookup u = none) : h.sfuSessionByUser.lookup u = none := by
  rw [← GoMap.notMem_keys_iff,ha.session_keys,GoMap.notMem_keys_iff]
  exact hu

end MapsAgree

/-- The sections of `joinVoiceChannel` after its command was accepted. -/
def Proc.isJoin : Proc → Bool
  | .leave _ (.joinVoiceChannel _ _) => true
  | .routerLeave _ _ (.joinVoiceChannel _ _) => true
  | .routerJoin _ _ _ => true
  | .joinLocked _ _ _ _ => true
  | _ => false

/-- The user whom a join has already taken out of voice and not yet put back. -/
def Proc.joining : Proc → Option UserID
  | .routerLeave u _ (.joinVoiceChannel _ _) => some u
  | .routerJoin _ u _ => some u
  | .joinLocked _ u _ _ => some u
  | _ => none

theorem Proc.isJoin_of_joining {p : Proc} {u : UserID} (h : p.joining = some u) : p.isJoin = true := by
  cases p with
  | routerLeave v sid k => cases k <;> first | rfl | cases h
  | routerJoin cl v c => rfl
  | joinLocked cl v c sid => rfl
  | _ => cases h

/-- Only `Run` joins, and whom it is about to join is not in voice. -/
structure JoinsSerial (s : State) : Prop where
  only_run : ∀ t, (s.threads t).isJoin = true → t = .run
  absent : ∀ t u, (s.threads t).joining = some u → s.hub.userVoiceChannel.lookup u = none

theorem Caller.returns_isJoin {u : UserID} {k : Caller} (h : (k.returns u).isJoin = true) :
    ∃ cl c, k = .joinVoiceChannel cl c := by
  cases k <;> first | exact ⟨_,_,rfl⟩ | cases h

theorem Caller.returns_joining {u v : UserID} {k : Caller} (h : (k.returns u).joining = some v) :
    v = u ∧ ∃ cl c, k = .joinVoiceChannel cl c := by
  cases k <;> cases h
  exact ⟨rfl,_,_,rfl⟩

theorem LocalMove.isJoin {s : State} {t : ThreadID} {p p' : Proc} (h : LocalMove cfg s t p p')
    (hj : p'.isJoin = true) : p.isJoin = true ∨ t = .run := by
  cases h with
  | joinCommand => exact Or.inr rfl
  | leaveNone hu =>
    obtain ⟨cl,c,rfl⟩ := Caller.returns_isJoin hj
    exact Or.inl rfl
  | routerLeave =>
    obtain ⟨cl,c,rfl⟩ := Caller.returns_isJoin hj
    exact Or.inl rfl
  | _ => cases hj

theorem LocalMove.joining {s : State} {t : ThreadID} {p p' : Proc} {u : UserID}
    (h : LocalMove cfg s t p p') (hj : p'.joining = some u) :
    p.joining = some u ∨ s.hub.userVoiceChannel.lookup u = none := by
  cases h with
  | leaveNone hu =>
    obtain ⟨rfl,cl,c,rfl⟩ := Caller.returns_joining hj
    exact Or.inr hu
  | routerLeave =>
    obtain ⟨rfl,cl,c,rfl⟩ := Caller.returns_joining hj
    exact Or.inl rfl
  | _ => cases hj

/-- One goroutine goes on, and nobody is put in voice. -/
theorem JoinsSerial.update {s s' : State} {t : ThreadID} {p : Proc} (h : JoinsSerial s)
    (hthreads : s'.threads = Function.update s.threads t p)
    (hout : ∀ u, s.hub.userVoiceChannel.lookup u = none → s'.hub.userVoiceChannel.lookup u = none)
    (hrun : p.isJoin = true → t = .run)
    (hjoin : ∀ u, p.joining = some u → s'.hub.userVoiceChannel.lookup u = none) :
    JoinsSerial s' := by
  constructor
  · exact forall_threads (P := fun t' p => p.isJoin = true → t' = .run) hthreads hrun
      (fun t' _ => h.only_run t')
  · apply forall_threads (P := fun _ p => ∀ u, p.joining = some u →
      s'.hub.userVoiceChannel.lookup u = none) hthreads hjoin
    exact fun t' _ u hj => hout u (h.absent t' u hj)

/-- A goroutine that is not joining goes on, and nobody is put in voice. -/
theorem JoinsSerial.other {s s' : State} {t : ThreadID} {p : Proc} (h : JoinsSerial s)
    (hthreads : s'.threads = Function.update s.threads t p)
    (hout : ∀ u, s.hub.userVoiceChannel.lookup u = none → s'.hub.userVoiceChannel.lookup u = none)
    (hp : p.isJoin = false := by rfl) (hp' : p.joining = none := by rfl) : JoinsSerial s' := by
  refine h.update hthreads hout (fun hj => ?_) (fun u hj => ?_)
  · rw [hp] at hj
    cases hj
  · rw [hp'] at hj
    cases hj

theorem Hub.leaveLocked_channel_none {h : Hub} {u v : UserID} {c : ChannelID}
    (hv : h.userVoiceChannel.lookup v = none) :
    (h.leaveLocked u c).userVoiceChannel.lookup v = none := by
  simp only [Hub.leaveLocked, GoMap.lookup_erase_eq]
  split
  · rfl
  · exact hv

theorem Hub.changeVoiceStatus_channel (h : Hub) (u : UserID) (st : VoiceStatus) :
    (h.changeVoiceStatus u st).userVoiceChannel = h.userVoiceChannel := by
  rcases h.changeVoiceStatus_eq u st with he | ⟨-,he⟩ <;> rw [he]

theorem step_joinsSerial {s s' : State} {e : Event} (h : JoinsSerial s)
    (he : step cfg s e = some s') : JoinsSerial s' := by
  have hsame : ∀ u, s.hub.userVoiceChannel.lookup u = none → s.hub.userVoiceChannel.lookup u = none :=
    fun _ hu => hu
  cases step_view he with
  | quiet o => exact ⟨h.only_run,h.absent⟩
  | @move e t p o hm =>
    refine h.update rfl hsame (fun hj => ?_) (fun u hj => ?_)
    · rcases hm.isJoin hj with hj | ht
      · exact h.only_run t hj
      · exact ht
    · rcases hm.joining hj with hj | hu
      · exact h.absent t u hj
      · exact hu
  | sessionClosed o => exact h.other rfl hsame
  | resumeCommand o => exact h.other rfl hsame
  | @changeStatus e u st o =>
    refine ⟨h.only_run,fun t v hv => ?_⟩
    rw [Hub.changeVoiceStatus_channel]
    exact h.absent t v hv
  | registered o => exact ⟨h.only_run,h.absent⟩
  | evicted o => exact h.other rfl hsame
  | unregistered o hi => exact h.other rfl hsame
  | fire ht ha => exact h.other rfl hsame
  | routerJoin o hr hf =>
    refine h.update rfl hsame (fun _ => rfl) (fun v hv => ?_)
    cases hv
    exact h.absent .run _ (by rw [hr]; rfl)
  | @leave t u k c ht hu =>
    refine h.update rfl (fun v hv => Hub.leaveLocked_channel_none hv) (fun hj => ?_) (fun v hj => ?_)
    · cases k <;> cases hj
      exact h.only_run t (by rw [ht]; rfl)
    · cases k <;> cases hj
      simp [State.setThread, Hub.leaveLocked]
  | @joinLocked t cl u c sid ht =>
    -- no other goroutine is joining, so nobody relies on `u` being out
    have hrun : ∀ t', (s.threads t').isJoin = true → t' = t := by
      intro t' hj
      rw [h.only_run t' hj,h.only_run t (by rw [ht]; rfl)]
    have hidle : ∀ t', ((s.joinLocked t cl u c sid).threads t').isJoin = false := by
      apply forall_threads (P := fun _ p => p.isJoin = false) rfl rfl
      intro t' hne
      rw [← Bool.not_eq_true]
      exact fun hj => hne (hrun t' hj)
    constructor
    · intro t' hj
      rw [hidle] at hj
      cases hj
    · intro t' v hj
      have hi := Proc.isJoin_of_joining hj
      rw [hidle] at hi
      cases hi
  | armTimer ht => exact h.other rfl hsame
  | storeTimer ht => exact h.other rfl hsame
  | @expire t u sid timer ht =>
    refine h.update rfl hsame (fun hj => ?_) (fun v hj => ?_) <;> split at hj <;> cases hj
  | cancelTimer ht => exact h.other rfl hsame

theorem step_mapsAgree {s s' : State} {e : Event} (hj : JoinsSerial s) (h : MapsAgree s.hub)
    (he : step cfg s e = some s') : MapsAgree s'.hub := by
  cases step_view he with
  | changeStatus o => exact h.changeVoiceStatus _ _
  | registered o => exact h.setClients _
  | evicted o => exact h.setClients _
  | unregistered o hi => exact h.setClients _
  | leave ht hu => exact h.leaveLocked hu
  | @joinLocked t cl u c sid ht => exact h.joinLocked (hj.absent t u (by rw [ht]; rfl)) c sid s.now
  | storeTimer ht => exact h.setTimers _
  | expire ht => exact h.setTimers _
  | cancelTimer ht => exact h.setTimers _
  | _ => exact h

theorem joinsSerial_init : JoinsSerial init where
  only_run t h := by cases h
  absent t u h := by cases h

/-- Whatever the guard, a run keeps joins serial and the maps in agreement. -/
theorem runs_mapsAgree {guard : State → Event → Prop} {es : List Event} {s : State}
    (h : RunsWhen (step cfg) guard init es s) : JoinsSerial s ∧ MapsAgree s.hub :=
  h.invariant (P := fun s => JoinsSerial s ∧ MapsAgree s.hub) ⟨joinsSerial_init,mapsAgree_newHub⟩
    (fun hs _ he => ⟨step_joinsSerial hs.1 he,step_mapsAgree hs.1 hs.2 he⟩)

theorem voice_maps_agree {es : List Event} {s : State} (h : Runs (step cfg) init es s) :
    MapsAgree s.hub := (runs_mapsAgree h).2

/-- User 1 connects, joins channel 7, and switches to channel 8. -/
def switchChannel : List Event :=
  [.register 1, .send 0 (.joinVoiceChannel 7), .command true, .advance .run,
   .routerJoin (some "a"), .advance .run, .send 0 (.joinVoiceChannel 8), .command true,
   .advance .run, .advance .run, .routerJoin (some "b"), .advance .run]

theorem voice_maps_agree_switch : ∃ s, Runs (step ⟨30,15⟩) init switchChannel s ∧
    s.hub.userVoiceChannel.lookup 1 = some 8 ∧ MapsAgree s.hub := by
  obtain ⟨s,hrun,hs⟩ := exists_runs_of_exec (step ⟨30,15⟩) init switchChannel
    (fun s => s.hub.userVoiceChannel.lookup 1) (some 8) (by decide)
  exact ⟨s,hrun,hs,voice_maps_agree hrun⟩

end MiniDiscord.VoiceHub
