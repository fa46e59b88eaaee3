import MiniDiscord.Hub.System

/-! # What a step of the hub can do to the voice bookkeeping

The router's table, the sockets, the command buffer and the clock decide which
section runs, but the bookkeeping invariants never read them. `step_view` lists
what a step can do to the rest, with the tests that led to it.
-/
namespace MiniDiscord.VoiceHub
open Transition
variable {cfg : Config}

/-- The part of the state that no bookkeeping invariant reads. -/
structure Outer where
  router : RouterTable
  closeNotified : Finset SessionID
  clients : ClientID → Client
  nextClient : ClientID
  commands : List (ClientID × Command)
  now : Time

def State.withOuter (s : State) (o : Outer) : State :=
  { s with
    router := o.router
    closeNotified := o.closeNotified
    clients := o.clients
    nextClient := o.nextClient
    commands := o.commands
    now := o.now }

def State.outer (s : State) : Outer := ⟨s.router,s.closeNotified,s.clients,s.nextClient,s.commands,s.now⟩

/-- A goroutine goes on to its next section and writes no bookkeeping. -/
inductive LocalMove (cfg : Config) (s : State) : ThreadID → Proc → Proc → Prop
  | joinCommand {u cl c} : LocalMove cfg s .run .idle (.leave u (.joinVoiceChannel cl c))
  | leaveCommand {u} : LocalMove cfg s .run .idle (.leave u .leaveVoiceChannel)
  | liveSessions {live} : LocalMove cfg s .reconcile .idle (.snapshot live)
  | leaveNone {t u k} : s.hub.userVoiceChannel.lookup u = none →
      LocalMove cfg s t (.leave u k) (k.returns u)
  | routerLeave {t u sid k} : LocalMove cfg s t (.routerLeave u sid k) (k.returns u)
  | joinFailed {t cl u c} : LocalMove cfg s t (.routerJoin cl u c) .idle
  | disconnectLeave {t u graceful} :
      LocalMove cfg s t (.disconnect u graceful) (.leave u .handleVoiceDisconnect)
  | disconnectDetach {t u sid} : s.hub.sfuSessionByUser.lookup u = some sid →
      LocalMove cfg s t (.disconnect u false) (.routerDetach u sid)
  | routerDetach {t u sid} : LocalMove cfg s t (.routerDetach u sid) (.armTimer u sid)
  | sessionClosedCurrent {t u sid} : s.hub.sfuSessionByUser.lookup u = some sid →
      LocalMove cfg s t (.sessionClosed u sid) (.leave u (.onSessionClosed sid))
  | sessionClosedStale {t u sid} : s.hub.sfuSessionByUser.lookup u ≠ some sid →
      LocalMove cfg s t (.sessionClosed u sid) .idle
  | owns {t cl u sid} : s.hub.sfuSessionByUser.lookup u = some sid →
      LocalMove cfg s t (.ownsSession cl u sid) (.routerResume cl u sid)
  | ownsNot {t cl u sid} : LocalMove cfg s t (.ownsSession cl u sid) .idle
  | resumeFound {t cl u sid} : LocalMove cfg s t (.routerResume cl u sid) (.resumeAccess cl u sid)
  | resumeUnknown {t cl u sid} : LocalMove cfg s t (.routerResume cl u sid) (.expire u sid none)
  | accessDenied {t cl u sid} : LocalMove cfg s t (.resumeAccess cl u sid) (.expire u sid none)
  | accessGranted {t cl u sid} : LocalMove cfg s t (.resumeAccess cl u sid) (.cancelTimer cl u sid)
  | snapshot {t live users owners} : (∀ u, u ∈ users ↔ u ∈ s.hub.userVoiceChannel) →
      LocalMove cfg s t (.snapshot live)
        (.entries ⟨live,currentSessions s.hub owners,voiceEntries s.hub users⟩)
  | entriesDone {t w} : w.entries = [] → LocalMove cfg s t (.entries w) (.orphans w.current w.live)
  | entryRemoved {t w e es} : w.entries = e :: es →
      e.removes cfg.reconcileInterval s.now (liveBySession w.live) = true →
      LocalMove cfg s t (.entries w)
        (.leave e.userID (.reconcileTick e.sessionID { w with entries := es }))
  | entryKept {t w e es} : w.entries = e :: es →
      LocalMove cfg s t (.entries w) (.entries { w with entries := es })
  | orphan {t current ls rest} :
      LocalMove cfg s t (.orphans current (ls :: rest)) (.orphans current rest)
  | orphansDone {t current} : LocalMove cfg s t (.orphans current []) .idle

inductive StepView (cfg : Config) (s : State) : Event → State → Prop
  | quiet {e} (o : Outer) : StepView cfg s e (s.withOuter o)
  | move {e t p} (o : Outer) : LocalMove cfg s t (s.threads t) p →
      StepView cfg s e ((s.withOuter o).setThread t p)
  | sessionClosed {e u sid} (o : Outer) :
      StepView cfg s e ((s.withOuter o).spawn (.sessionClosed u sid))
  | resumeCommand {e cl u sid} (o : Outer) :
      StepView cfg s e ((s.withOuter o).spawn (.ownsSession cl u sid))
  | changeStatus {e u st} (o : Outer) :
      StepView cfg s e { s.withOuter o with hub := s.hub.changeVoiceStatus u st }
  | registered {e u cl} (o : Outer) : StepView cfg s e ((s.withOuter o).setHubClients u
      { s.hub with clientsByUser := s.hub.clientsByUser.insert u cl })
  | evicted {e u cl} (o : Outer) : StepView cfg s e (((s.withOuter o).setHubClients u
      { s.hub with clientsByUser := s.hub.clientsByUser.insert u cl }).spawn (.disconnect u false))
  | unregistered {e u graceful} (o : Outer) : s.threads .run = .idle →
      StepView cfg s e (((s.withOuter o).setHubClients u
        { s.hub with clientsByUser := s.hub.clientsByUser.erase u }).setThread .run
          (.disconnect u graceful))
  | fire {t} : t < s.nextTimer → (s.timers t).status = .armed → StepView cfg s (.fire t) (s.fire t)
  | routerJoin {e cl u c sid} (o : Outer) : s.threads .run = .routerJoin cl u c → sid ∉ s.issued →
      StepView cfg s e ({ s.withOuter o with issued := s.issued.insert sid u }.setThread .run
        (.joinLocked cl u c sid))
  | leave {t u k c} : s.threads t = .leave u k → s.hub.userVoiceChannel.lookup u = some c →
      StepView cfg s (.advance t) ({ s with
        hub := s.hub.leaveLocked u c
        timers := stopTimer s.timers (s.hub.sfuGraceTimers.lookup u) }.setThread t
          (.routerLeave u (s.hub.sfuSessionByUser.lookup u) k))
  | joinLocked {t cl u c sid} : s.threads t = .joinLocked cl u c sid →
      StepView cfg s (.advance t) (s.joinLocked t cl u c sid)
  | armTimer {t u sid} : s.threads t = .armTimer u sid →
      StepView cfg s (.advance t) (s.armTimer cfg t u sid)
  | storeTimer {t u timer} : s.threads t = .storeTimer u timer →
      StepView cfg s (.advance t) (s.storeTimer t u timer)
  | expire {t u sid timer} : s.threads t = .expire u sid timer →
      StepView cfg s (.advance t) (s.expire t u sid timer)
  | cancelTimer {t cl u sid} : s.threads t = .cancelTimer cl u sid →
      StepView cfg s (.advance t) (s.cancelTimer t cl u sid)

/-- What holds of the goroutine that went on and of all the others holds of all. -/
theorem forall_threads {s s' : State} {t : ThreadID} {p : Proc} {P : ThreadID → Proc → Prop}
    (hthreads : s'.threads = Function.update s.threads t p) (hp : P t p)
    (hother : ∀ t', t' ≠ t → P t' (s.threads t')) (t' : ThreadID) : P t' (s'.threads t') := by
  rw [hthreads]
  exact (Function.forall_update_iff s.threads P).mpr ⟨hp,hother⟩ t'

theorem runIdle_iff (s : State) : s.runIdle = true ↔ s.threads .run = .idle := by
  unfold State.runIdle
  cases h : s.threads .run <;> simp

theorem mem_iff_of_toFinset_eq {K V : Type} [DecidableEq K] {order : List K} {m : GoMap K V}
    (h : order.toFinset = m.keys) (k : K) : k ∈ order ↔ k ∈ m := by
  rw [← Finmap.mem_keys,← h,List.mem_toFinset]

theorem StepView.local {s : State} {e : Event} {t : ThreadID} {p p' : Proc} (hp : s.threads t = p)
    (h : LocalMove cfg s t p p') : StepView cfg s e (s.setThread t p') :=
  .move s.outer (by rw [hp]; exact h)

theorem advance_view {s s' : State} {t : ThreadID} (he : s.advance cfg t = some s') :
    StepView cfg s (.advance t) s' := by
  unfold State.advance at he
  cases hp : s.threads t with
  | idle => simp only [hp] at he; cases he
  | routerJoin cl u c => simp only [hp] at he; cases he
  | resumeAccess cl u sid => simp only [hp] at he; cases he
  | snapshot live => simp only [hp] at he; cases he
  | leave u k =>
    simp only [hp] at he
    cases he
    unfold State.leave
    split
    · exact .local hp (.leaveNone ‹_›)
    · exact .leave hp ‹_›
  | routerLeave u sid k =>
    simp only [hp] at he
    cases he
    exact .move (s.routerLeave t u sid k).outer (by rw [hp]; exact .routerLeave)
  | joinLocked cl u c sid => simp only [hp] at he; cases he; exact .joinLocked hp
  | disconnect u graceful =>
    simp only [hp] at he
    split at he
    · rename_i hs hc
      cases he
      exact .local hp (.disconnectDetach hs)
    · cases he
      exact .local hp .disconnectLeave
  | routerDetach u sid =>
    simp only [hp] at he
    cases he
    exact .move (s.routerDetach t u sid).outer (by rw [hp]; exact .routerDetach)
  | armTimer u sid => simp only [hp] at he; cases he; exact .armTimer hp
  | storeTimer u timer => simp only [hp] at he; cases he; exact .storeTimer hp
  | expire u sid timer => simp only [hp] at he; cases he; exact .expire hp
  | sessionClosed u sid =>
    simp only [hp] at he
    cases he
    split
    · exact .local hp (.sessionClosedCurrent ‹_›)
    · exact .local hp (.sessionClosedStale ‹_›)
  | ownsSession cl u sid =>
    simp only [hp] at he
    cases he
    split
    · rename_i ho
      simp only [Hub.ownsSfuSession, Bool.and_eq_true, decide_eq_true_eq] at ho
      exact .local hp (.owns ho.2)
    · exact .local hp .ownsNot
  | routerResume cl u sid =>
    simp only [hp] at he
    cases he
    split
    · exact .local hp .resumeFound
    · exact .local hp .resumeUnknown
  | cancelTimer cl u sid => simp only [hp] at he; cases he; exact .cancelTimer hp
  | entries w =>
    simp only [hp] at he
    split at he
    · cases he
      exact .local hp (.entriesDone ‹_›)
    · split at he
      · cases he
        exact .local hp (.entryRemoved ‹_› ‹_›)
      · cases he
        exact .local hp (.entryKept ‹_›)
  | orphans current live =>
    simp only [hp] at he
    split at he
    · cases he
      exact .local hp .orphansDone
    · rename_i ls rest
      cases he
      exact .move (s.orphan t cfg.reconcileInterval current ls rest).outer (by rw [hp]; exact .orphan)

theorem register_view (s : State) (e : Event) (u : UserID) : StepView cfg s e (s.register u) := by
  let o : Outer := { s.outer with
    clients := Function.update s.clients s.nextClient ⟨u,.reading⟩
    nextClient := s.nextClient + 1 }
  unfold State.register Hub.registerClient
  dsimp only
  split
  · exact .registered o
  · exact .evicted o

theorem unregister_view {s : State} {e : Event} (hi : s.threads .run = .idle) (cl : ClientID)
    (graceful : Bool) : StepView cfg s e (s.unregister cl graceful) := by
  let o : Outer :=
    { s.outer with clients := Function.update s.clients cl ⟨(s.clients cl).userID,.gone⟩ }
  unfold State.unregister Hub.unregisterClient
  by_cases hc : s.hub.clientsByUser.lookup (s.clients cl).userID = some cl
  · simp only [if_pos hc, ↓reduceIte]
    exact .unregistered o hi
  · simp only [if_neg hc, Bool.false_eq_true, ↓reduceIte]
    exact .quiet o

theorem command_view {s : State} {e : Event} (hi : s.threads .run = .idle) (cl : ClientID)
    (accepted : Bool) (cmd : Command) (rest : List (ClientID × Command)) :
    StepView cfg s e ({ s with commands := rest }.handleCommand cl accepted cmd) := by
  let o : Outer := { s.outer with commands := rest }
  have hmove : ∀ {p}, LocalMove cfg s .run .idle p →
      StepView cfg s e ({ s with commands := rest }.setThread .run p) :=
    fun h => .move o (by rw [hi]; exact h)
  cases cmd with
  | joinVoiceChannel c =>
    simp only [State.handleCommand]
    split
    · exact hmove .joinCommand
    · exact .quiet o
  | leaveVoiceChannel => exact hmove .leaveCommand
  | changeVoiceStatus st => exact .changeStatus o
  | sfuResume sid => exact .resumeCommand o
  | other => exact .quiet o

theorem connectionState_view (s : State) (e : Event) (u : UserID) (sid : SessionID)
    (st : ConnectionState) : StepView cfg s e (s.connectionState u sid st) := by
  let o : Outer := { s.outer with router := setConnectionState s.router sid st }
  unfold State.connectionState
  split
  · exact .sessionClosed { o with closeNotified := insert sid s.closeNotified }
  · exact .quiet o

theorem step_view {s s' : State} {e : Event} (he : step cfg s e = some s') : StepView cfg s e s' := by
  unfold step at he
  cases e with
  | tick now =>
    dsimp only at he
    split at he <;> cases he
    exact .quiet { s.outer with now := now }
  | register u =>
    dsimp only at he
    split at he <;> cases he
    exact register_view s _ u
  | send cl cmd =>
    dsimp only at he
    split at he <;> cases he
    exact .quiet { s.outer with commands := s.commands ++ [(cl,cmd)] }
  | readError cl graceful =>
    dsimp only at he
    split at he <;> cases he
    exact .quiet (s.readError cl graceful).outer
  | unregister cl =>
    dsimp only at he
    split at he
    · rename_i hi hp
      cases he
      exact unregister_view ((runIdle_iff s).mp hi) _ _
    · cases he
  | command accepted =>
    dsimp only at he
    split at he
    · rename_i hi hc
      cases he
      exact command_view ((runIdle_iff s).mp hi) _ _ _ _
    · cases he
  | connectionState sid st =>
    dsimp only at he
    obtain ⟨u,hu,hs⟩ := Option.map_eq_some_iff.mp he
    subst hs
    exact connectionState_view s _ u sid st
  | fire t =>
    dsimp only at he
    split at he
    · rename_i h
      cases he
      exact .fire h.1 h.2.1
    · cases he
  | liveSessions order =>
    dsimp only at he
    split at he
    · rename_i hi
      split at he
      · cases he
        exact .local hi .liveSessions
      · cases he
    · cases he
  | snapshot users owners =>
    dsimp only at he
    split at he
    · rename_i live hl
      split at he
      · rename_i ho
        cases he
        exact .local hl (.snapshot (mem_iff_of_toFinset_eq ho.1.2))
      · cases he
    · cases he
  | routerJoin created =>
    dsimp only at he
    split at he
    · rename_i hj
      cases he
      exact .local hj .joinFailed
    · rename_i cl u c sid hj
      split at he
      · rename_i hf
        cases he
        exact .routerJoin (s.routerJoin cl u c sid).outer hj hf.2
      · cases he
    · cases he
  | resumeAccess t canAccess =>
    dsimp only at he
    split at he
    · rename_i cl u sid ht
      split at he
      · cases he
        exact .move (s.accessGranted t cl u sid).outer (by rw [ht]; exact .accessGranted)
      · cases he
        exact .local ht .accessDenied
    · cases he
  | advance t => exact advance_view he

end MiniDiscord.VoiceHub
