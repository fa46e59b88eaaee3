import MiniDiscord.Hub.Reconcile
import MiniDiscord.Transition.LabelledRuns

/-! # The hub under concurrency

Goroutines of the voice path: `Run`, the reconcile loop, and one goroutine for each
evicted connection, fired timer, closed session and `sfu_resume`. A section that
holds `h.mu`, and a call into the router, is one step of its goroutine; between two
sections any other goroutine may run. The router is present as the table of its
sessions, which `Join` and `Leave` write in one section each. The hub is one whose
router started: without one every join is refused and no voice state ever exists.
-/
namespace MiniDiscord.VoiceHub
open Transition

/-- The commands that reach voice state; every other action leaves it alone. -/
inductive Command where
  | joinVoiceChannel (channelID : ChannelID)
  | leaveVoiceChannel
  | changeVoiceStatus (status : VoiceStatus)
  | sfuResume (sessionID : SessionID)
  | other
  deriving DecidableEq

/-- Where `readMessage` stands: reading, blocked in its deferred send, or returned. -/
inductive Phase where
  | reading
  | closing (graceful : Bool)
  | gone
  deriving DecidableEq

structure Client where
  userID : UserID
  phase : Phase
  deriving DecidableEq

inductive TimerStatus where
  | armed
  | fired
  | stopped
  deriving DecidableEq

/-- A grace timer with the arguments of its `expireVoiceSession` call. -/
structure Timer where
  userID : UserID
  sessionID : SessionID
  deadline : Time
  status : TimerStatus
  deriving DecidableEq

def Timer.stop (t : Timer) : Timer :=
  if t.status = .armed then { t with status := .stopped } else t

/-- What one tick of the sweep still has to look at. -/
structure Sweep where
  live : List LiveSession
  current : GoMap SessionID UserID
  entries : List HubVoiceEntry

/-- Who called `leaveVoiceChannelInternal`, with the caller's locals. -/
inductive Caller where
  | joinVoiceChannel (client : ClientID) (channelID : ChannelID)
  | leaveVoiceChannel
  | handleVoiceDisconnect
  | expireVoiceSession (sessionID : SessionID) (timer : Option TimerID)
  | onSessionClosed (sessionID : SessionID)
  | reconcileTick (sessionID : SessionID) (rest : Sweep)

/-- The next section of a goroutine, with the locals it reads. The `timer` of `expire`
is missing when a failed resume makes the call. -/
inductive Proc where
  | idle
  | leave (userID : UserID) (caller : Caller)
  | routerLeave (userID : UserID) (sessionID : Option SessionID) (caller : Caller)
  | routerJoin (client : ClientID) (userID : UserID) (channelID : ChannelID)
  | joinLocked (client : ClientID) (userID : UserID) (channelID : ChannelID) (sessionID : SessionID)
  | disconnect (userID : UserID) (graceful : Bool)
  | routerDetach (userID : UserID) (sessionID : SessionID)
  | armTimer (userID : UserID) (sessionID : SessionID)
  | storeTimer (userID : UserID) (timer : TimerID)
  | expire (userID : UserID) (sessionID : SessionID) (timer : Option TimerID)
  | sessionClosed (userID : UserID) (sessionID : SessionID)
  | ownsSession (client : ClientID) (userID : UserID) (sessionID : SessionID)
  | routerResume (client : ClientID) (userID : UserID) (sessionID : SessionID)
  | resumeAccess (client : ClientID) (userID : UserID) (sessionID : SessionID)
  | cancelTimer (client : ClientID) (userID : UserID) (sessionID : SessionID)
  | snapshot (live : List LiveSession)
  | entries (work : Sweep)
  | orphans (current : GoMap SessionID UserID) (live : List LiveSession)

/-- Where `leaveVoiceChannelInternal` returns to. -/
def Caller.returns (userID : UserID) : Caller → Proc
  | .joinVoiceChannel cl c => .routerJoin cl userID c
  | .reconcileTick _ rest => .entries rest
  | _ => .idle

inductive ThreadID where
  | run
  | reconcile
  | go (n : ℕ)
  deriving DecidableEq

/-- What the registered connection of a user joined or resumed, and how many timers
had been armed when it last did. -/
structure Attachment where
  sessions : Finset SessionID
  timers : TimerID
  deriving DecidableEq

/-- The last acknowledged resume of a user, the number of timers armed before it, and
whether the connection that resumed has been registered ever since. -/
structure Resumption where
  sessionID : SessionID
  timers : TimerID
  connected : Bool
  deriving DecidableEq

structure Config where
  sessionGracePeriod : Time
  reconcileInterval : Time

/-- `issued` holds every peer the router ever made, with its user. `attached` and
`resumed` are history that no section reads. -/
structure State where
  hub : Hub
  router : RouterTable
  issued : GoMap SessionID UserID
  closeNotified : Finset SessionID
  clients : ClientID → Client
  nextClient : ClientID
  commands : List (ClientID × Command)
  timers : TimerID → Timer
  nextTimer : TimerID
  threads : ThreadID → Proc
  nextGo : ℕ
  now : Time
  attached : GoMap UserID Attachment
  resumed : GoMap UserID Resumption

def init : State where
  hub := newHub
  router := ∅
  issued := ∅
  closeNotified := ∅
  clients := fun _ => ⟨0,.gone⟩
  nextClient := 0
  commands := []
  timers := fun _ => ⟨0,"",0,.stopped⟩
  nextTimer := 0
  threads := fun _ => .idle
  nextGo := 0
  now := 0
  attached := ∅
  resumed := ∅

def commandsCap : ℕ := 64

def State.setThread (s : State) (t : ThreadID) (p : Proc) : State :=
  { s with threads := Function.update s.threads t p }

/-- `go f()`. -/
def State.spawn (s : State) (p : Proc) : State :=
  { s with
    threads := Function.update s.threads (.go s.nextGo) p
    nextGo := s.nextGo + 1 }

/-- `timer.Stop()` on the entry a section found in `sfuGraceTimers`. -/
def stopTimer (timers : TimerID → Timer) : Option TimerID → TimerID → Timer
  | none => timers
  | some t => Function.update timers t (timers t).stop

def setConnectionState (r : RouterTable) (sid : SessionID) (st : ConnectionState) : RouterTable :=
  match r.lookup sid with
  | none => r
  | some p => r.insert sid { p with connectionState := st }

/-- `Router.Detach` and the last step of `Router.Resume`, with the flag as the peer's
own queue will leave it. -/
def setDetached (r : RouterTable) (sid : SessionID) (detached : Bool) : RouterTable :=
  match r.lookup sid with
  | none => r
  | some p => r.insert sid { p with detached := detached }

/-- A join or resume by the registered connection of the user. -/
def State.attach (s : State) (cl : ClientID) (u : UserID) (sid : SessionID) : GoMap UserID Attachment :=
  if s.hub.clientsByUser.lookup u = some cl then
    s.attached.insert u ⟨insert sid (((s.attached.lookup u).map Attachment.sessions).getD ∅),
      s.nextTimer⟩
  else s.attached

/-- The connection that resumed is not the registered one any more. -/
def disconnectResumed (r : GoMap UserID Resumption) (u : UserID) : GoMap UserID Resumption :=
  match r.lookup u with
  | none => r
  | some m => r.insert u { m with connected := false }

/-- The registered connection of the user changes. -/
def State.setHubClients (s : State) (u : UserID) (h : Hub) : State :=
  { s with
    hub := h
    attached := s.attached.erase u
    resumed := disconnectResumed s.resumed u }

def State.register (s : State) (u : UserID) : State :=
  let s' := { s.setHubClients u (s.hub.registerClient u s.nextClient).1 with
    clients := Function.update s.clients s.nextClient ⟨u,.reading⟩
    nextClient := s.nextClient + 1 }
  match (s.hub.registerClient u s.nextClient).2 with
  | none => s'
  | some _ => s'.spawn (.disconnect u false)

/-- `readMessage` leaves its loop and blocks on `hub.Unregister <- c`. -/
def State.readError (s : State) (cl : ClientID) (graceful : Bool) : State :=
  { s with clients := Function.update s.clients cl ⟨(s.clients cl).userID,.closing graceful⟩ }

/-- The caller of `unregisterClient` is `Run`, which stays in `handleVoiceDisconnect`. -/
def State.unregister (s : State) (cl : ClientID) (graceful : Bool) : State :=
  let u := (s.clients cl).userID
  let s' := { s with clients := Function.update s.clients cl ⟨u,.gone⟩ }
  if (s.hub.unregisterClient u cl).2 then
    (s'.setHubClients u (s.hub.unregisterClient u cl).1).setThread .run (.disconnect u graceful)
  else s'

/-- `handleCommand`; `accepted` is the outcome of the storage checks of a join. -/
def State.handleCommand (s : State) (cl : ClientID) (accepted : Bool) : Command → State
  | .joinVoiceChannel c =>
    if 0 < c ∧ accepted = true then
      s.setThread .run (.leave (s.clients cl).userID (.joinVoiceChannel cl c))
    else s
  | .leaveVoiceChannel => s.setThread .run (.leave (s.clients cl).userID .leaveVoiceChannel)
  | .changeVoiceStatus st =>
    { s with hub := s.hub.changeVoiceStatus (s.clients cl).userID st }
  | .sfuResume sid => s.spawn (.ownsSession cl (s.clients cl).userID sid)
  | .other => s

/-- `handleConnectionStateChange` of a peer, live or already left. -/
def State.connectionState (s : State) (u : UserID) (sid : SessionID) (st : ConnectionState) : State :=
  let s' := { s with router := setConnectionState s.router sid st }
  if st.isDead = true ∧ sid ∉ s.closeNotified then
    { s' with closeNotified := insert sid s.closeNotified }.spawn (.sessionClosed u sid)
  else s'

def State.fire (s : State) (t : TimerID) : State :=
  { s with timers := Function.update s.timers t { s.timers t with status := .fired } }.spawn
    (.expire (s.timers t).userID (s.timers t).sessionID (some t))

def State.leave (s : State) (t : ThreadID) (u : UserID) (k : Caller) : State :=
  match s.hub.userVoiceChannel.lookup u with
  | none => s.setThread t (k.returns u)
  | some c =>
    { s with
      hub := s.hub.leaveLocked u c
      timers := stopTimer s.timers (s.hub.sfuGraceTimers.lookup u) }.setThread t
        (.routerLeave u (s.hub.sfuSessionByUser.lookup u) k)

def State.routerLeave (s : State) (t : ThreadID) (u : UserID) (sid : Option SessionID)
    (k : Caller) : State :=
  { s with router := match sid with
      | none => s.router
      | some sid => s.router.erase sid }.setThread t (k.returns u)

def State.routerJoin (s : State) (cl : ClientID) (u : UserID) (c : ChannelID) (sid : SessionID) :
    State :=
  { s with
    router := s.router.insert sid ⟨u,c,.new,s.now,false⟩
    issued := s.issued.insert sid u }.setThread .run (.joinLocked cl u c sid)

def State.joinLocked (s : State) (t : ThreadID) (cl : ClientID) (u : UserID) (c : ChannelID)
    (sid : SessionID) : State :=
  { s with
    hub := s.hub.joinLocked u c sid s.now
    attached := s.attach cl u sid }.setThread t .idle

def State.routerDetach (s : State) (t : ThreadID) (u : UserID) (sid : SessionID) : State :=
  { s with router := setDetached s.router sid true }.setThread t (.armTimer u sid)

/-- `time.AfterFunc`. -/
def State.armTimer (cfg : Config) (s : State) (t : ThreadID) (u : UserID) (sid : SessionID) : State :=
  { s with
    timers := Function.update s.timers s.nextTimer ⟨u,sid,s.now + cfg.sessionGracePeriod,.armed⟩
    nextTimer := s.nextTimer + 1 }.setThread t (.storeTimer u s.nextTimer)

def State.storeTimer (s : State) (t : ThreadID) (u : UserID) (timer : TimerID) : State :=
  { s with
    hub := s.hub.storeTimer u timer
    timers := stopTimer s.timers (s.hub.sfuGraceTimers.lookup u) }.setThread t .idle

def State.expire (s : State) (t : ThreadID) (u : UserID) (sid : SessionID)
    (timer : Option TimerID) : State :=
  { s with hub := s.hub.dropTimer u }.setThread t
    (if s.hub.sfuSessionByUser.lookup u = some sid then .leave u (.expireVoiceSession sid timer)
      else .idle)

def State.accessGranted (s : State) (t : ThreadID) (cl : ClientID) (u : UserID) (sid : SessionID) :
    State :=
  { s with router := setDetached s.router sid false }.setThread t (.cancelTimer cl u sid)

/-- The locked section of `handleSfuResume`; the ack follows with no further write. -/
def State.cancelTimer (s : State) (t : ThreadID) (cl : ClientID) (u : UserID) (sid : SessionID) :
    State :=
  { s with
    hub := s.hub.dropTimer u
    timers := stopTimer s.timers (s.hub.sfuGraceTimers.lookup u)
    attached := s.attach cl u sid
    resumed :=
      if s.hub.clientsByUser.lookup u = some cl then s.resumed.insert u ⟨sid,s.nextTimer,true⟩
      else s.resumed }.setThread t .idle

def State.orphan (s : State) (t : ThreadID) (minAge : Time) (current : GoMap SessionID UserID)
    (ls : LiveSession) (rest : List LiveSession) : State :=
  { s with
    router := if ls.isOrphan minAge current then s.router.erase ls.sessionID else s.router }.setThread
      t (.orphans current rest)

inductive Event where
  | tick (now : Time)
  | register (userID : UserID)
  | send (client : ClientID) (command : Command)
  | readError (client : ClientID) (graceful : Bool)
  | unregister (client : ClientID)
  | command (accepted : Bool)
  | connectionState (sessionID : SessionID) (state : ConnectionState)
  | fire (timer : TimerID)
  | liveSessions (order : List SessionID)
  | snapshot (users owners : List UserID)
  | routerJoin (sessionID : Option SessionID)
  | resumeAccess (thread : ThreadID) (canAccess : Bool)
  | advance (thread : ThreadID)
  deriving DecidableEq

/-- A section whose course is settled by the state alone. -/
def State.advance (cfg : Config) (s : State) (t : ThreadID) : Option State :=
  match s.threads t with
  | .leave u k => some (s.leave t u k)
  | .routerLeave u sid k => some (s.routerLeave t u sid k)
  | .joinLocked cl u c sid => some (s.joinLocked t cl u c sid)
  | .disconnect u graceful =>
    match graceful,s.hub.sfuSessionByUser.lookup u,s.hub.userVoiceChannel.lookup u with
    | false,some sid,some _ => some (s.setThread t (.routerDetach u sid))
    | _,_,_ => some (s.setThread t (.leave u .handleVoiceDisconnect))
  | .routerDetach u sid => some (s.routerDetach t u sid)
  | .armTimer u sid => some (s.armTimer cfg t u sid)
  | .storeTimer u timer => some (s.storeTimer t u timer)
  | .expire u sid timer => some (s.expire t u sid timer)
  | .sessionClosed u sid =>
    some (s.setThread t
      (if s.hub.sfuSessionByUser.lookup u = some sid then .leave u (.onSessionClosed sid) else .idle))
  | .ownsSession cl u sid =>
    some (s.setThread t (if s.hub.ownsSfuSession u sid then .routerResume cl u sid else .idle))
  | .routerResume cl u sid =>
    some (s.setThread t (if (s.router.lookup sid).map Session.userID = some u then
      .resumeAccess cl u sid else .expire u sid none))
  | .cancelTimer cl u sid => some (s.cancelTimer t cl u sid)
  | .entries w =>
    match w.entries with
    | [] => some (s.setThread t (.orphans w.current w.live))
    | e :: es =>
      if e.removes cfg.reconcileInterval s.now (liveBySession w.live) then
        some (s.setThread t (.leave e.userID (.reconcileTick e.sessionID { w with entries := es })))
      else some (s.setThread t (.entries { w with entries := es }))
  | .orphans current live =>
    match live with
    | [] => some (s.setThread t .idle)
    | ls :: rest => some (s.orphan t cfg.reconcileInterval current ls rest)
  | _ => none

/-- `Run` selects only between two commands. -/
def State.runIdle (s : State) : Bool :=
  match s.threads .run with
  | .idle => true
  | _ => false

def step (cfg : Config) (s : State) (e : Event) : Option State :=
  match e with
  | .tick now => if s.now ≤ now then some { s with now := now } else none
  | .register u => if s.runIdle = true ∧ 0 < u then some (s.register u) else none
  | .send cl cmd =>
    if (s.clients cl).phase = .reading ∧ s.commands.length < commandsCap then
      some { s with commands := s.commands ++ [(cl,cmd)] }
    else none
  | .readError cl graceful =>
    if (s.clients cl).phase = .reading then
      some (s.readError cl graceful)
    else none
  | .unregister cl =>
    match s.runIdle,(s.clients cl).phase with
    | true,.closing graceful => some (s.unregister cl graceful)
    | _,_ => none
  | .command accepted =>
    match s.runIdle,s.commands with
    | true,(cl,cmd) :: rest => some ({ s with commands := rest }.handleCommand cl accepted cmd)
    | _,_ => none
  | .connectionState sid st => (s.issued.lookup sid).map (fun u => s.connectionState u sid st)
  | .fire t =>
    if t < s.nextTimer ∧ (s.timers t).status = .armed ∧ (s.timers t).deadline ≤ s.now then
      some (s.fire t)
    else none
  | .liveSessions order =>
    match s.threads .reconcile with
    | .idle =>
      if 0 < cfg.reconcileInterval ∧ order.Nodup ∧ order.toFinset = s.router.keys then
        some (s.setThread .reconcile (.snapshot (VoiceHub.liveSessions s.router s.now order)))
      else none
    | _ => none
  | .snapshot users owners =>
    match s.threads .reconcile with
    | .snapshot live =>
      if (users.Nodup ∧ users.toFinset = s.hub.userVoiceChannel.keys) ∧
          owners.Nodup ∧ owners.toFinset = s.hub.sfuSessionByUser.keys then
        some (s.setThread .reconcile
          (.entries ⟨live,currentSessions s.hub owners,voiceEntries s.hub users⟩))
      else none
    | _ => none
  | .routerJoin created =>
    match s.threads .run,created with
    | .routerJoin _ _ _,none => some (s.setThread .run .idle)
    | .routerJoin cl u c,some sid =>
      if sid ≠ "" ∧ sid ∉ s.issued then some (s.routerJoin cl u c sid) else none
    | _,_ => none
  | .resumeAccess t canAccess =>
    match s.threads t with
    | .resumeAccess cl u sid =>
      if canAccess then some (s.accessGranted t cl u sid)
      else some (s.setThread t (.expire u sid none))
    | _ => none
  | .advance t => s.advance cfg t

end MiniDiscord.VoiceHub
