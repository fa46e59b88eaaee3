import MiniDiscord.Commands.Unheard
import MiniDiscord.Transition.LabelledRuns

/-! # The client's command queue and the hub

`ChatSocket` keeps one command pending and a queue behind it. Commands reach the hub in
the order they were sent; a handler on the loop pushes its events before the next command
is taken, a handler on a goroutine of its own pushes them whenever it gets to it. The
connection delivers events in the order they were pushed. Each event remembers the number
of the command it was produced for, which neither side can see.
-/
namespace MiniDiscord.ChatHub
open SfuTrack Effects Program Transition

/-- An event under way, and the number of the command it answers. -/
structure Tagged where
  origin : Option ℕ
  event : WsEvent

/-- A command under way; one sent past the queue has no number. -/
structure Sent where
  origin : Option ℕ
  requestID : String
  cmd : Command

structure Net where
  pending : Option (ℕ × PendingCommand)
  queue : List Command
  nextRequestId : ℕ
  toHub : List Sent
  loop : List Tagged
  running : List (List Tagged)
  toClient : List Tagged
  /-- The commands that were resolved or rejected by an event, with its origin. -/
  settled : List (ℕ × Option ℕ)

def Net.init : Net := ⟨none,[],1,[],[],[],[],[]⟩

/-! ## The client -/

def requestId (n : ℕ) : String := "r" ++ toString n

/-- The command that the next call of `flushQueue` would send as `cmd`. -/
def Net.next (s : Net) (cmd : Command) : PendingCommand :=
  pendingCommand (requestId s.nextRequestId) cmd

def Net.flushQueue (s : Net) : Net :=
  match s.pending, s.queue with
  | none, cmd :: rest => { s with
      pending := some (s.nextRequestId,s.next cmd)
      queue := rest
      nextRequestId := s.nextRequestId + 1
      toHub := s.toHub ++ [⟨some s.nextRequestId,requestId s.nextRequestId,cmd⟩] }
  | _, _ => s

/-- `ws.onmessage`: the event settles the pending command or leaves it alone. -/
def Net.onMessage (s : Net) (t : Tagged) : Net :=
  match s.pending with
  | none => s
  | some (n,p) =>
    if p.settles t.event then
      { s with pending := none, settled := (n,t.origin) :: s.settled }.flushQueue
    else s

/-- The actions that are sent past the queue, without a request ID. -/
def Command.fireAndForget : Command → Bool
  | .sfuCandidate _ => true
  | .typingStart _ => true
  | .typingStop _ => true
  | .markRead _ => true
  | _ => false

/-! ## The hub -/

/-- The events the sender is pushed while a command is handled. -/
def Sent.events (s3Host : String) (u : UserID) (c : Sent)
    (oracle : Oracle Call Call.Answer) : List Tagged :=
  (receives u (run oracle 0 (handleCommand s3Host ⟨u,c.requestID⟩ c.cmd)).1).map (⟨c.origin,·⟩)

/-- Only the sender of a command is pushed one of these. -/
def WsEventType.answers : WsEventType → Bool
  | .ack => true
  | .error => true
  | .dmList => true
  | .dmClosed => true
  | .userSearch => true
  | _ => false

inductive NetEvent where
  | sendCommand (cmd : Command)
  | sendFireAndForget (cmd : Command)
  | timeout
  | onMessage
  /-- The loop takes the next command; its calls are answered by the oracle. -/
  | handle (oracle : Oracle Call Call.Answer)
  | push
  | pushOff (i : ℕ)
  /-- Another user's command, or the router, pushes an event to this user. -/
  | broadcast (event : WsEvent)

def Net.step (s3Host : String) (u : UserID) (s : Net) : NetEvent → Option Net
  | .sendCommand cmd => some { s with queue := s.queue ++ [cmd] }.flushQueue
  | .sendFireAndForget cmd =>
    if cmd.fireAndForget then some { s with toHub := s.toHub ++ [⟨none,"",cmd⟩] } else none
  | .timeout =>
    match s.pending with
    | none => none
    | some _ => some { s with pending := none }.flushQueue
  | .onMessage =>
    match s.toClient with
    | [] => none
    | t :: rest => some ({ s with toClient := rest }.onMessage t)
  | .handle oracle =>
    match s.loop, s.toHub with
    | [], c :: rest =>
      if offLoop c.cmd then
        some { s with toHub := rest, running := s.running ++ [c.events s3Host u oracle] }
      else some { s with toHub := rest, loop := c.events s3Host u oracle }
    | _, _ => none
  | .push =>
    match s.loop with
    | [] => none
    | t :: rest => some { s with loop := rest, toClient := s.toClient ++ [t] }
  | .pushOff i =>
    match s.running[i]? with
    | some (t :: rest) =>
      some { s with running := s.running.set i rest, toClient := s.toClient ++ [t] }
    | _ => none
  | .broadcast e =>
    if e.event.answers then none else some { s with toClient := s.toClient ++ [⟨none,e⟩] }

end MiniDiscord.ChatHub
