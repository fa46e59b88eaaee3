import MiniDiscord.Commands.ClientQueue
import Mathlib.Logic.Function.Iterate

/-! # The client's connection

`ChatSocket` with every `WebSocket` it has created. The four handlers of each of them are
bound to the same fields: the command that waits for its response and the queue behind it,
the promise that `connect` has handed out, the reconnect timer and the listeners. A handler
is taken together with what waits for the promise it settles, since nothing runs in between.
-/
namespace MiniDiscord.ChatSocket
open ChatHub Transition

/-- The sockets are numbered in the order they are created in. -/
abbrev SocketID := ℕ

inductive ReadyState where
  | connecting
  | open
  | closing
  /-- Failed; the close event is still to come. -/
  | failed
  | closed
  deriving DecidableEq

/-- A `WebSocket`, and how many scheduled reconnects wait for the promise of the call of
`connect` that has created it. -/
structure Socket where
  readyState : ReadyState
  waiting : ℕ
  deriving DecidableEq

inductive ReconnectPhase where
  | lost
  | restored
  deriving DecidableEq

/-- What `connect` has promised: that a socket opens, or nothing, as there was no token to
create one with. -/
inductive ConnectionPromise where
  | opening (n : SocketID)
  | rejected
  deriving DecidableEq

structure State where
  sockets : List Socket
  socket : Option SocketID
  /-- With the number of its request ID. -/
  pending : Option (ℕ × PendingCommand)
  queue : List Command
  nextRequestId : ℕ
  connectionPromise : Option ConnectionPromise
  reconnectAttempt : ℕ
  /-- The delay the timer was started with, less its jitter. -/
  reconnectTimer : Option ℕ
  closedByUser : Bool
  /-- What the reconnect listeners were told. -/
  phases : List ReconnectPhase

def start : State := ⟨[],none,none,[],1,none,0,none,false,[]⟩

/-- What arrives on a socket; some responses of a gateway name no event. -/
inductive Received where
  | event (e : WsEvent)
  | unnamed (error requestID : String)

/-- What `trim` takes away. -/
def isWhiteSpace (c : Char) : Bool :=
  (9 ≤ c.toNat && c.toNat ≤ 13) || c.toNat == 0x20 || c.toNat == 0xA0 || c.toNat == 0x1680 ||
    (0x2000 ≤ c.toNat && c.toNat ≤ 0x200A) || c.toNat == 0x2028 || c.toNat == 0x2029 ||
    c.toNat == 0x202F || c.toNat == 0x205F || c.toNat == 0x3000 || c.toNat == 0xFEFF

/-- The pending command is resolved or rejected. -/
def Received.settles (pending : PendingCommand) : Received → Bool
  | .event e => pending.settles e
  | .unnamed error requestID =>
    !error.toList.all isWhiteSpace && (requestID == "" || requestID == pending.requestId)

namespace State
variable (s : State)

def readyState (n : SocketID) : Option ReadyState := (s.sockets[n]?).map Socket.readyState

def setReadyState (n : SocketID) (r : ReadyState) : State :=
  { s with sockets := s.sockets.modify n (fun k => { k with readyState := r }) }

def isOpen : Bool :=
  match s.socket with
  | none => false
  | some n => decide (s.readyState n = some .open)

def flushQueue : State :=
  match s.pending, s.queue with
  | none, cmd :: rest =>
    if s.isOpen then { s with
      pending := some (s.nextRequestId,pendingCommand (requestId s.nextRequestId) cmd)
      queue := rest
      nextRequestId := s.nextRequestId + 1 }
    else s
  | _, _ => s

def rejectAllPending : State := { s with pending := none, queue := [] }

/-- Half a second, doubled with each attempt, fifteen seconds at most. -/
def delay (attempt : ℕ) : ℕ := min 15000 (500 * 2 ^ (attempt - 1))

def scheduleReconnect : State :=
  if s.closedByUser = true ∨ s.reconnectTimer ≠ none then s
  else { s with
    reconnectAttempt := s.reconnectAttempt + 1
    reconnectTimer := some (delay (s.reconnectAttempt + 1)) }

def notify (phase : ReconnectPhase) : State := { s with phases := s.phases ++ [phase] }

/-- A scheduled reconnect has connected. -/
def reconnected : State := { s with reconnectAttempt := 0 }.notify .restored

def waiting (n : SocketID) : ℕ := ((s.sockets[n]?).map Socket.waiting).getD 0

/-- The promise is settled, and so waits for nothing any more. -/
def settle (n : SocketID) : State :=
  { s with sockets := s.sockets.modify n (fun k => { k with waiting := 0 }) }

/-- `resolve` of the promise of a socket, and the `then` of each scheduled reconnect. -/
def resolve (n : SocketID) : State := reconnected^[s.waiting n] (s.settle n)

/-- `reject`, and the `catch` of each scheduled reconnect. -/
def reject (n : SocketID) : State := scheduleReconnect^[s.waiting n] (s.settle n)

/-- The promise that is returned, if it is not resolved already. Without a valid token
`resolveWsUrl` throws in its executor. -/
def connect (hasToken : Bool) : State × Option ConnectionPromise :=
  if s.isOpen then (s,none)
  else match s.connectionPromise with
    | some promise => (s,some promise)
    | none =>
      if hasToken then ({ s with
        closedByUser := false
        sockets := s.sockets ++ [⟨.connecting,0⟩]
        socket := some s.sockets.length
        connectionPromise := some (.opening s.sockets.length) },some (.opening s.sockets.length))
      else ({ s with closedByUser := false, connectionPromise := some .rejected },some .rejected)

/-- The callback of the reconnect timer. -/
def reconnect (hasToken : Bool) : State :=
  match { s with reconnectTimer := none }.connect hasToken with
  | (s,none) => s.reconnected
  | (s,some (.opening n)) => { s with
      sockets := s.sockets.modify n (fun k => { k with waiting := k.waiting + 1 }) }
  | (s,some .rejected) => s.scheduleReconnect

def close : State :=
  let s := { s with closedByUser := true, reconnectTimer := none, connectionPromise := none }.rejectAllPending
  match s.socket with
  | none => s
  | some n =>
    if s.readyState n = some .connecting ∨ s.readyState n = some .open then
      { s.setReadyState n .closing with socket := none }
    else { s with socket := none }

/-- A response settles the pending command, and the next one is sent. -/
def receive (r : Received) : State :=
  match s.pending with
  | none => s
  | some (_,p) => if r.settles p then { s with pending := none }.flushQueue else s

end State

/-- `hasToken` says whether there is a valid access token. -/
inductive Event where
  | connect (hasToken : Bool)
  | close
  | sendCommand (cmd : Command)
  /-- The response has not come in time. -/
  | timeout
  | reconnectTimer (hasToken : Bool)
  /-- The other side has begun to close the socket, or its connection is lost. -/
  | closing (n : SocketID)
  | onopen (n : SocketID)
  | onerror (n : SocketID)
  | onclose (n : SocketID)
  | onmessage (n : SocketID) (r : Received)

/-- The socket whose event it is. -/
def Event.socket : Event → Option SocketID
  | .closing n => some n
  | .onopen n => some n
  | .onerror n => some n
  | .onclose n => some n
  | .onmessage n _ => some n
  | _ => none

/-- A socket opens once, fails or closes once, and receives while it is open. -/
def step (s : State) : Event → Option State
  | .connect hasToken => some (s.connect hasToken).1
  | .close => some s.close
  | .sendCommand cmd =>
    if s.isOpen then some { s with queue := s.queue ++ [cmd] }.flushQueue else some s
  | .timeout =>
    match s.pending with
    | none => none
    | some _ => some { s with pending := none }.flushQueue
  | .reconnectTimer hasToken =>
    match s.reconnectTimer with
    | none => none
    | some _ => some (s.reconnect hasToken)
  | .closing n =>
    if s.readyState n = some .open then some (s.setReadyState n .closing) else none
  | .onopen n =>
    if s.readyState n = some .connecting then
      some ({ s.setReadyState n .open with connectionPromise := none }.flushQueue.resolve n)
    else none
  | .onerror n =>
    match s.readyState n with
    | none | some .failed | some .closed => none
    | some _ => some ({ s.setReadyState n .failed with connectionPromise := none }.reject n)
  | .onclose n =>
    match s.readyState n with
    | none | some .closed => none
    | some _ =>
      let s : State := { s.setReadyState n .closed with connectionPromise := none }.rejectAllPending
      if s.closedByUser = true then some s else some (s.notify .lost).scheduleReconnect
  | .onmessage n r => if s.readyState n = some .open then some (s.receive r) else none

end MiniDiscord.ChatSocket
