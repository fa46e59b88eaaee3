import MiniDiscord.Sfu.Room
import MiniDiscord.Transition.LabelledRuns

/-! # The registry of connections

`clientsByUser` and the outbound channels of the connections. A section under `h.mu` is
one event. Registrations and unregistrations are `Run`'s, pushes come from any goroutine,
and a connection's reader may ask for its unregistration as often as it likes.
-/
namespace MiniDiscord.Connections
open Transition

/-- The pointer to a `Client`. -/
abbrev ClientID := ℕ

structure WsEvent where
  event : String
  data : String := ""
  deriving DecidableEq

def WsEventConnected : String := "connected"
def WsEventVoiceUserJoined : String := "voice_user_joined"
def WsEventVoiceUserLeft : String := "voice_user_left"
def WsEventVoiceStatusChanged : String := "voice_status_changed"
def WsEventSfuOffer : String := "sfu_offer"
def WsEventSfuAnswer : String := "sfu_answer"
def WsEventSfuCandidate : String := "sfu_candidate"

def isCriticalVoiceEvent (event : String) : Bool :=
  decide (event ∈ [WsEventVoiceUserJoined,WsEventVoiceUserLeft,WsEventVoiceStatusChanged,
    WsEventSfuOffer,WsEventSfuAnswer,WsEventSfuCandidate])

/-- The capacity of `Outbound`. -/
def outboundCap : ℕ := 256

/-- `closes` counts the executions of `close(cl.Outbound)`. -/
structure Client where
  userID : UserID
  outbound : List WsEvent
  closes : ℕ
  connClosed : Bool

def newClient (userID : UserID) : Client := ⟨userID,[],0,false⟩

/-- What ends the process. -/
inductive Panic where
  | sendOnClosedChannel (client : ClientID)
  | closeOfClosedChannel (client : ClientID)
  deriving DecidableEq

/-- One event put on a channel: for whom, on whose, and who was registered just then. -/
structure Sent where
  userID : UserID
  client : ClientID
  registered : Option ClientID
  deriving DecidableEq

/-- `handed` are the connections whose handler has sent itself to `Register`; `greeting`
is what `registerClient` has left to do. `sent` is history. -/
structure State where
  clients : ClientID → Client
  nextClient : ClientID
  handed : Finset ClientID
  clientsByUser : GoMap UserID ClientID
  greeting : Option ClientID
  panic : Option Panic
  sent : List Sent

def init : State where
  clients := fun _ => newClient 0
  nextClient := 0
  handed := ∅
  clientsByUser := ∅
  greeting := none
  panic := none
  sent := []

namespace State

def setClient (s : State) (cl : ClientID) (c : Client) : State :=
  { s with clients := Function.update s.clients cl c }

/-- `cl.Conn.Close()`. -/
def closeConn (s : State) (cl : ClientID) : State :=
  s.setClient cl { s.clients cl with connClosed := true }

/-- `close(cl.Outbound)`. -/
def closeOutbound (s : State) (cl : ClientID) : State :=
  { s.setClient cl { s.clients cl with closes := (s.clients cl).closes + 1 } with
    panic := if (s.clients cl).closes = 0 then s.panic else some (.closeOfClosedChannel cl) }

/-- The `select` on a closed channel panics although it has a default. -/
def enqueueEvent (s : State) (userID : UserID) (cl : ClientID) (event : WsEvent) : State :=
  let c := s.clients cl
  if c.closes ≠ 0 then { s with panic := some (.sendOnClosedChannel cl) }
  else if c.outbound.length < outboundCap then
    { s.setClient cl { c with outbound := c.outbound ++ [event] } with
      sent := s.sent ++ [⟨userID,cl,s.clientsByUser.lookup userID⟩] }
  else if isCriticalVoiceEvent event.event = true then s.closeConn cl
  else s

/-- One round of the loop in `pushToUsers`. -/
def pushToUser (event : WsEvent) (s : State) (userID : UserID) : State :=
  match s.clientsByUser.lookup userID with
  | none => s
  | some cl => s.enqueueEvent userID cl event

def pushToUsers (s : State) (userIDs : List UserID) (event : WsEvent) : State :=
  userIDs.foldl (pushToUser event) s

def pushEvent (s : State) (cl : ClientID) (event : WsEvent) : State :=
  if s.clientsByUser.lookup (s.clients cl).userID = some cl then
    s.enqueueEvent (s.clients cl).userID cl event
  else s

/-- The section of `registerClient` under `h.mu`. -/
def registerClient (s : State) (cl : ClientID) : State :=
  let userID := (s.clients cl).userID
  let s' := match s.clientsByUser.lookup userID with
    | none => s
    | some old => if old ≠ cl then (s.closeConn old).closeOutbound old else s
  { s' with clientsByUser := s'.clientsByUser.insert userID cl, greeting := some cl }

/-- The section of `unregisterClient` under `h.mu`. -/
def unregisterClient (s : State) (cl : ClientID) : State :=
  let userID := (s.clients cl).userID
  if s.clientsByUser.lookup userID = some cl then
    { s with clientsByUser := s.clientsByUser.erase userID }.closeOutbound cl
  else s

end State

inductive Event where
  /-- `handleSocket` makes a client for a new connection. -/
  | handleSocket (userID : UserID)
  | register (client : ClientID)
  /-- `registerClient` greets the client it has registered. -/
  | greet
  | unregister (client : ClientID)
  | pushToUsers (userIDs : List UserID) (event : WsEvent)
  | pushEvent (client : ClientID) (event : WsEvent)
  /-- `writeMessage` takes an event off the channel. -/
  | writeMessage (client : ClientID)
  /-- The connection is closed by its writer or breaks. -/
  | closeConn (client : ClientID)
  deriving DecidableEq

/-- A connection registers once, and is known to nobody before. -/
def step (s : State) (e : Event) : Option State :=
  if s.panic ≠ none then none else
  match e with
  | .handleSocket userID =>
    if 0 < userID then
      some { s.setClient s.nextClient (newClient userID) with nextClient := s.nextClient + 1 }
    else none
  | .register cl =>
    if cl < s.nextClient ∧ cl ∉ s.handed ∧ s.greeting = none then
      some ({ s with handed := insert cl s.handed }.registerClient cl)
    else none
  | .greet =>
    match s.greeting with
    | none => none
    | some cl => some ({ s with greeting := none }.pushEvent cl { event := WsEventConnected })
  | .unregister cl => if cl < s.nextClient ∧ s.greeting = none then some (s.unregisterClient cl) else none
  | .pushToUsers userIDs event => some (s.pushToUsers userIDs event)
  | .pushEvent cl event => if cl < s.nextClient then some (s.pushEvent cl event) else none
  | .writeMessage cl =>
    match (s.clients cl).outbound with
    | [] => none
    | _ :: rest => some (s.setClient cl { s.clients cl with outbound := rest })
  | .closeConn cl => if cl < s.nextClient then some (s.closeConn cl) else none

end MiniDiscord.Connections
