import MiniDiscord.Data.GoMap
import MiniDiscord.Notifications.Events
import MiniDiscord.Notifications.Sender
import MiniDiscord.Transition.LabelledRuns

/-! # From a client's command to a push

The hub's loop takes registrations, unregistrations and the queued commands one at a time,
in any order that they arrive in. What it hands to the push sender waits for a worker.
-/
namespace MiniDiscord.Notifications
open ChatHub Effects Program Transition

/-- The pointer to a `Client`. -/
abbrev ClientID := ℕ

/-- Where the handler of a connection is: before `Register`, in `readMessage`, before
`Unregister`, or at its end. -/
inductive Phase where
  | connecting
  | reading
  | closing
  | gone
  deriving DecidableEq

structure Client where
  userID : UserID
  phase : Phase

/-- A `send_message` in the queue of the hub. -/
structure WsCommandRequest where
  client : ClientID
  requestID : String
  payload : Option WsSendMessageRequest

/-- The capacities of `Commands` and of the sender's queue. -/
def commandBufferSize : ℕ := 64
def eventBufferSize : ℕ := 1024
def workerCount : ℕ := 4

structure AggState where
  count : ℕ
  last : PushEvent
  hidePreview : Bool

abbrev AggKey := UserID × ChannelID

/-- One push to one endpoint of a user. -/
structure Pushed where
  userID : UserID
  endpoint : String
  event : PushEvent
  mention : Bool
  count : ℕ
  hidePreview : Bool

/-- `workers w` is the event of a busy worker, with what is still to be done for it.
`folded` and `sent` are history. -/
structure State where
  clients : ClientID → Client
  nextClient : ClientID
  clientsByUser : GoMap UserID ClientID
  commands : List WsCommandRequest
  events : List PushEvent
  workers : ℕ → Option (PushEvent × List Delivery)
  agg : GoMap AggKey AggState
  folded : List (UserID × PushEvent)
  sent : List Pushed

def init : State where
  clients := fun _ => ⟨0,.gone⟩
  nextClient := 0
  clientsByUser := ∅
  commands := []
  events := []
  workers := fun _ => none
  agg := ∅
  folded := []
  sent := []

namespace State

def setPhase (s : State) (cl : ClientID) (phase : Phase) : State :=
  { s with clients := Function.update s.clients cl { s.clients cl with phase := phase } }

def setWorker (s : State) (w : ℕ) (work : Option (PushEvent × List Delivery)) : State :=
  { s with workers := Function.update s.workers w work }

/-- The calls of a command find the registered users, in the order `online`. -/
def answers (online : List UserID) (oracle : Oracle Call Call.Answer) : Oracle Call Call.Answer :=
  fun n c => match c with
    | .clientsByUser => online
    | c => oracle n c

/-- `Sender.Enqueue`, which drops what does not fit. -/
def enqueue (s : State) (event : PushEvent) : State :=
  if s.events.length < eventBufferSize then { s with events := s.events ++ [event] } else s

def deliver (s : State) (userID : UserID) (subs : List String) (event : PushEvent) (mention : Bool)
    (count : ℕ) (hidePreview : Bool) : State :=
  { s with sent := s.sent ++ subs.map (fun endpoint =>
      ⟨userID,endpoint,event,mention,count,hidePreview⟩) }

def aggregate (s : State) (userID : UserID) (event : PushEvent) (hidePreview : Bool) : State :=
  let count := ((s.agg.lookup (userID,event.channelID)).map AggState.count).getD 0
  { s with
    agg := s.agg.insert (userID,event.channelID) ⟨count + 1,event,hidePreview⟩
    folded := s.folded ++ [(userID,event)] }

/-- What a worker does for one recipient; `subs` are the recipient's endpoints. -/
def deliverTarget (s : State) (event : PushEvent) (d : Delivery) (subs : List String) : State :=
  if d.mention = true then s.deliver d.userID subs event true 1 d.hidePreview
  else s.aggregate d.userID event d.hidePreview

end State

inductive Event where
  /-- `handleSocket` makes a client for a new connection. -/
  | handleSocket (userID : UserID)
  | register (client : ClientID)
  | readMessage (client : ClientID) (requestID : String) (payload : Option WsSendMessageRequest)
  /-- The reader fails, and asks for the unregistration. -/
  | closeConn (client : ClientID)
  | unregister (client : ClientID)
  /-- `Run` takes the next command. -/
  | handle (oracle : Oracle Call Call.Answer) (online : List UserID)
  /-- A worker takes the next event and resolves its targets. -/
  | resolve (worker : ℕ) (tables : Tables) (now : Time)
  | resolveFails (worker : ℕ)
  | deliver (worker : ℕ) (subs : List String)
  /-- The timer of an aggregate fires. -/
  | flush (key : AggKey) (subs : List String)

variable (s3Host : String) (enabled : Bool)

/-- The command of a client, run with the hub's own registry. -/
def exchange (s : State) (req : WsCommandRequest) (oracle : Oracle Call Call.Answer)
    (online : List UserID) : List (Entry Call Call.Answer Act) :=
  (run (State.answers online oracle) 0
    (sendMessage s3Host ⟨(s.clients req.client).userID,req.requestID⟩ req.payload)).1

def handleCommand (s : State) (req : WsCommandRequest) (oracle : Oracle Call Call.Answer)
    (online : List UserID) : List PushEvent :=
  pushEvents (exchange s3Host s req oracle online)

def step (s : State) : Event → Option State
  | .handleSocket userID =>
    if 0 < userID then
      some { s with
        clients := Function.update s.clients s.nextClient ⟨userID,.connecting⟩
        nextClient := s.nextClient + 1 }
    else none
  | .register cl =>
    if (s.clients cl).phase = .connecting then
      some { s.setPhase cl .reading with
        clientsByUser := s.clientsByUser.insert (s.clients cl).userID cl }
    else none
  | .readMessage cl requestID payload =>
    if (s.clients cl).phase = .reading ∧ s.commands.length < commandBufferSize then
      some { s with commands := s.commands ++ [⟨cl,requestID,payload⟩] }
    else none
  | .closeConn cl =>
    if (s.clients cl).phase = .reading then some (s.setPhase cl .closing) else none
  | .unregister cl =>
    if (s.clients cl).phase = .closing then
      some { s.setPhase cl .gone with
        clientsByUser :=
          if s.clientsByUser.lookup (s.clients cl).userID = some cl then
            s.clientsByUser.erase (s.clients cl).userID
          else s.clientsByUser }
    else none
  | .handle oracle online =>
    match s.commands with
    | [] => none
    | req :: rest =>
      if online.toFinset = s.clientsByUser.keys then
        let s' := { s with commands := rest }
        if enabled = true then
          some ((handleCommand s3Host s req oracle online).foldl State.enqueue s')
        else some s'
      else none
  | .resolve w tables now =>
    match s.events with
    | [] => none
    | event :: rest =>
      if w < workerCount ∧ s.workers w = none then
        some ({ s with events := rest }.setWorker w (some (event,processEvent tables event now)))
      else none
  | .resolveFails w =>
    match s.events with
    | [] => none
    | _ :: rest =>
      if w < workerCount ∧ s.workers w = none then some { s with events := rest } else none
  | .deliver w subs =>
    match s.workers w with
    | none => none
    | some (_,[]) => some (s.setWorker w none)
    | some (event,d :: ds) => some ((s.setWorker w (some (event,ds))).deliverTarget event d subs)
  | .flush key subs =>
    match s.agg.lookup key with
    | none => none
    | some a =>
      some ({ s with agg := s.agg.erase key }.deliver key.1 subs a.last false a.count a.hidePreview)

end MiniDiscord.Notifications
