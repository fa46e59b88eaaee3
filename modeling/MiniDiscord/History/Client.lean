import MiniDiscord.History.Pages
import MiniDiscord.Transition.LabelledRuns

/-! # A client's history of a channel

The hub saves and announces the messages of a channel, the client loads pages of it, one
request after the other, and its view is what the responses and the announcements leave.
The functions of the client see the state as it was rendered last.
-/
namespace MiniDiscord.MessageHistory
open ChatHub SfuTrack Paging Transition

/-! ## What React holds for the channel -/

/-- A cursor that is the empty string is none. -/
structure ChannelPagination where
  cursor : Option Key
  hasMore : Bool
  isLoadingMore : Bool := false
  error : Bool := false
  newerCursor : Option Key := none
  hasMoreNewer : Bool := false
  isLoadingNewer : Bool := false
  deriving DecidableEq

structure View where
  isConnected : Bool
  messages : List Key
  pagination : Option ChannelPagination
  loaded : Bool
  deriving DecidableEq

def View.hasMoreNewer (v : View) : Bool :=
  (v.pagination.map ChannelPagination.hasMoreNewer).getD false

/-- `setPaginationByChannel` with an update of the fields that there are. -/
def View.setPagination (v : View) (f : ChannelPagination → ChannelPagination) : View :=
  { v with pagination := some (f (v.pagination.getD { cursor := none, hasMore := false })) }

/-! ## Requests -/

/-- What awaits a response; `rollback` is the reload after a delete that was rejected. -/
inductive Load where
  | initial
  | older (cursor : Key)
  | jump (messageID : MessageID)
  | newer (cursor : Key)
  | reset
  | delete (messageID : MessageID)
  | rollback
  deriving DecidableEq

/-- The hub handles these off its loop, and echoes the request's ID. -/
def Load.offLoop : Load → Bool
  | .jump _ => true
  | .newer _ => true
  | _ => false

structure Request where
  id : ℕ
  load : Load
  deriving DecidableEq

/-- An event on its way to the client; a response is kept with the request it is for. -/
inductive WsEvent where
  | message (k : Key)
  | ack (req : Request) (page : Page)
  | error (req : Request)
  deriving DecidableEq

/-- A handler off the loop: `page` is `none` until it has read, and then what it read. -/
structure Handler where
  conn : ℕ
  req : Request
  page : Option (Option Page)
  deriving DecidableEq

/-- `last` is the message saved last, and `sending` the one saved and not yet pushed.
`commands` are with the connection they came on. -/
structure State where
  stored : List Key
  last : Key
  sending : Option Key
  commands : List (ℕ × Request)
  handlers : List Handler
  conn : ℕ
  isOpen : Bool
  outbound : List WsEvent
  nextRequestID : ℕ
  pending : Option Request
  queue : List Load
  view : View
  rendered : View
  deriving DecidableEq

def init : State where
  stored := []
  last := toLex (0,0)
  sending := none
  commands := []
  handlers := []
  conn := 0
  isOpen := false
  outbound := []
  nextRequestID := 1
  pending := none
  queue := []
  view := ⟨false,[],none,false⟩
  rendered := ⟨false,[],none,false⟩

namespace State

/-! ## The client -/

def flushQueue (s : State) : State :=
  if s.isOpen = false then s else
  match s.pending,s.queue with
  | none,load :: rest =>
    let req : Request := ⟨s.nextRequestID,load⟩
    { s with
      queue := rest
      pending := some req
      nextRequestID := s.nextRequestID + 1
      commands := s.commands ++ [(s.conn,req)] }
  | _,_ => s

def sendCommand (s : State) (load : Load) : State :=
  { s with queue := s.queue ++ [load] }.flushQueue

def setPagination (s : State) (f : ChannelPagination → ChannelPagination) : State :=
  { s with view := s.view.setPagination f }

/-- What is done when a request was rejected. -/
def rejected (s : State) : Load → State
  | .older _ => s.setPagination (fun pg => { pg with isLoadingMore := false, error := true })
  | .newer _ => s.setPagination (fun pg => { pg with isLoadingNewer := false })
  | .delete _ => if s.isOpen = true then s.sendCommand .rollback else s
  | _ => s

/-- A request on a socket that is not open is rejected at once. -/
def start (s : State) (load : Load) : State :=
  if s.isOpen = true then s.sendCommand load else s.rejected load

/-- What is done with the response to a request. -/
def resolved (s : State) (res : Page) : Load → State
  | .initial =>
    { s with view := { s.view with
        messages := res.messages
        pagination := some { cursor := res.nextCursor, hasMore := res.hasMore }
        loaded := true } }
  | .older _ =>
    { s with view := { s.view with messages := res.messages ++ s.view.messages } }.setPagination
      (fun pg => { pg with
        cursor := res.nextCursor, hasMore := res.hasMore, isLoadingMore := false, error := false })
  | .jump _ =>
    { s with view := { s.view with
        messages := res.messages
        pagination := some
          { cursor := res.olderCursor
            hasMore := res.hasMoreOlder
            newerCursor := res.newerCursor
            hasMoreNewer := res.hasMoreNewer } } }
  | .newer _ =>
    { s with view := { s.view with messages := s.view.messages ++ res.messages } }.setPagination
      (fun pg => { pg with
        newerCursor := res.nextCursor, hasMoreNewer := res.hasMore, isLoadingNewer := false })
  | .reset =>
    { s with view := { s.view with
        messages := res.messages
        pagination := some { cursor := res.nextCursor, hasMore := res.hasMore } } }
  | .delete _ => s
  | .rollback => { s with view := { s.view with messages := res.messages } }

/-- The pending request is settled, and the next one of the queue sent. -/
def settle (s : State) : State := { s with pending := none }.flushQueue

/-- A response that echoes another request's ID is stale. -/
def stale (req pending : Request) : Bool := req.load.offLoop && decide (req.id ≠ pending.id)

def receive (s : State) : WsEvent → State
  | .message k =>
    if s.rendered.isConnected = false then s
    else if s.rendered.hasMoreNewer = true then s
    else { s with view := { s.view with messages := s.view.messages ++ [k] } }
  | .ack req res =>
    match s.pending with
    | none => s
    | some pending => if stale req pending = true then s else s.settle.resolved res pending.load
  | .error req =>
    match s.pending with
    | none => s
    | some pending => if stale req pending = true then s else s.settle.rejected pending.load

def initialLoad (s : State) : State :=
  if s.rendered.isConnected = true ∧ s.rendered.loaded = false then s.start .initial else s

def loadOlderMessages (s : State) : State :=
  match s.rendered.pagination with
  | none => s
  | some state =>
    if s.rendered.isConnected = false ∨ state.isLoadingMore = true ∨ state.hasMore = false then s
    else match state.cursor with
    | none => s
    | some cursor =>
      (s.setPagination (fun pg => { pg with isLoadingMore := true, error := false })).start
        (.older cursor)

def jumpToMessage (s : State) (messageID : MessageID) : State :=
  if s.rendered.isConnected = false then s
  else if ∃ k ∈ s.rendered.messages, k.id = messageID then s
  else { s with view := { s.view with loaded := true } }.start (.jump messageID)

def loadNewerMessages (s : State) : State :=
  match s.rendered.pagination with
  | none => s
  | some state =>
    if s.rendered.isConnected = false ∨ state.isLoadingNewer = true ∨ state.hasMoreNewer = false then s
    else match state.newerCursor with
    | none => s
    | some cursor =>
      (s.setPagination (fun pg => { pg with isLoadingNewer := true })).start (.newer cursor)

def resetToLiveTail (s : State) : State :=
  if s.rendered.isConnected = true then s.start .reset else s

def handleDeleteMessage (s : State) (messageID : MessageID) : State :=
  if s.rendered.isConnected = false then s
  else { s with view := { s.view with
    messages := s.view.messages.filter (fun k => decide (k.id ≠ messageID)) } }.start (.delete messageID)

/-- The socket closes: whatever was requested is rejected. -/
def close (s : State) : State :=
  let closed := { s with isOpen := false, outbound := [], pending := none, queue := [] }
  let s' := ((s.pending.map Request.load).toList ++ s.queue).foldl rejected closed
  { s' with view := { s'.view with isConnected := false } }

/-! ## The hub -/

def removeStored (s : State) (messageID : MessageID) : State :=
  { s with stored := s.stored.filter (fun k => decide (k.id ≠ messageID)) }

/-- A response goes to the connection that it is for, if there is room. -/
def respond (s : State) (conn : ℕ) (event : WsEvent) (fits : Bool) : State :=
  if s.isOpen = true ∧ conn = s.conn ∧ fits = true then
    { s with outbound := s.outbound ++ [event] }
  else s

/-- The handlers on the loop, and the start of those off it. A delete that succeeds is not
answered; one that is answered with an error may have removed the row. -/
def handleCommand (s : State) (conn : ℕ) (req : Request) (ok removed fits : Bool) : State :=
  match req.load with
  | .older cursor =>
    s.respond conn (if ok = true then .ack req (getMessages s.stored 50 (some cursor)) else .error req) fits
  | .jump _ => { s with handlers := s.handlers ++ [⟨conn,req,none⟩] }
  | .newer _ => { s with handlers := s.handlers ++ [⟨conn,req,none⟩] }
  | .delete messageID =>
    if ok = true then s.removeStored messageID
    else (if removed = true then s.removeStored messageID else s).respond conn (.error req) fits
  | _ =>
    s.respond conn (if ok = true then .ack req (getMessages s.stored 100 none) else .error req) fits

/-- What a handler off the loop reads; it may fail. -/
def readPage (s : State) (load : Load) (ok : Bool) : Option Page :=
  if ok = false then none else
  match load with
  | .jump messageID => getMessagesAround s.stored messageID 25
  | .newer cursor => some (getMessagesAfter s.stored 50 cursor)
  | _ => none

def responseOf (req : Request) : Option Page → WsEvent
  | none => .error req
  | some page => .ack req page

end State

inductive Event where
  /-- A message is saved, and then pushed. -/
  | save (createdAt : Time)
  | push (fits : Bool)
  /-- Someone else's delete. -/
  | deleteStored (messageID : MessageID)
  | handle (ok removed fits : Bool)
  | read (i : ℕ) (ok : Bool)
  | respond (i : ℕ) (fits : Bool)
  | deliver
  | timeout
  /-- Of the commands that were sent, the hub has received the first ones. -/
  | disconnect (received : ℕ)
  | reconnect
  | render
  | initialLoad
  | loadOlderMessages
  | jumpToMessage (messageID : MessageID)
  | loadNewerMessages
  | resetToLiveTail
  | handleDeleteMessage (messageID : MessageID)
  deriving DecidableEq

def step (s : State) : Event → Option State
  | .save createdAt =>
    if s.sending = none then
      let k : Key := toLex (createdAt,s.last.id + 1)
      some { s with stored := s.stored.orderedInsert (· ≤ ·) k, last := k, sending := some k }
    else none
  | .push fits =>
    match s.sending with
    | none => none
    | some k => some ({ s with sending := none }.respond s.conn (.message k) fits)
  | .deleteStored messageID => if s.sending = none then some (s.removeStored messageID) else none
  | .handle ok removed fits =>
    match s.commands with
    | [] => none
    | (conn,req) :: rest =>
      if s.sending = none then
        some ({ s with commands := rest }.handleCommand conn req ok removed fits)
      else none
  | .read i ok =>
    match s.handlers[i]? with
    | none => none
    | some h =>
      if h.page = none then
        some { s with handlers := s.handlers.set i { h with page := some (s.readPage h.req.load ok) } }
      else none
  | .respond i fits =>
    match s.handlers[i]? with
    | none => none
    | some h =>
      match h.page with
      | none => none
      | some page =>
        some ({ s with handlers := s.handlers.eraseIdx i }.respond h.conn
          (State.responseOf h.req page) fits)
  | .deliver =>
    match s.outbound with
    | [] => none
    | event :: rest => some ({ s with outbound := rest }.receive event)
  | .timeout =>
    match s.pending with
    | none => none
    | some pending => some (s.settle.rejected pending.load)
  | .disconnect received =>
    if s.isOpen = true then some { s with commands := s.commands.take received }.close else none
  | .reconnect =>
    if s.isOpen = false then
      some { s with isOpen := true, conn := s.conn + 1, view := { s.view with isConnected := true } }
    else none
  | .render => some { s with rendered := s.view }
  | .initialLoad => some s.initialLoad
  | .loadOlderMessages => some s.loadOlderMessages
  | .jumpToMessage messageID => some (s.jumpToMessage messageID)
  | .loadNewerMessages => some s.loadNewerMessages
  | .resetToLiveTail => some s.resetToLiveTail
  | .handleDeleteMessage messageID => some (s.handleDeleteMessage messageID)

end MiniDiscord.MessageHistory
