import MiniDiscord.Content.Tables
import MiniDiscord.Replication.Arrivals
import MiniDiscord.Transition.LabelledRuns

/-! # How the content of a channel reaches a client

The hub saves and edits messages on its loop, reads pages query by query, on the loop or
off it, and a pool of workers links previews to messages. The client holds what the
responses and the events leave of the channel.
-/
namespace MiniDiscord.MessageContent
open ChatHub SfuTrack MessageHistory Transition Replication

/-! ## Loading -/

/-- What the client loads; a load that is not the first may carry any cursor. -/
inductive Load where
  | initial
  | older (cursor : Key)
  | jump (messageID : MessageID)
  | newer (cursor : Key)
  | reset
  deriving DecidableEq

/-- The hub handles these off its loop. -/
def Load.offLoop : Load → Bool
  | .jump _ => true
  | .newer _ => true
  | _ => false

/-- How far the queries of a page have come. -/
inductive Stage where
  | requested
  | rows
  | replies
  | embeds
  deriving DecidableEq

structure Handler where
  load : Load
  stage : Stage := .requested
  page : Page := {}
  messages : List Message := []
  deriving DecidableEq

/-- Which rows make up the page; a jump to a message that is not there is an error. -/
def Load.page (stored : List Key) : Load → Option Page
  | .initial => some (getMessages stored 100 none)
  | .older cursor => some (getMessages stored 50 (some cursor))
  | .jump messageID => getMessagesAround stored messageID 25
  | .newer cursor => some (getMessagesAfter stored 50 cursor)
  | .reset => some (getMessages stored 100 none)

/-! ## Events -/

/-- What an event changes of the messages that are shown already. -/
inductive Change where
  | edited (messageID : MessageID) (content : String) (editedAt : Time)
  | embeds (messageID : MessageID) (embeds : List WsLinkPreview)
  deriving DecidableEq

inductive WsEvent where
  | message (m : Message)
  | change (c : Change)
  | page (load : Load) (page : Page) (messages : List Message)
  deriving DecidableEq

/-- `message_edited`, for one message of the cache. -/
def Message.edited (m : Message) (messageID : MessageID) (content : String) (editedAt : Time) :
    Message :=
  if m.id = messageID then { m with content := content, editedAt := some editedAt }
  else match m.replyTo with
  | none => m
  | some replyTo =>
    if replyTo.messageID = messageID then
      { m with replyTo := some { replyTo with content := content } }
    else m

/-- `message_embeds`: only the first message with the ID is found. -/
def withEmbedsOf (messageID : MessageID) (embeds : List WsLinkPreview) : List Message → List Message
  | [] => []
  | m :: rest =>
    if m.id = messageID then { m with embeds := embeds } :: rest
    else m :: withEmbedsOf messageID embeds rest

/-! ## Link previews -/

structure CachedPreview where
  preview : WsLinkPreview
  ok : Bool
  deriving DecidableEq

def toCached (record : LinkPreviewRecord) : CachedPreview :=
  if record.status = .ok then ⟨record.preview,true⟩ else ⟨⟨"","","","",""⟩,false⟩

/-- Where a worker stands with a job. -/
inductive Phase where
  | queued
  | resolving (hash : URLHash)
  | missed (hash : URLHash)
  | fetching (hash : URLHash)
  | fetched (hash : URLHash) (record : LinkPreviewRecord)
  | found (hash : URLHash) (entry : CachedPreview)
  | resolved (hash : URLHash) (preview : WsLinkPreview)
  | linked (preview : WsLinkPreview)
  deriving DecidableEq

/-- `recipient` is whether the client is among the job's recipients. -/
structure Job where
  messageID : MessageID
  recipient : Bool
  phase : Phase
  deriving DecidableEq

/-! ## The whole -/

/-- What a command on the loop has saved and has still to push. -/
inductive Announcement where
  | message (m : Message) (recipient : Bool)
  | edited (messageID : MessageID) (content : String) (editedAt : Time)
  deriving DecidableEq

/-- `last` is the ID given last. `paginationRef` is `hasMoreNewer` as it was rendered last. -/
structure State where
  tables : Tables
  last : MessageID
  announcing : Option Announcement
  handlers : List Handler
  cache : URLHash → Option CachedPreview
  jobs : List Job
  outbound : List WsEvent
  messages : List Message
  hasMoreNewer : Bool
  paginationRef : Bool

def init : State where
  tables := ⟨[],fun _ => ⟨0,"",none,none,false⟩,fun _ => none,fun _ => none⟩
  last := 0
  announcing := none
  handlers := []
  cache := fun _ => none
  jobs := []
  outbound := []
  messages := []
  hasMoreNewer := false
  paginationRef := false

namespace State

/-- The loop takes no command while it is at one. -/
def Busy (s : State) : Prop := s.announcing ≠ none ∨ ∃ h ∈ s.handlers, h.load.offLoop = false

instance (s : State) : Decidable s.Busy := by
  unfold Busy
  infer_instance

/-! ### The client -/

/-- What is done with the response to a load. -/
def resolved (s : State) (res : Page) (messages : List Message) : Load → State
  | .initial => { s with messages := messages, hasMoreNewer := false }
  | .older _ => { s with messages := messages ++ s.messages }
  | .jump _ => { s with messages := messages, hasMoreNewer := res.hasMoreNewer }
  | .newer _ => { s with messages := s.messages ++ messages, hasMoreNewer := res.hasMore }
  | .reset => { s with messages := messages, hasMoreNewer := false }

def receive (s : State) : WsEvent → State
  | .message m => if s.paginationRef = true then s else { s with messages := s.messages ++ [m] }
  | .change (.edited messageID content editedAt) =>
    { s with messages := s.messages.map (fun m => m.edited messageID content editedAt) }
  | .change (.embeds messageID embeds) =>
    { s with messages := withEmbedsOf messageID embeds s.messages }
  | .page load res messages => s.resolved res messages load

/-! ### The hub -/

/-- `pushToUsers`, for the client: whether it is meant, and whether there is room. -/
def push (s : State) (event : WsEvent) (reaches : Bool) : State :=
  if reaches = true then { s with outbound := s.outbound ++ [event] } else s

/-- The checks and the insert of `sendMessage`. Only the loop writes texts, so what it reads
for the reply is not outdated by the time it saves. -/
def sendMessage (s : State) (userID : UserID) (content : String) (replyToID : Option MessageID)
    (createdAt : Time) (hasAttachments recipient : Bool) : Option State :=
  let content := trimSpace content
  if content = "" ∧ hasAttachments = false ∧ replyToID = none then none
  else if content.length > maxMessageContentLen then none
  else if ∃ id ∈ replyToID, ∀ k ∈ s.tables.stored, k.id ≠ id then none
  else
    let k : Key := toLex (createdAt,s.last + 1)
    let row : Row := ⟨userID,content,none,replyToID,hasAttachments⟩
    let m : Message :=
      { key := k
        content := content
        replyToID := replyToID
        replyTo := replyToID.map s.tables.replyPreview }
    some { s with
      tables := s.tables.saveMessage k row
      last := s.last + 1
      announcing := some (.message m recipient) }

def editMessage (s : State) (messageID : MessageID) (userID : UserID) (content : String)
    (windowExpired : Bool) (editedAt : Time) : Option State :=
  let content := trimSpace content
  if content.length > maxMessageContentLen then none
  else match s.tables.editMessage messageID userID content windowExpired editedAt with
  | .error _ => none
  | .ok tables =>
    some { s with tables := tables, announcing := some (.edited messageID content editedAt) }

/-- The end of the two commands. A message with a text may become a job of the workers. -/
def announce (s : State) (fits enqueued : Bool) : Announcement → State
  | .message m recipient =>
    let s := { s with announcing := none }.push (.message m) (recipient && fits)
    if enqueued = true ∧ m.content ≠ "" then
      { s with jobs := s.jobs ++ [⟨m.id,recipient,.queued⟩] }
    else s
  | .edited messageID content editedAt =>
    { s with announcing := none }.push (.change (.edited messageID content editedAt)) fits

/-- The next query of a page. The last one may fail, and then there are no embeds; any other
failure ends the handler with an error. -/
def readNext (s : State) (h : Handler) (ok : Bool) : Option Handler :=
  match h.stage with
  | .requested =>
    if ok = false then none else
    (h.load.page s.tables.stored).map (fun page =>
      { h with stage := .rows, page := page, messages := page.messages.map s.tables.scanMessageRow })
  | .rows =>
    if ok = false then none else
    some { h with stage := .replies, messages := h.messages.map s.tables.withReplyTo }
  | .replies =>
    some { h with
      stage := .embeds
      messages := if ok = true then h.messages.map s.tables.withEmbeds else h.messages }
  | .embeds => some h

def setHandler (s : State) (i : ℕ) : Option Handler → State
  | none => { s with handlers := s.handlers.eraseIdx i }
  | some h => { s with handlers := s.handlers.set i h }

/-! ### The workers -/

def setJob (s : State) (i : ℕ) (job : Job) (phase : Phase) : State :=
  { s with jobs := s.jobs.set i { job with phase := phase } }

def dropJob (s : State) (i : ℕ) : State := { s with jobs := s.jobs.eraseIdx i }

/-- `resolve` returns an entry. -/
def resolvedTo (s : State) (i : ℕ) (job : Job) (hash : URLHash) (entry : CachedPreview) : State :=
  if entry.ok = true then s.setJob i job (.resolved hash entry.preview) else s.dropJob i

end State

/-- What a worker does next with its job. -/
inductive WorkerEvent where
  /-- `hash` is that of the first eligible URL of the text. -/
  | process (hash : Option URLHash)
  | cacheGet
  /-- A record that is not found, or not fresh, is fetched. -/
  | getLinkPreview (fresh : Bool)
  /-- Whatever the site answers; a failure is a record too. -/
  | fetch (record : LinkPreviewRecord)
  /-- Another worker was at the same URL, and its entry is taken. -/
  | joinFlight
  | upsertLinkPreview (ok : Bool)
  | cacheSet
  | linkMessageEmbed (ok : Bool)
  | broadcastEmbeds (fits : Bool)
  deriving DecidableEq

/-- Only a record with an image gets a token. -/
def withImageToken (record : LinkPreviewRecord) : LinkPreviewRecord :=
  { record with imageToken := if record.imageURL = "" then "" else record.imageToken }

namespace State

def work (s : State) (i : ℕ) (job : Job) (e : WorkerEvent) : Option State :=
  match e,job.phase with
  | .process none,.queued => some (s.dropJob i)
  | .process (some hash),.queued => some (s.setJob i job (.resolving hash))
  | .cacheGet,.resolving hash =>
    match s.cache hash with
    | some entry => some (s.resolvedTo i job hash entry)
    | none => some (s.setJob i job (.missed hash))
  | .getLinkPreview fresh,.missed hash =>
    match s.tables.linkPreviews hash,fresh with
    | some record,true => some (s.setJob i job (.found hash (toCached record)))
    | _,_ => some (s.setJob i job (.fetching hash))
  | .fetch record,.fetching hash => some (s.setJob i job (.fetched hash (withImageToken record)))
  | .joinFlight,.fetching hash =>
    match s.cache hash with
    | some entry => some (s.resolvedTo i job hash entry)
    | none => some (s.dropJob i)
  | .upsertLinkPreview ok,.fetched hash record =>
    if ok = true then
      let tables := s.tables.upsertLinkPreview hash record
      let record := { record with imageToken := s.tables.effectiveToken hash record }
      some ({ s with tables := tables }.setJob i job (.found hash (toCached record)))
    else some (s.dropJob i)
  | .cacheSet,.found hash entry =>
    some ({ s with cache := Function.update s.cache hash (some entry) }.resolvedTo i job hash entry)
  | .linkMessageEmbed ok,.resolved hash preview =>
    if ok = true then
      some ({ s with tables := s.tables.linkMessageEmbed job.messageID hash }.setJob i job
        (.linked preview))
    else some (s.dropJob i)
  | .broadcastEmbeds fits,.linked preview =>
    some ((s.dropJob i).push (.change (.embeds job.messageID [preview])) (job.recipient && fits))
  | _,_ => none

end State

inductive Event where
  | request (load : Load)
  | sendMessage (userID : UserID) (content : String) (replyToID : Option MessageID)
      (createdAt : Time) (hasAttachments recipient : Bool)
  | editMessage (messageID : MessageID) (userID : UserID) (content : String)
      (windowExpired : Bool) (editedAt : Time)
  | announce (fits enqueued : Bool)
  | read (i : ℕ) (ok : Bool)
  | respond (i : ℕ) (fits : Bool)
  | work (i : ℕ) (e : WorkerEvent)
  /-- An entry of the workers' cache is gone after its time. -/
  | cacheExpire (hash : URLHash)
  | deliver
  | render
  deriving DecidableEq

def step (s : State) : Event → Option State
  | .request load =>
    if s.Busy then none else some { s with handlers := s.handlers ++ [{ load := load }] }
  | .sendMessage userID content replyToID createdAt hasAttachments recipient =>
    if s.Busy then none
    else s.sendMessage userID content replyToID createdAt hasAttachments recipient
  | .editMessage messageID userID content windowExpired editedAt =>
    if s.Busy then none else s.editMessage messageID userID content windowExpired editedAt
  | .announce fits enqueued => s.announcing.map (s.announce fits enqueued)
  | .read i ok => s.handlers[i]?.map (fun h => s.setHandler i (s.readNext h ok))
  | .respond i fits =>
    match s.handlers[i]? with
    | none => none
    | some h =>
      if h.stage = .embeds then
        some ((s.setHandler i none).push (.page h.load h.page h.messages) fits)
      else none
  | .work i e => s.jobs[i]?.bind (fun job => s.work i job e)
  | .cacheExpire hash => some { s with cache := Function.update s.cache hash none }
  | .deliver =>
    match s.outbound with
    | [] => none
    | event :: rest => some ({ s with outbound := rest }.receive event)
  | .render => some { s with paginationRef := s.hasMoreNewer }

end MiniDiscord.MessageContent
