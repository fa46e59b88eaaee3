import Mathlib.Logic.Function.Basic
import MiniDiscord.Commands.Messages
import MiniDiscord.History.Pages

/-! # What is stored of a message

The columns of `messages`, `message_embeds` and `link_previews` that a message is shown
from, the statements that write them, and the queries by which a page is read.
-/
namespace MiniDiscord.MessageContent
open ChatHub SfuTrack MessageHistory

abbrev URLHash := String

structure ReplyTo where
  messageID : MessageID
  content : String
  deriving DecidableEq

structure Message where
  key : Key
  content : String
  replyToID : Option MessageID
  replyTo : Option ReplyTo := none
  embeds : List WsLinkPreview := []
  editedAt : Option Time := none
  deriving DecidableEq

def Message.id (m : Message) : MessageID := m.key.id

structure Row where
  authorID : UserID
  content : String
  editedAt : Option Time
  replyToID : Option MessageID
  hasAttachments : Bool
  deriving DecidableEq

inductive LinkPreviewStatus where
  | ok
  | empty
  | failed
  deriving DecidableEq

structure LinkPreviewRecord where
  url : String
  status : LinkPreviewStatus
  title : String
  description : String
  siteName : String
  imageURL : String
  imageToken : String
  deriving DecidableEq

def LinkPreviewRecord.preview (record : LinkPreviewRecord) : WsLinkPreview :=
  ⟨record.url,record.title,record.description,record.siteName,record.imageToken⟩

/-- `stored` are the messages of the channel in order, and `rows` the rest of their columns.
A message has at most one embed, at position 0. -/
structure Tables where
  stored : List Key
  rows : MessageID → Row
  messageEmbeds : MessageID → Option URLHash
  linkPreviews : URLHash → Option LinkPreviewRecord

/-- A column that must not be empty holds a space. -/
def storedContent (content : String) : String := if content = "" then " " else content

def shownContent (content : String) : String := if content = " " then "" else content

theorem shownContent_stored {content : String} (h : content ≠ " ") :
    shownContent (storedContent content) = content := by
  unfold shownContent storedContent
  by_cases hc : content = ""
  · rw [if_pos hc,if_pos rfl,hc]
  · rw [if_neg hc,if_neg h]

/-- What has been trimmed begins with no space. -/
theorem trimSpace_ne_space (s : String) : trimSpace s ≠ " " := by
  intro h
  unfold trimSpace at h
  have hlist : ((s.toList.dropWhile isSpace).reverse.dropWhile isSpace).reverse = [' '] := by
    have := congrArg String.toList h
    rwa [String.toList_ofList] at this
  have hrev : (s.toList.dropWhile isSpace).reverse.dropWhile isSpace = [' '] := by
    rw [← List.reverse_reverse (List.dropWhile _ _),hlist]
    rfl
  have hhead := List.head_dropWhile_not isSpace (l := (s.toList.dropWhile isSpace).reverse)
    (by rw [hrev]; exact List.cons_ne_nil _ _)
  simp only [hrev,List.head_cons] at hhead
  exact absurd hhead (by decide)

namespace Tables

/-! ## The queries -/

def contentOf (t : Tables) (id : MessageID) : String := shownContent (t.rows id).content

/-- `GetReplyPreview`. A foreign key sees to it that the row is there. -/
def replyPreview (t : Tables) (id : MessageID) : ReplyTo := ⟨id,t.contentOf id⟩

/-- `GetMessageEmbeds`, for one message. -/
def embedsOf (t : Tables) (id : MessageID) : List WsLinkPreview :=
  match t.messageEmbeds id with
  | none => []
  | some hash =>
    match t.linkPreviews hash with
    | none => []
    | some record => if record.status = .ok then [record.preview] else []

def scanMessageRow (t : Tables) (k : Key) : Message where
  key := k
  content := t.contentOf k.id
  replyToID := (t.rows k.id).replyToID
  editedAt := (t.rows k.id).editedAt

/-- `GetMessageReplyTos`, and what `enrichMessages` does with it. -/
def withReplyTo (t : Tables) (m : Message) : Message :=
  { m with replyTo := (t.rows m.id).replyToID.map t.replyPreview }

def withEmbeds (t : Tables) (m : Message) : Message := { m with embeds := t.embedsOf m.id }

/-! ## The statements -/

def setRow (t : Tables) (id : MessageID) (row : Row) : Tables :=
  { t with rows := Function.update t.rows id row }

def saveMessage (t : Tables) (k : Key) (row : Row) : Tables :=
  { t with stored := t.stored.orderedInsert (· ≤ ·) k }.setRow k.id
    { row with content := storedContent row.content }

/-- `windowExpired` is what Postgres says of the time since the message was created. -/
def editMessage (t : Tables) (messageID : MessageID) (userID : UserID) (content : String)
    (windowExpired : Bool) (editedAt : Time) : Except GoError Tables :=
  let row := t.rows messageID
  if ∀ k ∈ t.stored, k.id ≠ messageID then .error .messageNotFound
  else if row.authorID ≠ userID then .error .notMessageOwner
  else if windowExpired = true then .error .editWindowExpired
  else if content = "" ∧ row.hasAttachments = false then .error .emptyContent
  else .ok (t.setRow messageID
    { row with content := storedContent content, editedAt := some editedAt })

/-- The token that is in effect after an upsert. -/
def effectiveToken (t : Tables) (hash : URLHash) (record : LinkPreviewRecord) : String :=
  match t.linkPreviews hash with
  | none => record.imageToken
  | some old =>
    if record.imageURL = "" then ""
    else if old.imageToken = "" then record.imageToken
    else old.imageToken

def upsertLinkPreview (t : Tables) (hash : URLHash) (record : LinkPreviewRecord) : Tables :=
  let record := { record with imageToken := t.effectiveToken hash record }
  { t with linkPreviews := Function.update t.linkPreviews hash (some record) }

def linkMessageEmbed (t : Tables) (messageID : MessageID) (hash : URLHash) : Tables :=
  { t with messageEmbeds := Function.update t.messageEmbeds messageID (some hash) }

/-! ## What a statement leaves alone -/

variable (t : Tables)

/-- An edit that succeeds writes the text and the mark of one row. -/
theorem editMessage_ok {t' : Tables} {messageID : MessageID} {userID : UserID} {content : String}
    {windowExpired : Bool} {editedAt : Time}
    (h : t.editMessage messageID userID content windowExpired editedAt = .ok t') :
    (∃ k ∈ t.stored, k.id = messageID) ∧
      t' = t.setRow messageID
        { t.rows messageID with content := storedContent content, editedAt := some editedAt } := by
  unfold editMessage at h
  dsimp only at h
  split at h
  · cases h
  · rename_i hstored
    split at h
    · cases h
    · split at h
      · cases h
      · split at h
        · cases h
        · cases h
          constructor
          · by_contra hnone
            apply hstored
            intro k hk hid
            exact hnone ⟨k,hk,hid⟩
          · rfl

theorem embedsOf_congr {t t' : Tables} {id : MessageID} (he : t'.messageEmbeds id = t.messageEmbeds id)
    (hl : t'.linkPreviews = t.linkPreviews) : t'.embedsOf id = t.embedsOf id := by
  unfold embedsOf
  rw [he,hl]

theorem embedsOf_none {t : Tables} {id : MessageID} (h : t.messageEmbeds id = none) :
    t.embedsOf id = [] := by
  unfold embedsOf
  rw [h]

end Tables

end MiniDiscord.MessageContent
