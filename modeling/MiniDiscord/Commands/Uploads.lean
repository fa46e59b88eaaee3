import Mathlib.Logic.Function.Basic
import MiniDiscord.Commands.Dispatch
import MiniDiscord.Data.GoMap
import MiniDiscord.Effects.Pool

/-! # Uploaded files

A file goes from the upload request to the object store, waits in the hub's memory, is taken
by the command that sends it and becomes a row of its message. Upload requests and commands
run side by side, a call that fails may have had its effect, and the server may restart.
-/
namespace MiniDiscord.Uploads
open SfuTrack ChatHub Effects

/-! ## The upload request -/

structure FileHeader where
  filename : String
  size : Int

/-- The `user_id` of the session and the form file, when there are any. -/
structure UploadRequest where
  clientID : Option Int
  file : Option FileHeader

/-- The status and the message of a refusal. -/
abbrev WriteError := ℕ × String

structure UploadResponse where
  attachmentID : Int
  url : String

inductive UploadCall where
  | openFile
  | readAll (limit : ℕ)
  | detectContentType (raw : List UInt8)
  | selectAttachmentFolderKey (userID : UserID)
  | updateAttachmentFolderKey (userID : UserID) (newKey : String)
  | newString
  | putAttachment (key : String) (data : List UInt8) (filename contentType uniqueSuffix : String)
  | addAttachmentID
  | setPendingAttachment (id : Int) (pa : PendingAttachment)

@[reducible] def UploadCall.Answer : UploadCall → Type
  | .openFile => Except GoError Unit
  | .readAll _ => Except GoError (List UInt8)
  | .detectContentType _ => String
  | .selectAttachmentFolderKey _ => Except GoError (Option String)
  | .updateAttachmentFolderKey _ _ => Except GoError Unit
  | .newString => String
  | .putAttachment _ _ _ _ _ => Except GoError String
  | .addAttachmentID => Int
  | .setPendingAttachment _ _ => Unit

inductive UploadAct where
  | deleteUserFromCache (userID : UserID)
  | logError (message : String)

abbrev UploadM := Program UploadCall UploadCall.Answer UploadAct

/-- One step of the request. -/
abbrev call (c : UploadCall) : UploadM c.Answer := Program.call c
abbrev perform (a : UploadAct) : UploadM Unit := Program.perform a

/-- `filepath.Ext`: from the last dot of the last element on. -/
def ext (filename : String) : List Char := scan [] filename.toList.reverse
where
  scan (seen : List Char) : List Char → List Char
    | [] => []
    | c :: cs => if c = '/' then [] else if c = '.' then '.' :: seen else scan (c :: seen) cs

/-- `unicode.ToLower` where the result is an ASCII character. -/
def toLower (c : Char) : Char :=
  if c = '\u0130' then 'i' else if c = '\u212a' then 'k' else c.toLower

def uploadExtensions : List String :=
  [".jpg",".jpeg",".png",".gif",".webp",".avif",".mp4",".webm",".mov",".mp3",".ogg",".wav",".m4a"]

def mediaTypes : List String :=
  ["image/jpeg","image/png","image/gif","image/webp","image/avif","video/mp4","video/webm",
    "video/quicktime","audio/mpeg","audio/ogg","audio/wav","audio/webm","audio/mp4"]

def isAllowedMediaType (contentType : String) : Bool := decide (contentType ∈ mediaTypes)

def maxUploadSizeBytes : ℕ := 10 * 1024 * 1024

/-- The key that `PutAttachment` stores under, and that `handleUpload` formats again. -/
def attachmentKey (folderKey suffix filename : String) : String :=
  "attachments/" ++ folderKey ++ "/" ++ suffix ++ "_" ++ filename

/-- Two first uploads of a user may each write a folder key. -/
def getOrCreateAttachmentFolderKey (userID : UserID) : UploadM (Except GoError String) := do
  match ← call (.selectAttachmentFolderKey userID) with
  | .error err => return .error err
  | .ok folderKey =>
    match folderKey.filter (· ≠ "") with
    | some folderKey => return .ok folderKey
    | none =>
      let newKey : String ← call .newString
      match ← call (.updateAttachmentFolderKey userID newKey) with
      | .error err => return .error err
      | .ok _ =>
        perform (.deleteUserFromCache userID)
        return .ok newKey

def storePendingAttachment (pa : PendingAttachment) : UploadM Int := do
  let id : Int ← call .addAttachmentID
  let _ ← call (.setPendingAttachment id { pa with id := id })
  return id

/-- From the content on. -/
def storeUpload (clientID : UserID) (filename : String) (raw : List UInt8) :
    UploadM (Except WriteError UploadResponse) := do
  let contentType : String ← call (.detectContentType raw)
  if isAllowedMediaType contentType = false then
    return .error (400,"unsupported content type: " ++ contentType)
  match ← getOrCreateAttachmentFolderKey clientID with
  | .error _ =>
    perform (.logError "upload: failed to get user folder key")
    return .error (500,"failed to get user folder")
  | .ok folderKey =>
    let uuid : String ← call .newString
    let fileSuffix := String.ofList (uuid.toList.take 8)
    match ← call (.putAttachment folderKey raw filename contentType fileSuffix) with
    | .error _ =>
      perform (.logError "upload: failed to upload to s3")
      return .error (500,"failed to upload file")
    | .ok url =>
      let attachmentID ← storePendingAttachment
        ⟨0,clientID,folderKey,attachmentKey folderKey fileSuffix filename,filename,contentType,
          raw.length⟩
      return .ok ⟨attachmentID,url⟩

def handleUpload (req : UploadRequest) : UploadM (Except WriteError UploadResponse) := do
  match req.clientID with
  | none => return .error (403,"permission denied")
  | some clientID =>
    if clientID ≤ 0 then
      return .error (403,"permission denied")
    match req.file with
    | none => return .error (400,"file is required")
    | some file =>
      if file.size > maxUploadSizeBytes then
        return .error (400,"file is too large (max 10MB)")
      if String.ofList ((ext file.filename).map toLower) ∉ uploadExtensions then
        return .error (400,"unsupported file type")
      match ← call .openFile with
      | .error _ =>
        perform (.logError "upload: failed to open file")
        return .error (500,"failed to open file")
      | .ok _ =>
        match ← call (.readAll (maxUploadSizeBytes + 1)) with
        | .error _ =>
          perform (.logError "upload: failed to read file")
          return .error (500,"failed to read file")
        | .ok raw =>
          if raw.length > maxUploadSizeBytes then
            return .error (400,"file is too large (max 10MB)")
          storeUpload clientID file.filename raw

/-! ## Where the files are -/

/-- A row of `message_attachments`, without what the database adds. -/
structure AttachmentRow where
  messageID : MessageID
  fileKey : String
  fileName : String
  contentType : String
  sizeBytes : Int
  deriving DecidableEq

/-- What was put under a key, and by which upload request. -/
structure File where
  upload : ℕ
  filename : String
  contentType : String
  data : List UInt8
  deriving DecidableEq

/-- The request or command that a key is in the hands of, or where it is. -/
inductive Place where
  | nowhere
  | stored (upload : ℕ)
  | pending (id : Int)
  | taken (command : ℕ)
  | attached (messageID : MessageID)
  deriving DecidableEq

/-- The hub's memory, the tables with the next message ID, and the object store. The last
four fields record what was done so far: they answer no call. -/
structure Files where
  pendingAttachments : GoMap Int PendingAttachment
  nextAttachmentID : Int
  folderKeys : GoMap UserID String
  messages : GoMap MessageID UserID
  nextMessageID : MessageID
  attachments : List AttachmentRow
  objects : GoMap String (List UInt8)
  puts : List (String × String × String)
  files : String → Option File
  place : String → Place
  authors : MessageID → Option UserID

def start : Files := ⟨∅,0,∅,∅,1,[],∅,[],fun _ => none,fun _ => .nowhere,fun _ => none⟩

namespace Files

/-- `TakePendingAttachment`, called by a command. -/
def takePendingAttachment (s : Files) (command : ℕ) (id : Int) (userID : UserID) :
    Option PendingAttachment × Files :=
  match s.pendingAttachments.lookup id with
  | none => (none,s)
  | some pa =>
    if pa.userID ≠ userID then (none,s)
    else (some pa,{ s with
      pendingAttachments := s.pendingAttachments.erase id
      place := Function.update s.place pa.fileKey (.taken command) })

def setPendingAttachment (s : Files) (id : Int) (pa : PendingAttachment) : Files :=
  { s with
    pendingAttachments := s.pendingAttachments.insert id pa
    place := Function.update s.place pa.fileKey (.pending id) }

def putAttachment (s : Files) (upload : ℕ) (key : String) (data : List UInt8)
    (filename contentType uniqueSuffix : String) : Files :=
  let s3Key := attachmentKey key uniqueSuffix filename
  { s with
    objects := s.objects.insert s3Key data
    puts := s.puts ++ [(key,uniqueSuffix,filename)]
    files := Function.update s.files s3Key (some ⟨upload,filename,contentType,data⟩)
    place := Function.update s.place s3Key (.stored upload) }

/-- The sequence of the message IDs never goes back, and may skip some. -/
def saveMessage (s : Files) (id : MessageID) (authorID : UserID) : Files :=
  { s with
    messages := s.messages.insert id authorID
    nextMessageID := id + 1
    authors := Function.update s.authors id (some authorID) }

def attachmentRow (messageID : MessageID) (a : Attachment) : AttachmentRow :=
  ⟨messageID,a.fileKey,a.fileName,a.contentType,a.sizeBytes⟩

def saveMessageAttachments (s : Files) (messageID : MessageID) (attachments : List Attachment) :
    Files :=
  { s with
    attachments := s.attachments ++ attachments.map (attachmentRow messageID)
    place := fun k => if k ∈ attachments.map Attachment.fileKey then .attached messageID
      else s.place k }

/-- The rows that refer to a message go with it. -/
def deleteMessages (s : Files) (gone : MessageID → Bool) : Files :=
  { s with
    messages := s.messages.filter (fun id _ => !gone id)
    attachments := s.attachments.filter (fun a => !gone a.messageID) }

def deleteObjects (s : Files) (keys : List String) : Files :=
  { s with objects := s.objects.filter (fun k _ => decide (k ∉ keys)) }

/-- What the hub holds in memory is lost. -/
def restart (s : Files) : Files := { s with pendingAttachments := ∅, nextAttachmentID := 0 }

/-- What a call of a command may answer and do. `DeleteMessage` looks up the keys before it
deletes the row: they are keys of the message, not always all of them. -/
def serve (command : ℕ) (s : Files) : (c : Call) → c.Answer → Files → Prop
  | .takePendingAttachment id userID,r,t => (r,t) = s.takePendingAttachment command id userID
  | .saveMessage msg,.ok (id,_),t => s.nextMessageID ≤ id ∧ t = s.saveMessage id msg.authorID
  | .saveMessage msg,.error _,t =>
    t = s ∨ ∃ id, s.nextMessageID ≤ id ∧ t = s.saveMessage id msg.authorID
  | .saveMessageAttachments id attachments,.ok _,t =>
    id ∈ s.messages ∧ t = s.saveMessageAttachments id attachments
  | .saveMessageAttachments id attachments,.error _,t =>
    t = s ∨ (id ∈ s.messages ∧ t = s.saveMessageAttachments id attachments)
  | .deleteMessage id userID,.ok fileKeys,t => s.authors id = some userID ∧
    (∀ k ∈ fileKeys, s.place k = .attached id) ∧ t = s.deleteMessages (fun m => decide (m = id))
  | .deleteMessage id userID,.error _,t =>
    t = s ∨ (s.authors id = some userID ∧ t = s.deleteMessages (fun m => decide (m = id)))
  | .deleteServer _ _,_,t => ∃ gone, t = s.deleteMessages gone
  | .deleteChannel _ _,_,t => ∃ gone, t = s.deleteMessages gone
  | .deleteAttachment fileKeys,.ok _,t => t = s.deleteObjects fileKeys
  | .deleteAttachment fileKeys,.error _,t => ∃ gone ⊆ fileKeys, t = s.deleteObjects gone
  | _,_,t => t = s

/-- What a call of an upload request may answer and do. -/
def serveUpload (upload : ℕ) (s : Files) : (c : UploadCall) → c.Answer → Files → Prop
  | .readAll limit,.ok raw,t => raw.length ≤ limit ∧ t = s
  | .selectAttachmentFolderKey userID,.ok folderKey,t =>
    folderKey = s.folderKeys.lookup userID ∧ t = s
  | .updateAttachmentFolderKey userID newKey,.ok _,t =>
    t = { s with folderKeys := s.folderKeys.insert userID newKey }
  | .updateAttachmentFolderKey userID newKey,.error _,t =>
    t = s ∨ t = { s with folderKeys := s.folderKeys.insert userID newKey }
  | .newString,uuid,t => uuid.toList.length = 36 ∧ t = s
  | .putAttachment key data filename contentType uniqueSuffix,.ok _,t =>
    t = s.putAttachment upload key data filename contentType uniqueSuffix
  | .putAttachment key data filename contentType uniqueSuffix,.error _,t =>
    t = s ∨ t = s.putAttachment upload key data filename contentType uniqueSuffix
  | .addAttachmentID,id,t => id = s.nextAttachmentID + 1 ∧ t = { s with nextAttachmentID := id }
  | .setPendingAttachment id pa,_,t => t = s.setPendingAttachment id pa
  | _,_,t => t = s

/-- Accounts, servers and channels may go, and with them messages; the server may restart. -/
def env (s t : Files) : Prop := t = s.restart ∨ ∃ gone, t = s.deleteMessages gone

end Files

/-! ## Requests and commands side by side -/

inductive Member where
  | command (n : ℕ)
  | upload (n : ℕ)
  deriving DecidableEq

@[reducible] def Member.Call : Member → Type
  | .command _ => ChatHub.Call
  | .upload _ => UploadCall

@[reducible] def Member.Answer : (i : Member) → i.Call → Type
  | .command _ => ChatHub.Call.Answer
  | .upload _ => UploadCall.Answer

@[reducible] def Member.Act : Member → Type
  | .command _ => ChatHub.Act
  | .upload _ => UploadAct

@[reducible] def Member.Result : Member → Type
  | .command _ => Unit
  | .upload _ => Except WriteError UploadResponse

/-- Nothing that a member does besides its calls is about files. -/
def commandWorld (n : ℕ) : World ChatHub.Call ChatHub.Call.Answer ChatHub.Act Files :=
  ⟨Files.serve n,fun s _ => s⟩

def uploadWorld (n : ℕ) : World UploadCall UploadCall.Answer UploadAct Files :=
  ⟨Files.serveUpload n,fun s _ => s⟩

def world : (i : Member) → World i.Call i.Answer i.Act Files
  | .command n => commandWorld n
  | .upload n => uploadWorld n

abbrev FilePool := Pool Member.Call Member.Answer Member.Act Member.Result Files

/-- Any commands and any upload requests, none of which has begun. -/
def opened (s3Host : String) (commands : ℕ → Request × Command) (uploads : ℕ → UploadRequest) :
    FilePool where
  shared := start
  left
    | .command n => handleCommand s3Host (commands n).1 (commands n).2
    | .upload n => handleUpload (uploads n)

end MiniDiscord.Uploads
