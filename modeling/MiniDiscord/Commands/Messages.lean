import MiniDiscord.Commands.Calls

/-! # Messages

Sending, editing, deleting, reading and searching messages, and the commands beside
them that are never answered.
-/
namespace MiniDiscord.ChatHub
open SfuTrack Effects

def maxAttachmentsPerMessage : ℕ := 10
def maxMentionsPerMessage : ℕ := 50
def everyoneMentionToken : String := "@everyone"
def maxMessageContentLen : ℕ := 4000

/-! ## Mentions -/

/-- Where a scan for `<@(\d+)>` stands; a token cannot begin inside another. -/
inductive MentionScan where
  | outside
  | opened
  | digits (seen : List Char)

/-- The digits of each match, in order. -/
def mentionTokens : MentionScan → List Char → List (List Char)
  | _, [] => []
  | .outside, c :: cs => mentionTokens (if c = '<' then .opened else .outside) cs
  | .opened, c :: cs =>
    mentionTokens (if c = '@' then .digits [] else if c = '<' then .opened else .outside) cs
  | .digits seen, c :: cs =>
    if c.isDigit then mentionTokens (.digits (seen ++ [c])) cs
    else if c = '>' ∧ seen ≠ [] then seen :: mentionTokens .outside cs
    else mentionTokens (if c = '<' then .opened else .outside) cs

/-- `strconv.Atoi` of decimal digits: nothing past the largest `int`. -/
def atoi (digits : List Char) : Option Int :=
  let n := digits.foldl (fun n c => 10 * n + (c.toNat - '0'.toNat)) 0
  if n < 2 ^ 63 then some n else none

/-- The loop over the matches, with what was found so far. -/
def collectMentions (authorID : UserID) (recipientUserIDs : List UserID) :
    List UserID → List (List Char) → List UserID
  | mentioned, [] => mentioned
  | mentioned, token :: tokens =>
    if mentioned.length ≥ maxMentionsPerMessage then mentioned
    else match atoi token with
    | none => collectMentions authorID recipientUserIDs mentioned tokens
    | some id =>
      if id = authorID ∨ id ∉ recipientUserIDs ∨ id ∈ mentioned then
        collectMentions authorID recipientUserIDs mentioned tokens
      else collectMentions authorID recipientUserIDs (mentioned ++ [id]) tokens

def resolveMentions (content : String) (authorID : UserID) (channelID : ChannelID)
    (recipientUserIDs : List UserID) : HubM (List UserID × Bool) := do
  let mentioned := collectMentions authorID recipientUserIDs [] (mentionTokens .outside content.toList)
  if contains content everyoneMentionToken then
    match ← ask (.isChannelServerOwner authorID channelID) with
    | .ok true => return (mentioned,true)
    | _ => return (mentioned,false)
  else return (mentioned,false)

/-! ## Sending -/

/-- What resolving the reply target gives: an error for the sender, or the preview. -/
def resolveReply (channelID : ChannelID) : Option MessageID → HubM (Except String (Option WsReplyTo))
  | none => return .ok none
  | some replyToID => do
    if replyToID ≤ 0 then
      return .ok none
    match ← ask (.getReplyPreview replyToID) with
    | .error _ => return .error "failed to resolve reply target"
    | .ok none => return .error "reply target message not found"
    | .ok (some rt) =>
      if rt.channelID ≠ channelID then
        return .error "reply target must be in the same channel"
      return .ok (some rt)

/-- `TakePendingAttachment` for each ID; what was taken before a failure stays taken. -/
def takeAttachments (userID : UserID) : List Int → HubM (Except String (List PendingAttachment))
  | [] => return .ok []
  | id :: ids => do
    let taken : Option PendingAttachment ← ask (.takePendingAttachment id userID)
    match taken with
    | none => return .error ("attachment not found: " ++ toString id)
    | some pa =>
      match ← takeAttachments userID ids with
      | .error err => return .error err
      | .ok rest => return .ok (pa :: rest)

def attachmentOf (messageID : MessageID) (pa : PendingAttachment) : Attachment :=
  ⟨0,messageID,pa.fileKey,pa.fileName,pa.contentType,"",pa.sizeBytes,""⟩

/-- Saves the attachments of a message that was just saved, or deletes the message. -/
def saveAttachments (s3Host : String) (userID : UserID) (msg : WsMessage)
    (pendingAtts : List PendingAttachment) : HubM (Except String WsMessage) := do
  if pendingAtts = [] then
    return .ok msg
  let attachments := pendingAtts.map (attachmentOf msg.id)
  match ← ask (.saveMessageAttachments msg.id attachments) with
  | .error _ =>
    let _ ← ask (.deleteMessage msg.id userID)
    return .error "failed to save attachments"
  | .ok _ =>
    return .ok { msg with
      attachments := attachments.map (fun a => { a with url := avatarURLFromKey a.fileKey s3Host }) }

/-- Each participant sees the other one as the peer. -/
def broadcastDMOpened (s3Host : String) (channelID : ChannelID) (participantUserIDs : List UserID)
    (lastMessageAt : Time) : HubM Unit := do
  match participantUserIDs with
  | [a,b] =>
    let notify (userID peerID : UserID) : HubM Unit := do
      match ← ask (.getUserByID peerID) with
      | .ok (some peer) =>
        act (.pushToUsers [userID]
          { event := .dmOpened
            data := .dmChannel ⟨channelID,peerID,peer.nickname,
              avatarURLFromKey peer.avatarKey s3Host,some lastMessageAt⟩ })
      | _ => return
    notify a b
    notify b a
  | _ => return

/-- What one of the two is told. -/
def notifyDMOpened (s3Host : String) (channelID : ChannelID) (lastMessageAt : Time)
    (userID peerID : UserID) : HubM Unit := do
  match ← ask (.getUserByID peerID) with
  | .ok (some peer) =>
    act (.pushToUsers [userID]
      { event := .dmOpened
        data := .dmChannel ⟨channelID,peerID,peer.nickname,
          avatarURLFromKey peer.avatarKey s3Host,some lastMessageAt⟩ })
  | _ => return

theorem broadcastDMOpened_two (s3Host : String) (channelID : ChannelID) (lastMessageAt : Time)
    (a b : UserID) : broadcastDMOpened s3Host channelID [a,b] lastMessageAt =
      (notifyDMOpened s3Host channelID lastMessageAt a b).bind
        fun _ => notifyDMOpened s3Host channelID lastMessageAt b a := rfl

def revealDM (s3Host : String) (channelID : ChannelID) (recipientUserIDs : List UserID)
    (createdAt : Time) : HubM Unit := do
  match ← ask (.isDMChannel channelID) with
  | .ok true =>
    match ← ask (.revealDMChannel channelID) with
    | .error _ => return
    | .ok _ => broadcastDMOpened s3Host channelID recipientUserIDs createdAt
  | _ => return

def enqueuePush (channelID : ChannelID) (recipientUserIDs : List UserID) (msg : WsMessage)
    (replyTo : Option WsReplyTo) : HubM Unit := do
  let pushSender : Bool ← ask .pushSender
  if pushSender = false then
    return
  match ← ask (.getChannelByID channelID) with
  | .ok (some channel) =>
    act .rLock
    let online ← clientsByUser
    act .rUnlock
    act (.enqueuePush ⟨recipientUserIDs,channelID,channel.serverID,channel.name,msg,
      (fun u => decide (u ∈ msg.mentions ∨ (∃ rt ∈ replyTo, rt.authorID = u) ∨
        (msg.mentionsEveryone = true ∧ u ∈ recipientUserIDs))),online⟩)
  | _ => return

def enqueueEmbeds (recipientUserIDs : List UserID) (msg : WsMessage) : HubM Unit := do
  let embedService : Bool ← ask .embedService
  if embedService = false ∨ msg.content = "" then
    return
  act (.enqueueEmbeds recipientUserIDs msg)

def saveMentions (messageID : MessageID) (mentioned : List UserID) : HubM Unit := do
  if mentioned = [] then
    return
  let _ ← ask (.saveMessageMentions messageID mentioned)

/-- From the author's record on: the message is built, saved and sent. -/
def deliverMessage (s3Host : String) (req : Request) (payload : WsSendMessageRequest)
    (replyTo : Option WsReplyTo) (pendingAtts : List PendingAttachment)
    (recipientUserIDs : List UserID) (user : User) : HubM Unit := do
  let (mentioned,everyone) ←
    resolveMentions payload.content req.userID payload.channelID recipientUserIDs
  let createdAt : Time ← ask .now
  let msg : WsMessage :=
    ⟨0,payload.channelID,req.userID,user.firstName,user.lastName,user.nickname,
      avatarURLFromKey user.avatarKey s3Host,if payload.content = "" then " " else payload.content,[],
      payload.replyToID,replyTo,mentioned,everyone,[],createdAt,none⟩
  match ← ask (.saveMessage msg) with
  | .error _ => pushError "failed to save message"
  | .ok (id,createdAt) =>
    let msg := { msg with id := id, createdAt := createdAt }
    saveMentions msg.id mentioned
    match ← saveAttachments s3Host user.id msg pendingAtts with
    | .error err => pushError err
    | .ok msg =>
      let msg := { msg with content := if msg.content = " " then "" else msg.content }
      revealDM s3Host payload.channelID recipientUserIDs msg.createdAt
      act (.pushToUsers recipientUserIDs { event := .message, data := .message msg })
      enqueuePush payload.channelID recipientUserIDs msg replyTo
      enqueueEmbeds recipientUserIDs msg
      pushAck .none

/-- From the access check on. -/
def sendChecked (s3Host : String) (req : Request) (payload : WsSendMessageRequest) : HubM Unit := do
  match ← ask (.canUserAccessChannel req.userID payload.channelID) with
  | .error _ => pushError "failed to check channel access"
  | .ok false => pushError "access denied"
  | .ok true =>
    match ← resolveReply payload.channelID payload.replyToID with
    | .error err => pushError err
    | .ok replyTo =>
      if payload.attachmentIDs.length > maxAttachmentsPerMessage then
        pushError "too many attachments (max 10)"
        return
      match ← takeAttachments req.userID payload.attachmentIDs with
      | .error err => pushError err
      | .ok pendingAtts =>
        match ← ask (.listChannelMemberUserIDs payload.channelID) with
        | .error _ => pushError "failed to resolve channel members"
        | .ok recipientUserIDs =>
          match ← ask (.getUserByID req.userID) with
          | .ok (some user) =>
            deliverMessage s3Host req payload replyTo pendingAtts recipientUserIDs user
          | _ => pushError "failed to resolve message author"

def sendMessage (s3Host : String) (req : Request) (payload : Option WsSendMessageRequest) :
    HubM Unit := do
  if (← allow .sendMessage req.userID) = false then
    pushError "rate limit exceeded for send_message"
    return
  match payload with
  | none => pushError "invalid send_message payload"
  | some payload =>
    let payload := { payload with content := trimSpace payload.content }
    if payload.channelID ≤ 0 then
      pushError "channel_id is required"
      return
    if payload.content = "" ∧ payload.attachmentIDs = [] ∧ payload.replyToID.getD 0 ≤ 0 then
      pushError "content, attachment_ids, or reply_to_id are required"
      return
    if payload.content.length > maxMessageContentLen then
      pushError "content is too long"
      return
    sendChecked s3Host req payload

/-! ## Deleting and editing -/

/-- A success is not acknowledged. -/
def deleteMessage (req : Request) (payload : Option MessageID) : HubM Unit := do
  match payload with
  | none => pushError "invalid delete_message payload"
  | some messageID =>
    if messageID ≤ 0 then
      pushError "message_id is required"
      return
    match ← ask (.deleteMessage messageID req.userID) with
    | .error err => pushError err.text
    | .ok fileKeys =>
      match ← ask (.deleteAttachment fileKeys) with
      | .error err => pushError err.text
      | .ok _ => return

/-- The errors of `EditMessage` that are told to the author. -/
def editErrorText : GoError → String
  | .messageNotFound => GoError.messageNotFound.text
  | .notMessageOwner => GoError.notMessageOwner.text
  | .editWindowExpired => GoError.editWindowExpired.text
  | .emptyContent => GoError.emptyContent.text
  | _ => "failed to edit message"

def editMessage (req : Request) (payload : Option WsEditMessageRequest) : HubM Unit := do
  if (← allow .sendMessage req.userID) = false then
    pushError "rate limit exceeded for edit_message"
    return
  match payload with
  | none => pushError "invalid edit_message payload"
  | some payload =>
    if payload.messageID ≤ 0 then
      pushError "message_id is required"
      return
    let content := trimSpace payload.content
    if content.length > maxMessageContentLen then
      pushError "content is too long"
      return
    match ← ask (.editMessage payload.messageID req.userID content) with
    | .error err => pushError (editErrorText err)
    | .ok (channelID,editedAt) =>
      match ← ask (.listChannelMemberUserIDs channelID) with
      | .error _ => pushAck .none
      | .ok recipientUserIDs =>
        act (.pushToUsers recipientUserIDs
          { event := .messageEdited
            data := .messageEdited payload.messageID channelID content editedAt })
        pushAck .none

/-! ## Reading -/

/-- A cursor as the client gets it: the empty string for none. -/
def encodeCursor : Option WsMessageCursor → HubM (Except GoError String)
  | none => return .ok ""
  | some cursor => ask (.encodeWsMessageCursor cursor)

/-- Nobody asks whether the user may read the channel. -/
def getMessages (payload : Option WsGetMessagesRequest) : HubM Unit := do
  match payload with
  | none => pushError "invalid get_messages payload"
  | some payload =>
    if payload.channelID ≤ 0 then
      pushError "channel_id is required"
      return
    match ← ask (.decodeWsMessageCursor payload.cursor) with
    | .error _ => pushError "invalid cursor"
    | .ok cursor =>
      if ∃ c ∈ cursor, c.channelID ≠ payload.channelID then
        pushError "cursor channel mismatch"
        return
      match ← ask (.getMessages payload.channelID payload.limit cursor) with
      | .error _ => pushError "failed to get messages"
      | .ok (messages,nextCursor,hasMore) =>
        match ← encodeCursor nextCursor with
        | .error _ => pushError "failed to encode cursor"
        | .ok nextCursorRaw =>
          pushAck (.getMessages payload.channelID messages nextCursorRaw hasMore)

def getMessagesAfter (req : Request) (payload : Option WsGetMessagesRequest) : HubM Unit := do
  let pushError := pushErrorWithRequestID req.requestID
  match payload with
  | none => pushError "invalid get_messages_after payload"
  | some payload =>
    if payload.channelID ≤ 0 then
      pushError "channel_id is required"
      return
    match ← ask (.decodeWsMessageCursor payload.cursor) with
    | .error _ => pushError "invalid cursor"
    | .ok none => pushError "invalid cursor"
    | .ok (some cursor) =>
      if cursor.channelID ≠ payload.channelID then
        pushError "cursor channel mismatch"
        return
      match ← ask (.canUserAccessChannel req.userID payload.channelID) with
      | .error _ => pushError "failed to check channel access"
      | .ok false => pushError "access denied"
      | .ok true =>
        match ← ask (.getMessagesAfter payload.channelID payload.limit cursor) with
        | .error _ => pushError "failed to get messages"
        | .ok (messages,nextCursor,hasMore) =>
          match ← encodeCursor nextCursor with
          | .error _ => pushError "failed to encode cursor"
          | .ok nextCursorRaw =>
            pushAckWithRequestID req.requestID
              (.getMessages payload.channelID messages nextCursorRaw hasMore)

def getMessagesAround (req : Request) (payload : Option WsGetMessagesAroundRequest) : HubM Unit := do
  let pushError := pushErrorWithRequestID req.requestID
  match payload with
  | none => pushError "invalid get_messages_around payload"
  | some payload =>
    if payload.channelID ≤ 0 ∨ payload.messageID ≤ 0 then
      pushError "channel_id and message_id are required"
      return
    match ← ask (.canUserAccessChannel req.userID payload.channelID) with
    | .error _ => pushError "failed to check channel access"
    | .ok false => pushError "access denied"
    | .ok true =>
      match ← ask (.getMessagesAround payload.channelID payload.messageID payload.limit) with
      | .error err => pushError err.text
      | .ok (messages,olderCursor,newerCursor,hasMoreOlder,hasMoreNewer) =>
        match ← encodeCursor olderCursor with
        | .error _ => pushError "failed to encode cursor"
        | .ok olderCursorRaw =>
          match ← encodeCursor newerCursor with
          | .error _ => pushError "failed to encode cursor"
          | .ok newerCursorRaw =>
            pushAckWithRequestID req.requestID (.getMessagesAround payload.channelID messages
              olderCursorRaw newerCursorRaw hasMoreOlder hasMoreNewer)

/-- A date of the filter, when one is given. -/
def parseDate : Option String → HubM (Except GoError (Option Time))
  | none => return .ok none
  | some raw => do
    match ← ask (.parseTime raw) with
    | .error err => return .error err
    | .ok t => return .ok (some t)

/-- A whole server is searched by its members, a channel by who may read it. -/
def searchAccess (userID : UserID) (serverID : ServerID) (channelID : ChannelID) :
    HubM (Except String Bool) := do
  if serverID > 0 then
    match ← ask (.isServerMember userID serverID) with
    | .error _ => return .error "failed to check server membership"
    | .ok isMember => return .ok isMember
  else
    match ← ask (.canUserAccessChannel userID channelID) with
    | .error _ => return .error "failed to check channel access"
    | .ok canAccess => return .ok canAccess

/-- `searchMessages` after the access check. -/
def searchWithin (req : Request) (payload : WsSearchMessagesRequest) (query : String) :
    HubM Unit := do
  let pushError := pushErrorWithRequestID req.requestID
  match ← parseDate payload.before with
  | .error _ => pushError "invalid before date"
  | .ok before =>
    match ← parseDate payload.after with
    | .error _ => pushError "invalid after date"
    | .ok after =>
      match ← ask (.decodeWsMessageCursor payload.cursor) with
      | .error _ => pushError "invalid cursor"
      | .ok cursor =>
        match ← ask (.searchMessages ⟨query,payload.channelID,payload.serverID,payload.authorID,
            payload.hasFile,payload.hasLink,before,after,payload.limit,cursor⟩) with
        | .error _ => pushError "search failed"
        | .ok (hits,nextCursor,hasMore) =>
          match ← encodeCursor nextCursor with
          | .error _ => pushError "failed to encode cursor"
          | .ok nextCursorRaw =>
            pushAckWithRequestID req.requestID (.searchMessages hits nextCursorRaw hasMore)

def searchMessages (req : Request) (payload : Option WsSearchMessagesRequest) : HubM Unit := do
  let pushError := pushErrorWithRequestID req.requestID
  match payload with
  | none => pushError "invalid search_messages payload"
  | some payload =>
    let query := trimSpace payload.query
    if query.length < 2 then
      pushAckWithRequestID req.requestID (.searchMessages [] "" false)
      return
    if payload.serverID ≤ 0 ∧ payload.channelID ≤ 0 then
      pushError "channel_id or server_id is required"
      return
    match ← searchAccess req.userID payload.serverID payload.channelID with
    | .error err => pushError err
    | .ok false => pushError "access denied"
    | .ok true => searchWithin req payload query

def getUnread (req : Request) : HubM Unit := do
  match ← ask (.getUnreadCounts req.userID) with
  | .error _ => pushError "failed to get unread counts"
  | .ok counts => pushAck (.getUnread counts)

/-! ## Never answered -/

def markRead (req : Request) (payload : Option (ChannelID × MessageID)) : HubM Unit := do
  match payload with
  | none => return
  | some (channelID,messageID) =>
    if channelID ≤ 0 ∨ messageID ≤ 0 then
      return
    if (← allow .markRead req.userID) = false then
      return
    match ← ask (.canUserAccessChannel req.userID channelID) with
    | .ok true =>
      let _ ← ask (.markChannelRead req.userID channelID messageID)
    | _ => return

def handleTyping (req : Request) (start : Bool) (payload : Option ChannelID) : HubM Unit := do
  match payload with
  | none => return
  | some channelID =>
    if channelID ≤ 0 then
      return
    match ← ask (.canUserAccessChannel req.userID channelID) with
    | .ok true =>
      act .lock
      act (.setTyping req.userID (if start then some channelID else none))
      act .unlock
      match ← ask (.listChannelMemberUserIDs channelID) with
      | .error _ => return
      | .ok recipientUserIDs =>
        act (.pushToUsers (recipientUserIDs.filter (fun u => decide (u ≠ req.userID)))
          { event := if start then .typingStart else .typingStop
            data := .typing channelID req.userID })
    | _ => return

end MiniDiscord.ChatHub
