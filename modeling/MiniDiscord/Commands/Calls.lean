import MiniDiscord.Effects.Program
import MiniDiscord.Commands.Types

/-! # What a handler calls and does

A handler runs on the hub's loop or on a goroutine of its own. It calls the storage, the
voice router, the limiters and the object store, reads the hub's maps, takes and releases
`h.mu`, and pushes events. An answer is whatever the callee may give: a value, nil, or an
error, and for a map its content at that moment.
-/
namespace MiniDiscord.ChatHub
open SfuTrack Effects

/-- An error value: the sentinels a handler compares with, or any other. -/
inductive GoError where
  | noRows
  | messageNotFound
  | notMessageOwner
  | editWindowExpired
  | emptyContent
  | noSharedServer
  | other (text : String)
  deriving DecidableEq

def GoError.text : GoError → String
  | .noRows => "sql: no rows in result set"
  | .messageNotFound => "message not found"
  | .notMessageOwner => "user is not message owner"
  | .editWindowExpired => "edit window expired"
  | .emptyContent => "content is required"
  | .noSharedServer => "no shared server"
  | .other text => text

/-- The token buckets a handler asks; `editMessage` shares the one of `sendMessage`. -/
inductive Limiter where
  | createServer
  | createChannel
  | sendMessage
  | markRead
  | searchUsers
  deriving DecidableEq

inductive Call where
  | allow (limiter : Limiter) (userID : UserID)
  | getUserByID (id : UserID)
  | createServer (name : String) (ownerID : UserID)
  | deleteServer (serverID : ServerID) (userID : UserID)
  | deleteChannel (channelID : ChannelID) (userID : UserID)
  | addMemberToServer (userID : UserID) (serverID : ServerID)
  | createChannel (serverID : ServerID) (name : String) (channelType : ChannelType)
  | isServerMember (userID : UserID) (serverID : ServerID)
  | canUserAccessChannel (userID : UserID) (channelID : ChannelID)
  | listServerMembersUserIDs (serverID : ServerID)
  | listServerMembers (serverID : ServerID)
  | listChannelMemberUserIDs (channelID : ChannelID)
  | isChannelServerOwner (userID : UserID) (channelID : ChannelID)
  | getServersByUserID (userID : UserID)
  | getServerChannels (serverID : ServerID)
  | getChannelByID (channelID : ChannelID)
  | searchServersByName (userID : UserID) (query : String) (limit : Int)
  | saveMessage (msg : WsMessage)
  | saveMessageMentions (messageID : MessageID) (userIDs : List UserID)
  | saveMessageAttachments (messageID : MessageID) (attachments : List Attachment)
  | deleteMessage (messageID : MessageID) (userID : UserID)
  | editMessage (messageID : MessageID) (userID : UserID) (content : String)
  | getReplyPreview (messageID : MessageID)
  | getMessages (channelID : ChannelID) (limit : Int) (cursor : Option WsMessageCursor)
  | getMessagesAfter (channelID : ChannelID) (limit : Int) (cursor : WsMessageCursor)
  | getMessagesAround (channelID : ChannelID) (messageID : MessageID) (limit : Int)
  | searchMessages (params : MessageSearchParams)
  | getUnreadCounts (userID : UserID)
  | markChannelRead (userID : UserID) (channelID : ChannelID) (messageID : MessageID)
  | openDMChannel (userID peerID : UserID)
  | listDMChannels (userID : UserID)
  | hideDMChannel (userID : UserID) (channelID : ChannelID)
  | revealDMChannel (channelID : ChannelID)
  | isDMChannel (channelID : ChannelID)
  | searchUsers (userID : UserID) (query : String) (limit : Int)
  | deleteAttachment (fileKeys : List String)
  | takePendingAttachment (id : Int) (userID : UserID)
  | decodeWsMessageCursor (raw : String)
  | encodeWsMessageCursor (cursor : WsMessageCursor)
  | parseTime (raw : String)
  | now
  | sfuRouter
  | join (userID : UserID) (channelID : ChannelID)
  | handleOffer (sessionID : SessionID) (sdp : String) (slots : List WsSfuSlotDecl)
  | handleAnswer (sessionID : SessionID) (sdp : String)
  | handleCandidate (payload : WsSfuCandidatePayload)
  | subscribeVideo (sessionID : SessionID) (targetUserID : UserID) (source : Source)
      (quality : Quality)
  | setPublishState (sessionID : SessionID) (source : Source) (active : Bool)
  | resume (sessionID : SessionID) (userID : UserID)
  | buildSFUIceServers (userID : UserID)
  | pushSender
  | embedService
  | clientsByUser
  | voiceParticipants (channelID : ChannelID)
  | userVoiceChannel (userID : UserID)
  | voiceStatusByUser (userID : UserID)
  | sfuSessionByUser (userID : UserID)
  | sfuGraceTimers (userID : UserID)
  deriving DecidableEq

/-- What a call answers. A map is the list of its keys, in the order of a range. -/
@[reducible] def Call.Answer : Call → Type
  | .allow _ _ => Bool
  | .getUserByID _ => Except GoError (Option User)
  | .createServer _ _ => Except GoError ServerID
  | .deleteServer _ _ => Except GoError Unit
  | .deleteChannel _ _ => Except GoError Unit
  | .addMemberToServer _ _ => Except GoError Unit
  | .createChannel _ _ _ => Except GoError ChannelID
  | .isServerMember _ _ => Except GoError Bool
  | .canUserAccessChannel _ _ => Except GoError Bool
  | .listServerMembersUserIDs _ => Except GoError (List UserID)
  | .listServerMembers _ => Except GoError (List WsServerMember)
  | .listChannelMemberUserIDs _ => Except GoError (List UserID)
  | .isChannelServerOwner _ _ => Except GoError Bool
  | .getServersByUserID _ => Except GoError (List Server)
  | .getServerChannels _ => Except GoError (List Channel)
  | .getChannelByID _ => Except GoError (Option Channel)
  | .searchServersByName _ _ _ => Except GoError (List Server)
  | .saveMessage _ => Except GoError (MessageID × Time)
  | .saveMessageMentions _ _ => Except GoError Unit
  | .saveMessageAttachments _ _ => Except GoError Unit
  | .deleteMessage _ _ => Except GoError (List String)
  | .editMessage _ _ _ => Except GoError (ChannelID × Time)
  | .getReplyPreview _ => Except GoError (Option WsReplyTo)
  | .getMessages _ _ _ => Except GoError (List WsMessage × Option WsMessageCursor × Bool)
  | .getMessagesAfter _ _ _ => Except GoError (List WsMessage × Option WsMessageCursor × Bool)
  | .getMessagesAround _ _ _ => Except GoError
      (List WsMessage × Option WsMessageCursor × Option WsMessageCursor × Bool × Bool)
  | .searchMessages _ => Except GoError (List WsMessageSearchHit × Option WsMessageCursor × Bool)
  | .getUnreadCounts _ => Except GoError (List WsChannelUnread)
  | .markChannelRead _ _ _ => Except GoError Unit
  | .openDMChannel _ _ => Except GoError ChannelID
  | .listDMChannels _ => Except GoError (List DMChannel)
  | .hideDMChannel _ _ => Except GoError Unit
  | .revealDMChannel _ => Except GoError Unit
  | .isDMChannel _ => Except GoError Bool
  | .searchUsers _ _ _ => Except GoError (List UserSearchHit)
  | .deleteAttachment _ => Except GoError Unit
  | .takePendingAttachment _ _ => Option PendingAttachment
  | .decodeWsMessageCursor _ => Except GoError (Option WsMessageCursor)
  | .encodeWsMessageCursor _ => Except GoError String
  | .parseTime _ => Except GoError Time
  | .now => Time
  | .sfuRouter => Bool
  | .join _ _ => Except GoError SessionID
  | .handleOffer _ _ _ => Except GoError Unit
  | .handleAnswer _ _ => Except GoError Unit
  | .handleCandidate _ => Except GoError Unit
  | .subscribeVideo _ _ _ _ => Except GoError Unit
  | .setPublishState _ _ _ => Except GoError Unit
  | .resume _ _ => Except GoError Unit
  | .buildSFUIceServers _ => List WsICEServer
  | .pushSender => Bool
  | .embedService => Bool
  | .clientsByUser => List UserID
  | .voiceParticipants _ => Option (List UserID)
  | .userVoiceChannel _ => Option ChannelID
  | .voiceStatusByUser _ => Option VoiceStatus
  | .sfuSessionByUser _ => Option SessionID
  | .sfuGraceTimers _ => Bool

instance : Inhabited GoError := ⟨.noRows⟩

instance (c : Call) : Inhabited c.Answer := by
  cases c <;> infer_instance

/-- A job for the push worker. -/
structure PushEvent where
  recipientIDs : List UserID
  channelID : ChannelID
  serverID : ServerID
  channelName : String
  message : WsMessage
  isMention : UserID → Bool
  onlineIDs : List UserID

/-- What a handler does. `pushEvent` and `pushToUsers` take the read lock themselves. -/
inductive Act where
  | lock
  | unlock
  | rLock
  | rUnlock
  | pushEvent (event : WsEvent)
  | pushToUsers (userIDs : List UserID) (event : WsEvent)
  | pushToUserID (userID : UserID) (event : WsEvent)
  | setTyping (userID : UserID) (channelID : Option ChannelID)
  | setVoiceStatus (userID : UserID) (status : VoiceStatus)
  | joinVoice (userID : UserID) (channelID : ChannelID) (sessionID : SessionID)
  | leaveVoice (userID : UserID) (channelID : ChannelID)
  | stopGraceTimer (userID : UserID)
  | deleteGraceTimer (userID : UserID)
  | routerLeave (sessionID : SessionID)
  | countVoiceClose (reason : String)
  | enqueuePush (event : PushEvent)
  | enqueueEmbeds (recipientIDs : List UserID) (msg : WsMessage)

abbrev HubM := Program Call Call.Answer Act

/-- One step of a handler. -/
abbrev ask (c : Call) : HubM c.Answer := Program.call c
abbrev act (a : Act) : HubM Unit := Program.perform a

abbrev allow (limiter : Limiter) (userID : UserID) : HubM Bool := ask (.allow limiter userID)
abbrev clientsByUser : HubM (List UserID) := ask .clientsByUser

def pushError (message : String) : HubM Unit := act (.pushEvent { event := .error, error := message })

def pushErrorWithRequestID (requestID message : String) : HubM Unit :=
  act (.pushEvent { event := .error, error := message, requestID := requestID })

def pushAck (data : EventData) : HubM Unit := act (.pushEvent { event := .ack, data := data })

def pushAckWithRequestID (requestID : String) (data : EventData) : HubM Unit :=
  act (.pushEvent { event := .ack, requestID := requestID, data := data })

def pushSfuError (sessionID : SessionID) (code message : String) : HubM Unit :=
  act (.pushEvent { event := .sfuError, data := .sfuError sessionID code message })

end MiniDiscord.ChatHub
