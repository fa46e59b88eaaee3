import MiniDiscord.Sfu.Track

/-! # What commands and events carry

The records of the WebSocket protocol and of the storage interface. A Go pointer that
may be nil is an option, a slice is a list, and `map[string]any` data has a constructor
of its own for each of its shapes.
-/
namespace MiniDiscord.ChatHub
open SfuTrack

abbrev ServerID := Int
abbrev MessageID := Int

structure User where
  id : UserID
  firstName : String
  lastName : String
  nickname : String
  email : String
  avatarKey : String
  isDeleted : Bool
  deriving DecidableEq

structure UserResponse where
  firstName : String
  lastName : String
  nickname : String
  avatarURL : String
  email : String
  deriving DecidableEq

structure Server where
  id : ServerID
  name : String
  ownerID : UserID
  createdAt : Time
  deriving DecidableEq

inductive ChannelType where
  | text
  | voice
  | dm
  deriving DecidableEq

/-- A channel of no server has `serverID` 0. -/
structure Channel where
  id : ChannelID
  serverID : ServerID
  name : String
  type : ChannelType
  createdAt : Time
  deriving DecidableEq

structure DMChannel where
  channelID : ChannelID
  peerUserID : UserID
  peerNickname : String
  peerAvatarURL : String
  lastMessageAt : Option Time
  deriving DecidableEq

structure Attachment where
  id : Int
  messageID : MessageID
  fileKey : String
  fileName : String
  contentType : String
  url : String
  sizeBytes : Int
  createdAt : String
  deriving DecidableEq

structure PendingAttachment where
  id : Int
  userID : UserID
  folderKey : String
  fileKey : String
  fileName : String
  contentType : String
  sizeBytes : Int
  deriving DecidableEq

structure WsReplyTo where
  messageID : MessageID
  channelID : ChannelID
  authorID : UserID
  authorFirstName : String
  authorLastName : String
  authorNickname : String
  content : String
  hasAttachments : Bool
  deriving DecidableEq

structure WsLinkPreview where
  url : String
  title : String
  description : String
  siteName : String
  imageToken : String
  deriving DecidableEq

structure WsMessage where
  id : MessageID
  channelID : ChannelID
  authorID : UserID
  authorFirstName : String
  authorLastName : String
  authorNickname : String
  authorAvatarURL : String
  content : String
  attachments : List Attachment
  replyToID : Option MessageID
  replyTo : Option WsReplyTo
  mentions : List UserID
  mentionsEveryone : Bool
  embeds : List WsLinkPreview
  createdAt : Time
  editedAt : Option Time
  deriving DecidableEq

structure WsMessageCursor where
  channelID : ChannelID
  createdAt : Time
  id : MessageID
  deriving DecidableEq

structure MessageSearchParams where
  query : String
  channelID : ChannelID
  serverID : ServerID
  authorID : UserID
  hasFile : Bool
  hasLink : Bool
  before : Option Time
  after : Option Time
  limit : Int
  cursor : Option WsMessageCursor
  deriving DecidableEq

structure WsMessageSearchHit where
  messageID : MessageID
  channelID : ChannelID
  channelName : String
  authorID : UserID
  authorFirstName : String
  authorLastName : String
  authorNickname : String
  authorAvatarURL : String
  headline : String
  createdAt : Time
  deriving DecidableEq

structure WsServerMember where
  userID : UserID
  firstName : String
  lastName : String
  nickname : String
  avatarURL : String
  deriving DecidableEq

structure UserSearchHit where
  userID : UserID
  nickname : String
  avatarURL : String
  deriving DecidableEq

structure WsChannelUnread where
  channelID : ChannelID
  serverID : ServerID
  unreadCount : ℕ
  deriving DecidableEq

structure VoiceStatus where
  micEnabled : Bool
  deafened : Bool
  deriving DecidableEq

structure WsVoiceParticipant where
  userID : UserID
  firstName : String
  lastName : String
  nickname : String
  micEnabled : Bool
  deafened : Bool
  avatarURL : String
  detached : Bool
  deriving DecidableEq

structure WsVoiceChannelParticipants where
  channelID : ChannelID
  participants : List WsVoiceParticipant
  deriving DecidableEq

structure WsICEServer where
  urls : List String
  username : String
  credential : String
  deriving DecidableEq

structure WsSfuSlotDecl where
  mid : String
  kind : String
  source : Source
  deriving DecidableEq

/-! ## Payloads -/

structure WsCreateChannelRequest where
  serverID : ServerID
  name : String
  type : String

structure WsSendMessageRequest where
  channelID : ChannelID
  content : String
  attachmentIDs : List Int
  replyToID : Option MessageID

structure WsEditMessageRequest where
  messageID : MessageID
  content : String

/-- `cursor` is the encoded one; the empty string stands for none. -/
structure WsGetMessagesRequest where
  channelID : ChannelID
  limit : Int
  cursor : String

structure WsGetMessagesAroundRequest where
  channelID : ChannelID
  messageID : MessageID
  limit : Int

structure WsSearchMessagesRequest where
  query : String
  channelID : ChannelID
  serverID : ServerID
  authorID : UserID
  hasFile : Bool
  hasLink : Bool
  before : Option String
  after : Option String
  limit : Int
  cursor : String

structure WsSearchRequest where
  query : String
  limit : Int

structure WsSfuOfferRequest where
  sessionID : SessionID
  sdp : String
  slots : List WsSfuSlotDecl

structure WsSfuAnswerPayload where
  sessionID : SessionID
  sdp : String

structure WsSfuCandidatePayload where
  sessionID : SessionID
  candidate : String
  sdpMid : Option String
  sdpMLineIndex : Option ℕ
  deriving DecidableEq

structure WsSfuSubscribeVideoRequest where
  sessionID : SessionID
  targetUserID : UserID
  source : Source
  quality : String

structure WsSfuPublishStateRequest where
  sessionID : SessionID
  source : Source
  active : Bool

/-- A command with its payload; `none` is a payload that does not unmarshal. -/
inductive Command where
  | createServer (name : Option String)
  | deleteServer (serverID : Option ServerID)
  | joinServer (serverID : Option ServerID)
  | createChannel (payload : Option WsCreateChannelRequest)
  | deleteChannel (channelID : Option ChannelID)
  | sendMessage (payload : Option WsSendMessageRequest)
  | deleteMessage (messageID : Option MessageID)
  | editMessage (payload : Option WsEditMessageRequest)
  | getMessages (payload : Option WsGetMessagesRequest)
  | getServers
  | getServerChannels (serverID : Option ServerID)
  | getUsersOnline (serverID : Option ServerID)
  | joinVoiceChannel (channelID : Option ChannelID)
  | leaveVoiceChannel
  | sfuOffer (payload : Option WsSfuOfferRequest)
  | sfuAnswer (payload : Option WsSfuAnswerPayload)
  | sfuCandidate (payload : Option WsSfuCandidatePayload)
  | sfuSubscribeVideo (payload : Option WsSfuSubscribeVideoRequest)
  | sfuResume (sessionID : Option SessionID)
  | sfuPublishState (payload : Option WsSfuPublishStateRequest)
  | searchServers (payload : Option WsSearchRequest)
  | getUserInfo (userID : Option UserID)
  | changeVoiceStatus (payload : Option VoiceStatus)
  | typingStart (channelID : Option ChannelID)
  | typingStop (channelID : Option ChannelID)
  | getUnread
  | markRead (payload : Option (ChannelID × MessageID))
  | getServerMembers (serverID : Option ServerID)
  | getMessagesAround (payload : Option WsGetMessagesAroundRequest)
  | getMessagesAfter (payload : Option WsGetMessagesRequest)
  | searchMessages (payload : Option WsSearchMessagesRequest)
  | openDM (peerUserID : Option UserID)
  | closeDM (channelID : Option ChannelID)
  | listDMs
  | searchUsers (payload : Option WsSearchRequest)
  | unknown

/-- Who sent the command, and under which request ID. -/
structure Request where
  userID : UserID
  requestID : String

/-! ## Events -/

inductive WsEventType where
  | ack
  | error
  | message
  | messageEdited
  | voiceUserJoined
  | voiceUserLeft
  | voiceStatusChanged
  | voiceUserResumed
  | typingStart
  | typingStop
  | dmOpened
  | dmList
  | dmClosed
  | userSearch
  | sfuTrackPublished
  | sfuTrackUnpublished
  | sfuError
  | sfuSessionClosed
  deriving DecidableEq

inductive EventData where
  | none
  | channelID (channelID : ChannelID)
  | serverID (serverID : ServerID)
  | createServer (serverID : ServerID) (name : String)
  | createChannel (channelID : ChannelID) (serverID : ServerID) (name : String) (type : ChannelType)
  | getServers (servers : List Server)
  | getServerMembers (members : List WsServerMember)
  | getUsersOnline (serverID : ServerID) (users : List UserResponse)
  | getChannels (channels : List Channel) (voiceParticipants : List WsVoiceChannelParticipants)
  | searchServers (servers : List Server)
  | userInfo (userID : UserID) (firstName lastName nickname avatarURL : String)
  | message (msg : WsMessage)
  | messageEdited (messageID : MessageID) (channelID : ChannelID) (content : String) (editedAt : Time)
  | getMessages (channelID : ChannelID) (messages : List WsMessage) (nextCursor : String)
      (hasMore : Bool)
  | getMessagesAround (channelID : ChannelID) (messages : List WsMessage)
      (olderCursor newerCursor : String) (hasMoreOlder hasMoreNewer : Bool)
  | searchMessages (hits : List WsMessageSearchHit) (nextCursor : String) (hasMore : Bool)
  | getUnread (channels : List WsChannelUnread)
  | joinVoiceChannel (channelID : ChannelID) (participants : List WsVoiceParticipant)
      (sessionID : SessionID) (iceServers : List WsICEServer) (publishSlots : List (String × Source))
  | voiceUser (channelID : ChannelID) (user : WsVoiceParticipant)
  | sfuResume (participants : List WsVoiceParticipant)
  | sfuTrack (channelID : ChannelID) (userID : UserID) (source : Source) (kind : String)
  | sfuError (sessionID : SessionID) (code message : String)
  | sfuSessionClosed (sessionID : SessionID) (reason : String)
  | typing (channelID : ChannelID) (userID : UserID)
  | dmChannel (dm : DMChannel)
  | listDMs (channels : List DMChannel)
  | searchUsers (users : List UserSearchHit)
  deriving DecidableEq

structure WsEvent where
  event : WsEventType
  requestID : String := ""
  error : String := ""
  data : EventData := .none
  deriving DecidableEq

/-! ## Text -/

/-- `unicode.IsSpace`. -/
def isSpace (c : Char) : Bool :=
  (9 ≤ c.toNat && c.toNat ≤ 13) || c.toNat == 0x20 || c.toNat == 0x85 || c.toNat == 0xA0 ||
    c.toNat == 0x1680 || (0x2000 ≤ c.toNat && c.toNat ≤ 0x200A) || c.toNat == 0x2028 ||
    c.toNat == 0x2029 || c.toNat == 0x202F || c.toNat == 0x205F || c.toNat == 0x3000

/-- `strings.TrimSpace`. -/
@[irreducible] def trimSpace (s : String) : String :=
  String.ofList ((s.toList.dropWhile isSpace).reverse.dropWhile isSpace).reverse

/-- `strings.ToLower` on the runes it maps into ASCII; a channel type names no other. -/
def lowerRune (c : Char) : Char :=
  if c.toNat == 0x130 then 'i'
  else if c.toNat == 0x212A then 'k'
  else c.toLower

def normalizeChannelType (raw : String) : Option ChannelType :=
  let name := (trimSpace (String.ofList (raw.toList.map lowerRune)))
  if name = "" ∨ name = "text" then some .text
  else if name = "voice" then some .voice
  else none

/-- `strings.HasPrefix`, `strings.Contains`. -/
def hasPrefix (s p : String) : Bool := p.toList.isPrefixOf s.toList
def contains (s t : String) : Bool := decide (t.toList <:+: s.toList)

def trimRight (c : Char) (s : String) : String :=
  String.ofList (s.toList.reverse.dropWhile (· == c)).reverse
def trimLeft (c : Char) (s : String) : String := String.ofList (s.toList.dropWhile (· == c))

/-- `utils.AvatarURLFromKey`. -/
def avatarURLFromKey (avatarKey s3Host : String) : String :=
  let key := trimSpace avatarKey
  if key = "" then ""
  else if hasPrefix key "http://" ∨ hasPrefix key "https://" then key
  else if s3Host = "" then key
  else
    let key := if contains key "/" then key else "avatars/" ++ key
    trimRight '/' s3Host ++ "/" ++ trimLeft '/' key

end MiniDiscord.ChatHub
