import MiniDiscord.Commands.Calls

/-! # The payload of a push

What the service worker of the recipient's browser shows.
-/
namespace MiniDiscord.Notifications
open ChatHub

def badgeIcon : String := "/favicon-192x192.png"

structure PayloadData where
  channelID : ChannelID
  serverID : ServerID
  messageID : MessageID
  url : String
  deriving DecidableEq

inductive PayloadType where
  | mention
  | message
  | aggregate
  deriving DecidableEq

structure Payload where
  type : PayloadType
  title : String
  body : String
  icon : String
  badge : String
  tag : String
  renotify : Bool
  data : PayloadData
  deriving DecidableEq

def resolveAuthorName (msg : WsMessage) : String :=
  let nickname := trimSpace msg.authorNickname
  if nickname ≠ "" then nickname
  else
    let fullName := trimSpace (trimSpace msg.authorFirstName ++ " " ++ trimSpace msg.authorLastName)
    if fullName ≠ "" then fullName else "Someone"

def resolveBody (msg : WsMessage) : String :=
  if msg.content ≠ "" then msg.content
  else if msg.attachments.length > 0 then "📎 Attachment"
  else "New message"

def payloadData (event : PushEvent) : PayloadData where
  channelID := event.channelID
  serverID := event.serverID
  messageID := event.message.id
  url := "/?channel=" ++ toString event.channelID ++ "&message=" ++ toString event.message.id

/-- A direct message has no name of a channel to show. -/
def isDM (event : PushEvent) : Bool := event.serverID ≤ 0

def hiddenBody (event : PushEvent) (count : ℕ) : String :=
  if isDM event = true then
    if count > 1 then toString count ++ " new messages" else "New message"
  else if count > 1 then "#" ++ event.channelName ++ ": " ++ toString count ++ " new messages"
  else "New message in #" ++ event.channelName

def singleTitle (event : PushEvent) (kind : PayloadType) : String :=
  let authorName := resolveAuthorName event.message
  if isDM event = true then
    if kind = .mention then authorName ++ " mentioned you" else authorName
  else if kind = .mention then authorName ++ " mentioned you in #" ++ event.channelName
  else authorName ++ " — #" ++ event.channelName

def buildPayload (event : PushEvent) (kind : PayloadType) (count : ℕ) (hidePreview : Bool) :
    Payload :=
  let tag := "channel-" ++ toString event.channelID
  let data := payloadData event
  if hidePreview = true then
    ⟨kind,"MuArAb",hiddenBody event count,"",badgeIcon,tag,true,data⟩
  else if count > 1 then
    let title := if isDM event = true then resolveAuthorName event.message else "#" ++ event.channelName
    ⟨.aggregate,title,toString count ++ " new messages","",badgeIcon,tag,true,data⟩
  else
    ⟨kind,singleTitle event kind,resolveBody event.message,event.message.authorAvatarURL,badgeIcon,
      tag,true,data⟩

/-- Whatever is shown, the data is of the event. -/
theorem buildPayload_data (event : PushEvent) (kind : PayloadType) (count : ℕ) (hidePreview : Bool) :
    (buildPayload event kind count hidePreview).data = payloadData event := by
  unfold buildPayload
  split
  · rfl
  · split
    · rfl
    · rfl

end MiniDiscord.Notifications
