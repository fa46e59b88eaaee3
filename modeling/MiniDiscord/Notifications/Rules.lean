import MiniDiscord.Notifications.Settings

/-! # The client's rules

Whether a message that has arrived is shown, by the settings that the client was sent.
-/
namespace MiniDiscord.Notifications
open ChatHub

inductive NotifyDecision where
  | none
  | message
  | mention
  deriving DecidableEq

structure NotifiableMessage where
  id : MessageID
  channelID : ChannelID
  authorID : UserID
  mentions : List UserID
  mentionsEveryone : Bool
  replyToAuthorID : Option UserID

/-- What the client has of a message. -/
def notifiable (msg : WsMessage) : NotifiableMessage :=
  ⟨msg.id,msg.channelID,msg.authorID,msg.mentions,msg.mentionsEveryone,
    msg.replyTo.map WsReplyTo.authorID⟩

/-- `serverID` is 0 for a direct message. -/
structure NotifyContext where
  currentUserID : Option UserID
  activeChannelID : ChannelID
  isPageVisible : Bool
  serverID : ServerID
  settings : Option NotificationSettings

/-- What the client keeps of the answer of the settings request. -/
def toSettings (raw : NotificationSettings) : NotificationSettings :=
  { raw with
    defaultLevel := if raw.defaultLevel = .mentions ∨ raw.defaultLevel = .none then raw.defaultLevel
      else .all }

def isMention (msg : NotifiableMessage) (currentUserID : Option UserID) : Bool :=
  match currentUserID with
  | none => false
  | some u => decide (u ∈ msg.mentions) || decide (msg.replyToAuthorID = some u) || msg.mentionsEveryone

def isTimeInFuture (iso : Option Time) (now : Time) : Bool :=
  match iso with
  | none => false
  | some t => decide (now < t)

def channelOverride (settings : NotificationSettings) (channelID : ChannelID) :
    Option ChannelNotificationOverride :=
  settings.channels.find? (fun c => decide (c.channelID = channelID))

def serverOverride (settings : NotificationSettings) (serverID : ServerID) :
    Option ServerNotificationOverride :=
  settings.servers.find? (fun s => decide (s.serverID = serverID))

def resolveLevel (settings : Option NotificationSettings) (serverID : ServerID) (channelID : ChannelID) :
    NotificationLevel :=
  match settings with
  | none => .all
  | some settings =>
    match (channelOverride settings channelID).bind ChannelNotificationOverride.level with
    | some level => level
    | none =>
      if serverID ≤ 0 then .all else
      match (serverOverride settings serverID).bind ServerNotificationOverride.level with
      | some level => level
      | none => settings.defaultLevel

def isMuted (settings : Option NotificationSettings) (serverID : ServerID) (channelID : ChannelID)
    (now : Time) : Bool :=
  match settings with
  | none => false
  | some settings =>
    if isTimeInFuture ((channelOverride settings channelID).bind
        ChannelNotificationOverride.mutedUntil) now then true
    else isTimeInFuture ((serverOverride settings serverID).bind
      ServerNotificationOverride.mutedUntil) now

def isDoNotDisturb (settings : Option NotificationSettings) (now : Time) : Bool :=
  match settings with
  | none => false
  | some settings => isTimeInFuture settings.dndUntil now

def shouldNotify (msg : NotifiableMessage) (ctx : NotifyContext) (now : Time) : NotifyDecision :=
  if ctx.currentUserID = some msg.authorID then .none
  else if msg.channelID = ctx.activeChannelID ∧ ctx.isPageVisible = true then .none
  else if isDoNotDisturb ctx.settings now = true then .none
  else
    let level := resolveLevel ctx.settings ctx.serverID msg.channelID
    if level = .none then .none
    else if isMuted ctx.settings ctx.serverID msg.channelID now = true then .none
    else
      let mention := isMention msg ctx.currentUserID
      if level = .mentions ∧ mention = false then .none
      else if mention = true then .mention else .message

end MiniDiscord.Notifications
