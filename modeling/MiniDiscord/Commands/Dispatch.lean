import MiniDiscord.Commands.Servers
import MiniDiscord.Commands.Voice
import MiniDiscord.Commands.Messages

/-! # Direct messages, and the dispatch

`handleCommand` picks the handler of an action. Where the source starts a goroutine,
the handler is the same; when it runs is up to the caller.
-/
namespace MiniDiscord.ChatHub
open SfuTrack Effects

def openDM (s3Host : String) (req : Request) (payload : Option UserID) : HubM Unit := do
  match payload with
  | none => pushError "invalid open_dm payload"
  | some peerUserID =>
    if peerUserID ≤ 0 ∨ peerUserID = req.userID then
      pushError "peer_user_id must reference a different user"
      return
    match ← ask (.getUserByID peerUserID) with
    | .error _ => pushError "failed to resolve peer user"
    | .ok none => pushError "user not found"
    | .ok (some peer) =>
      if peer.isDeleted then
        pushError "user not found"
        return
      match ← ask (.openDMChannel req.userID peerUserID) with
      | .error .noSharedServer => pushError "no_shared_server"
      | .error _ => pushError "failed to open dm"
      | .ok channelID =>
        match ← ask (.listDMChannels req.userID) with
        | .error _ => pushError "failed to load dm channel"
        | .ok channels =>
          let dm := (channels.find? (fun c => decide (c.channelID = channelID))).getD
            ⟨channelID,peerUserID,peer.nickname,avatarURLFromKey peer.avatarKey s3Host,none⟩
          act (.pushEvent { event := .dmOpened, data := .dmChannel dm })

def closeDM (req : Request) (payload : Option ChannelID) : HubM Unit := do
  match payload with
  | none => pushError "invalid close_dm payload"
  | some channelID =>
    if channelID ≤ 0 then
      pushError "channel_id is required"
      return
    match ← ask (.canUserAccessChannel req.userID channelID) with
    | .error _ => pushError "failed to check channel access"
    | .ok false => pushError "access denied"
    | .ok true =>
      match ← ask (.hideDMChannel req.userID channelID) with
      | .error _ => pushError "failed to close dm"
      | .ok _ => act (.pushEvent { event := .dmClosed, data := .channelID channelID })

def listDMs (req : Request) : HubM Unit := do
  match ← ask (.listDMChannels req.userID) with
  | .error _ => pushError "failed to list dms"
  | .ok channels => act (.pushEvent { event := .dmList, data := .listDMs channels })

def searchUsers (req : Request) (payload : Option WsSearchRequest) : HubM Unit := do
  if (← allow .searchUsers req.userID) = false then
    pushError "rate limit exceeded for search_users"
    return
  match payload with
  | none => pushError "invalid search_users payload"
  | some payload =>
    let query := trimSpace payload.query
    if query = "" then
      act (.pushEvent { event := .userSearch, data := .searchUsers [] })
      return
    match ← ask (.searchUsers req.userID query payload.limit) with
    | .error _ => pushError "failed to search users"
    | .ok users => act (.pushEvent { event := .userSearch, data := .searchUsers users })

def handleCommand (s3Host : String) (req : Request) : Command → HubM Unit
  | .createServer payload => createServer req payload
  | .deleteServer payload => deleteServer req payload
  | .joinServer payload => joinServer req payload
  | .createChannel payload => createChannel req payload
  | .deleteChannel payload => deleteChannel req payload
  | .sendMessage payload => sendMessage s3Host req payload
  | .deleteMessage payload => deleteMessage req payload
  | .editMessage payload => editMessage req payload
  | .getMessages payload => getMessages payload
  | .getServers => getServers req
  | .getServerChannels payload => getServerChannels s3Host payload
  | .getUsersOnline payload => getUsersOnline s3Host req payload
  | .joinVoiceChannel payload => joinVoiceChannel s3Host req payload
  | .leaveVoiceChannel => leaveVoiceChannel req
  | .sfuOffer payload => handleSfuOffer req payload
  | .sfuAnswer payload => handleSfuAnswer req payload
  | .sfuCandidate payload => handleSfuCandidate req payload
  | .sfuSubscribeVideo payload => handleSfuSubscribeVideo req payload
  | .sfuResume payload => handleSfuResume s3Host req payload
  | .sfuPublishState payload => handleSfuPublishState req payload
  | .searchServers payload => searchServers req payload
  | .getUserInfo payload => getUserInfo s3Host payload
  | .changeVoiceStatus payload => changeVoiceStatus s3Host req payload
  | .typingStart payload => handleTyping req true payload
  | .typingStop payload => handleTyping req false payload
  | .getUnread => getUnread req
  | .markRead payload => markRead req payload
  | .getServerMembers payload => getServerMembers req payload
  | .getMessagesAround payload => getMessagesAround req payload
  | .getMessagesAfter payload => getMessagesAfter req payload
  | .searchMessages payload => searchMessages req payload
  | .openDM payload => openDM s3Host req payload
  | .closeDM payload => closeDM req payload
  | .listDMs => listDMs req
  | .searchUsers payload => searchUsers req payload
  | .unknown => pushError "unknown action"

/-- The actions that `handleCommand` hands to a goroutine of their own. -/
def offLoop : Command → Bool
  | .sfuOffer _ => true
  | .sfuAnswer _ => true
  | .sfuCandidate _ => true
  | .sfuSubscribeVideo _ => true
  | .sfuResume _ => true
  | .getMessagesAround _ => true
  | .getMessagesAfter _ => true
  | .searchMessages _ => true
  | .searchUsers _ => true
  | _ => false

end MiniDiscord.ChatHub
