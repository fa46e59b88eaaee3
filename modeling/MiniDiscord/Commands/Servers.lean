import MiniDiscord.Commands.Calls

/-! # Servers, channels and members -/
namespace MiniDiscord.ChatHub
open SfuTrack Effects

def maxServerChannelNameLen : ℕ := 16

def createServer (req : Request) (payload : Option String) : HubM Unit := do
  if (← allow .createServer req.userID) = false then
    pushError "rate limit exceeded for create_server"
    return
  match payload with
  | none => pushError "invalid create_server payload"
  | some name =>
    let name := trimSpace name
    if name = "" then
      pushError "server name is required"
      return
    if name.length > maxServerChannelNameLen then
      pushError "server name must be at most 16 characters"
      return
    match ← ask (.createServer name req.userID) with
    | .error _ => pushError "failed to create server"
    | .ok serverID => pushAck (.createServer serverID name)

def deleteServer (req : Request) (payload : Option ServerID) : HubM Unit := do
  match payload with
  | none => pushError "invalid delete_server payload"
  | some serverID =>
    if serverID ≤ 0 then
      pushError "server_id is required"
      return
    match ← ask (.deleteServer serverID req.userID) with
    | .error err => pushError err.text
    | .ok _ => pushAck (.serverID serverID)

def joinServer (req : Request) (payload : Option ServerID) : HubM Unit := do
  match payload with
  | none => pushError "invalid join_server payload"
  | some serverID =>
    if serverID ≤ 0 then
      pushError "server_id is required"
      return
    match ← ask (.isServerMember req.userID serverID) with
    | .error _ => pushError "failed to check server membership"
    | .ok true => pushError "already a member"
    | .ok false =>
      match ← ask (.addMemberToServer req.userID serverID) with
      | .error _ => pushError "failed to join server"
      | .ok _ => pushAck (.serverID serverID)

def createChannel (req : Request) (payload : Option WsCreateChannelRequest) : HubM Unit := do
  if (← allow .createChannel req.userID) = false then
    pushError "rate limit exceeded for create_channel"
    return
  match payload with
  | none => pushError "invalid create_channel payload"
  | some payload =>
    let name := trimSpace payload.name
    if payload.serverID ≤ 0 ∨ name = "" then
      pushError "server_id and name are required"
      return
    if name.length > maxServerChannelNameLen then
      pushError "channel name must be at most 16 characters"
      return
    match normalizeChannelType payload.type with
    | none => pushError "invalid channel type"
    | some payloadType =>
      match ← ask (.isServerMember req.userID payload.serverID) with
      | .error _ => pushError "failed to check server membership"
      | .ok false => pushError "access denied"
      | .ok true =>
        match ← ask (.createChannel payload.serverID name payloadType) with
        | .error _ => pushError "failed to create channel"
        | .ok channelID => pushAck (.createChannel channelID payload.serverID name payloadType)

def deleteChannel (req : Request) (payload : Option ChannelID) : HubM Unit := do
  match payload with
  | none => pushError "invalid delete_channel payload"
  | some channelID =>
    if channelID ≤ 0 then
      pushError "channel_id is required"
      return
    match ← ask (.deleteChannel channelID req.userID) with
    | .error err => pushError err.text
    | .ok _ => pushAck (.channelID channelID)

def getServers (req : Request) : HubM Unit := do
  match ← ask (.getServersByUserID req.userID) with
  | .error _ => pushError "failed to get servers"
  | .ok servers => pushAck (.getServers servers)

def getServerMembers (req : Request) (payload : Option ServerID) : HubM Unit := do
  match payload with
  | none => pushError "invalid get_server_members payload"
  | some serverID =>
    if serverID ≤ 0 then
      pushError "server_id is required"
      return
    match ← ask (.isServerMember req.userID serverID) with
    | .error _ => pushError "failed to check server membership"
    | .ok false => pushError "access denied"
    | .ok true =>
      match ← ask (.listServerMembers serverID) with
      | .error _ => pushError "failed to resolve server members"
      | .ok members => pushAck (.getServerMembers members)

def searchServers (req : Request) (payload : Option WsSearchRequest) : HubM Unit := do
  match payload with
  | none => pushError "invalid search_servers payload"
  | some payload =>
    let query := trimSpace payload.query
    if query = "" ∨ query.length < 2 then
      pushAck (.searchServers [])
      return
    match ← ask (.searchServersByName req.userID query payload.limit) with
    | .error _ => pushError "failed to search servers"
    | .ok servers => pushAck (.searchServers servers)

def getUserInfo (s3Host : String) (payload : Option UserID) : HubM Unit := do
  match payload with
  | none => pushError "invalid get_users_online payload"
  | some userID =>
    if userID ≤ 0 then
      pushError "server_id is required"
      return
    match ← ask (.getUserByID userID) with
    | .error _ => pushError "failed to resolve user info"
    | .ok none => pushError "user not found"
    | .ok (some user) => pushAck (.userInfo user.id user.firstName user.lastName user.nickname
        (avatarURLFromKey user.avatarKey s3Host))

/-- The loop of `getUsersOnline` over the members, of whom `online` have a connection.
It runs under the read lock, and goes on after a lookup that failed: reading a field of
the nil user then panics. -/
def resolveOnline (s3Host : String) (online : List UserID) :
    List UserID → HubM (List UserResponse)
  | [] => pure []
  | userID :: rest => do
    if userID ∈ online then
      match ← ask (.getUserByID userID) with
      | .error _ =>
        pushError "failed to resolve user"
        .crash
      | .ok none => .crash
      | .ok (some user) =>
        let users ← resolveOnline s3Host online rest
        return ⟨user.firstName,user.lastName,user.nickname,avatarURLFromKey user.avatarKey s3Host,
          user.email⟩ :: users
    else resolveOnline s3Host online rest

def getUsersOnline (s3Host : String) (req : Request) (payload : Option ServerID) : HubM Unit := do
  match payload with
  | none => pushError "invalid get_users_online payload"
  | some serverID =>
    if serverID ≤ 0 then
      pushError "server_id is required"
      return
    match ← ask (.isServerMember req.userID serverID) with
    | .error _ => pushError "failed to check server membership"
    | .ok false => pushError "access denied"
    | .ok true =>
      match ← ask (.listServerMembersUserIDs serverID) with
      | .error _ => pushError "failed to resolve server members"
      | .ok serverUserIDs =>
        act .rLock
        let online ← clientsByUser
        let users ← resolveOnline s3Host online serverUserIDs
        act .rUnlock
        pushAck (.getUsersOnline serverID users)

end MiniDiscord.ChatHub
