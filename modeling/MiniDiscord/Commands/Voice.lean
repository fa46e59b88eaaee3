import MiniDiscord.Commands.Calls
import Mathlib.Data.List.Sort

/-! # Voice channels and the SFU's commands

The maps of the voice state are read and written under `h.mu`; the storage is asked
outside of it.
-/
namespace MiniDiscord.ChatHub
open SfuTrack Effects

def SourceCamera : Source := "camera"
def SourceScreen : Source := "screen"
def SourceScreenAudio : Source := "screen_audio"

/-- `sfu.PublishSlots`, without the MIDs, which the response leaves out. -/
def publishSlots : List (String × Source) :=
  [("audio",SourceMic),("video",SourceCamera),("video",SourceScreen),("audio",SourceScreenAudio)]

abbrev sfuRouter : HubM Bool := ask .sfuRouter
abbrev userVoiceChannel (userID : UserID) : HubM (Option ChannelID) := ask (.userVoiceChannel userID)
abbrev voiceParticipants (channelID : ChannelID) : HubM (Option (List UserID)) :=
  ask (.voiceParticipants channelID)
abbrev voiceStatusByUser (userID : UserID) : HubM (Option VoiceStatus) :=
  ask (.voiceStatusByUser userID)
abbrev sfuSessionByUser (userID : UserID) : HubM (Option SessionID) := ask (.sfuSessionByUser userID)
abbrev sfuGraceTimers (userID : UserID) : HubM Bool := ask (.sfuGraceTimers userID)

def resolveVoiceParticipant (s3Host : String) (userID : UserID) : HubM WsVoiceParticipant := do
  act .rLock
  let status ← voiceStatusByUser userID
  let detached ← sfuGraceTimers userID
  act .rUnlock
  let status := status.getD ⟨true,false⟩
  match ← ask (.getUserByID userID) with
  | .ok (some user) =>
    return ⟨userID,user.firstName,user.lastName,user.nickname,status.micEnabled,status.deafened,
      avatarURLFromKey user.avatarKey s3Host,detached⟩
  | _ => return ⟨userID,"","","",status.micEnabled,status.deafened,"",detached⟩

def listOnlineServerUserIDs (serverID : ServerID) (excludeUserID : UserID) :
    HubM (Except GoError (List UserID)) := do
  match ← ask (.listServerMembersUserIDs serverID) with
  | .error err => return .error err
  | .ok serverUserIDs =>
    act .rLock
    let online ← clientsByUser
    act .rUnlock
    return .ok (serverUserIDs.filter (fun u => decide (u ≠ excludeUserID ∧ u ∈ online)))

/-- The channels that have participants, read under the lock. -/
def participantsByChannel : List ChannelID → HubM (List (ChannelID × List UserID))
  | [] => pure []
  | channelID :: rest => do
    let participants ← voiceParticipants channelID
    let others ← participantsByChannel rest
    match participants with
    | some (u :: us) => return (channelID,u :: us) :: others
    | _ => return others

/-- The range over the channels found may take any order; the result is sorted. -/
def buildVoiceParticipantsSnapshot (s3Host : String) (channels : List Channel) :
    HubM (List WsVoiceChannelParticipants) := do
  let voiceChannelIDs := (channels.filter (fun c => decide (c.type = .voice))).map Channel.id
  act .rLock
  let found ← participantsByChannel voiceChannelIDs.dedup
  act .rUnlock
  let snapshot ← Program.mapEach (fun cu => do
    let participants ← Program.mapEach (resolveVoiceParticipant s3Host) cu.2
    return (⟨cu.1,participants.mergeSort (fun a b => decide (a.userID ≤ b.userID))⟩ :
      WsVoiceChannelParticipants)) found
  return snapshot.mergeSort (fun a b => decide (a.channelID ≤ b.channelID))

def getServerChannels (s3Host : String) (payload : Option ServerID) : HubM Unit := do
  match payload with
  | none => pushError "invalid get_server_channels payload"
  | some serverID =>
    if serverID ≤ 0 then
      pushError "server_id is required"
      return
    match ← ask (.getServerChannels serverID) with
    | .error _ => pushError "failed to get server_channels"
    | .ok channels =>
      let participants ← buildVoiceParticipantsSnapshot s3Host channels
      pushAck (.getChannels channels participants)

/-- Whom `leaveVoiceChannelInternal` tells; `others` are told when the channel's server
cannot be found out. -/
def leaveAudience (channelID : ChannelID) (userID : UserID) (others : List UserID) :
    HubM (List UserID) := do
  match ← ask (.getChannelByID channelID) with
  | .ok (some channel) =>
    match ← listOnlineServerUserIDs channel.serverID userID with
    | .ok serverOnlineUserIDs => return serverOnlineUserIDs
    | .error _ => return others
  | _ => return others

def leaveSession : Option SessionID → HubM Unit
  | none => return
  | some sessionID => do
    if ← sfuRouter then
      act (.routerLeave sessionID)

/-- What `leaveVoiceChannelInternal` does once the maps are updated. -/
def leaveNotify (userID : UserID) (channelID : ChannelID) (session : Option SessionID)
    (participants : Option (List UserID)) : HubM ChannelID := do
  leaveSession session
  let notifyUsers := (participants.getD []).filter (fun u => decide (u ≠ userID))
  let notifyUsers ← leaveAudience channelID userID notifyUsers
  act (.pushToUsers notifyUsers
    { event := .voiceUserLeft
      data := .voiceUser channelID ⟨userID,"","","",false,false,"",false⟩ })
  return channelID

/-- Returns the channel that was left, 0 if the user was in none. -/
def leaveVoiceChannelInternal (userID : UserID) : HubM ChannelID := do
  act .lock
  match ← userVoiceChannel userID with
  | none =>
    act .unlock
    return 0
  | some channelID =>
    let session ← sfuSessionByUser userID
    if ← sfuGraceTimers userID then
      act (.stopGraceTimer userID)
    let participants ← voiceParticipants channelID
    act (.leaveVoice userID channelID)
    act .unlock
    leaveNotify userID channelID session participants

def leaveVoiceChannel (req : Request) : HubM Unit := do
  let channelID ← leaveVoiceChannelInternal req.userID
  if channelID = 0 then
    pushAck .none
    return
  pushAck (.channelID channelID)

/-- The part of `joinVoiceChannel` after the checks. -/
def startVoice (s3Host : String) (req : Request) (channelID : ChannelID) (serverID : ServerID) :
    HubM Unit := do
  let _ ← leaveVoiceChannelInternal req.userID
  match ← ask (.join req.userID channelID) with
  | .error _ => pushError "failed to start voice session"
  | .ok sessionID =>
    act .lock
    let participants ← voiceParticipants channelID
    act (.joinVoice req.userID channelID sessionID)
    act .unlock
    let otherUserIDs := (participants.getD []).filter (fun u => decide (u ≠ req.userID))
    let peers ← Program.mapEach (resolveVoiceParticipant s3Host) otherUserIDs
    let iceServers : List WsICEServer ← ask (.buildSFUIceServers req.userID)
    let selfParticipant ← resolveVoiceParticipant s3Host req.userID
    pushAck (.joinVoiceChannel channelID peers sessionID iceServers publishSlots)
    let online ← listOnlineServerUserIDs serverID req.userID
    let audience := match online with
      | .ok serverOnlineUserIDs => serverOnlineUserIDs
      | .error _ => otherUserIDs
    act (.pushToUsers audience
      { event := .voiceUserJoined, data := .voiceUser channelID selfParticipant })

/-- The checks of `joinVoiceChannel` on the channel it found. -/
def joinFound (s3Host : String) (req : Request) (channelID : ChannelID) (channel : Channel) :
    HubM Unit := do
  if channel.type ≠ .voice then
    pushError "selected channel is not voice"
    return
  match ← ask (.canUserAccessChannel req.userID channelID) with
  | .error _ => pushError "failed to check channel access"
  | .ok false => pushError "access denied"
  | .ok true =>
    if (← sfuRouter) = false then
      pushError "voice is not available right now"
      return
    startVoice s3Host req channelID channel.serverID

def joinVoiceChannel (s3Host : String) (req : Request) (payload : Option ChannelID) : HubM Unit := do
  match payload with
  | none => pushError "invalid join_voice_channel payload"
  | some channelID =>
    if channelID ≤ 0 then
      pushError "channel_id is required"
      return
    match ← ask (.getChannelByID channelID) with
    | .error .noRows => pushError "channel not found"
    | .error _ => pushError "failed to resolve channel"
    | .ok none => .crash
    | .ok (some channel) => joinFound s3Host req channelID channel

def changeVoiceStatus (s3Host : String) (req : Request) (payload : Option VoiceStatus) :
    HubM Unit := do
  match payload with
  | none => pushError "invalid change_voice_status payload"
  | some status =>
    act .lock
    match ← userVoiceChannel req.userID with
    | none =>
      act .unlock
      pushError "user not in voice channel"
    | some channelID =>
      match ← voiceParticipants channelID with
      | none =>
        act .unlock
        pushError "voice channel not found"
      | some participants =>
        act (.setVoiceStatus req.userID status)
        act .unlock
        let updatedParticipant ← resolveVoiceParticipant s3Host req.userID
        act (.pushToUsers participants
          { event := .voiceStatusChanged, data := .voiceUser channelID updatedParticipant })
        pushAck .none

/-! ## The SFU's own commands -/

def ownsSfuSession (userID : UserID) (sessionID : SessionID) : HubM Bool := do
  if sessionID = "" then return false
  act .rLock
  let current ← sfuSessionByUser userID
  act .rUnlock
  return decide (current.getD "" = sessionID)

/-- The guard of every handler below. -/
def mayDrive (userID : UserID) (sessionID : SessionID) : HubM Bool := do
  if ← sfuRouter then ownsSfuSession userID sessionID else return false

def handleSfuOffer (req : Request) (payload : Option WsSfuOfferRequest) : HubM Unit := do
  match payload with
  | none => pushSfuError "" "invalid_payload" "invalid sfu_offer payload"
  | some payload =>
    if (← mayDrive req.userID payload.sessionID) = false then
      pushSfuError payload.sessionID "invalid_session" "unknown or foreign SFU session"
      return
    match ← ask (.handleOffer payload.sessionID payload.sdp payload.slots) with
    | .error err => pushSfuError payload.sessionID "offer_failed" err.text
    | .ok _ => pushAckWithRequestID req.requestID .none

def handleSfuAnswer (req : Request) (payload : Option WsSfuAnswerPayload) : HubM Unit := do
  match payload with
  | none => pushSfuError "" "invalid_payload" "invalid sfu_answer payload"
  | some payload =>
    if (← mayDrive req.userID payload.sessionID) = false then
      pushSfuError payload.sessionID "invalid_session" "unknown or foreign SFU session"
      return
    match ← ask (.handleAnswer payload.sessionID payload.sdp) with
    | .error err => pushSfuError payload.sessionID "answer_failed" err.text
    | .ok _ => pushAckWithRequestID req.requestID .none

def handleSfuCandidate (req : Request) (payload : Option WsSfuCandidatePayload) : HubM Unit := do
  match payload with
  | none => pushSfuError "" "invalid_payload" "invalid sfu_candidate payload"
  | some payload =>
    if (← mayDrive req.userID payload.sessionID) = false then
      pushSfuError payload.sessionID "invalid_session" "unknown or foreign SFU session"
      return
    match ← ask (.handleCandidate payload) with
    | .error err => pushSfuError payload.sessionID "candidate_failed" err.text
    | .ok _ => return

def qualityOf (raw : String) : Option Quality :=
  if raw = "off" then some .off
  else if raw = "low" then some .low
  else if raw = "high" then some .high
  else none

def handleSfuSubscribeVideo (req : Request) (payload : Option WsSfuSubscribeVideoRequest) :
    HubM Unit := do
  match payload with
  | none => pushSfuError "" "invalid_payload" "invalid sfu_subscribe_video payload"
  | some payload =>
    if (← mayDrive req.userID payload.sessionID) = false then
      pushSfuError payload.sessionID "invalid_session" "unknown or foreign SFU session"
      return
    match qualityOf payload.quality with
    | none => pushSfuError payload.sessionID "invalid_quality" "quality must be off, low, or high"
    | some quality =>
      match ← ask (.subscribeVideo payload.sessionID payload.targetUserID payload.source quality) with
      | .error err => pushSfuError payload.sessionID "subscribe_failed" err.text
      | .ok _ => pushAckWithRequestID req.requestID .none

/-- `SendTrackPublished` and `SendTrackUnpublished`, by way of `broadcastToChannelVoice`. -/
def sendTrack (event : WsEventType) (channelID : ChannelID) (userID : UserID) (source : Source) :
    HubM Unit := do
  act .rLock
  let participants ← voiceParticipants channelID
  act .rUnlock
  act (.pushToUsers (participants.getD [])
    { event := event, data := .sfuTrack channelID userID source "video" })

/-- An error is logged only. -/
def setPublishState (payload : WsSfuPublishStateRequest) : HubM Unit := do
  if ← sfuRouter then
    let _ ← ask (.setPublishState payload.sessionID payload.source payload.active)

def handleSfuPublishState (req : Request) (payload : Option WsSfuPublishStateRequest) :
    HubM Unit := do
  match payload with
  | none => pushSfuError "" "invalid_payload" "invalid sfu_publish_state payload"
  | some payload =>
    if (← ownsSfuSession req.userID payload.sessionID) = false then
      pushSfuError payload.sessionID "invalid_session" "unknown or foreign SFU session"
      return
    if payload.source ≠ SourceScreen ∧ payload.source ≠ SourceCamera then
      pushSfuError payload.sessionID "invalid_source"
        "publish state is only supported for screen and camera"
      return
    act .rLock
    let channelID ← userVoiceChannel req.userID
    act .rUnlock
    setPublishState payload
    sendTrack (if payload.active then .sfuTrackPublished else .sfuTrackUnpublished)
      (channelID.getD 0) req.userID payload.source
    pushAckWithRequestID req.requestID .none

def expireVoiceSession (userID : UserID) (sessionID : SessionID) : HubM Unit := do
  act .lock
  let current ← sfuSessionByUser userID
  act (.deleteGraceTimer userID)
  act .unlock
  if current ≠ some sessionID then
    return
  let ch ← leaveVoiceChannelInternal userID
  if ch ≠ 0 then
    act (.countVoiceClose "grace_expired")
    act (.pushToUserID userID
      { event := .sfuSessionClosed, data := .sfuSessionClosed sessionID "grace_expired" })

/-- The locked section of `handleSfuResume`: the channel, and the other participants. -/
def resumeLocked (userID : UserID) : HubM (ChannelID × List UserID) := do
  act .lock
  if ← sfuGraceTimers userID then
    act (.stopGraceTimer userID)
  let channelID ← userVoiceChannel userID
  let participants ← voiceParticipants (channelID.getD 0)
  act .unlock
  return (channelID.getD 0,(participants.getD []).filter (fun u => decide (u ≠ userID)))

/-- What `handleSfuResume` does once the router has resumed the session. -/
def resumeVoice (s3Host : String) (req : Request) : HubM Unit := do
  let (channelID,otherUserIDs) ← resumeLocked req.userID
  let peers ← Program.mapEach (resolveVoiceParticipant s3Host) otherUserIDs
  pushAckWithRequestID req.requestID (.sfuResume peers)
  let self ← resolveVoiceParticipant s3Host req.userID
  act (.pushToUsers otherUserIDs
    { event := .voiceUserResumed, data := .voiceUser channelID self })

def handleSfuResume (s3Host : String) (req : Request) (payload : Option SessionID) : HubM Unit := do
  match payload with
  | none => pushSfuError "" "invalid_payload" "invalid sfu_resume payload"
  | some sessionID =>
    if (← mayDrive req.userID sessionID) = false then
      pushSfuError sessionID "invalid_session" "unknown or foreign SFU session"
      return
    match ← ask (.resume sessionID req.userID) with
    | .error err =>
      pushSfuError sessionID "resume_failed" err.text
      expireVoiceSession req.userID sessionID
    | .ok _ => resumeVoice s3Host req

end MiniDiscord.ChatHub
