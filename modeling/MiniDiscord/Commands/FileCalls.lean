import Mathlib.Data.Option.Basic
import MiniDiscord.Commands.Uploads

/-! # The commands that move no files

Only two calls of a command can harm a file that another one holds: the insert of attachment
rows, and the deletion of objects. Every handler but those of `send_message` and
`delete_message` makes neither.
-/
namespace MiniDiscord.Uploads
open SfuTrack ChatHub Effects Program

/-- The call neither inserts attachment rows nor deletes objects. -/
def KeepsFiles (c : Call) : Prop :=
  (∀ id attachments, c ≠ .saveMessageAttachments id attachments) ∧ ∀ keys, c ≠ .deleteAttachment keys

variable {B : Type}

abbrev Harmless (p : HubM B) : Prop := Uses KeepsFiles p

theorem forall_answer {E A : Type} {P : Except E A → Prop} :
    (∀ r, P r) ↔ (∀ e, P (.error e)) ∧ ∀ a, P (.ok a) :=
  ⟨fun h => ⟨fun _ => h _,fun _ => h _⟩,fun h r => match r with
    | .error e => h.1 e
    | .ok a => h.2 a⟩

theorem harmless_ask {c : Call} {f : c.Answer → HubM B} (hc : KeepsFiles c)
    (h : ∀ r, Harmless (f r)) : Harmless (ask c >>= f) := ⟨hc,h⟩

theorem harmless_act {a : Act} {f : Unit → HubM B} (h : Harmless (f ())) :
    Harmless (act a >>= f) := h

theorem harmless_ite {c : Prop} [Decidable c] {p q : HubM B} (hp : Harmless p) (hq : Harmless q) :
    Harmless (if c then p else q) := (uses_ite _ _ _).mpr ⟨fun _ => hp,fun _ => hq⟩

section Handlers
variable (s3Host : String) (req : Request)

attribute [local simp] forall_answer Option.forall pushError pushAck pushErrorWithRequestID
  pushAckWithRequestID pushSfuError KeepsFiles

theorem createServer_harmless (payload : Option String) : Harmless (createServer req payload) := by
  cases payload <;> simp [Harmless,createServer]

theorem deleteServer_harmless (payload : Option ServerID) : Harmless (deleteServer req payload) := by
  cases payload <;> simp [Harmless,deleteServer]

theorem joinServer_harmless (payload : Option ServerID) : Harmless (joinServer req payload) := by
  cases payload <;> simp [Harmless,joinServer]

theorem createChannel_harmless (payload : Option WsCreateChannelRequest) :
    Harmless (createChannel req payload) := by
  cases payload with
  | none => simp [createChannel]
  | some payload =>
    cases ht : normalizeChannelType payload.type <;> simp [createChannel,ht]

theorem deleteChannel_harmless (payload : Option ChannelID) : Harmless (deleteChannel req payload) := by
  cases payload <;> simp [Harmless,deleteChannel]

theorem getServers_harmless : Harmless (getServers req) := by
  simp [Harmless,getServers]

theorem getServerMembers_harmless (payload : Option ServerID) :
    Harmless (getServerMembers req payload) := by
  cases payload <;> simp [Harmless,getServerMembers]

theorem searchServers_harmless (payload : Option WsSearchRequest) :
    Harmless (searchServers req payload) := by
  cases payload <;> simp [Harmless,searchServers]

theorem getUserInfo_harmless (payload : Option UserID) : Harmless (getUserInfo s3Host payload) := by
  cases payload <;> simp [Harmless,getUserInfo]

theorem editMessage_harmless (payload : Option WsEditMessageRequest) :
    Harmless (editMessage req payload) := by
  cases payload <;> simp [Harmless,editMessage]

theorem getMessages_harmless (payload : Option WsGetMessagesRequest) :
    Harmless (getMessages payload) := by
  cases payload <;> simp [Harmless,getMessages,encodeCursor]

theorem getMessagesAfter_harmless (payload : Option WsGetMessagesRequest) :
    Harmless (getMessagesAfter req payload) := by
  cases payload <;> simp [Harmless,getMessagesAfter,encodeCursor]

theorem getMessagesAround_harmless (payload : Option WsGetMessagesAroundRequest) :
    Harmless (getMessagesAround req payload) := by
  cases payload <;> simp [Harmless,getMessagesAround,encodeCursor]

theorem parseDate_harmless (raw : Option String) : Harmless (parseDate raw) := by
  cases raw <;> simp [parseDate]

theorem searchWithin_harmless (payload : WsSearchMessagesRequest) (query : String) :
    Harmless (searchWithin req payload query) := by
  refine Uses.bind (parseDate_harmless _) ?_
  rintro (err | before)
  · simp
  · refine Uses.bind (parseDate_harmless _) ?_
    rintro (err | after)
    · simp
    · simp [encodeCursor]

theorem searchAccess_harmless (userID : UserID) (serverID : ServerID) (channelID : ChannelID) :
    Harmless (searchAccess userID serverID channelID) := by
  simp [searchAccess]

theorem searchMessages_harmless (payload : Option WsSearchMessagesRequest) :
    Harmless (searchMessages req payload) := by
  cases payload with
  | none => simp [searchMessages]
  | some payload =>
    simp only [searchMessages,uses_ite]
    refine ⟨fun _ => by simp,fun _ => ⟨fun _ => by simp,fun _ => ?_⟩⟩
    refine Uses.bind (searchAccess_harmless _ _ _) ?_
    rintro (err | (_ | _))
    · simp
    · simp
    · exact searchWithin_harmless req payload _

theorem getUnread_harmless : Harmless (getUnread req) := by
  simp [Harmless,getUnread]

theorem markRead_harmless (payload : Option (ChannelID × MessageID)) :
    Harmless (markRead req payload) := by
  cases payload <;> simp [Harmless,markRead]

theorem handleTyping_harmless (start : Bool) (payload : Option ChannelID) :
    Harmless (handleTyping req start payload) := by
  cases payload <;> simp [Harmless,handleTyping]

theorem openDM_harmless (payload : Option UserID) : Harmless (openDM s3Host req payload) := by
  cases payload with
  | none => simp [openDM]
  | some peerUserID =>
    simp only [openDM,bind_call,uses_ite,uses_ask]
    refine ⟨fun _ => by simp,fun _ => ⟨by simp,?_⟩⟩
    rintro (err | (_ | peer))
    · simp
    · simp
    · refine harmless_ite (by simp) (harmless_ask (by simp) ?_)
      rintro (err | channelID)
      · cases err <;> simp
      · simp

theorem closeDM_harmless (payload : Option ChannelID) : Harmless (closeDM req payload) := by
  cases payload <;> simp [Harmless,closeDM]

theorem listDMs_harmless : Harmless (listDMs req) := by
  simp [Harmless,listDMs]

theorem searchUsers_harmless (payload : Option WsSearchRequest) :
    Harmless (searchUsers req payload) := by
  cases payload <;> simp [Harmless,searchUsers]

theorem resolveOnline_harmless (online userIDs : List UserID) :
    Harmless (resolveOnline s3Host online userIDs) := by
  induction userIDs with
  | nil => simp [resolveOnline]
  | cons userID rest ih =>
    refine harmless_ite (harmless_ask (by simp) ?_) ih
    rintro (err | (_ | user))
    · trivial
    · trivial
    · exact ih.bind (fun _ => trivial)

theorem getUsersOnline_harmless (payload : Option ServerID) :
    Harmless (getUsersOnline s3Host req payload) := by
  cases payload with
  | none => simp [getUsersOnline]
  | some serverID =>
    simp only [getUsersOnline,bind_call,uses_ite,uses_ask]
    refine ⟨fun _ => by simp,fun _ => ⟨by simp,?_⟩⟩
    rintro (err | (_ | _))
    · simp
    · simp
    · refine ⟨by simp,?_⟩
      rintro (err | serverUserIDs)
      · simp
      · exact ⟨by simp,fun online => (resolveOnline_harmless _ _ _).bind (fun _ => by simp)⟩

/-! ## Voice -/

theorem resolveVoiceParticipant_harmless (userID : UserID) :
    Harmless (resolveVoiceParticipant s3Host userID) := by
  simp [resolveVoiceParticipant]

theorem participantsByChannel_harmless (channelIDs : List ChannelID) :
    Harmless (participantsByChannel channelIDs) := by
  induction channelIDs with
  | nil => trivial
  | cons channelID rest ih =>
    refine harmless_ask (by simp) (fun participants => ih.bind (fun others => ?_))
    rcases participants with _ | (_ | ⟨u,us⟩) <;> trivial

theorem buildVoiceParticipantsSnapshot_harmless (channels : List Channel) :
    Harmless (buildVoiceParticipantsSnapshot s3Host channels) := by
  refine harmless_act (Uses.bind (participantsByChannel_harmless _) (fun found => harmless_act ?_))
  refine Uses.bind (uses_mapEach (fun cu => ?_)) (fun _ => trivial)
  exact Uses.bind (uses_mapEach (resolveVoiceParticipant_harmless s3Host)) (fun _ => trivial)

theorem getServerChannels_harmless (payload : Option ServerID) :
    Harmless (getServerChannels s3Host payload) := by
  cases payload with
  | none => simp [getServerChannels]
  | some serverID =>
    simp only [getServerChannels,bind_call,uses_ite,uses_ask]
    refine ⟨fun _ => by simp,fun _ => ⟨by simp,?_⟩⟩
    rintro (err | channels)
    · simp
    · exact (buildVoiceParticipantsSnapshot_harmless _ _).bind (fun _ => by simp)

theorem listOnlineServerUserIDs_harmless (serverID : ServerID) (excludeUserID : UserID) :
    Harmless (listOnlineServerUserIDs serverID excludeUserID) := by
  simp [listOnlineServerUserIDs]

theorem leaveNotify_harmless (userID : UserID) (channelID : ChannelID) (session : Option SessionID)
    (participants : Option (List UserID)) :
    Harmless (leaveNotify userID channelID session participants) := by
  have hsession : Harmless (leaveSession session) := by
    cases session <;> simp [leaveSession]
  have haudience : ∀ others, Harmless (leaveAudience channelID userID others) := by
    intro others
    refine harmless_ask (by simp) ?_
    rintro (err | (_ | channel))
    · trivial
    · trivial
    · refine (listOnlineServerUserIDs_harmless _ _).bind ?_
      rintro (err | serverOnlineUserIDs) <;> trivial
  exact hsession.bind (fun _ => (haudience _).bind (fun _ => trivial))

theorem leaveVoiceChannelInternal_harmless (userID : UserID) :
    Harmless (leaveVoiceChannelInternal userID) := by
  refine harmless_act (harmless_ask (by simp) ?_)
  rintro (_ | channelID)
  · trivial
  · refine harmless_ask (by simp) (fun session => harmless_ask (by simp) (fun timer => ?_))
    have hrest : Harmless (ask (.voiceParticipants channelID) >>= fun participants =>
        act (.leaveVoice userID channelID) >>= fun _ => act .unlock >>= fun _ =>
          leaveNotify userID channelID session participants) :=
      harmless_ask (by simp) (fun _ => leaveNotify_harmless _ _ _ _)
    exact harmless_ite hrest hrest

theorem leaveVoiceChannel_harmless : Harmless (leaveVoiceChannel req) :=
  (leaveVoiceChannelInternal_harmless _).bind (fun channelID => by simp)

theorem startVoice_harmless (channelID : ChannelID) (serverID : ServerID) :
    Harmless (startVoice s3Host req channelID serverID) := by
  refine (leaveVoiceChannelInternal_harmless _).bind (fun _ => harmless_ask (by simp) ?_)
  rintro (err | sessionID)
  · simp
  · refine harmless_act (harmless_ask (by simp) (fun participants => harmless_act (harmless_act ?_)))
    refine Uses.bind (uses_mapEach (resolveVoiceParticipant_harmless s3Host)) (fun peers => ?_)
    refine harmless_ask (by simp) (fun iceServers => ?_)
    refine (resolveVoiceParticipant_harmless s3Host _).bind (fun selfParticipant => harmless_act ?_)
    exact (listOnlineServerUserIDs_harmless _ _).bind (fun online => trivial)

theorem joinVoiceChannel_harmless (payload : Option ChannelID) :
    Harmless (joinVoiceChannel s3Host req payload) := by
  cases payload with
  | none => simp [joinVoiceChannel]
  | some channelID =>
    simp only [joinVoiceChannel,bind_call,uses_ite,uses_ask]
    refine ⟨fun _ => by simp,fun _ => ⟨by simp,?_⟩⟩
    rintro (err | (_ | channel))
    · cases err <;> simp
    · trivial
    · refine harmless_ite (by simp) (harmless_ask (by simp) ?_)
      rintro (err | (_ | _))
      · simp
      · simp
      · refine harmless_ask (by simp) (fun router => harmless_ite (by simp) ?_)
        exact startVoice_harmless s3Host req channelID channel.serverID

theorem changeVoiceStatus_harmless (payload : Option VoiceStatus) :
    Harmless (changeVoiceStatus s3Host req payload) := by
  cases payload with
  | none => simp [changeVoiceStatus]
  | some status =>
    refine harmless_act (harmless_ask (by simp) ?_)
    rintro (_ | channelID)
    · simp
    · refine harmless_ask (by simp) ?_
      rintro (_ | participants)
      · simp
      · exact harmless_act (harmless_act
          ((resolveVoiceParticipant_harmless s3Host _).bind (fun _ => by simp)))

/-! ## The SFU's own commands -/

theorem ownsSfuSession_harmless (userID : UserID) (sessionID : SessionID) :
    Harmless (ownsSfuSession userID sessionID) := by
  simp [ownsSfuSession]

theorem mayDrive_harmless (userID : UserID) (sessionID : SessionID) :
    Harmless (mayDrive userID sessionID) := by
  simp [mayDrive,ownsSfuSession]

/-- A handler that begins with the guard. -/
theorem driven_harmless {userID : UserID} {sessionID : SessionID} {refusal rest : HubM Unit}
    (hrefusal : Harmless refusal) (hrest : Harmless rest) :
    Harmless (mayDrive userID sessionID >>= fun may => if may = false then refusal else rest) :=
  (mayDrive_harmless _ _).bind (fun _ => harmless_ite hrefusal hrest)

theorem handleSfuOffer_harmless (payload : Option WsSfuOfferRequest) :
    Harmless (handleSfuOffer req payload) := by
  cases payload with
  | none => simp [handleSfuOffer]
  | some payload => exact driven_harmless (by simp) (by simp)

theorem handleSfuAnswer_harmless (payload : Option WsSfuAnswerPayload) :
    Harmless (handleSfuAnswer req payload) := by
  cases payload with
  | none => simp [handleSfuAnswer]
  | some payload => exact driven_harmless (by simp) (by simp)

theorem handleSfuCandidate_harmless (payload : Option WsSfuCandidatePayload) :
    Harmless (handleSfuCandidate req payload) := by
  cases payload with
  | none => simp [handleSfuCandidate]
  | some payload => exact driven_harmless (by simp) (by simp)

theorem handleSfuSubscribeVideo_harmless (payload : Option WsSfuSubscribeVideoRequest) :
    Harmless (handleSfuSubscribeVideo req payload) := by
  cases payload with
  | none => simp [handleSfuSubscribeVideo]
  | some payload =>
    refine driven_harmless (by simp) ?_
    cases hq : qualityOf payload.quality <;> simp

theorem handleSfuPublishState_harmless (payload : Option WsSfuPublishStateRequest) :
    Harmless (handleSfuPublishState req payload) := by
  cases payload with
  | none => simp [handleSfuPublishState]
  | some payload =>
    have hset : Harmless (setPublishState payload) := by
      simp [setPublishState]
    refine (ownsSfuSession_harmless _ _).bind (fun owns => ?_)
    refine harmless_ite (by simp) (harmless_ite (by simp) ?_)
    refine harmless_act (harmless_ask (by simp) (fun channelID => harmless_act ?_))
    exact hset.bind (fun _ => by simp [sendTrack])

theorem expireVoiceSession_harmless (userID : UserID) (sessionID : SessionID) :
    Harmless (expireVoiceSession userID sessionID) := by
  refine harmless_act (harmless_ask (by simp) (fun current => harmless_act (harmless_act ?_)))
  refine harmless_ite trivial ?_
  exact (leaveVoiceChannelInternal_harmless _).bind (fun ch => by simp)

theorem resumeVoice_harmless : Harmless (resumeVoice s3Host req) := by
  have hlocked : Harmless (resumeLocked req.userID) := by
    refine harmless_act (harmless_ask (by simp) (fun timer => ?_))
    exact harmless_ite (by simp) (by simp)
  refine hlocked.bind (fun found => ?_)
  refine Uses.bind (uses_mapEach (resolveVoiceParticipant_harmless s3Host)) (fun peers => ?_)
  exact (resolveVoiceParticipant_harmless s3Host _).bind (fun _ => trivial)

theorem handleSfuResume_harmless (payload : Option SessionID) :
    Harmless (handleSfuResume s3Host req payload) := by
  cases payload with
  | none => simp [handleSfuResume]
  | some sessionID =>
    refine driven_harmless (by simp) (harmless_ask (by simp) ?_)
    rintro (err | _)
    · exact expireVoiceSession_harmless _ _
    · exact resumeVoice_harmless s3Host req

/-- The commands whose handlers move files. -/
def Command.movesFiles : Command → Bool
  | .sendMessage _ => true
  | .deleteMessage _ => true
  | _ => false

theorem handleCommand_harmless {command : Command} (h : Command.movesFiles command = false) :
    Harmless (handleCommand s3Host req command) := by
  cases command with
  | createServer payload => exact createServer_harmless req payload
  | deleteServer payload => exact deleteServer_harmless req payload
  | joinServer payload => exact joinServer_harmless req payload
  | createChannel payload => exact createChannel_harmless req payload
  | deleteChannel payload => exact deleteChannel_harmless req payload
  | sendMessage payload => cases h
  | deleteMessage payload => cases h
  | editMessage payload => exact editMessage_harmless req payload
  | getMessages payload => exact getMessages_harmless payload
  | getServers => exact getServers_harmless req
  | getServerChannels payload => exact getServerChannels_harmless s3Host payload
  | getUsersOnline payload => exact getUsersOnline_harmless s3Host req payload
  | joinVoiceChannel payload => exact joinVoiceChannel_harmless s3Host req payload
  | leaveVoiceChannel => exact leaveVoiceChannel_harmless req
  | sfuOffer payload => exact handleSfuOffer_harmless req payload
  | sfuAnswer payload => exact handleSfuAnswer_harmless req payload
  | sfuCandidate payload => exact handleSfuCandidate_harmless req payload
  | sfuSubscribeVideo payload => exact handleSfuSubscribeVideo_harmless req payload
  | sfuResume payload => exact handleSfuResume_harmless s3Host req payload
  | sfuPublishState payload => exact handleSfuPublishState_harmless req payload
  | searchServers payload => exact searchServers_harmless req payload
  | getUserInfo payload => exact getUserInfo_harmless s3Host payload
  | changeVoiceStatus payload => exact changeVoiceStatus_harmless s3Host req payload
  | typingStart payload => exact handleTyping_harmless req true payload
  | typingStop payload => exact handleTyping_harmless req false payload
  | getUnread => exact getUnread_harmless req
  | markRead payload => exact markRead_harmless req payload
  | getServerMembers payload => exact getServerMembers_harmless req payload
  | getMessagesAround payload => exact getMessagesAround_harmless req payload
  | getMessagesAfter payload => exact getMessagesAfter_harmless req payload
  | searchMessages payload => exact searchMessages_harmless req payload
  | openDM payload => exact openDM_harmless s3Host req payload
  | closeDM payload => exact closeDM_harmless req payload
  | listDMs => exact listDMs_harmless req
  | searchUsers payload => exact searchUsers_harmless req payload
  | unknown => trivial

end Handlers
end MiniDiscord.Uploads
