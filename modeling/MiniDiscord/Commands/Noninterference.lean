import MiniDiscord.Commands.Confidentiality

/-! # Handlers that ask only for what their user sees

Handler by handler: what is asked is what the user sees, for it was checked before, or is the
user's own.
-/
namespace MiniDiscord.ChatHub
open SfuTrack Effects Program
variable {v : View} {decode : String → Except GoError (Option WsMessageCursor)} {req : Request}

/-! ## Servers and channels -/

theorem createServer_discreet (payload : Option String) :
    Discreet v decode (createServer req payload) := by
  refine discreet_ask rfl (fun allowed _ => discreet_ite (fun _ => trivial) (fun _ => ?_))
  cases payload with
  | none => exact discreet_act
  | some name =>
    refine discreet_ite (fun _ => trivial) (fun _ => ?_)
    refine discreet_ite (fun _ => trivial) (fun _ => discreet_ask rfl ?_)
    rintro (err | serverID) -
    · exact discreet_act
    · exact discreet_act

theorem deleteServer_discreet (payload : Option ServerID) :
    Discreet v decode (deleteServer req payload) := by
  cases payload with
  | none => exact discreet_act
  | some serverID =>
    refine discreet_ite (fun _ => trivial) (fun _ => discreet_ask rfl ?_)
    rintro (err | _) -
    · exact discreet_act
    · exact discreet_act

theorem joinServer_discreet (payload : Option ServerID) :
    Discreet v decode (joinServer req payload) := by
  cases payload with
  | none => exact discreet_act
  | some serverID =>
    refine discreet_ite (fun _ => trivial) (fun _ => discreet_ask rfl ?_)
    rintro (err | (_ | _)) -
    · exact discreet_act
    · refine discreet_ask rfl ?_
      rintro (err | _) -
      · exact discreet_act
      · exact discreet_act
    · exact discreet_act

theorem createChannel_discreet (hr : req.userID = v.userID)
    (payload : Option WsCreateChannelRequest) : Discreet v decode (createChannel req payload) := by
  refine discreet_ask rfl (fun allowed _ => discreet_ite (fun _ => trivial) (fun _ => ?_))
  cases payload with
  | none => exact discreet_act
  | some payload =>
    refine discreet_ite (fun _ => trivial) (fun _ => ?_)
    refine discreet_ite (fun _ => trivial) (fun _ => ?_)
    cases normalizeChannelType payload.type with
    | none => exact discreet_act
    | some payloadType =>
      refine discreet_ask rfl ?_
      rintro (err | (_ | _)) hmember
      · exact discreet_act
      · exact discreet_act
      · refine discreet_asks (hmember hr rfl) rfl ?_
        rintro (err | channelID) -
        · exact discreet_act
        · exact discreet_act

theorem deleteChannel_discreet {channelID : ChannelID} (h : v.sees (.channel channelID)) :
    Discreet v decode (deleteChannel req (some channelID)) := by
  refine discreet_ite (fun _ => trivial) (fun _ => discreet_asks h rfl ?_)
  rintro (err | _) -
  · exact discreet_act
  · exact discreet_act

theorem getServers_discreet : Discreet v decode (getServers req) := by
  refine discreet_ask rfl ?_
  rintro (err | servers) -
  · exact discreet_act
  · exact discreet_act

theorem getServerMembers_discreet (hr : req.userID = v.userID) (payload : Option ServerID) :
    Discreet v decode (getServerMembers req payload) := by
  cases payload with
  | none => exact discreet_act
  | some serverID =>
    refine discreet_ite (fun _ => trivial) (fun _ => discreet_ask rfl ?_)
    rintro (err | (_ | _)) hmember
    · exact discreet_act
    · exact discreet_act
    · refine discreet_asks (hmember hr rfl) rfl ?_
      rintro (err | members) -
      · exact discreet_act
      · exact discreet_act

theorem searchServers_discreet (payload : Option WsSearchRequest) :
    Discreet v decode (searchServers req payload) := by
  cases payload with
  | none => exact discreet_act
  | some payload =>
    refine discreet_ite (fun _ => trivial) (fun _ => discreet_ask rfl ?_)
    rintro (err | servers) -
    · exact discreet_act
    · exact discreet_act

theorem getUserInfo_discreet (s3Host : String) (payload : Option UserID) :
    Discreet v decode (getUserInfo s3Host payload) := by
  cases payload with
  | none => exact discreet_act
  | some userID =>
    refine discreet_ite (fun _ => trivial) (fun _ => discreet_ask rfl ?_)
    rintro (err | (_ | user)) -
    · exact discreet_act
    · exact discreet_act
    · exact discreet_act

theorem resolveOnline_discreet (s3Host : String) (online userIDs : List UserID) :
    Discreet v decode (resolveOnline s3Host online userIDs) := by
  induction userIDs with
  | nil => exact discreet_pure
  | cons userID rest ih =>
    refine discreet_ite (fun _ => discreet_ask rfl ?_) (fun _ => ih)
    rintro (err | (_ | user)) -
    · trivial
    · trivial
    · exact ih.then (fun users => discreet_pure)

theorem getUsersOnline_discreet (s3Host : String) (hr : req.userID = v.userID)
    (payload : Option ServerID) : Discreet v decode (getUsersOnline s3Host req payload) := by
  cases payload with
  | none => exact discreet_act
  | some serverID =>
    refine discreet_ite (fun _ => trivial) (fun _ => discreet_ask rfl ?_)
    rintro (err | (_ | _)) hmember
    · exact discreet_act
    · exact discreet_act
    · refine discreet_asks (hmember hr rfl) rfl ?_
      rintro (err | serverUserIDs) -
      · exact discreet_act
      · refine ⟨shows_none rfl,fun online _ => ?_⟩
        exact (resolveOnline_discreet s3Host online serverUserIDs).then (fun users => trivial)

theorem getServerChannels_discreet (s3Host : String) {serverID : ServerID}
    (h : v.sees (.server serverID)) :
    Discreet v decode (getServerChannels s3Host (some serverID)) := by
  refine discreet_ite (fun _ => trivial) (fun _ => discreet_asks h rfl ?_)
  rintro (err | channels) hr
  · exact discreet_act
  · exact (buildVoiceParticipantsSnapshot_discreet s3Host (hr channels rfl)).then
      (fun participants => discreet_act)

/-! ## Voice -/

theorem leaveVoiceChannel_discreet (hr : req.userID = v.userID) :
    Discreet v decode (leaveVoiceChannel req) := by
  unfold leaveVoiceChannel
  rw [hr]
  exact leaveVoiceChannelInternal_discreet.then (fun channelID =>
    discreet_ite (fun _ => trivial) (fun _ => discreet_act))

theorem startVoice_discreet (s3Host : String) (hr : req.userID = v.userID) {channelID : ChannelID}
    {serverID : ServerID} (hc : v.sees (.channel channelID)) (hs : v.sees (.server serverID)) :
    Discreet v decode (startVoice s3Host req channelID serverID) := by
  unfold startVoice
  rw [hr]
  refine leaveVoiceChannelInternal_discreet.then (fun left => discreet_asks hc rfl ?_)
  rintro (err | sessionID) -
  · exact discreet_act
  · refine ⟨shows_some rfl hc,fun participants _ => ?_⟩
    refine (discreet_mapEach (fun u _ => resolveVoiceParticipant_discreet s3Host u)).then
      (fun peers => ?_)
    refine discreet_ask rfl (fun iceServers _ => ?_)
    refine (resolveVoiceParticipant_discreet s3Host _).then (fun selfParticipant => ?_)
    refine (listOnlineServerUserIDs_discreet _ hs).then ?_
    rintro (err | serverOnlineUserIDs)
    · exact discreet_act
    · exact discreet_act

theorem joinVoiceChannel_discreet (s3Host : String) (hr : req.userID = v.userID)
    {channelID : ChannelID} (h : v.sees (.channel channelID)) :
    Discreet v decode (joinVoiceChannel s3Host req (some channelID)) := by
  refine discreet_ite (fun _ => trivial) (fun _ => discreet_asks h rfl ?_)
  rintro (err | (_ | channel)) hchannel
  · cases err with
    | noRows => exact discreet_act
    | _ => exact discreet_act
  · trivial
  · refine discreet_ite (fun _ => trivial) (fun _ => discreet_ask rfl ?_)
    rintro (err | (_ | _)) -
    · exact discreet_act
    · exact discreet_act
    · refine discreet_ask rfl (fun router _ => discreet_ite (fun _ => trivial) (fun _ => ?_))
      exact startVoice_discreet s3Host hr h (hchannel channel rfl)

theorem changeVoiceStatus_discreet (s3Host : String) (hr : req.userID = v.userID)
    (payload : Option VoiceStatus) : Discreet v decode (changeVoiceStatus s3Host req payload) := by
  cases payload with
  | none => exact discreet_act
  | some status =>
    refine discreet_ask rfl ?_
    rintro (_ | channelID) hchannel
    · trivial
    · refine discreet_asks (hchannel hr channelID rfl) rfl ?_
      rintro (_ | participants) -
      · trivial
      · exact (resolveVoiceParticipant_discreet s3Host _).then (fun updated => trivial)

theorem handleSfuOffer_discreet (hr : req.userID = v.userID) (payload : Option WsSfuOfferRequest) :
    Discreet v decode (handleSfuOffer req payload) := by
  cases payload with
  | none => exact discreet_act
  | some payload =>
    unfold handleSfuOffer
    rw [hr]
    refine mayDrive_bind_discreet (fun hs => discreet_asks hs rfl ?_)
    rintro (err | _) -
    · exact discreet_act
    · exact discreet_act

theorem handleSfuAnswer_discreet (hr : req.userID = v.userID) (payload : Option WsSfuAnswerPayload) :
    Discreet v decode (handleSfuAnswer req payload) := by
  cases payload with
  | none => exact discreet_act
  | some payload =>
    unfold handleSfuAnswer
    rw [hr]
    refine mayDrive_bind_discreet (fun hs => discreet_asks hs rfl ?_)
    rintro (err | _) -
    · exact discreet_act
    · exact discreet_act

theorem handleSfuCandidate_discreet (hr : req.userID = v.userID)
    (payload : Option WsSfuCandidatePayload) :
    Discreet v decode (handleSfuCandidate req payload) := by
  cases payload with
  | none => exact discreet_act
  | some payload =>
    unfold handleSfuCandidate
    rw [hr]
    refine mayDrive_bind_discreet (fun hs => discreet_asks hs rfl ?_)
    rintro (err | _) -
    · exact discreet_act
    · exact discreet_pure

theorem handleSfuSubscribeVideo_discreet (hr : req.userID = v.userID)
    (payload : Option WsSfuSubscribeVideoRequest) :
    Discreet v decode (handleSfuSubscribeVideo req payload) := by
  cases payload with
  | none => exact discreet_act
  | some payload =>
    unfold handleSfuSubscribeVideo
    rw [hr]
    refine mayDrive_bind_discreet (fun hs => ?_)
    cases qualityOf payload.quality with
    | none => exact discreet_act
    | some quality =>
      refine discreet_asks hs rfl ?_
      rintro (err | _) -
      · exact discreet_act
      · exact discreet_act

theorem setPublishState_discreet {payload : WsSfuPublishStateRequest}
    (h : v.sees (.session payload.sessionID)) : Discreet v decode (setPublishState payload) := by
  refine discreet_ask rfl (fun router _ => ?_)
  exact discreet_ite (fun _ => discreet_asks h rfl (fun _ _ => discreet_pure))
    (fun _ => discreet_pure)

theorem sendTrack_discreet {channelID : ChannelID} (event : WsEventType) (userID : UserID)
    (source : Source) (h : v.sees (.channel channelID)) :
    Discreet v decode (sendTrack event channelID userID source) :=
  ⟨shows_some rfl h,fun _ _ => trivial⟩

theorem handleSfuPublishState_discreet (hr : req.userID = v.userID)
    (payload : Option WsSfuPublishStateRequest) :
    Discreet v decode (handleSfuPublishState req payload) := by
  cases payload with
  | none => exact discreet_act
  | some payload =>
    unfold handleSfuPublishState
    rw [hr]
    refine (ownsSfuSession_discreet _ _).bind ownsSfuSession_returns (fun ok hok => ?_)
    refine discreet_ite (fun _ => trivial) (fun hown => ?_)
    have hs : v.sees (.session payload.sessionID) := hok (Bool.eq_true_of_not_eq_false hown)
    refine discreet_ite (fun _ => trivial) (fun _ => discreet_ask rfl (fun channelID hc => ?_))
    have hchannel : v.sees (.channel (channelID.getD 0)) := sees_voiceChannel hc
    exact (setPublishState_discreet hs).then (fun _ => (sendTrack_discreet _ _ _ hchannel).then
      (fun _ => discreet_act))

theorem handleSfuResume_discreet (s3Host : String) (hr : req.userID = v.userID)
    (payload : Option SessionID) : Discreet v decode (handleSfuResume s3Host req payload) := by
  cases payload with
  | none => exact discreet_act
  | some sessionID =>
    have hresume : Discreet v decode (resumeVoice s3Host req) := resumeVoice_discreet s3Host hr
    unfold handleSfuResume
    rw [hr]
    refine mayDrive_bind_discreet (fun hs => discreet_asks hs rfl ?_)
    rintro (err | _) -
    · exact expireVoiceSession_discreet sessionID
    · exact hresume

/-! ## Messages -/

theorem deliverMessage_discreet (s3Host : String) {payload : WsSendMessageRequest}
    (replyTo : Option WsReplyTo) (pendingAtts : List PendingAttachment)
    (recipientUserIDs : List UserID) (user : User) (h : v.sees (.channel payload.channelID)) :
    Discreet v decode
      (deliverMessage s3Host req payload replyTo pendingAtts recipientUserIDs user) := by
  refine (resolveMentions_discreet _ _ _ h).then ?_
  rintro ⟨mentioned,everyone⟩
  refine discreet_ask rfl (fun createdAt _ => discreet_asks h rfl ?_)
  rintro (err | ⟨id,createdAt⟩) hsaved
  · exact discreet_act
  · have hid : v.sees (.message id) := hsaved id createdAt rfl
    refine (saveMentions_discreet _ hid).then (fun _ => ?_)
    refine (saveAttachments_discreet _ _ _ hid).then ?_
    rintro (err | msg)
    · exact discreet_act
    · refine (revealDM_discreet _ _ _ h).then (fun _ => ?_)
      refine discreet_act.then (fun _ => (enqueuePush_discreet _ _ _ h).then (fun _ => ?_))
      exact (enqueueEmbeds_discreet _ _).then (fun _ => discreet_act)

theorem sendChecked_discreet (s3Host : String) (hr : req.userID = v.userID)
    {payload : WsSendMessageRequest} (h : v.sees (.channel payload.channelID) →
      ∀ m ∈ payload.replyToID, v.sees (.message m)) :
    Discreet v decode (sendChecked s3Host req payload) := by
  refine discreet_ask rfl ?_
  rintro (err | (_ | _)) haccess
  · exact discreet_act
  · exact discreet_act
  · have hsees : v.sees (.channel payload.channelID) := haccess hr rfl
    refine (resolveReply_discreet _ (h hsees)).then ?_
    rintro (err | replyTo)
    · exact discreet_act
    · refine discreet_ite (fun _ => trivial) (fun _ => ?_)
      refine (takeAttachments_discreet _ _).then ?_
      rintro (err | pendingAtts)
      · exact discreet_act
      · refine discreet_asks hsees rfl ?_
        rintro (err | recipientUserIDs) -
        · exact discreet_act
        · refine discreet_ask rfl ?_
          rintro (err | (_ | user)) -
          · exact discreet_act
          · exact discreet_act
          · exact deliverMessage_discreet s3Host replyTo pendingAtts recipientUserIDs user hsees

theorem sendMessage_discreet (s3Host : String) (hr : req.userID = v.userID)
    {payload : Option WsSendMessageRequest}
    (h : ¬(Command.sendMessage payload).Reveals v decode) :
    Discreet v decode (sendMessage s3Host req payload) := by
  refine discreet_ask rfl (fun allowed _ => discreet_ite (fun _ => trivial) (fun _ => ?_))
  cases payload with
  | none => exact discreet_act
  | some payload =>
    refine discreet_ite (fun _ => trivial) (fun hchannel => ?_)
    refine discreet_ite (fun _ => trivial) (fun _ => ?_)
    refine discreet_ite (fun _ => trivial) (fun hlength => ?_)
    refine sendChecked_discreet s3Host hr (fun hsees m hm => ?_)
    by_contra hne
    exact h ⟨⟨m,hm,hne⟩,lt_of_not_ge hchannel,hsees,le_of_not_gt hlength⟩

theorem deleteMessage_discreet {messageID : MessageID} (h : v.sees (.message messageID)) :
    Discreet v decode (deleteMessage req (some messageID)) := by
  refine discreet_ite (fun _ => trivial) (fun _ => discreet_asks h rfl ?_)
  rintro (err | fileKeys) -
  · exact discreet_act
  · refine discreet_ask rfl ?_
    rintro (err | _) -
    · exact discreet_act
    · exact discreet_pure

theorem editMessage_discreet (hr : req.userID = v.userID) {payload : Option WsEditMessageRequest}
    (h : ¬(Command.editMessage payload).Reveals v decode) :
    Discreet v decode (editMessage req payload) := by
  refine discreet_ask rfl (fun allowed _ => discreet_ite (fun _ => trivial) (fun _ => ?_))
  cases payload with
  | none => exact discreet_act
  | some payload =>
    refine discreet_ite (fun _ => trivial) (fun _ => ?_)
    refine discreet_ite (fun _ => trivial) (fun hlength => ?_)
    have hsees : v.sees (.message payload.messageID) := by
      by_contra hne
      exact h ⟨hne,le_of_not_gt hlength⟩
    refine discreet_asks hsees rfl ?_
    rintro (err | ⟨channelID,editedAt⟩) hedited
    · exact discreet_act
    · refine discreet_asks (hedited hr channelID editedAt rfl) rfl ?_
      rintro (err | recipientUserIDs) -
      · exact discreet_act
      · trivial

theorem getMessages_discreet {payload : Option WsGetMessagesRequest}
    (h : ¬(Command.getMessages payload).Reveals v decode) :
    Discreet v decode (getMessages payload) := by
  cases payload with
  | none => exact discreet_act
  | some payload =>
    refine discreet_ite (fun _ => trivial) (fun _ => discreet_ask rfl ?_)
    rintro (err | cursor) hdecode
    · exact discreet_act
    · refine discreet_ite (fun _ => trivial) (fun hcursor => ?_)
      have hsees : v.sees (.channel payload.channelID) := by
        by_contra hne
        refine h ⟨hne,cursor,hdecode.symm,fun c hc => ?_⟩
        by_contra hother
        exact hcursor ⟨c,hc,hother⟩
      refine discreet_asks hsees rfl ?_
      rintro (err | ⟨messages,nextCursor,hasMore⟩) -
      · exact discreet_act
      · refine (encodeCursor_discreet nextCursor).then ?_
        rintro (err | nextCursorRaw)
        · exact discreet_act
        · exact discreet_act

theorem getMessagesAfter_discreet (hr : req.userID = v.userID)
    (payload : Option WsGetMessagesRequest) : Discreet v decode (getMessagesAfter req payload) := by
  cases payload with
  | none => exact discreet_act
  | some payload =>
    refine discreet_ite (fun _ => trivial) (fun _ => discreet_ask rfl ?_)
    rintro (err | (_ | cursor)) -
    · exact discreet_act
    · exact discreet_act
    · refine discreet_ite (fun _ => trivial) (fun _ => discreet_ask rfl ?_)
      rintro (err | (_ | _)) haccess
      · exact discreet_act
      · exact discreet_act
      · refine discreet_asks (haccess hr rfl) rfl ?_
        rintro (err | ⟨messages,nextCursor,hasMore⟩) -
        · exact discreet_act
        · refine (encodeCursor_discreet nextCursor).then ?_
          rintro (err | nextCursorRaw)
          · exact discreet_act
          · exact discreet_act

theorem getMessagesAround_discreet (hr : req.userID = v.userID)
    (payload : Option WsGetMessagesAroundRequest) :
    Discreet v decode (getMessagesAround req payload) := by
  cases payload with
  | none => exact discreet_act
  | some payload =>
    refine discreet_ite (fun _ => trivial) (fun _ => discreet_ask rfl ?_)
    rintro (err | (_ | _)) haccess
    · exact discreet_act
    · exact discreet_act
    · refine discreet_asks (haccess hr rfl) rfl ?_
      rintro (err | ⟨messages,olderCursor,newerCursor,hasMoreOlder,hasMoreNewer⟩) -
      · exact discreet_act
      · refine (encodeCursor_discreet olderCursor).then ?_
        rintro (err | olderCursorRaw)
        · exact discreet_act
        · refine (encodeCursor_discreet newerCursor).then ?_
          rintro (err | newerCursorRaw)
          · exact discreet_act
          · exact discreet_act

/-- Where a search looks: a whole server, or one channel. -/
def searched (serverID : ServerID) (channelID : ChannelID) : Resource :=
  if serverID > 0 then .server serverID else .channel channelID

theorem searchAccess_discreet (userID : UserID) (serverID : ServerID) (channelID : ChannelID) :
    Discreet v decode (searchAccess userID serverID channelID) := by
  refine discreet_ite (fun _ => discreet_ask rfl ?_) (fun _ => discreet_ask rfl ?_)
  · rintro (err | isMember) -
    · exact discreet_pure
    · exact discreet_pure
  · rintro (err | canAccess) -
    · exact discreet_pure
    · exact discreet_pure

/-- A search is let through only where the user sees. -/
theorem searchAccess_returns (serverID : ServerID) (channelID : ChannelID) :
    Returns (v.Promises decode) (fun r => r = .ok true → v.sees (searched serverID channelID))
      (searchAccess v.userID serverID channelID) := by
  unfold searchAccess searched
  split
  · rintro (err | isMember) hr
    · exact nofun
    · intro htrue
      cases htrue
      exact hr rfl rfl
  · rintro (err | canAccess) hr
    · exact nofun
    · intro htrue
      cases htrue
      exact hr rfl rfl

theorem searchWithin_discreet {payload : WsSearchMessagesRequest} (query : String)
    (h : v.sees (searched payload.serverID payload.channelID)) :
    Discreet v decode (searchWithin req payload query) := by
  refine (parseDate_discreet payload.before).then ?_
  rintro (err | before)
  · exact discreet_act
  · refine (parseDate_discreet payload.after).then ?_
    rintro (err | after)
    · exact discreet_act
    · refine discreet_ask rfl ?_
      rintro (err | cursor) -
      · exact discreet_act
      · refine discreet_asks h rfl ?_
        rintro (err | ⟨hits,nextCursor,hasMore⟩) -
        · exact discreet_act
        · refine (encodeCursor_discreet nextCursor).then ?_
          rintro (err | nextCursorRaw)
          · exact discreet_act
          · exact discreet_act

theorem searchMessages_discreet (hr : req.userID = v.userID)
    (payload : Option WsSearchMessagesRequest) :
    Discreet v decode (searchMessages req payload) := by
  cases payload with
  | none => exact discreet_act
  | some payload =>
    refine discreet_ite (fun _ => trivial) (fun _ => discreet_ite (fun _ => trivial) (fun _ => ?_))
    rw [hr]
    refine (searchAccess_discreet _ _ _).bind (searchAccess_returns _ _) ?_
    rintro (err | (_ | _)) hok
    · exact discreet_act
    · exact discreet_act
    · exact searchWithin_discreet _ (hok rfl)

theorem getUnread_discreet : Discreet v decode (getUnread req) := by
  refine discreet_ask rfl ?_
  rintro (err | counts) -
  · exact discreet_act
  · exact discreet_act

theorem markRead_discreet (hr : req.userID = v.userID) (payload : Option (ChannelID × MessageID)) :
    Discreet v decode (markRead req payload) := by
  rcases payload with _ | ⟨channelID,messageID⟩
  · exact discreet_pure
  · refine discreet_ite (fun _ => trivial) (fun _ => discreet_ask rfl (fun allowed _ => ?_))
    refine discreet_ite (fun _ => trivial) (fun _ => discreet_ask rfl ?_)
    rintro (err | (_ | _)) haccess
    · exact discreet_pure
    · exact discreet_pure
    · exact discreet_asks (haccess hr rfl) rfl (fun _ _ => discreet_pure)

theorem handleTyping_discreet (hr : req.userID = v.userID) (start : Bool)
    (payload : Option ChannelID) : Discreet v decode (handleTyping req start payload) := by
  cases payload with
  | none => exact discreet_pure
  | some channelID =>
    refine discreet_ite (fun _ => trivial) (fun _ => discreet_ask rfl ?_)
    rintro (err | (_ | _)) haccess
    · exact discreet_pure
    · exact discreet_pure
    · refine ⟨shows_some rfl (haccess hr rfl),?_⟩
      rintro (err | recipientUserIDs) -
      · exact discreet_pure
      · exact discreet_act

/-! ## Direct messages -/

theorem openDM_discreet (s3Host : String) (payload : Option UserID) :
    Discreet v decode (openDM s3Host req payload) := by
  cases payload with
  | none => exact discreet_act
  | some peerUserID =>
    refine discreet_ite (fun _ => trivial) (fun _ => discreet_ask rfl ?_)
    rintro (err | (_ | peer)) -
    · exact discreet_act
    · exact discreet_act
    · refine discreet_ite (fun _ => trivial) (fun _ => discreet_ask rfl ?_)
      rintro (err | channelID) -
      · cases err with
        | noSharedServer => exact discreet_act
        | _ => exact discreet_act
      · refine discreet_ask rfl ?_
        rintro (err | channels) -
        · exact discreet_act
        · exact discreet_act

theorem closeDM_discreet (hr : req.userID = v.userID) (payload : Option ChannelID) :
    Discreet v decode (closeDM req payload) := by
  cases payload with
  | none => exact discreet_act
  | some channelID =>
    refine discreet_ite (fun _ => trivial) (fun _ => discreet_ask rfl ?_)
    rintro (err | (_ | _)) haccess
    · exact discreet_act
    · exact discreet_act
    · refine discreet_asks (haccess hr rfl) rfl ?_
      rintro (err | _) -
      · exact discreet_act
      · exact discreet_act

theorem listDMs_discreet : Discreet v decode (listDMs req) := by
  refine discreet_ask rfl ?_
  rintro (err | channels) -
  · exact discreet_act
  · exact discreet_act

theorem searchUsers_discreet (payload : Option WsSearchRequest) :
    Discreet v decode (searchUsers req payload) := by
  refine discreet_ask rfl (fun allowed _ => discreet_ite (fun _ => trivial) (fun _ => ?_))
  cases payload with
  | none => exact discreet_act
  | some payload =>
    refine discreet_ite (fun _ => trivial) (fun _ => discreet_ask rfl ?_)
    rintro (err | users) -
    · exact discreet_act
    · exact discreet_act

/-! ## Every command -/

theorem handleCommand_discreet (s3Host : String) (hr : req.userID = v.userID) {cmd : Command}
    (h : ¬cmd.Reveals v decode) : Discreet v decode (handleCommand s3Host req cmd) := by
  cases cmd with
  | createServer payload => exact createServer_discreet payload
  | deleteServer payload => exact deleteServer_discreet payload
  | joinServer payload => exact joinServer_discreet payload
  | createChannel payload => exact createChannel_discreet hr payload
  | deleteChannel payload =>
    cases payload with
    | none => exact discreet_act
    | some channelID => exact deleteChannel_discreet (not_not.mp h)
  | sendMessage payload => exact sendMessage_discreet s3Host hr h
  | deleteMessage payload =>
    cases payload with
    | none => exact discreet_act
    | some messageID => exact deleteMessage_discreet (not_not.mp h)
  | editMessage payload => exact editMessage_discreet hr h
  | getMessages payload => exact getMessages_discreet h
  | getServers => exact getServers_discreet
  | getServerChannels payload =>
    cases payload with
    | none => exact discreet_act
    | some serverID => exact getServerChannels_discreet s3Host (not_not.mp h)
  | getUsersOnline payload => exact getUsersOnline_discreet s3Host hr payload
  | joinVoiceChannel payload =>
    cases payload with
    | none => exact discreet_act
    | some channelID => exact joinVoiceChannel_discreet s3Host hr (not_not.mp h)
  | leaveVoiceChannel => exact leaveVoiceChannel_discreet hr
  | sfuOffer payload => exact handleSfuOffer_discreet hr payload
  | sfuAnswer payload => exact handleSfuAnswer_discreet hr payload
  | sfuCandidate payload => exact handleSfuCandidate_discreet hr payload
  | sfuSubscribeVideo payload => exact handleSfuSubscribeVideo_discreet hr payload
  | sfuResume payload => exact handleSfuResume_discreet s3Host hr payload
  | sfuPublishState payload => exact handleSfuPublishState_discreet hr payload
  | searchServers payload => exact searchServers_discreet payload
  | getUserInfo payload => exact getUserInfo_discreet s3Host payload
  | changeVoiceStatus payload => exact changeVoiceStatus_discreet s3Host hr payload
  | typingStart payload => exact handleTyping_discreet hr true payload
  | typingStop payload => exact handleTyping_discreet hr false payload
  | getUnread => exact getUnread_discreet
  | markRead payload => exact markRead_discreet hr payload
  | getServerMembers payload => exact getServerMembers_discreet hr payload
  | getMessagesAround payload => exact getMessagesAround_discreet hr payload
  | getMessagesAfter payload => exact getMessagesAfter_discreet hr payload
  | searchMessages payload => exact searchMessages_discreet hr payload
  | openDM payload => exact openDM_discreet s3Host payload
  | closeDM payload => exact closeDM_discreet hr payload
  | listDMs => exact listDMs_discreet
  | searchUsers payload => exact searchUsers_discreet payload
  | unknown => exact discreet_act

end MiniDiscord.ChatHub
