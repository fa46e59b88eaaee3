import MiniDiscord.Commands.Unheard

/-! # The handlers that always respond

One theorem for each handler that responds to every command it gets, whatever its calls
answer.
-/
namespace MiniDiscord.ChatHub
open SfuTrack Effects Program
variable {u : UserID} {pending : PendingCommand}

/-! ## Servers and channels -/

theorem createServer_responds (req : Request) (payload : Option String) :
    Responds u pending (createServer req payload) := by
  refine responds_ask (fun allowed => ?_)
  refine responds_ite (fun _ => (responds_error _).return) (fun _ => ?_)
  cases payload with
  | none => exact responds_error _
  | some name =>
    refine responds_ite (fun _ => (responds_error _).return) (fun _ => ?_)
    refine responds_ite (fun _ => (responds_error _).return) (fun _ => responds_ask ?_)
    rintro (err | serverID)
    · exact responds_error _
    · exact responds_ack _

theorem deleteServer_responds (req : Request) (payload : Option ServerID) :
    Responds u pending (deleteServer req payload) := by
  cases payload with
  | none => exact responds_error _
  | some serverID =>
    refine responds_ite (fun _ => (responds_error _).return) (fun _ => responds_ask ?_)
    rintro (err | _)
    · exact responds_error _
    · exact responds_ack _

theorem joinServer_responds (req : Request) (payload : Option ServerID) :
    Responds u pending (joinServer req payload) := by
  cases payload with
  | none => exact responds_error _
  | some serverID =>
    refine responds_ite (fun _ => (responds_error _).return) (fun _ => responds_ask ?_)
    rintro (err | (_ | _))
    · exact responds_error _
    · refine responds_ask ?_
      rintro (err | _)
      · exact responds_error _
      · exact responds_ack _
    · exact responds_error _

theorem createChannel_responds (req : Request) (payload : Option WsCreateChannelRequest) :
    Responds u pending (createChannel req payload) := by
  refine responds_ask (fun allowed => ?_)
  refine responds_ite (fun _ => (responds_error _).return) (fun _ => ?_)
  cases payload with
  | none => exact responds_error _
  | some payload =>
    refine responds_ite (fun _ => (responds_error _).return) (fun _ => ?_)
    refine responds_ite (fun _ => (responds_error _).return) (fun _ => ?_)
    split
    · exact responds_error _
    · refine responds_ask ?_
      rintro (err | (_ | _))
      · exact responds_error _
      · exact responds_error _
      · refine responds_ask ?_
        rintro (err | channelID)
        · exact responds_error _
        · exact responds_ack _

theorem deleteChannel_responds (req : Request) (payload : Option ChannelID) :
    Responds u pending (deleteChannel req payload) := by
  cases payload with
  | none => exact responds_error _
  | some channelID =>
    refine responds_ite (fun _ => (responds_error _).return) (fun _ => responds_ask ?_)
    rintro (err | _)
    · exact responds_error _
    · exact responds_ack _

theorem getServers_responds (req : Request) : Responds u pending (getServers req) := by
  refine responds_ask ?_
  rintro (err | servers)
  · exact responds_error _
  · exact responds_ack _

theorem getServerMembers_responds (req : Request) (payload : Option ServerID) :
    Responds u pending (getServerMembers req payload) := by
  cases payload with
  | none => exact responds_error _
  | some serverID =>
    refine responds_ite (fun _ => (responds_error _).return) (fun _ => responds_ask ?_)
    rintro (err | (_ | _))
    · exact responds_error _
    · exact responds_error _
    · refine responds_ask ?_
      rintro (err | members)
      · exact responds_error _
      · exact responds_ack _

theorem getServerChannels_responds (s3Host : String) (payload : Option ServerID) :
    Responds u pending (getServerChannels s3Host payload) := by
  cases payload with
  | none => exact responds_error _
  | some serverID =>
    refine responds_ite (fun _ => (responds_error _).return) (fun _ => responds_ask ?_)
    rintro (err | channels)
    · exact responds_error _
    · refine (buildVoiceParticipantsSnapshot_unheard s3Host channels).responds (fun _ => ?_)
      exact responds_ack _

theorem searchServers_responds (req : Request) (payload : Option WsSearchRequest) :
    Responds u pending (searchServers req payload) := by
  cases payload with
  | none => exact responds_error _
  | some payload =>
    refine responds_ite (fun _ => (responds_ack _).return) (fun _ => responds_ask ?_)
    rintro (err | servers)
    · exact responds_error _
    · exact responds_ack _

theorem getUserInfo_responds (s3Host : String) (payload : Option UserID) :
    Responds u pending (getUserInfo s3Host payload) := by
  cases payload with
  | none => exact responds_error _
  | some userID =>
    refine responds_ite (fun _ => (responds_error _).return) (fun _ => responds_ask ?_)
    rintro (err | (_ | user))
    · exact responds_error _
    · exact responds_error _
    · exact responds_ack _

/-! ## Messages -/

theorem deliverMessage_responds (s3Host : String) (req : Request) (payload : WsSendMessageRequest)
    (replyTo : Option WsReplyTo) (pendingAtts : List PendingAttachment)
    (recipientUserIDs : List UserID) (user : User) (h : pending.action ≠ "open_dm") :
    Responds u pending
      (deliverMessage s3Host req payload replyTo pendingAtts recipientUserIDs user) := by
  refine (resolveMentions_unheard _ _ _ _).responds (fun mentioned => ?_)
  refine responds_ask (fun createdAt => responds_ask ?_)
  rintro (err | ⟨id,createdAt⟩)
  · exact responds_error _
  · refine (saveMentions_unheard _ _).responds (fun _ => ?_)
    refine (saveAttachments_unheard _ _ _ _).responds ?_
    rintro (err | msg)
    · exact responds_error _
    · refine (revealDM_unheard _ _ _ _ h).responds (fun _ => ?_)
      refine (unheard_pushToUsers rfl).responds (fun _ => ?_)
      refine (enqueuePush_unheard _ _ _ _).responds (fun _ => ?_)
      exact (enqueueEmbeds_unheard _ _).responds (fun _ => responds_ack _)

theorem sendChecked_responds (s3Host : String) (req : Request) (payload : WsSendMessageRequest)
    (h : pending.action ≠ "open_dm") :
    Responds u pending (sendChecked s3Host req payload) := by
  refine responds_ask ?_
  rintro (err | (_ | _))
  · exact responds_error _
  · exact responds_error _
  · refine (resolveReply_unheard _ _).responds ?_
    rintro (err | replyTo)
    · exact responds_error _
    · refine responds_ite (fun _ => (responds_error _).return) (fun _ => ?_)
      refine (takeAttachments_unheard _ _).responds ?_
      rintro (err | pendingAtts)
      · exact responds_error _
      · refine responds_ask ?_
        rintro (err | recipientUserIDs)
        · exact responds_error _
        · refine responds_ask ?_
          rintro (err | (_ | user))
          · exact responds_error _
          · exact responds_error _
          · exact deliverMessage_responds _ _ _ _ _ _ _ h

theorem sendMessage_responds (s3Host : String) (req : Request)
    (payload : Option WsSendMessageRequest) (h : pending.action ≠ "open_dm") :
    Responds u pending (sendMessage s3Host req payload) := by
  refine responds_ask (fun allowed => ?_)
  refine responds_ite (fun _ => (responds_error _).return) (fun _ => ?_)
  cases payload with
  | none => exact responds_error _
  | some payload =>
    refine responds_ite (fun _ => (responds_error _).return) (fun _ => ?_)
    refine responds_ite (fun _ => (responds_error _).return) (fun _ => ?_)
    refine responds_ite (fun _ => (responds_error _).return) (fun _ => ?_)
    exact sendChecked_responds _ _ _ h

theorem editMessage_responds (req : Request) (payload : Option WsEditMessageRequest) :
    Responds u pending (editMessage req payload) := by
  refine responds_ask (fun allowed => ?_)
  refine responds_ite (fun _ => (responds_error _).return) (fun _ => ?_)
  cases payload with
  | none => exact responds_error _
  | some payload =>
    refine responds_ite (fun _ => (responds_error _).return) (fun _ => ?_)
    refine responds_ite (fun _ => (responds_error _).return) (fun _ => responds_ask ?_)
    rintro (err | ⟨channelID,editedAt⟩)
    · exact responds_error _
    · refine responds_ask ?_
      rintro (err | recipientUserIDs)
      · exact responds_ack _
      · exact (unheard_pushToUsers rfl).responds (fun _ => responds_ack _)

theorem getMessages_responds (payload : Option WsGetMessagesRequest) :
    Responds u pending (getMessages payload) := by
  cases payload with
  | none => exact responds_error _
  | some payload =>
    refine responds_ite (fun _ => (responds_error _).return) (fun _ => responds_ask ?_)
    rintro (err | cursor)
    · exact responds_error _
    · refine responds_ite (fun _ => (responds_error _).return) (fun _ => responds_ask ?_)
      rintro (err | ⟨messages,nextCursor,hasMore⟩)
      · exact responds_error _
      · refine (encodeCursor_unheard nextCursor).responds ?_
        rintro (err | nextCursorRaw)
        · exact responds_error _
        · exact responds_ack _

theorem getUnread_responds (req : Request) : Responds u pending (getUnread req) := by
  refine responds_ask ?_
  rintro (err | counts)
  · exact responds_error _
  · exact responds_ack _

/-! ## Handlers that echo the request ID -/

theorem getMessagesAfter_responds {req : Request} (hr : req.requestID = pending.requestId)
    (payload : Option WsGetMessagesRequest) :
    Responds u pending (getMessagesAfter req payload) := by
  unfold getMessagesAfter
  cases payload with
  | none => exact responds_errorWithRequestID hr _
  | some payload =>
    refine responds_ite (fun _ => (responds_errorWithRequestID hr _).return) (fun _ => ?_)
    refine responds_ask ?_
    rintro (err | (_ | cursor))
    · exact responds_errorWithRequestID hr _
    · exact responds_errorWithRequestID hr _
    · refine responds_ite (fun _ => (responds_errorWithRequestID hr _).return) (fun _ => ?_)
      refine responds_ask ?_
      rintro (err | (_ | _))
      · exact responds_errorWithRequestID hr _
      · exact responds_errorWithRequestID hr _
      · refine responds_ask ?_
        rintro (err | ⟨messages,nextCursor,hasMore⟩)
        · exact responds_errorWithRequestID hr _
        · refine (encodeCursor_unheard nextCursor).responds ?_
          rintro (err | nextCursorRaw)
          · exact responds_errorWithRequestID hr _
          · exact responds_ackWithRequestID hr _

theorem getMessagesAround_responds {req : Request} (hr : req.requestID = pending.requestId)
    (payload : Option WsGetMessagesAroundRequest) :
    Responds u pending (getMessagesAround req payload) := by
  unfold getMessagesAround
  cases payload with
  | none => exact responds_errorWithRequestID hr _
  | some payload =>
    refine responds_ite (fun _ => (responds_errorWithRequestID hr _).return) (fun _ => ?_)
    refine responds_ask ?_
    rintro (err | (_ | _))
    · exact responds_errorWithRequestID hr _
    · exact responds_errorWithRequestID hr _
    · refine responds_ask ?_
      rintro (err | ⟨messages,olderCursor,newerCursor,hasMoreOlder,hasMoreNewer⟩)
      · exact responds_errorWithRequestID hr _
      · refine (encodeCursor_unheard olderCursor).responds ?_
        rintro (err | olderCursorRaw)
        · exact responds_errorWithRequestID hr _
        · refine (encodeCursor_unheard newerCursor).responds ?_
          rintro (err | newerCursorRaw)
          · exact responds_errorWithRequestID hr _
          · exact responds_ackWithRequestID hr _

theorem searchWithin_responds {req : Request} (hr : req.requestID = pending.requestId)
    (payload : WsSearchMessagesRequest) (query : String) :
    Responds u pending (searchWithin req payload query) := by
  unfold searchWithin
  refine (parseDate_unheard payload.before).responds ?_
  rintro (err | before)
  · exact responds_errorWithRequestID hr _
  · refine (parseDate_unheard payload.after).responds ?_
    rintro (err | after)
    · exact responds_errorWithRequestID hr _
    · refine responds_ask ?_
      rintro (err | cursor)
      · exact responds_errorWithRequestID hr _
      · refine responds_ask ?_
        rintro (err | ⟨hits,nextCursor,hasMore⟩)
        · exact responds_errorWithRequestID hr _
        · refine (encodeCursor_unheard nextCursor).responds ?_
          rintro (err | nextCursorRaw)
          · exact responds_errorWithRequestID hr _
          · exact responds_ackWithRequestID hr _

theorem searchMessages_responds {req : Request} (hr : req.requestID = pending.requestId)
    (payload : Option WsSearchMessagesRequest) :
    Responds u pending (searchMessages req payload) := by
  unfold searchMessages
  cases payload with
  | none => exact responds_errorWithRequestID hr _
  | some payload =>
    refine responds_ite (fun _ => (responds_ackWithRequestID hr _).return) (fun _ => ?_)
    refine responds_ite (fun _ => (responds_errorWithRequestID hr _).return) (fun _ => ?_)
    refine (searchAccess_unheard _ _ _).responds ?_
    rintro (err | (_ | _))
    · exact responds_errorWithRequestID hr _
    · exact responds_errorWithRequestID hr _
    · exact searchWithin_responds hr payload _

/-! ## Voice -/

theorem startVoice_responds (s3Host : String) (req : Request) (channelID : ChannelID)
    (serverID : ServerID) : Responds u pending (startVoice s3Host req channelID serverID) := by
  refine (leaveVoiceChannelInternal_unheard _).responds (fun _ => responds_ask ?_)
  rintro (err | sessionID)
  · exact responds_error _
  · refine ⟨⟨some .write,0⟩,rfl,fun participants => ⟨⟨some .write,0⟩,rfl,?_⟩⟩
    refine ensures_after ⟨none,0⟩ rfl ?_
    refine Unheard.responds (unheard_mapEach (fun v _ => ?_)) (fun peers => ?_)
    · exact resolveVoiceParticipant_unheard s3Host v
    refine responds_ask (fun iceServers => ?_)
    refine (resolveVoiceParticipant_unheard s3Host _).responds (fun selfParticipant => ?_)
    refine (responds_ack _).bind ?_
    refine (listOnlineServerUserIDs_unheard _ _).bind (fun online => ?_)
    exact unheard_pushToUsers rfl

theorem joinFound_responds (s3Host : String) (req : Request) (channelID : ChannelID)
    (channel : Channel) : Responds u pending (joinFound s3Host req channelID channel) := by
  refine responds_ite (fun _ => (responds_error _).return) (fun _ => responds_ask ?_)
  rintro (err | (_ | _))
  · exact responds_error _
  · exact responds_error _
  · refine responds_ask (fun present => ?_)
    exact responds_ite (fun _ => (responds_error _).return)
      (fun _ => startVoice_responds _ _ _ _)

theorem leaveVoiceChannel_responds (req : Request) :
    Responds u pending (leaveVoiceChannel req) := by
  refine (leaveVoiceChannelInternal_unheard _).responds (fun channelID => ?_)
  exact responds_ite (fun _ => (responds_ack _).return) (fun _ => responds_ack _)

theorem changeVoiceStatus_responds (s3Host : String) (req : Request)
    (payload : Option VoiceStatus) :
    Responds u pending (changeVoiceStatus s3Host req payload) := by
  cases payload with
  | none => exact responds_error _
  | some status =>
    refine ⟨⟨some .write,0⟩,rfl,?_⟩
    rintro (_ | channelID)
    · exact ⟨⟨none,0⟩,rfl,responds_error _⟩
    · rintro (_ | participants)
      · exact ⟨⟨none,0⟩,rfl,responds_error _⟩
      · refine ⟨⟨some .write,0⟩,rfl,⟨none,0⟩,rfl,?_⟩
        refine (resolveVoiceParticipant_unheard s3Host _).responds (fun updated => ?_)
        exact (unheard_pushToUsers rfl).responds (fun _ => responds_ack _)

theorem resumeVoice_responds (s3Host : String) {req : Request}
    (hr : req.requestID = pending.requestId) :
    Responds u pending (resumeVoice s3Host req) := by
  refine (resumeLocked_unheard _).responds (fun found => ?_)
  refine Unheard.responds (unheard_mapEach (fun v _ => ?_)) (fun peers => ?_)
  · exact resolveVoiceParticipant_unheard s3Host v
  refine (responds_ackWithRequestID hr _).bind ?_
  refine (resolveVoiceParticipant_unheard s3Host _).bind (fun self => ?_)
  exact unheard_pushToUsers rfl

/-! ## Direct messages and user search -/

theorem closeDM_responds (req : Request) (payload : Option ChannelID)
    (h : pending.action = "close_dm") : Responds u pending (closeDM req payload) := by
  cases payload with
  | none => exact responds_error _
  | some channelID =>
    refine responds_ite (fun _ => (responds_error _).return) (fun _ => responds_ask ?_)
    rintro (err | (_ | _))
    · exact responds_error _
    · exact responds_error _
    · refine responds_ask ?_
      rintro (err | _)
      · exact responds_error _
      · refine responds_act rfl ?_
        simp [Act.settles, Act.received, PendingCommand.settles, h]

theorem listDMs_responds (req : Request) (h : pending.action = "list_dms") :
    Responds u pending (listDMs req) := by
  refine responds_ask ?_
  rintro (err | channels)
  · exact responds_error _
  · refine responds_act rfl ?_
    simp [Act.settles, Act.received, PendingCommand.settles, h]

theorem userSearch_responds (users : List UserSearchHit) (h : pending.action = "search_users") :
    Responds u pending
      (act (.pushEvent { event := .userSearch, data := .searchUsers users })) := by
  refine responds_act rfl ?_
  simp [Act.settles, Act.received, PendingCommand.settles, h]

theorem searchUsers_responds (req : Request) (payload : Option WsSearchRequest)
    (h : pending.action = "search_users") : Responds u pending (searchUsers req payload) := by
  refine responds_ask (fun allowed => ?_)
  refine responds_ite (fun _ => (responds_error _).return) (fun _ => ?_)
  cases payload with
  | none => exact responds_error _
  | some payload =>
    refine responds_ite (fun _ => (userSearch_responds _ h).return) (fun _ => responds_ask ?_)
    rintro (err | users)
    · exact responds_error _
    · exact userSearch_responds _ h

end MiniDiscord.ChatHub
