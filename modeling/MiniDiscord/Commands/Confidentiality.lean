import MiniDiscord.Commands.Dispatch
import MiniDiscord.Effects.Mediation

/-! # What a user's commands tell of what it may not see

Two hubs that differ only in servers, channels and messages that a user may not see answer
alike whatever a command asks, as long as the command has asked whether it may. Every
handler does, but for those of seven actions.
-/
namespace MiniDiscord.ChatHub
open SfuTrack Effects Program

/-- What only some may see. A session is driven by its own user only. -/
inductive Resource where
  | server (id : ServerID)
  | channel (id : ChannelID)
  | message (id : MessageID)
  | session (id : SessionID)

/-- IDs start at 1, and a session has one. -/
def Resource.Named : Resource → Prop
  | .server id => 0 < id
  | .channel id => 0 < id
  | .message id => 0 < id
  | .session id => id ≠ ""

/-- What the user may see. -/
structure View where
  userID : UserID
  sees : Resource → Prop
  nothing : ∀ x, ¬x.Named → sees x

/-- The resource that the answer to a call tells of. The list of the servers, the users and
what is the caller's own are kept from nobody. -/
def Call.about : Call → Option Resource
  | .deleteChannel channelID _ => some (.channel channelID)
  | .createChannel serverID _ _ => some (.server serverID)
  | .listServerMembersUserIDs serverID => some (.server serverID)
  | .listServerMembers serverID => some (.server serverID)
  | .listChannelMemberUserIDs channelID => some (.channel channelID)
  | .isChannelServerOwner _ channelID => some (.channel channelID)
  | .getServerChannels serverID => some (.server serverID)
  | .getChannelByID channelID => some (.channel channelID)
  | .saveMessage msg => some (.channel msg.channelID)
  | .saveMessageMentions messageID _ => some (.message messageID)
  | .saveMessageAttachments messageID _ => some (.message messageID)
  | .deleteMessage messageID _ => some (.message messageID)
  | .editMessage messageID _ _ => some (.message messageID)
  | .getReplyPreview messageID => some (.message messageID)
  | .getMessages channelID _ _ => some (.channel channelID)
  | .getMessagesAfter channelID _ _ => some (.channel channelID)
  | .getMessagesAround channelID _ _ => some (.channel channelID)
  | .searchMessages params =>
    some (if params.serverID > 0 then .server params.serverID else .channel params.channelID)
  | .markChannelRead _ channelID _ => some (.channel channelID)
  | .hideDMChannel _ channelID => some (.channel channelID)
  | .revealDMChannel channelID => some (.channel channelID)
  | .isDMChannel channelID => some (.channel channelID)
  | .join _ channelID => some (.channel channelID)
  | .handleOffer sessionID _ _ => some (.session sessionID)
  | .handleAnswer sessionID _ => some (.session sessionID)
  | .handleCandidate payload => some (.session payload.sessionID)
  | .subscribeVideo sessionID _ _ _ => some (.session sessionID)
  | .setPublishState sessionID _ _ => some (.session sessionID)
  | .resume sessionID _ => some (.session sessionID)
  | .voiceParticipants channelID => some (.channel channelID)
  | _ => none

def View.Shows (v : View) (c : Call) : Prop := ∀ x ∈ c.about, v.sees x

/-- What an answer has to agree with. A cursor is decoded as the codec does; the checks and
the user's own voice channel and session are about what the user sees, and so are the
channels of a server and the server of a channel that it sees. -/
def View.Promises (v : View) (decode : String → Except GoError (Option WsMessageCursor)) :
    (c : Call) → c.Answer → Prop
  | .canUserAccessChannel userID channelID, r =>
    userID = v.userID → r = .ok true → v.sees (.channel channelID)
  | .isServerMember userID serverID, r =>
    userID = v.userID → r = .ok true → v.sees (.server serverID)
  | .userVoiceChannel userID, r =>
    userID = v.userID → ∀ channelID ∈ r, v.sees (.channel channelID)
  | .sfuSessionByUser userID, r => userID = v.userID → ∀ sessionID ∈ r, v.sees (.session sessionID)
  | .getChannelByID _, r => ∀ channel, r = .ok (some channel) → v.sees (.server channel.serverID)
  | .getServerChannels _, r =>
    ∀ channels, r = .ok channels → ∀ channel ∈ channels, v.sees (.channel channel.id)
  | .saveMessage _, r => ∀ id t, r = .ok (id,t) → v.sees (.message id)
  | .editMessage _ userID _, r =>
    userID = v.userID → ∀ channelID t, r = .ok (channelID,t) → v.sees (.channel channelID)
  | .decodeWsMessageCursor raw, r => r = decode raw
  | _, _ => True

variable {B D : Type} {v : View} {decode : String → Except GoError (Option WsMessageCursor)}
  {req : Request}

/-- The program asks only for what the user sees. -/
abbrev Discreet (v : View) (decode : String → Except GoError (Option WsMessageCursor))
    (p : HubM B) : Prop := Mediated (v.Promises decode) v.Shows p

/-- The actions that ask for what the user may not see before they check it, or without
checking it at all. -/
def Command.Reveals (v : View) (decode : String → Except GoError (Option WsMessageCursor)) :
    Command → Prop
  | .deleteChannel (some channelID) => ¬v.sees (.channel channelID)
  | .joinVoiceChannel (some channelID) => ¬v.sees (.channel channelID)
  | .getServerChannels (some serverID) => ¬v.sees (.server serverID)
  | .getMessages (some payload) => ¬v.sees (.channel payload.channelID) ∧
    ∃ cursor, decode payload.cursor = .ok cursor ∧ ∀ c ∈ cursor, c.channelID = payload.channelID
  | .deleteMessage (some messageID) => ¬v.sees (.message messageID)
  | .editMessage (some payload) => ¬v.sees (.message payload.messageID) ∧
    (trimSpace payload.content).length ≤ maxMessageContentLen
  | .sendMessage (some payload) => (∃ m ∈ payload.replyToID, ¬v.sees (.message m)) ∧
    0 < payload.channelID ∧ v.sees (.channel payload.channelID) ∧
    (trimSpace payload.content).length ≤ maxMessageContentLen
  | _ => False

/-! ## Rules -/

theorem shows_none {c : Call} (h : c.about = none) : v.Shows c := by
  intro x hx
  rw [h] at hx
  cases hx

theorem shows_some {c : Call} {x : Resource} (h : c.about = some x) (hx : v.sees x) :
    v.Shows c := by
  intro y hy
  rw [h] at hy
  cases hy
  exact hx

theorem discreet_pure {b : B} : Discreet v decode (pure b : HubM B) := trivial

theorem discreet_act {a : Act} : Discreet v decode (act a) := trivial

/-- A call that tells of nothing. -/
theorem discreet_ask {c : Call} {f : c.Answer → HubM B} (hc : c.about = none)
    (hf : ∀ r, v.Promises decode c r → Discreet v decode (f r)) :
    Discreet v decode (ask c >>= f) := mediated_ask (shows_none hc) hf

/-- A call that tells of what the user sees. -/
theorem discreet_asks {c : Call} {x : Resource} {f : c.Answer → HubM B} (hx : v.sees x)
    (hc : c.about = some x) (hf : ∀ r, v.Promises decode c r → Discreet v decode (f r)) :
    Discreet v decode (ask c >>= f) := mediated_ask (shows_some hc hx) hf

theorem discreet_ite {c : Prop} [Decidable c] {p q : HubM B} (hp : c → Discreet v decode p)
    (hq : ¬c → Discreet v decode q) : Discreet v decode (if c then p else q) :=
  mediated_ite hp hq

theorem discreet_mapEach {X : Type} {f : X → HubM B} {l : List X}
    (h : ∀ x ∈ l, Discreet v decode (f x)) : Discreet v decode (mapEach f l) := by
  induction l with
  | nil => trivial
  | cons x xs ih =>
    refine (h x List.mem_cons_self).then (fun y => ?_)
    exact (ih (fun z hz => h z (List.mem_cons_of_mem _ hz))).then (fun ys => trivial)

/-! ## What handlers call on the way -/

theorem resolveVoiceParticipant_discreet (s3Host : String) (userID : UserID) :
    Discreet v decode (resolveVoiceParticipant s3Host userID) := by
  refine discreet_ask rfl (fun status _ => discreet_ask rfl (fun detached _ => ?_))
  refine discreet_ask rfl ?_
  rintro (err | (_ | user)) -
  · exact discreet_pure
  · exact discreet_pure
  · exact discreet_pure

theorem listOnlineServerUserIDs_discreet {serverID : ServerID} (excludeUserID : UserID)
    (h : v.sees (.server serverID)) :
    Discreet v decode (listOnlineServerUserIDs serverID excludeUserID) := by
  refine discreet_asks h rfl ?_
  rintro (err | serverUserIDs) -
  · exact discreet_pure
  · exact ⟨shows_none rfl,fun online _ => trivial⟩

theorem participantsByChannel_discreet {channelIDs : List ChannelID}
    (h : ∀ channelID ∈ channelIDs, v.sees (.channel channelID)) :
    Discreet v decode (participantsByChannel channelIDs) := by
  induction channelIDs with
  | nil => exact discreet_pure
  | cons channelID rest ih =>
    refine discreet_asks (h _ List.mem_cons_self) rfl (fun participants _ => ?_)
    refine (ih (fun id hid => h id (List.mem_cons_of_mem _ hid))).then (fun others => ?_)
    rcases participants with _ | (_ | ⟨u,us⟩)
    · exact discreet_pure
    · exact discreet_pure
    · exact discreet_pure

theorem buildVoiceParticipantsSnapshot_discreet (s3Host : String) {channels : List Channel}
    (h : ∀ channel ∈ channels, v.sees (.channel channel.id)) :
    Discreet v decode (buildVoiceParticipantsSnapshot s3Host channels) := by
  have hvoice : ∀ channelID ∈ ((channels.filter (fun c => decide (c.type = .voice))).map
      Channel.id).dedup, v.sees (.channel channelID) := by
    intro channelID hid
    obtain ⟨channel,hc,rfl⟩ := List.mem_map.mp (List.mem_dedup.mp hid)
    exact h channel (List.mem_filter.mp hc).1
  refine (participantsByChannel_discreet hvoice).then (fun found => ?_)
  refine (discreet_mapEach (fun cu _ => ?_)).then (fun snapshot => discreet_pure)
  refine (discreet_mapEach (fun u _ => ?_)).then (fun participants => discreet_pure)
  exact resolveVoiceParticipant_discreet s3Host u

theorem leaveAudience_discreet {channelID : ChannelID} (userID : UserID) (others : List UserID)
    (h : v.sees (.channel channelID)) :
    Discreet v decode (leaveAudience channelID userID others) := by
  refine discreet_asks h rfl ?_
  rintro (err | (_ | channel)) hr
  · exact discreet_pure
  · exact discreet_pure
  · refine (listOnlineServerUserIDs_discreet _ (hr channel rfl)).then ?_
    rintro (err | serverOnlineUserIDs)
    · exact discreet_pure
    · exact discreet_pure

theorem leaveSession_discreet (session : Option SessionID) :
    Discreet v decode (leaveSession session) := by
  cases session with
  | none => exact discreet_pure
  | some sessionID =>
    refine discreet_ask rfl ?_
    rintro (_ | _) -
    · exact discreet_pure
    · exact discreet_act

theorem leaveNotify_discreet {channelID : ChannelID} (userID : UserID) (session : Option SessionID)
    (participants : Option (List UserID)) (h : v.sees (.channel channelID)) :
    Discreet v decode (leaveNotify userID channelID session participants) := by
  refine (leaveSession_discreet session).then (fun _ => ?_)
  exact (leaveAudience_discreet _ _ h).then (fun notifyUsers => trivial)

/-- The voice channel a user is in is one that it sees. -/
theorem leaveVoiceChannelInternal_discreet :
    Discreet v decode (leaveVoiceChannelInternal v.userID) := by
  refine discreet_ask rfl ?_
  rintro (_ | channelID) hr
  · trivial
  · have hsees : v.sees (.channel channelID) := hr rfl channelID rfl
    refine discreet_ask rfl (fun session _ => discreet_ask rfl ?_)
    rintro (_ | _) -
    · exact discreet_asks hsees rfl (fun participants _ => leaveNotify_discreet _ _ _ hsees)
    · exact discreet_asks hsees rfl (fun participants _ => leaveNotify_discreet _ _ _ hsees)

theorem expireVoiceSession_discreet (sessionID : SessionID) :
    Discreet v decode (expireVoiceSession v.userID sessionID) := by
  refine discreet_ask rfl (fun current _ => ?_)
  refine discreet_ite (fun _ => discreet_pure) (fun _ => ?_)
  refine leaveVoiceChannelInternal_discreet.then (fun ch => ?_)
  exact discreet_ite (fun _ => trivial) (fun _ => discreet_pure)

theorem ownsSfuSession_discreet (userID : UserID) (sessionID : SessionID) :
    Discreet v decode (ownsSfuSession userID sessionID) := by
  refine discreet_ite (fun _ => discreet_pure) (fun _ => ?_)
  exact ⟨shows_none rfl,fun current _ => trivial⟩

/-- A session is found to be the user's own only if it is. -/
theorem ownsSfuSession_returns {sessionID : SessionID} :
    Returns (v.Promises decode) (fun ok => ok = true → v.sees (.session sessionID))
      (ownsSfuSession v.userID sessionID) := by
  unfold ownsSfuSession
  split
  · exact nofun
  · refine ⟨trivial,fun current hr => ⟨trivial,fun hown => ?_⟩⟩
    rcases current with _ | s
    · exact absurd (of_decide_eq_true hown).symm ‹_›
    · exact (of_decide_eq_true hown) ▸ hr rfl s rfl

theorem mayDrive_discreet (userID : UserID) (sessionID : SessionID) :
    Discreet v decode (mayDrive userID sessionID) := by
  refine discreet_ask rfl ?_
  rintro (_ | _) -
  · exact discreet_pure
  · exact ownsSfuSession_discreet userID sessionID

theorem mayDrive_returns {sessionID : SessionID} :
    Returns (v.Promises decode) (fun ok => ok = true → v.sees (.session sessionID))
      (mayDrive v.userID sessionID) := by
  rintro (_ | _) -
  · exact nofun
  · exact ownsSfuSession_returns

/-- The guard of the SFU's handlers, and what runs behind it. -/
theorem mayDrive_bind_discreet {sessionID : SessionID} {code message : String} {rest : HubM Unit}
    (h : v.sees (.session sessionID) → Discreet v decode rest) :
    Discreet v decode (do
      if (← mayDrive v.userID sessionID) = false then
        pushSfuError sessionID code message
        return
      rest) := by
  refine (mayDrive_discreet _ _).bind mayDrive_returns (fun ok hok => ?_)
  refine discreet_ite (fun _ => trivial) (fun hne => h (hok ?_))
  exact Bool.eq_true_of_not_eq_false hne

theorem sees_voiceChannel {channelID : Option ChannelID}
    (h : v.Promises decode (.userVoiceChannel v.userID) channelID) :
    v.sees (.channel (channelID.getD 0)) := by
  cases channelID with
  | none => exact v.nothing _ (lt_irrefl _)
  | some channelID => exact h rfl channelID rfl

theorem resumeLocked_discreet : Discreet v decode (resumeLocked v.userID) := by
  refine discreet_ask rfl ?_
  rintro (_ | _) -
  · exact discreet_ask rfl (fun channelID hr =>
      discreet_asks (sees_voiceChannel hr) rfl (fun participants _ => trivial))
  · exact discreet_ask rfl (fun channelID hr =>
      discreet_asks (sees_voiceChannel hr) rfl (fun participants _ => trivial))

theorem resumeVoice_discreet (s3Host : String) (hr : req.userID = v.userID) :
    Discreet v decode (resumeVoice s3Host req) := by
  unfold resumeVoice
  rw [hr]
  refine resumeLocked_discreet.then (fun found => ?_)
  refine (discreet_mapEach (fun u _ => resolveVoiceParticipant_discreet s3Host u)).then
    (fun peers => ?_)
  exact (resolveVoiceParticipant_discreet s3Host _).then (fun self => trivial)

theorem resolveMentions_discreet (content : String) (authorID : UserID) {channelID : ChannelID}
    (recipientUserIDs : List UserID) (h : v.sees (.channel channelID)) :
    Discreet v decode (resolveMentions content authorID channelID recipientUserIDs) := by
  refine discreet_ite (fun _ => discreet_asks h rfl ?_) (fun _ => discreet_pure)
  rintro (err | (_ | _)) -
  · exact discreet_pure
  · exact discreet_pure
  · exact discreet_pure

theorem resolveReply_discreet (channelID : ChannelID) {replyToID : Option MessageID}
    (h : ∀ m ∈ replyToID, v.sees (.message m)) :
    Discreet v decode (resolveReply channelID replyToID) := by
  cases replyToID with
  | none => exact discreet_pure
  | some replyToID =>
    refine discreet_ite (fun _ => discreet_pure) (fun _ => discreet_asks (h _ rfl) rfl ?_)
    rintro (err | (_ | rt)) -
    · exact discreet_pure
    · exact discreet_pure
    · exact discreet_ite (fun _ => discreet_pure) (fun _ => discreet_pure)

theorem takeAttachments_discreet (userID : UserID) (ids : List Int) :
    Discreet v decode (takeAttachments userID ids) := by
  induction ids with
  | nil => exact discreet_pure
  | cons id ids ih =>
    refine discreet_ask rfl ?_
    rintro (_ | pa) -
    · exact discreet_pure
    · refine ih.then ?_
      rintro (err | rest)
      · exact discreet_pure
      · exact discreet_pure

theorem saveAttachments_discreet (s3Host : String) (userID : UserID) {msg : WsMessage}
    (pendingAtts : List PendingAttachment) (h : v.sees (.message msg.id)) :
    Discreet v decode (saveAttachments s3Host userID msg pendingAtts) := by
  refine discreet_ite (fun _ => discreet_pure) (fun _ => discreet_asks h rfl ?_)
  rintro (err | _) -
  · exact discreet_asks h rfl (fun _ _ => discreet_pure)
  · exact discreet_pure

theorem saveMentions_discreet {messageID : MessageID} (mentioned : List UserID)
    (h : v.sees (.message messageID)) : Discreet v decode (saveMentions messageID mentioned) :=
  discreet_ite (fun _ => discreet_pure) (fun _ => discreet_asks h rfl (fun _ _ => discreet_pure))

theorem broadcastDMOpened_discreet (s3Host : String) (channelID : ChannelID)
    (participantUserIDs : List UserID) (lastMessageAt : Time) :
    Discreet v decode (broadcastDMOpened s3Host channelID participantUserIDs lastMessageAt) := by
  have hnotify : ∀ userID peerID : UserID,
      Discreet v decode (notifyDMOpened s3Host channelID lastMessageAt userID peerID) := by
    intro userID peerID
    refine discreet_ask rfl ?_
    rintro (err | (_ | peer)) -
    · exact discreet_pure
    · exact discreet_pure
    · exact discreet_act
  rcases participantUserIDs with _ | ⟨a,_ | ⟨b,_ | ⟨c,rest⟩⟩⟩
  · exact discreet_pure
  · exact discreet_pure
  · rw [broadcastDMOpened_two]
    exact (hnotify a b).then (fun _ => hnotify b a)
  · exact discreet_pure

theorem revealDM_discreet (s3Host : String) {channelID : ChannelID}
    (recipientUserIDs : List UserID) (createdAt : Time) (h : v.sees (.channel channelID)) :
    Discreet v decode (revealDM s3Host channelID recipientUserIDs createdAt) := by
  refine discreet_asks h rfl ?_
  rintro (err | (_ | _)) -
  · exact discreet_pure
  · exact discreet_pure
  · refine discreet_asks h rfl ?_
    rintro (err | _) -
    · exact discreet_pure
    · exact broadcastDMOpened_discreet s3Host channelID recipientUserIDs createdAt

theorem enqueuePush_discreet {channelID : ChannelID} (recipientUserIDs : List UserID)
    (msg : WsMessage) (replyTo : Option WsReplyTo) (h : v.sees (.channel channelID)) :
    Discreet v decode (enqueuePush channelID recipientUserIDs msg replyTo) := by
  refine discreet_ask rfl (fun pushSender _ => discreet_ite (fun _ => discreet_pure) (fun _ => ?_))
  refine discreet_asks h rfl ?_
  rintro (err | (_ | channel)) -
  · exact discreet_pure
  · exact discreet_pure
  · exact ⟨shows_none rfl,fun online _ => trivial⟩

theorem enqueueEmbeds_discreet (recipientUserIDs : List UserID) (msg : WsMessage) :
    Discreet v decode (enqueueEmbeds recipientUserIDs msg) := by
  refine discreet_ask rfl (fun embedService _ => ?_)
  exact discreet_ite (fun _ => discreet_pure) (fun _ => discreet_act)

theorem encodeCursor_discreet (cursor : Option WsMessageCursor) :
    Discreet v decode (encodeCursor cursor) := by
  cases cursor with
  | none => exact discreet_pure
  | some cursor => exact ⟨shows_none rfl,fun _ _ => trivial⟩

theorem parseDate_discreet (raw : Option String) : Discreet v decode (parseDate raw) := by
  cases raw with
  | none => exact discreet_pure
  | some raw =>
    refine discreet_ask rfl ?_
    rintro (err | t) -
    · exact discreet_pure
    · exact discreet_pure

end MiniDiscord.ChatHub
