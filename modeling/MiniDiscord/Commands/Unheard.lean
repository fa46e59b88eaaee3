import MiniDiscord.Commands.Settlement

/-! # Responding once, and the procedures that do not respond

A handler responds when every path through it returns, releases `h.mu`, never takes it
twice, and pushes exactly one event that settles the command. The procedures it calls on
the way are unheard: they leave the count alone.
-/
namespace MiniDiscord.ChatHub
open SfuTrack Effects Program
variable {B D : Type} {u : UserID} {pending : PendingCommand}

def Responds (u : UserID) (pending : PendingCommand) (p : HubM Unit) : Prop :=
  Ensures (Tally.step u pending) (fun _ t => t = ⟨none,1⟩) ⟨none,0⟩ p

def Unheard (u : UserID) (pending : PendingCommand) (p : HubM B) : Prop :=
  ∀ n, Ensures (Tally.step u pending) (fun _ t => t = ⟨none,n⟩) ⟨none,n⟩ p

/-- The same with the lock held all through, as `held`. -/
def UnheardUnder (u : UserID) (pending : PendingCommand) (held : LockMode) (p : HubM B) : Prop :=
  ∀ n, Ensures (Tally.step u pending) (fun _ t => t = ⟨some held,n⟩) ⟨some held,n⟩ p

/-! ## Rules -/

theorem responds_ask {c : Call} {f : c.Answer → HubM Unit}
    (h : ∀ r, Responds u pending (f r)) : Responds u pending (ask c >>= f) := h

theorem unheard_ask {c : Call} {f : c.Answer → HubM B}
    (h : ∀ r, Unheard u pending (f r)) : Unheard u pending (ask c >>= f) :=
  fun n r => h r n

theorem responds_ite {c : Prop} [Decidable c] {p q : HubM Unit} (hp : c → Responds u pending p)
    (hq : ¬c → Responds u pending q) : Responds u pending (if c then p else q) := by
  split
  · exact hp ‹_›
  · exact hq ‹_›

theorem unheard_ite {c : Prop} [Decidable c] {p q : HubM B} (hp : c → Unheard u pending p)
    (hq : ¬c → Unheard u pending q) : Unheard u pending (if c then p else q) := by
  split
  · exact hp ‹_›
  · exact hq ‹_›

theorem unheard_pure {b : B} : Unheard u pending (pure b : HubM B) := fun _ => rfl

theorem Unheard.bind {p : HubM D} {f : D → HubM B} (h : Unheard u pending p)
    (hf : ∀ d, Unheard u pending (f d)) : Unheard u pending (p >>= f) := by
  intro n
  refine (h n).bind (fun d t ht => ?_)
  rw [ht]
  exact hf d n

theorem Unheard.responds {p : HubM D} {f : D → HubM Unit} (h : Unheard u pending p)
    (hf : ∀ d, Responds u pending (f d)) : Responds u pending (p >>= f) := by
  refine (h 0).bind (fun d t ht => ?_)
  rw [ht]
  exact hf d

theorem Responds.bind {p : HubM Unit} {f : Unit → HubM Unit} (h : Responds u pending p)
    (hf : Unheard u pending (f ())) : Responds u pending (p >>= f) := by
  refine Ensures.bind h (fun d t ht => ?_)
  rw [ht]
  exact hf 1

theorem unheard_mapEach {X : Type} {f : X → HubM B} {l : List X}
    (h : ∀ x ∈ l, Unheard u pending (f x)) : Unheard u pending (mapEach f l) :=
  fun n => ensures_mapEach (fun x hx => h x hx n)

/-- One action on the way, which leads to `t'`. -/
theorem ensures_after {post : B → Tally → Prop} {t : Tally} {a : Act} {f : Unit → HubM B}
    (t' : Tally) (h : Tally.step u pending t a = some t')
    (hf : Ensures (Tally.step u pending) post t' (f ())) :
    Ensures (Tally.step u pending) post t (act a >>= f) :=
  ⟨t',h,hf⟩

/-- What the sender does not get, or does not settle with, is unheard. -/
theorem unheard_act {a : Act} (hl : a.locks none = some none) (hs : a.settles u pending = 0) :
    Unheard u pending (act a) := by
  intro n
  refine ⟨⟨none,n⟩,?_,rfl⟩
  simp [Tally.step, hl, hs]

theorem responds_act {a : Act} (hl : a.locks none = some none) (hs : a.settles u pending = 1) :
    Responds u pending (act a) := by
  refine ⟨⟨none,1⟩,?_,rfl⟩
  simp [Tally.step, hl, hs]

theorem responds_error (message : String) : Responds u pending (pushError message) := by
  refine responds_act rfl ?_
  simp [Act.settles, Act.received, PendingCommand.settles]

theorem responds_ack (data : EventData) : Responds u pending (pushAck data) := by
  refine responds_act rfl ?_
  simp [Act.settles, Act.received, PendingCommand.settles]

theorem responds_errorWithRequestID {requestID : String} (h : requestID = pending.requestId)
    (message : String) : Responds u pending (pushErrorWithRequestID requestID message) := by
  refine responds_act rfl ?_
  simp [Act.settles, Act.received, PendingCommand.settles, h]

theorem responds_ackWithRequestID {requestID : String} (h : requestID = pending.requestId)
    (data : EventData) : Responds u pending (pushAckWithRequestID requestID data) := by
  refine responds_act rfl ?_
  simp [Act.settles, Act.received, PendingCommand.settles, h]

/-- Events that settle no command of the sender's action. -/
theorem unheard_pushToUsers {userIDs : List UserID} {e : WsEvent}
    (h : pending.settles e = false) : Unheard u pending (act (.pushToUsers userIDs e)) := by
  refine unheard_act rfl ?_
  unfold Act.settles Act.received
  split <;> simp_all

theorem unheard_pushToUserID {userID : UserID} {e : WsEvent}
    (h : pending.settles e = false) : Unheard u pending (act (.pushToUserID userID e)) := by
  refine unheard_act rfl ?_
  unfold Act.settles Act.received
  split <;> simp_all

theorem unheard_pushEvent {e : WsEvent} (h : pending.settles e = false) :
    Unheard u pending (act (.pushEvent e)) := by
  refine unheard_act rfl ?_
  simp [Act.settles, Act.received, h]

theorem unheard_sfuError (sessionID : SessionID) (code message : String) :
    Unheard u pending (pushSfuError sessionID code message) :=
  unheard_pushEvent rfl

/-- An early return after the response. -/
theorem Responds.return {p : HubM Unit} (h : Responds u pending p) :
    Responds u pending (p >>= fun _ => pure ()) :=
  h.bind unheard_pure

/-! ## What handlers call on the way -/

theorem resolveVoiceParticipant_unheard (s3Host : String) (userID : UserID) :
    Unheard u pending (resolveVoiceParticipant s3Host userID) := by
  intro n
  refine ⟨⟨some .read,n⟩,rfl,fun status detached => ⟨⟨none,n⟩,rfl,?_⟩⟩
  rintro (err | (_ | user))
  · rfl
  · rfl
  · rfl

theorem listOnlineServerUserIDs_unheard (serverID : ServerID) (excludeUserID : UserID) :
    Unheard u pending (listOnlineServerUserIDs serverID excludeUserID) := by
  refine unheard_ask ?_
  rintro (err | serverUserIDs)
  · exact unheard_pure
  · intro n
    exact ⟨⟨some .read,n⟩,rfl,fun online => ⟨⟨none,n⟩,rfl,rfl⟩⟩

theorem participantsByChannel_unheard (channelIDs : List ChannelID) :
    UnheardUnder u pending .read (participantsByChannel channelIDs) := by
  intro n
  induction channelIDs with
  | nil => rfl
  | cons channelID rest ih =>
    intro participants
    refine ih.bind (fun others t ht => ?_)
    rcases participants with _ | (_ | ⟨v,vs⟩)
    · exact ht
    · exact ht
    · exact ht

theorem buildVoiceParticipantsSnapshot_unheard (s3Host : String) (channels : List Channel) :
    Unheard u pending (buildVoiceParticipantsSnapshot s3Host channels) := by
  intro n
  refine ⟨⟨some .read,n⟩,rfl,?_⟩
  refine (participantsByChannel_unheard _ n).bind (fun found t ht => ?_)
  rw [ht]
  refine ⟨⟨none,n⟩,rfl,?_⟩
  refine (unheard_mapEach (fun cu _ => ?_) n).bind (fun snapshot t ht => ht)
  refine Unheard.bind ?_ (fun _ => unheard_pure)
  exact unheard_mapEach (fun v _ => resolveVoiceParticipant_unheard s3Host v)

theorem leaveAudience_unheard (channelID : ChannelID) (userID : UserID) (others : List UserID) :
    Unheard u pending (leaveAudience channelID userID others) := by
  refine unheard_ask ?_
  rintro (err | (_ | channel))
  · exact unheard_pure
  · exact unheard_pure
  · refine (listOnlineServerUserIDs_unheard _ _).bind ?_
    rintro (err | serverOnlineUserIDs)
    · exact unheard_pure
    · exact unheard_pure

theorem leaveSession_unheard (session : Option SessionID) :
    Unheard u pending (leaveSession session) := by
  cases session with
  | none => exact unheard_pure
  | some sessionID =>
    refine unheard_ask ?_
    rintro (_ | _)
    · exact unheard_pure
    · exact unheard_act rfl rfl

theorem leaveNotify_unheard (userID : UserID) (channelID : ChannelID)
    (session : Option SessionID) (participants : Option (List UserID)) :
    Unheard u pending (leaveNotify userID channelID session participants) := by
  refine (leaveSession_unheard session).bind (fun _ => ?_)
  refine (leaveAudience_unheard _ _ _).bind (fun notifyUsers => ?_)
  exact (unheard_pushToUsers rfl).bind (fun _ => unheard_pure)

theorem leaveVoiceChannelInternal_unheard (userID : UserID) :
    Unheard u pending (leaveVoiceChannelInternal userID) := by
  intro n
  refine ⟨⟨some .write,n⟩,rfl,?_⟩
  rintro (_ | channelID)
  · exact ⟨⟨none,n⟩,rfl,rfl⟩
  · intro session
    rintro (_ | _)
    · intro participants
      refine ⟨⟨some .write,n⟩,rfl,⟨none,n⟩,rfl,?_⟩
      exact leaveNotify_unheard _ _ _ _ n
    · refine ⟨⟨some .write,n⟩,rfl,fun participants => ?_⟩
      refine ⟨⟨some .write,n⟩,rfl,⟨none,n⟩,rfl,?_⟩
      exact leaveNotify_unheard _ _ _ _ n

theorem expireVoiceSession_unheard (userID : UserID) (sessionID : SessionID) :
    Unheard u pending (expireVoiceSession userID sessionID) := by
  intro n
  refine ⟨⟨some .write,n⟩,rfl,fun current => ⟨⟨some .write,n⟩,rfl,⟨none,n⟩,rfl,?_⟩⟩
  refine unheard_ite (fun _ => unheard_pure) (fun _ => ?_) n
  refine (leaveVoiceChannelInternal_unheard userID).bind (fun ch => ?_)
  refine unheard_ite (fun _ => ?_) (fun _ => unheard_pure)
  exact (unheard_act rfl rfl).bind (fun _ => unheard_pushToUserID rfl)

theorem ownsSfuSession_unheard (userID : UserID) (sessionID : SessionID) :
    Unheard u pending (ownsSfuSession userID sessionID) := by
  refine unheard_ite (fun _ => unheard_pure) (fun _ => ?_)
  intro n
  exact ⟨⟨some .read,n⟩,rfl,fun current => ⟨⟨none,n⟩,rfl,rfl⟩⟩

theorem mayDrive_unheard (userID : UserID) (sessionID : SessionID) :
    Unheard u pending (mayDrive userID sessionID) := by
  refine unheard_ask ?_
  rintro (_ | _)
  · exact unheard_pure
  · exact ownsSfuSession_unheard userID sessionID

theorem resumeLocked_unheard (userID : UserID) : Unheard u pending (resumeLocked userID) := by
  intro n
  refine ⟨⟨some .write,n⟩,rfl,?_⟩
  rintro (_ | _)
  · exact fun channelID participants => ⟨⟨none,n⟩,rfl,rfl⟩
  · exact ⟨⟨some .write,n⟩,rfl,fun channelID participants => ⟨⟨none,n⟩,rfl,rfl⟩⟩

theorem setPublishState_unheard (payload : WsSfuPublishStateRequest) :
    Unheard u pending (setPublishState payload) := by
  refine unheard_ask (fun present => ?_)
  exact unheard_ite (fun _ => unheard_ask (fun _ => unheard_pure)) (fun _ => unheard_pure)

theorem sendTrack_unheard (active : Bool) (channelID : ChannelID) (userID : UserID)
    (source : Source) :
    Unheard u pending (sendTrack (if active then .sfuTrackPublished else .sfuTrackUnpublished)
      channelID userID source) := by
  intro n
  refine ⟨⟨some .read,n⟩,rfl,fun participants => ⟨⟨none,n⟩,rfl,?_⟩⟩
  refine unheard_pushToUsers ?_ n
  cases active with
  | false => rfl
  | true => rfl

theorem resolveMentions_unheard (content : String) (authorID : UserID) (channelID : ChannelID)
    (recipientUserIDs : List UserID) :
    Unheard u pending (resolveMentions content authorID channelID recipientUserIDs) := by
  refine unheard_ite (fun _ => unheard_ask ?_) (fun _ => unheard_pure)
  rintro (err | (_ | _))
  · exact unheard_pure
  · exact unheard_pure
  · exact unheard_pure

theorem resolveReply_unheard (channelID : ChannelID) (replyToID : Option MessageID) :
    Unheard u pending (resolveReply channelID replyToID) := by
  cases replyToID with
  | none => exact unheard_pure
  | some replyToID =>
    refine unheard_ite (fun _ => unheard_pure) (fun _ => unheard_ask ?_)
    rintro (err | (_ | rt))
    · exact unheard_pure
    · exact unheard_pure
    · exact unheard_ite (fun _ => unheard_pure) (fun _ => unheard_pure)

theorem takeAttachments_unheard (userID : UserID) (ids : List Int) :
    Unheard u pending (takeAttachments userID ids) := by
  induction ids with
  | nil => exact unheard_pure
  | cons id ids ih =>
    refine unheard_ask ?_
    rintro (_ | pa)
    · exact unheard_pure
    · refine ih.bind ?_
      rintro (err | rest)
      · exact unheard_pure
      · exact unheard_pure

theorem saveAttachments_unheard (s3Host : String) (userID : UserID) (msg : WsMessage)
    (pendingAtts : List PendingAttachment) :
    Unheard u pending (saveAttachments s3Host userID msg pendingAtts) := by
  refine unheard_ite (fun _ => unheard_pure) (fun _ => unheard_ask ?_)
  rintro (err | _)
  · exact unheard_ask (fun _ => unheard_pure)
  · exact unheard_pure

theorem saveMentions_unheard (messageID : MessageID) (mentioned : List UserID) :
    Unheard u pending (saveMentions messageID mentioned) :=
  unheard_ite (fun _ => unheard_pure) (fun _ => unheard_ask (fun _ => unheard_pure))

/-- A DM that opens for its participants settles an `open_dm` only. -/
theorem broadcastDMOpened_unheard (s3Host : String) (channelID : ChannelID)
    (participantUserIDs : List UserID) (lastMessageAt : Time) (h : pending.action ≠ "open_dm") :
    Unheard u pending (broadcastDMOpened s3Host channelID participantUserIDs lastMessageAt) := by
  have hnotify : ∀ userID peerID : UserID,
      Unheard u pending (notifyDMOpened s3Host channelID lastMessageAt userID peerID) := by
    intro userID peerID
    refine unheard_ask ?_
    rintro (err | (_ | peer))
    · exact unheard_pure
    · exact unheard_pure
    · refine unheard_pushToUsers ?_
      simp [PendingCommand.settles, h]
  rcases participantUserIDs with _ | ⟨a,_ | ⟨b,_ | ⟨c,rest⟩⟩⟩
  · exact unheard_pure
  · exact unheard_pure
  · rw [broadcastDMOpened_two]
    exact (hnotify a b).bind (fun _ => hnotify b a)
  · exact unheard_pure

theorem revealDM_unheard (s3Host : String) (channelID : ChannelID)
    (recipientUserIDs : List UserID) (createdAt : Time) (h : pending.action ≠ "open_dm") :
    Unheard u pending (revealDM s3Host channelID recipientUserIDs createdAt) := by
  refine unheard_ask ?_
  rintro (err | (_ | _))
  · exact unheard_pure
  · exact unheard_pure
  · refine unheard_ask ?_
    rintro (err | _)
    · exact unheard_pure
    · exact broadcastDMOpened_unheard s3Host channelID recipientUserIDs createdAt h

theorem enqueuePush_unheard (channelID : ChannelID) (recipientUserIDs : List UserID)
    (msg : WsMessage) (replyTo : Option WsReplyTo) :
    Unheard u pending (enqueuePush channelID recipientUserIDs msg replyTo) := by
  refine unheard_ask (fun pushSender => unheard_ite (fun _ => unheard_pure) (fun _ => ?_))
  refine unheard_ask ?_
  rintro (err | (_ | channel))
  · exact unheard_pure
  · exact unheard_pure
  · intro n
    exact ⟨⟨some .read,n⟩,rfl,fun online => ⟨⟨none,n⟩,rfl,⟨none,n⟩,rfl,rfl⟩⟩

theorem enqueueEmbeds_unheard (recipientUserIDs : List UserID) (msg : WsMessage) :
    Unheard u pending (enqueueEmbeds recipientUserIDs msg) := by
  refine unheard_ask (fun embedService => ?_)
  exact unheard_ite (fun _ => unheard_pure) (fun _ => unheard_act rfl rfl)

theorem encodeCursor_unheard (cursor : Option WsMessageCursor) :
    Unheard u pending (encodeCursor cursor) := by
  cases cursor with
  | none => exact unheard_pure
  | some cursor => exact fun n r => rfl

theorem parseDate_unheard (raw : Option String) : Unheard u pending (parseDate raw) := by
  cases raw with
  | none => exact unheard_pure
  | some raw =>
    refine unheard_ask ?_
    rintro (err | t)
    · exact unheard_pure
    · exact unheard_pure

theorem searchAccess_unheard (userID : UserID) (serverID : ServerID) (channelID : ChannelID) :
    Unheard u pending (searchAccess userID serverID channelID) := by
  refine unheard_ite (fun _ => unheard_ask ?_) (fun _ => unheard_ask ?_)
  · rintro (err | isMember)
    · exact unheard_pure
    · exact unheard_pure
  · rintro (err | canAccess)
    · exact unheard_pure
    · exact unheard_pure

/-! ## Handlers that are never answered -/

theorem markRead_unheard (req : Request) (payload : Option (ChannelID × MessageID)) :
    Unheard u pending (markRead req payload) := by
  rcases payload with _ | ⟨channelID,messageID⟩
  · exact unheard_pure
  · refine unheard_ite (fun _ => unheard_pure) (fun _ => unheard_ask (fun allowed => ?_))
    refine unheard_ite (fun _ => unheard_pure) (fun _ => unheard_ask ?_)
    rintro (err | (_ | _))
    · exact unheard_pure
    · exact unheard_pure
    · exact unheard_ask (fun _ => unheard_pure)

theorem handleTyping_unheard (req : Request) (start : Bool) (payload : Option ChannelID) :
    Unheard u pending (handleTyping req start payload) := by
  cases payload with
  | none => exact unheard_pure
  | some channelID =>
    refine unheard_ite (fun _ => unheard_pure) (fun _ => unheard_ask ?_)
    rintro (err | (_ | _))
    · exact unheard_pure
    · exact unheard_pure
    · intro n
      refine ⟨⟨some .write,n⟩,rfl,⟨some .write,n⟩,rfl,⟨none,n⟩,rfl,?_⟩
      rintro (err | recipientUserIDs)
      · exact unheard_pure n
      · refine unheard_pushToUsers ?_ n
        cases start with
        | false => rfl
        | true => rfl

end MiniDiscord.ChatHub
