import MiniDiscord.Commands.Messages

/-! # What the hub hands to the push sender

Every event of `sendMessage` carries the message of its author with the mentions that the
clients are sent, and the users that were registered when the hub looked.
-/
namespace MiniDiscord.Notifications
open ChatHub Effects Program

/-- What a command handed over, in order. -/
def pushEvents (l : List (Entry Call Call.Answer Act)) : List PushEvent :=
  (actions l).filterMap (fun a => match a with
    | .enqueuePush event => some event
    | _ => none)

theorem mem_pushEvents {l : List (Entry Call Call.Answer Act)} {event : PushEvent} :
    event ∈ pushEvents l ↔ Entry.did (.enqueuePush event) ∈ l := by
  unfold pushEvents actions
  rw [List.filterMap_filterMap,List.mem_filterMap]
  constructor
  · rintro ⟨e,he,hev⟩
    rcases e with ⟨c,r⟩ | a
    · cases hev
    · cases a with
      | enqueuePush event' =>
        obtain rfl := Option.some.inj hev
        exact he
      | _ => cases hev
  · intro h
    exact ⟨_,h,rfl⟩

/-- An event as the hub makes it. -/
structure FromHub (authorID : UserID) (event : PushEvent) : Prop where
  author : event.message.authorID = authorID
  channel : event.message.channelID = event.channelID
  mention : ∀ u, event.isMention u = decide (u ∈ event.message.mentions ∨
    (∃ rt ∈ event.message.replyTo, rt.authorID = u) ∨
    (event.message.mentionsEveryone = true ∧ u ∈ event.recipientIDs))

/-- The registered users that a command finds satisfy `online`. -/
def Registered (online : List UserID → Prop) : (c : Call) → c.Answer → Prop
  | .clientsByUser, answer => online answer
  | _, _ => True

/-- An event is handed over only as the hub makes it; anything else may be done. -/
def Hands (authorID : UserID) (online : List UserID → Prop) : Act → Prop
  | .enqueuePush event => FromHub authorID event ∧ online event.onlineIDs
  | _ => True

/-- A procedure whose result satisfies `post`. -/
abbrev HandsOver (authorID : UserID) (online : List UserID → Prop) {B : Type} (post : B → Prop)
    (p : HubM B) : Prop :=
  Does (Registered online) (Hands authorID online) post p

variable {B : Type} {authorID : UserID} {online : List UserID → Prop}

/-- A call other than for the registered users promises nothing. -/
theorem handsOver_ask {c : Call} {f : c.Answer → HubM B} {post : B → Prop}
    (h : ∀ r, HandsOver authorID online post (f r)) :
    HandsOver authorID online post (ask c >>= f) := fun r _ => h r

theorem handsOver_act {a : Act} {f : Unit → HubM B} {post : B → Prop} (ha : Hands authorID online a)
    (h : HandsOver authorID online post (f ())) :
    HandsOver authorID online post (act a >>= f) := ⟨ha,h⟩

theorem resolveMentions_handsOver (content : String) (u : UserID) (channelID : ChannelID)
    (recipientUserIDs : List UserID) :
    HandsOver authorID online (fun _ => True) (resolveMentions content u channelID recipientUserIDs) := by
  unfold resolveMentions
  dsimp only
  split
  · apply handsOver_ask
    rintro (err | _ | _) <;> exact trivial
  · exact trivial

theorem resolveReply_handsOver (channelID : ChannelID) (replyToID : Option MessageID) :
    HandsOver authorID online (fun _ => True) (resolveReply channelID replyToID) := by
  cases replyToID with
  | none => exact trivial
  | some replyToID =>
    unfold resolveReply
    dsimp only
    split
    · exact trivial
    · apply handsOver_ask
      rintro (err | _ | rt)
      · exact trivial
      · exact trivial
      · dsimp only
        split <;> exact trivial

theorem takeAttachments_handsOver (userID : UserID) (ids : List Int) :
    HandsOver authorID online (fun _ => True) (takeAttachments userID ids) := by
  induction ids with
  | nil => exact trivial
  | cons id ids ih =>
    apply handsOver_ask
    rintro (_ | pa)
    · exact trivial
    · apply ih.bind
      rintro (err | rest) - <;> exact trivial

/-- The message with its attachments is the message that was saved. -/
theorem saveAttachments_handsOver (s3Host : String) (userID : UserID) (msg : WsMessage)
    (pendingAtts : List PendingAttachment) :
    HandsOver authorID online
      (fun saved => ∀ msg', saved = .ok msg' →
        ∃ attachments, msg' = { msg with attachments := attachments })
      (saveAttachments s3Host userID msg pendingAtts) := by
  unfold saveAttachments
  dsimp only
  split
  · intro msg' h
    cases h
    exact ⟨msg.attachments,rfl⟩
  · apply handsOver_ask
    rintro (err | _)
    · intro _ _ msg' h
      cases h
    · intro msg' h
      cases h
      exact ⟨_,rfl⟩

theorem broadcastDMOpened_handsOver (s3Host : String) (channelID : ChannelID)
    (participantUserIDs : List UserID) (lastMessageAt : Time) :
    HandsOver authorID online (fun _ => True)
      (broadcastDMOpened s3Host channelID participantUserIDs lastMessageAt) := by
  have hnotify : ∀ userID peerID : UserID,
      HandsOver authorID online (fun _ => True)
        (notifyDMOpened s3Host channelID lastMessageAt userID peerID) := by
    intro userID peerID
    apply handsOver_ask
    rintro (err | _ | peer)
    · exact trivial
    · exact trivial
    · exact ⟨trivial,trivial⟩
  rcases participantUserIDs with _ | ⟨a,_ | ⟨b,_ | ⟨c,rest⟩⟩⟩
  · exact trivial
  · exact trivial
  · rw [broadcastDMOpened_two]
    exact (hnotify a b).bind (fun _ _ => hnotify b a)
  · exact trivial

theorem revealDM_handsOver (s3Host : String) (channelID : ChannelID)
    (recipientUserIDs : List UserID) (createdAt : Time) :
    HandsOver authorID online (fun _ => True)
      (revealDM s3Host channelID recipientUserIDs createdAt) := by
  apply handsOver_ask
  rintro (err | _ | _)
  · exact trivial
  · exact trivial
  · apply handsOver_ask
    rintro (err | _)
    · exact trivial
    · exact broadcastDMOpened_handsOver s3Host channelID recipientUserIDs createdAt

/-- The one procedure that hands an event over. -/
theorem enqueuePush_handsOver {channelID : ChannelID} (recipientUserIDs : List UserID)
    {msg : WsMessage} {replyTo : Option WsReplyTo} (hauthor : msg.authorID = authorID)
    (hchannel : msg.channelID = channelID) (hreply : msg.replyTo = replyTo) :
    HandsOver authorID online (fun _ => True)
      (enqueuePush channelID recipientUserIDs msg replyTo) := by
  subst hreply
  apply handsOver_ask
  intro pushSender
  split
  · exact trivial
  · apply handsOver_ask
    rintro (err | _ | channel)
    · exact trivial
    · exact trivial
    · refine ⟨trivial,?_⟩
      intro users husers
      exact ⟨trivial,⟨⟨hauthor,hchannel,fun u => rfl⟩,husers⟩,trivial⟩

theorem enqueueEmbeds_handsOver (recipientUserIDs : List UserID) (msg : WsMessage) :
    HandsOver authorID online (fun _ => True) (enqueueEmbeds recipientUserIDs msg) := by
  apply handsOver_ask
  intro embedService
  split
  · exact trivial
  · exact ⟨trivial,trivial⟩

theorem saveMentions_handsOver (messageID : MessageID) (mentioned : List UserID) :
    HandsOver authorID online (fun _ => True) (saveMentions messageID mentioned) := by
  unfold saveMentions
  split
  · exact trivial
  · apply handsOver_ask
    intro answer
    exact trivial

/-! ## The command -/

theorem deliverMessage_handsOver (s3Host : String) (req : Request) (payload : WsSendMessageRequest)
    (replyTo : Option WsReplyTo) (pendingAtts : List PendingAttachment)
    (recipientUserIDs : List UserID) (user : User) :
    HandsOver req.userID online (fun _ => True)
      (deliverMessage s3Host req payload replyTo pendingAtts recipientUserIDs user) := by
  apply (resolveMentions_handsOver _ _ _ _).bind
  rintro ⟨mentioned,everyone⟩ -
  apply handsOver_ask
  intro createdAt
  apply handsOver_ask
  rintro (err | ⟨id,createdAt'⟩)
  · exact ⟨trivial,trivial⟩
  apply (saveMentions_handsOver _ _).bind
  intro _ _
  apply (saveAttachments_handsOver _ _ _ _).bind
  rintro (err | msg) hmsg
  · exact ⟨trivial,trivial⟩
  obtain ⟨attachments,rfl⟩ := hmsg msg rfl
  apply (revealDM_handsOver _ _ _ _).bind
  intro _ _
  refine handsOver_act ?_ ?_
  · exact trivial
  refine Does.bind (enqueuePush_handsOver recipientUserIDs ?_ ?_ ?_) ?_
  · rfl
  · rfl
  · rfl
  intro _ _
  apply (enqueueEmbeds_handsOver _ _).bind
  intro _ _
  exact ⟨trivial,trivial⟩

theorem sendChecked_handsOver (s3Host : String) (req : Request) (payload : WsSendMessageRequest) :
    HandsOver req.userID online (fun _ => True) (sendChecked s3Host req payload) := by
  apply handsOver_ask
  rintro (err | _ | _)
  · exact ⟨trivial,trivial⟩
  · exact ⟨trivial,trivial⟩
  apply (resolveReply_handsOver _ _).bind
  rintro (err | replyTo) -
  · exact ⟨trivial,trivial⟩
  dsimp only
  split
  · exact ⟨trivial,trivial⟩
  apply (takeAttachments_handsOver _ _).bind
  rintro (err | pendingAtts) -
  · exact ⟨trivial,trivial⟩
  apply handsOver_ask
  rintro (err | recipientUserIDs)
  · exact ⟨trivial,trivial⟩
  apply handsOver_ask
  rintro (err | _ | user)
  · exact ⟨trivial,trivial⟩
  · exact ⟨trivial,trivial⟩
  · exact deliverMessage_handsOver s3Host req payload replyTo pendingAtts recipientUserIDs user

theorem sendMessage_handsOver (s3Host : String) (req : Request)
    (payload : Option WsSendMessageRequest) :
    HandsOver req.userID online (fun _ => True) (sendMessage s3Host req payload) := by
  apply handsOver_ask
  intro allowed
  dsimp only
  split
  · exact ⟨trivial,trivial⟩
  cases payload with
  | none => exact ⟨trivial,trivial⟩
  | some payload =>
    dsimp only
    split
    · exact ⟨trivial,trivial⟩
    split
    · exact ⟨trivial,trivial⟩
    split
    · exact ⟨trivial,trivial⟩
    · exact sendChecked_handsOver s3Host req _

/-- Whatever the calls of the command answer, its events are the hub's. -/
theorem sendMessage_event {s3Host : String} {req : Request} {payload : Option WsSendMessageRequest}
    {l : List (Entry Call Call.Answer Act)} {o : Option Unit}
    (h : Path (sendMessage s3Host req payload) l o)
    (hl : ∀ answer, Entry.asked .clientsByUser answer ∈ l → online answer) {event : PushEvent}
    (he : event ∈ pushEvents l) :
    FromHub req.userID event ∧ online event.onlineIDs := by
  have hd : HandsOver req.userID online (fun _ => True) (sendMessage s3Host req payload) :=
    sendMessage_handsOver s3Host req payload
  refine hd.path h ?_ (mem_pushEvents.mp he)
  intro c r hr
  cases c with
  | clientsByUser => exact hl r hr
  | _ => exact trivial

end MiniDiscord.Notifications
