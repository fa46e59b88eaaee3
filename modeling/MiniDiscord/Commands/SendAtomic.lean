import MiniDiscord.Commands.Responses
import MiniDiscord.Data.GoMap
import MiniDiscord.Effects.Served

/-! # What a refused message leaves behind

`sendMessage` takes the attachments out of the hub's table before the last of its checks
and before the insert. The rows it may write are followed through every answer of the
storage, and so are the attachments that it takes.
-/
namespace MiniDiscord.ChatHub
open SfuTrack Effects Program

/-- A row of `messages`, without what the database computes from it. -/
structure MessageRow where
  channelID : ChannelID
  authorID : UserID
  content : String
  replyToID : Option MessageID
  mentionsEveryone : Bool
  createdAt : Time
  deriving DecidableEq

/-- The hub's pending attachments and the tables that a send writes. -/
structure Store where
  pendingAttachments : GoMap Int PendingAttachment
  messages : GoMap MessageID MessageRow
  mentions : GoMap MessageID (List UserID)
  attachments : GoMap MessageID (List Attachment)

namespace Store

/-- What `TakePendingAttachment` returns, and the table it leaves. -/
def takePendingAttachment (s : Store) (id : Int) (userID : UserID) :
    Option PendingAttachment × Store :=
  match s.pendingAttachments.lookup id with
  | none => (none,s)
  | some pa =>
    if pa.userID ≠ userID then (none,s)
    else (some pa,{ s with pendingAttachments := s.pendingAttachments.erase id })

def saveMessage (s : Store) (msg : WsMessage) (id : MessageID) (createdAt : Time) : Store :=
  { s with messages := s.messages.insert id ⟨msg.channelID,msg.authorID,
      if msg.content = "" then " " else msg.content,msg.replyToID.filter (fun r => decide (0 < r)),
      msg.mentionsEveryone,createdAt⟩ }

def saveMessageMentions (s : Store) (id : MessageID) (userIDs : List UserID) : Store :=
  let mentioned := (s.mentions.lookup id).getD []
  { s with mentions := s.mentions.insert id (mentioned ++ userIDs.filter (fun u => decide (u ∉ mentioned))) }

def saveMessageAttachments (s : Store) (id : MessageID) (attachments : List Attachment) : Store :=
  let saved := (s.attachments.lookup id).getD []
  { s with attachments := s.attachments.insert id (saved ++ attachments) }

/-- The rows that refer to a message go with it. -/
def deleteMessage (s : Store) (id : MessageID) : Store :=
  { s with
    messages := s.messages.erase id
    mentions := s.mentions.erase id
    attachments := s.attachments.erase id }

end Store

/-- What a command changes: the store, and what its sender is told. `taking` tells whether
`TakePendingAttachment` was called. -/
structure Sending where
  store : Store
  events : List WsEvent
  taking : Bool

/-- A call that fails writes nothing; commands other than a send may change the rows at will. -/
def Sending.serve (s : Sending) : (c : Call) → c.Answer → Sending → Prop
  | .takePendingAttachment id userID,r,t =>
    r = (s.store.takePendingAttachment id userID).1 ∧
      t = { s with store := (s.store.takePendingAttachment id userID).2, taking := true }
  | .saveMessage msg,.ok (id,createdAt),t =>
    id ∉ s.store.messages ∧ t = { s with store := s.store.saveMessage msg id createdAt }
  | .saveMessageMentions id userIDs,.ok _,t =>
    t = { s with store := s.store.saveMessageMentions id userIDs }
  | .saveMessageAttachments id attachments,.ok _,t =>
    t = { s with store := s.store.saveMessageAttachments id attachments }
  | .deleteMessage id userID,.ok _,t =>
    (∃ row ∈ s.store.messages.lookup id, row.authorID = userID) ∧
      t = { s with store := s.store.deleteMessage id }
  | .editMessage _ _ _,_,t =>
    ∃ messages, t = { s with store := { s.store with messages := messages } }
  | .deleteServer _ _,_,t => ∃ messages mentions attachments,
    t = { s with store := ⟨s.store.pendingAttachments,messages,mentions,attachments⟩ }
  | .deleteChannel _ _,_,t => ∃ messages mentions attachments,
    t = { s with store := ⟨s.store.pendingAttachments,messages,mentions,attachments⟩ }
  | _,_,t => t = s

/-- Only `pushEvent` reaches the sender as an answer to the command. -/
def Sending.act (s : Sending) : Act → Sending
  | .pushEvent event => { s with events := s.events ++ [event] }
  | _ => s

def sending : World Call Call.Answer Act Sending := ⟨Sending.serve,Sending.act⟩

/-- The sender was told of an error. -/
def Sending.refused (s : Sending) : Prop := ∃ e ∈ s.events, e.event = .error

def takesAttachment : Call → Bool
  | .takePendingAttachment _ _ => true
  | _ => false

/-- The attachment that a send takes first is not one of the sender's. -/
def FirstMissing (store : Store) (userID : UserID) (ids : List Int) : Prop :=
  ∀ id ∈ ids.head?, (store.takePendingAttachment id userID).1 = none

section Steps
variable {s t : Sending} {store : Store} {userID : UserID} {id : Int} {ids : List Int}

theorem take_none (h : (store.takePendingAttachment id userID).1 = none) :
    (store.takePendingAttachment id userID).2 = store := by
  unfold Store.takePendingAttachment at h ⊢
  split at h
  · rfl
  · split at h
    · rw [if_pos ‹_›]
    · cases h

/-- What was taken is gone. -/
theorem take_some {pa : PendingAttachment} (h : (store.takePendingAttachment id userID).1 = some pa) :
    id ∈ store.pendingAttachments ∧
      id ∉ (store.takePendingAttachment id userID).2.pendingAttachments := by
  unfold Store.takePendingAttachment at h ⊢
  split at h
  · cases h
  · rename_i pa' hpa
    refine ⟨Finmap.mem_of_lookup_eq_some hpa,?_⟩
    split at h
    · cases h
    · rw [if_neg ‹_›]
      simp

theorem take_keeps {id' : Int} (h : id ∉ store.pendingAttachments) :
    id ∉ (store.takePendingAttachment id' userID).2.pendingAttachments := by
  unfold Store.takePendingAttachment
  split
  · exact h
  · split
    · exact h
    · rw [Finmap.mem_erase]
      exact fun hm => h hm.2

/-- Nothing puts a pending attachment back, and no answer is heard by the sender. -/
theorem serve_keeps {c : Call} {r : c.Answer} (h : s.serve c r t) : t.events = s.events ∧
    t.taking = (takesAttachment c || s.taking) ∧
      ∀ id, id ∉ s.store.pendingAttachments → id ∉ t.store.pendingAttachments := by
  cases c with
  | takePendingAttachment id' u =>
    obtain ⟨-,rfl⟩ := h
    exact ⟨rfl,rfl,fun id hid => take_keeps hid⟩
  | saveMessage msg =>
    rcases r with err | ⟨mid,createdAt⟩
    · cases h
      exact ⟨rfl,rfl,fun _ => id⟩
    · obtain ⟨-,rfl⟩ := h
      exact ⟨rfl,rfl,fun _ => id⟩
  | saveMessageMentions mid us =>
    rcases r with err | _ <;> (cases h; exact ⟨rfl,rfl,fun _ => id⟩)
  | saveMessageAttachments mid as =>
    rcases r with err | _ <;> (cases h; exact ⟨rfl,rfl,fun _ => id⟩)
  | deleteMessage mid u =>
    rcases r with err | _
    · cases h
      exact ⟨rfl,rfl,fun _ => id⟩
    · obtain ⟨-,rfl⟩ := h
      exact ⟨rfl,rfl,fun _ => id⟩
  | editMessage =>
    obtain ⟨_,rfl⟩ := h
    exact ⟨rfl,rfl,fun _ => id⟩
  | deleteServer =>
    obtain ⟨_,_,_,rfl⟩ := h
    exact ⟨rfl,rfl,fun _ => id⟩
  | deleteChannel =>
    obtain ⟨_,_,_,rfl⟩ := h
    exact ⟨rfl,rfl,fun _ => id⟩
  | _ => cases h; exact ⟨rfl,rfl,fun _ => id⟩

theorem act_keeps (s : Sending) (a : Act) : (s.act a).store = s.store ∧ (s.act a).taking = s.taking := by
  cases a <;> exact ⟨rfl,rfl⟩

theorem served_taking {l : List (Entry Call Call.Answer Act)} (h : sending.Served s l t) :
    t.taking = false ↔ s.taking = false ∧ ∀ c r, .asked c r ∈ l → takesAttachment c = false := by
  induction h with
  | nil s => exact ⟨fun h => ⟨h,fun c r hm => nomatch hm⟩,And.left⟩
  | @asked s u t c r l hs _ ih =>
    rw [ih,(serve_keeps hs).2.1,Bool.or_eq_false_iff]
    constructor
    · rintro ⟨⟨hc,ht⟩,hl⟩
      refine ⟨ht,fun c' r' hm => ?_⟩
      rcases List.mem_cons.mp hm with he | hm
      · cases he
        exact hc
      · exact hl c' r' hm
    · rintro ⟨ht,hl⟩
      exact ⟨⟨hl c r List.mem_cons_self,ht⟩,fun c' r' hm => hl c' r' (List.mem_cons_of_mem _ hm)⟩
  | @did s t a l _ ih =>
    have ha : (sending.act s a).taking = s.taking := (act_keeps s a).2
    rw [ih,ha]
    refine and_congr_right (fun _ => ⟨fun hl c r hm => ?_,fun hl c r hm => ?_⟩)
    · rcases List.mem_cons.mp hm with he | hm
      · cases he
      · exact hl c r hm
    · exact hl c r (List.mem_cons_of_mem _ hm)

end Steps

/-- If the sender is told of an error, the store is the one before the command just when no
attachment was its to take. -/
def Restores (store : Store) (userID : UserID) (ids : List Int) (t : Sending) : Prop :=
  t.refused → (t.store = store ↔ t.taking = false ∨ FirstMissing store userID ids)

/-- The store is as before, and nothing can have been taken from it. -/
structure Spared (store : Store) (userID : UserID) (ids : List Int) (s : Sending) : Prop where
  same : s.store = store
  missing : s.taking = false ∨ FirstMissing store userID ids

/-- The first attachment has been taken. -/
structure Taken (store : Store) (userID : UserID) (ids : List Int) (s : Sending) : Prop where
  taking : s.taking = true
  first : ∃ id pa, ids.head? = some id ∧ (store.takePendingAttachment id userID).1 = some pa ∧
    id ∉ s.store.pendingAttachments

section Stages
variable {s : Sending} {store : Store} {userID : UserID} {ids : List Int} {B : Type}

theorem Spared.restores (h : Spared store userID ids s) : Restores store userID ids s :=
  fun _ => iff_of_true h.same h.missing

theorem Taken.restores (h : Taken store userID ids s) : Restores store userID ids s := by
  intro _
  obtain ⟨id,pa,hid,hpa,hn⟩ := h.first
  refine iff_of_false (fun he => ?_) ?_
  · rw [he] at hn
    exact hn (take_some hpa).1
  · rintro (ht | hm)
    · rw [h.taking] at ht
      cases ht
    · have hnone := hm id hid
      rw [hpa] at hnone
      cases hnone

theorem Taken.serve {t : Sending} {c : Call} {r : c.Answer} (h : Taken store userID ids s)
    (hs : s.serve c r t) : Taken store userID ids t := by
  obtain ⟨-,ht,hp⟩ := serve_keeps hs
  obtain ⟨id,pa,hid,hpa,hn⟩ := h.first
  exact ⟨by rw [ht,h.taking,Bool.or_true],id,pa,hid,hpa,hp id hn⟩

theorem Taken.act (h : Taken store userID ids s) (a : Act) : Taken store userID ids (s.act a) := by
  obtain ⟨hstore,htaking⟩ := act_keeps s a
  refine ⟨htaking.trans h.taking,?_⟩
  rw [hstore]
  exact h.first

theorem does_any (p : HubM B) : Does (fun _ _ => True) (fun _ => True) (fun _ => True) p := by
  induction p with
  | ret => trivial
  | crash => trivial
  | act a next ih => exact ⟨trivial,ih⟩
  | ask c next ih => exact fun r _ => ih r

/-- Once something is taken, it stays taken whatever the rest of the command does. -/
theorem Taken.rest (h : Taken store userID ids s) (p : HubM B) :
    Achieves sending (fun _ t => Taken store userID ids t) s p :=
  (achieves_of_does (does_any p) (fun h hs => h.serve hs) (fun _ h => h.act _) h).mono
    (fun _ _ h => h.2)

theorem achieves_read {post : B → Sending → Prop} {c : Call} {f : c.Answer → HubM B}
    (hc : ∀ r t, s.serve c r t → t = s) (h : ∀ r, Achieves sending post s (f r)) :
    Achieves sending post s (ask c >>= f) := by
  intro r t ht
  rw [hc r t ht]
  exact h r

theorem achieves_asked {post : B → Sending → Prop} {c : Call} {f : c.Answer → HubM B}
    (h : ∀ r t, s.serve c r t → Achieves sending post t (f r)) :
    Achieves sending post s (ask c >>= f) := h

theorem achieves_ite {post : B → Sending → Prop} {c : Prop} [Decidable c] {p q : HubM B}
    (hp : c → Achieves sending post s p) (hq : ¬c → Achieves sending post s q) :
    Achieves sending post s (if c then p else q) := by
  split
  · exact hp ‹_›
  · exact hq ‹_›

theorem Spared.pushError (h : Spared store userID ids s) (message : String) :
    Achieves sending (fun _ t => Restores store userID ids t) s (pushError message) := by
  have ht : Spared store userID ids (s.act (.pushEvent { event := .error, error := message })) :=
    ⟨h.same,h.missing⟩
  exact ht.restores

theorem Spared.refuse (h : Spared store userID ids s) (message : String) :
    Achieves sending (fun _ t => Restores store userID ids t) s
      (ChatHub.pushError message >>= fun _ => return) := h.pushError message

theorem resolveReply_reads (channelID : ChannelID) (replyToID : Option MessageID) :
    Achieves sending (fun _ t => t = s) s (resolveReply channelID replyToID) := by
  cases replyToID with
  | none => rfl
  | some replyToID =>
    refine achieves_ite (fun _ => rfl) (fun _ => achieves_read (fun _ _ h => h) ?_)
    rintro (err | (_ | rt))
    · rfl
    · rfl
    · exact achieves_ite (fun _ => rfl) (fun _ => rfl)

theorem resolveMentions_reads (content : String) (authorID : UserID) (channelID : ChannelID)
    (recipientUserIDs : List UserID) : Achieves sending (fun _ t => t = s) s
      (resolveMentions content authorID channelID recipientUserIDs) := by
  refine achieves_ite (fun _ => achieves_read (fun _ _ h => h) ?_) (fun _ => rfl)
  rintro (err | (_ | _))
  · rfl
  · rfl
  · rfl

/-- The loop over the attachments: none, a first one that is missing, or one that is taken. -/
theorem takeAttachments_takes (hs : Spared store userID ids s) :
    Achieves sending (fun r t =>
      (r = .ok [] ∧ t = s) ∨
      (∃ err, r = .error err ∧ Spared store userID ids t) ∨
      Taken store userID ids t) s (takeAttachments userID ids) := by
  cases ids with
  | nil => exact Or.inl ⟨rfl,rfl⟩
  | cons id rest =>
    rintro r t ⟨hr,rfl⟩
    cases r with
    | none =>
      refine Or.inr (Or.inl ⟨_,rfl,?_,Or.inr ?_⟩)
      · exact (take_none hr.symm).trans hs.same
      · intro id' hid
        cases hid
        rw [← hs.same]
        exact hr.symm
    | some pa =>
      have htaken : Taken store userID (id :: rest)
          { s with store := (s.store.takePendingAttachment id userID).2, taking := true } :=
        ⟨rfl,id,pa,rfl,by rw [← hs.same]; exact hr.symm,(take_some hr.symm).2⟩
      exact (htaken.rest _).mono (fun _ _ h => Or.inr (Or.inr h))

/-- Nothing that the program does is an error to the sender. -/
abbrev Polite (p : HubM B) : Prop :=
  Does (fun _ _ => True) (fun a => ∀ e, a = .pushEvent e → e.event ≠ .error) (fun _ => True) p

theorem Polite.restores {p : HubM B} (hp : Polite p) (hn : ¬ s.refused) :
    Achieves sending (fun _ t => Restores store userID ids t) s p := by
  refine (achieves_of_does (P := fun t => ¬ t.refused) hp (fun hn hs => ?_) (fun ha hn => ?_)
    hn).mono (fun _ _ h hr => absurd hr h.2)
  · unfold Sending.refused
    rw [(serve_keeps hs).1]
    exact hn
  · rename_i s a
    cases a with
    | pushEvent e =>
      rintro ⟨e',he',herr⟩
      rcases List.mem_append.mp he' with he' | he'
      · exact hn ⟨e',he',herr⟩
      · cases List.mem_singleton.mp he'
        exact ha e rfl herr
    | _ => exact hn

theorem polite_ite {c : Prop} [Decidable c] {p q : HubM B} (hp : Polite p) (hq : Polite q) :
    Polite (if c then p else q) := by
  split
  · exact hp
  · exact hq

theorem polite_act {a : Act} {f : Unit → HubM B} (ha : ∀ e, a = .pushEvent e → e.event ≠ .error)
    (hf : Polite (f ())) : Polite (act a >>= f) := ⟨ha,hf⟩

theorem saveMentions_polite (messageID : MessageID) (mentioned : List UserID) :
    Polite (saveMentions messageID mentioned) := polite_ite trivial (fun _ _ => trivial)

theorem saveAttachments_nil (s3Host : String) (userID : UserID) (msg : WsMessage) :
    saveAttachments s3Host userID msg [] = .ret (.ok msg) := if_pos rfl

theorem broadcastDMOpened_polite (s3Host : String) (channelID : ChannelID)
    (participantUserIDs : List UserID) (lastMessageAt : Time) :
    Polite (broadcastDMOpened s3Host channelID participantUserIDs lastMessageAt) := by
  have hnotify : ∀ userID peerID : UserID,
      Polite (notifyDMOpened s3Host channelID lastMessageAt userID peerID) := by
    intro userID peerID
    rintro (err | (_ | peer)) -
    · trivial
    · trivial
    · refine ⟨?_,trivial⟩
      intro e he
      cases he
  rcases participantUserIDs with _ | ⟨a,_ | ⟨b,_ | ⟨c,rest⟩⟩⟩
  · trivial
  · trivial
  · rw [broadcastDMOpened_two]
    exact Does.bind (hnotify a b) (fun _ _ => hnotify b a)
  · trivial

theorem revealDM_polite (s3Host : String) (channelID : ChannelID) (recipientUserIDs : List UserID)
    (createdAt : Time) : Polite (revealDM s3Host channelID recipientUserIDs createdAt) := by
  rintro (err | (_ | _)) -
  · trivial
  · trivial
  · rintro (err | _) -
    · trivial
    · exact broadcastDMOpened_polite s3Host channelID recipientUserIDs createdAt

theorem enqueuePush_polite (channelID : ChannelID) (recipientUserIDs : List UserID)
    (msg : WsMessage) (replyTo : Option WsReplyTo) :
    Polite (enqueuePush channelID recipientUserIDs msg replyTo) := by
  intro pushSender _
  refine polite_ite trivial ?_
  rintro (err | (_ | channel)) -
  · trivial
  · trivial
  · exact ⟨(fun e he => nomatch he),fun online _ => ⟨(fun e he => nomatch he),
      ⟨(fun e he => nomatch he),trivial⟩⟩⟩

theorem enqueueEmbeds_polite (recipientUserIDs : List UserID) (msg : WsMessage) :
    Polite (enqueueEmbeds recipientUserIDs msg) := by
  intro embedService _
  exact polite_ite trivial ⟨(fun e he => nomatch he),trivial⟩

/-- Without attachments the insert is the last thing that can go wrong. -/
theorem deliverMessage_restores (s3Host : String) (req : Request) (payload : WsSendMessageRequest)
    (replyTo : Option WsReplyTo) (recipientUserIDs : List UserID) (user : User)
    (hs : Spared store userID ids s) (hn : ¬ s.refused) :
    Achieves sending (fun _ t => Restores store userID ids t) s
      (deliverMessage s3Host req payload replyTo [] recipientUserIDs user) := by
  refine (resolveMentions_reads _ _ _ _).bind ?_
  rintro ⟨mentioned,everyone⟩ t rfl
  refine achieves_read (fun _ _ h => h) (fun createdAt => achieves_asked ?_)
  rintro (err | ⟨id,createdAt⟩) u hu
  · cases hu
    exact hs.pushError _
  · obtain ⟨-,rfl⟩ := hu
    refine Polite.restores ?_ hn
    refine Does.bind (saveMentions_polite _ _) (fun _ _ => ?_)
    rw [saveAttachments_nil,bind_ret]
    refine Does.bind (revealDM_polite _ _ _ _) (fun _ _ => ?_)
    refine polite_act (fun e he => nomatch he) ?_
    refine Does.bind (enqueuePush_polite _ _ _ _) (fun _ _ => ?_)
    refine Does.bind (enqueueEmbeds_polite _ _) (fun _ _ => ⟨?_,trivial⟩)
    intro e he
    cases he
    simp

theorem sendChecked_restores (s3Host : String) (req : Request) (payload : WsSendMessageRequest)
    (hs : Spared store req.userID payload.attachmentIDs s) (hn : ¬ s.refused) :
    Achieves sending (fun _ t => Restores store req.userID payload.attachmentIDs t) s
      (sendChecked s3Host req payload) := by
  refine achieves_read (fun _ _ h => h) ?_
  rintro (err | (_ | _))
  · exact hs.pushError _
  · exact hs.pushError _
  · refine (resolveReply_reads _ _).bind ?_
    rintro (err | replyTo) t rfl
    · exact hs.pushError _
    · refine achieves_ite (fun _ => hs.refuse _) (fun _ => ?_)
      refine (takeAttachments_takes hs).bind ?_
      rintro (err | pendingAtts) t ht
      · rcases ht with ⟨he,-⟩ | ⟨-,-,ht⟩ | ht
        · cases he
        · exact ht.pushError _
        · exact (ht.rest _).mono (fun _ _ h => h.restores)
      · rcases ht with ⟨he,rfl⟩ | ⟨_,he,-⟩ | ht
        · cases he
          refine achieves_read (fun _ _ h => h) ?_
          rintro (err | recipientUserIDs)
          · exact hs.pushError _
          · refine achieves_read (fun _ _ h => h) ?_
            rintro (err | (_ | user))
            · exact hs.pushError _
            · exact hs.pushError _
            · exact deliverMessage_restores _ _ _ _ _ _ hs hn
        · cases he
        · exact (ht.rest _).mono (fun _ _ h => h.restores)

theorem sendMessage_restores (s3Host : String) (req : Request) (payload : Option WsSendMessageRequest)
    (store : Store) : Achieves sending (fun _ t => Restores store req.userID
      (payload.elim [] WsSendMessageRequest.attachmentIDs) t) ⟨store,[],false⟩
        (sendMessage s3Host req payload) := by
  have hs : ∀ ids, Spared store req.userID ids ⟨store,[],false⟩ := fun _ => ⟨rfl,Or.inl rfl⟩
  have hn : ¬ Sending.refused ⟨store,[],false⟩ := fun ⟨_,he,_⟩ => nomatch he
  refine achieves_read (fun _ _ h => h) (fun allowed => ?_)
  refine achieves_ite (fun _ => (hs _).refuse _) (fun _ => ?_)
  cases payload with
  | none => exact (hs _).pushError _
  | some payload =>
    refine achieves_ite (fun _ => (hs _).refuse _) (fun _ => ?_)
    refine achieves_ite (fun _ => (hs _).refuse _) (fun _ => ?_)
    refine achieves_ite (fun _ => (hs _).refuse _) (fun _ => ?_)
    exact sendChecked_restores s3Host req { payload with content := trimSpace payload.content } (hs _) hn

end Stages

/-- When the sender is told of an error, the pending attachments and the stored rows are the
ones before the command if and only if the command did not come to its attachments, or the
first of them was not the sender's. -/
theorem send_restores {s3Host : String} {req : Request} {payload : Option WsSendMessageRequest}
    {store : Store} {l : List (Entry Call Call.Answer Act)} {o : Option Unit} {t : Sending}
    (hp : Path (sendMessage s3Host req payload) l o) (hs : sending.Served ⟨store,[],false⟩ l t)
    (hr : t.refused) : t.store = store ↔
      (∀ c r, .asked c r ∈ l → takesAttachment c = false) ∨
        FirstMissing store req.userID (payload.elim [] WsSendMessageRequest.attachmentIDs) := by
  have hresponds : Responds req.userID ⟨"send_message","",none⟩ (sendMessage s3Host req payload) :=
    sendMessage_responds s3Host req payload (by simp)
  obtain ⟨b,-,rfl,-⟩ := Ensures.path hresponds hp
  have hrestores := (sendMessage_restores s3Host req payload store).path hp hs hr
  rw [hrestores,served_taking hs]
  exact or_congr_left (and_iff_right rfl)

/-- A send that names attachments passes the checks of its payload. -/
theorem path_checked {s3Host : String} {req : Request} {payload : WsSendMessageRequest}
    {l : List (Entry Call Call.Answer Act)} {o : Option Unit} (hc : 0 < payload.channelID)
    (ha : payload.attachmentIDs ≠ []) (hl : (trimSpace payload.content).length ≤ maxMessageContentLen)
    (hp : Path (sendChecked s3Host req { payload with content := trimSpace payload.content }) l o) :
    Path (sendMessage s3Host req (some payload)) (.asked (.allow .sendMessage req.userID) true :: l) o := by
  have hcontent : ¬ (trimSpace payload.content = "" ∧ payload.attachmentIDs = [] ∧
      payload.replyToID.getD 0 ≤ 0) := fun h => ha h.2.1
  unfold sendMessage
  rw [bind_call]
  apply Path.ask
  rw [if_neg (by simp)]
  dsimp only
  rw [if_neg (not_le.mpr hc),if_neg hcontent,if_neg (not_lt.mpr hl)]
  exact hp

/-- User 1 has uploaded one file, which waits under ID 7. -/
def uploaded : PendingAttachment := ⟨7,1,"folder","folder/a.png","a.png","image/png",10⟩
def oneUploaded : Store := ⟨(∅ : GoMap Int PendingAttachment).insert 7 uploaded,∅,∅,∅⟩

/-- A send to channel 2, admitted and refused for the attachment with ID 8. -/
def attach (ids : List Int) : WsSendMessageRequest := ⟨2,"",ids,none⟩
def refusedFor (taken : List (Entry Call Call.Answer Act)) : List (Entry Call Call.Answer Act) :=
  [.asked (.allow .sendMessage 1) true,.asked (.canUserAccessChannel 1 2) (.ok true)] ++ taken ++
    [.asked (.takePendingAttachment 8 1) none,
      .did (.pushEvent { event := .error, error := "attachment not found: 8" })]

theorem trimSpace_empty : trimSpace "" = "" := by
  unfold trimSpace
  rfl

theorem path_missing : Path (sendMessage "" ⟨1,""⟩ (some (attach [8]))) (refusedFor []) (some ()) := by
  refine path_checked (by decide) (by decide) (by rw [attach,trimSpace_empty]; decide) ?_
  exact .ask _ (.ask _ (.act (.ret ())))

theorem send_restores_missing : ∃ t, sending.Served ⟨oneUploaded,[],false⟩ (refusedFor []) t ∧
    t.refused ∧ t.store = oneUploaded := by
  have hs : sending.Served ⟨oneUploaded,[],false⟩ (refusedFor [])
      ⟨oneUploaded,[{ event := .error, error := "attachment not found: 8" }],true⟩ :=
    .asked rfl (.asked rfl (.asked ⟨rfl,rfl⟩ (.did (.nil _))))
  have hr : Sending.refused
      ⟨oneUploaded,[{ event := .error, error := "attachment not found: 8" }],true⟩ :=
    ⟨_,List.mem_singleton_self _,rfl⟩
  refine ⟨_,hs,hr,(send_restores path_missing hs hr).mpr (Or.inr ?_)⟩
  intro id hid
  cases hid
  rfl

/-- The second of two attachments is missing; the first one is gone. -/
theorem path_second_missing : Path (sendMessage "" ⟨1,""⟩ (some (attach [7,8])))
    (refusedFor [.asked (.takePendingAttachment 7 1) (some uploaded)]) (some ()) := by
  refine path_checked (by decide) (by decide) (by rw [attach,trimSpace_empty]; decide) ?_
  exact .ask _ (.ask _ (.ask _ (.act (.ret ()))))

theorem send_loses_attachment : ¬ ∀ s3Host req payload store l o t,
    Path (sendMessage s3Host req payload) l o → sending.Served ⟨store,[],false⟩ l t → t.refused →
      t.store = store := by
  intro h
  have hs : sending.Served ⟨oneUploaded,[],false⟩
      (refusedFor [.asked (.takePendingAttachment 7 1) (some uploaded)])
      ⟨(oneUploaded.takePendingAttachment 7 1).2,
        [{ event := .error, error := "attachment not found: 8" }],true⟩ :=
    .asked rfl (.asked rfl (.asked ⟨rfl,rfl⟩ (.asked ⟨rfl,rfl⟩ (.did (.nil _)))))
  have he := h _ _ _ _ _ _ _ path_second_missing hs ⟨_,List.mem_singleton_self _,rfl⟩
  have hlookup := congrArg (fun s : Store => s.pendingAttachments.lookup 7) he
  revert hlookup
  decide

end MiniDiscord.ChatHub
