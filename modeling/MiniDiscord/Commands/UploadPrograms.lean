import MiniDiscord.Commands.FileCalls
import MiniDiscord.Commands.UploadInvariant

/-! # What requests and commands uphold

Each handler is followed through every answer of its calls, while the others do what they
are relied on for.
-/
namespace MiniDiscord.Uploads
open SfuTrack ChatHub Effects Program

variable {uploads : ℕ → UploadRequest} {s t u : Files} {i : Member}

/-- No two uploads got one folder key, suffix and file name. -/
abbrev PutOnce (s : Files) : Prop := s.puts.Nodup

variable (uploads) in
/-- What the others, and the member's own calm moves, leave true. -/
def Stable (i : Member) (Q : Files → Prop) : Prop :=
  ∀ {s t}, Sound uploads s → Q s → Sound uploads t → Grows s t → Spares i s t → Q t

section Commands
variable {B : Type} {n : ℕ} {Q : Files → Prop} {post : B → Files → Prop}

variable (uploads) in
abbrev CommandUpholds (n : ℕ) (post : B → Files → Prop) : Files → HubM B → Prop :=
  Upholds ((commandWorld n).within PutOnce) (Rely uploads (.command n)) (Guar uploads (.command n)) post

theorem Stable.rely (hQ : Stable uploads i Q) (h : Sound uploads s ∧ Q s) (hr : Rely uploads i s t) :
    Sound uploads t ∧ Q t := by
  obtain ⟨ht,hg,hk⟩ := hr h.1
  exact ⟨ht,hQ h.1 h.2 ht hg hk⟩

theorem Stable.calm (hQ : Stable uploads i Q) (hs : Sound uploads s) (hq : Q s)
    (h : Calm uploads s t) : Q t := hQ hs hq h.1 h.2.1 (h.2.2 i)

theorem stable_true : Stable uploads i (fun _ => True) := fun _ _ _ _ _ => trivial

theorem stable_holds {userID : UserID} {pendingAtts : List PendingAttachment} :
    Stable uploads (.command n) (Holds uploads n userID pendingAtts) := by
  rintro s t - ⟨hnodup,hheld⟩ - hg hk
  refine ⟨hnodup,fun pa hpa => ?_⟩
  obtain ⟨hp,hu⟩ := hheld pa hpa
  exact ⟨(hk _ (by rw [hp]; rfl)).trans hp,hu.grows hg⟩

theorem stable_dead {keys : List String} : Stable uploads (.command n) (Dead keys) := by
  intro s t hs hd _ hg _ k hk
  obtain ⟨m,hp,hnot⟩ := hd k hk
  refine ⟨m,hg.attached k m hp,fun hm => ?_⟩
  rcases hg.messages m hm with hm | hm
  · exact hnot hm
  · exact absurd (hs.attached k m hp) (Int.not_lt.mpr hm)

theorem serve_calm {c : Call} {r : c.Answer} (hs : Sound uploads s) (hc : KeepsFiles c)
    (h : (commandWorld n).serve s c r t) : Calm uploads s t := by
  cases c with
  | takePendingAttachment id userID =>
    obtain rfl := congrArg Prod.snd h
    exact hs.take n id userID
  | saveMessage msg =>
    rcases r with err | ⟨id,createdAt⟩
    · rcases h with rfl | ⟨id,hid,rfl⟩
      · exact Calm.refl hs
      · exact hs.saveMessage _ hid
    · obtain ⟨hid,rfl⟩ := h
      exact hs.saveMessage _ hid
  | saveMessageAttachments id attachments => exact absurd rfl (hc.1 id attachments)
  | deleteMessage id userID =>
    rcases r with err | fileKeys
    · rcases h with rfl | ⟨-,rfl⟩
      · exact Calm.refl hs
      · exact hs.deleteMessages _
    · obtain ⟨-,-,rfl⟩ := h
      exact hs.deleteMessages _
  | deleteServer =>
    obtain ⟨gone,rfl⟩ := h
    exact hs.deleteMessages gone
  | deleteChannel =>
    obtain ⟨gone,rfl⟩ := h
    exact hs.deleteMessages gone
  | deleteAttachment keys => exact absurd rfl (hc.2 keys)
  | _ => cases h; exact Calm.refl hs

/-- A program that makes neither of the two calls keeps what is stable. -/
theorem upholds_harmless {p : HubM B} (hp : Harmless p) (hQ : Stable uploads (.command n) Q)
    (hs : Sound uploads s) (hq : Q s) :
    CommandUpholds uploads n (fun _ t => Sound uploads t ∧ Q t) s p := by
  refine upholds_of_uses hp ⟨hs,hq⟩ hQ.rely (fun hc h hserve => ?_) (fun h => ?_)
  · have hcalm := serve_calm h.1 hc hserve.1
    exact ⟨hcalm.guar,hcalm.1,hQ.calm h.1 h.2 hcalm⟩
  · exact ⟨(Calm.refl h.1).guar,h⟩

theorem upholds_quietly {p : HubM B} (hp : Harmless p) (hs : Sound uploads s) :
    CommandUpholds uploads n (fun _ _ => True) s p :=
  (upholds_harmless hp stable_true hs trivial).mono (fun _ _ _ => trivial)

theorem upholds_asked {c : Call} {f : c.Answer → HubM B} (hc : KeepsFiles c)
    (hQ : Stable uploads (.command n) Q) (hs : Sound uploads s) (hq : Q s)
    (h : ∀ {t} r, Sound uploads t → Q t → CommandUpholds uploads n post t (f r)) :
    CommandUpholds uploads n post s (ask c >>= f) := by
  refine upholds_ask ⟨hs,hq⟩ hQ.rely (fun h' hserve => ?_)
  have hcalm := serve_calm h'.1 hc hserve.1
  exact ⟨hcalm.guar,h _ hcalm.1 (hQ.calm h'.1 h'.2 hcalm)⟩

theorem upholds_then {D : Type} {p : HubM D} {f : D → HubM B} (hp : Harmless p)
    (hQ : Stable uploads (.command n) Q) (hs : Sound uploads s) (hq : Q s)
    (h : ∀ {t} d, Sound uploads t → Q t → CommandUpholds uploads n post t (f d)) :
    CommandUpholds uploads n post s (p >>= f) :=
  (upholds_harmless hp hQ hs hq).bind (Rely.refl _) (fun d _ ht => h d ht.1 ht.2)

theorem take_holds {id : Int} {userID : UserID} {pa : PendingAttachment}
    {pendingAtts : List PendingAttachment} (hs : Sound uploads s)
    (hh : Holds uploads n userID pendingAtts s)
    (h : (some pa,t) = s.takePendingAttachment n id userID) :
    Holds uploads n userID (pendingAtts ++ [pa]) t := by
  have hcalm := hs.take n id userID
  rw [← h] at hcalm
  have hold := stable_holds.calm hs hh hcalm
  unfold Files.takePendingAttachment at h
  split at h
  · cases h
  · rename_i pa' hpa
    split at h
    · cases h
    · rename_i hu
      obtain ⟨hpa',rfl⟩ := Prod.mk.inj h
      cases hpa'
      obtain ⟨hplace,hup⟩ := hs.pending id pa hpa
      refine ⟨?_,fun pa' hpa' => ?_⟩
      · rw [List.map_append,List.nodup_append]
        refine ⟨hh.1,List.nodup_singleton _,?_⟩
        rintro k hk k' hk' rfl
        obtain ⟨pa',hpa',rfl⟩ := List.mem_map.mp hk
        have hp := (hh.2 pa' hpa').1
        rw [List.mem_singleton.mp hk',hplace] at hp
        cases hp
      · rcases List.mem_append.mp hpa' with hpa' | hpa'
        · exact hold.2 pa' hpa'
        · cases List.mem_singleton.mp hpa'
          refine ⟨Function.update_self _ _ _,?_⟩
          rw [← not_not.mp hu]
          exact hup

/-- Along the loop the command holds all it has taken so far. -/
theorem takeAttachments_holds {userID : UserID} (ids : List Int)
    {pendingAtts : List PendingAttachment} (hs : Sound uploads s)
    (hh : Holds uploads n userID pendingAtts s) :
    CommandUpholds uploads n (fun r t => Sound uploads t ∧ ∀ rest, r = .ok rest →
      Holds uploads n userID (pendingAtts ++ rest) t) s (takeAttachments userID ids) := by
  induction ids generalizing s pendingAtts with
  | nil =>
    refine upholds_ret ⟨hs,hh⟩ stable_holds.rely (fun h => ⟨h.1,fun rest hr => ?_⟩)
    cases hr
    rw [List.append_nil]
    exact h.2
  | cons id ids ih =>
    refine upholds_ask ⟨hs,hh⟩ stable_holds.rely ?_
    rintro s t r ⟨hs,hh⟩ ⟨hserve,-⟩
    have hcalm : Calm uploads s t := serve_calm hs (by simp [KeepsFiles]) hserve
    refine ⟨hcalm.guar,?_⟩
    cases r with
    | none =>
      refine upholds_ret ⟨hcalm.1,trivial⟩ stable_true.rely (fun h => ⟨h.1,fun rest hr => ?_⟩)
      cases hr
    | some pa =>
      refine (ih hcalm.1 (take_holds hs hh hserve)).bind (Rely.refl _) ?_
      rintro (err | rest) u ⟨hu,hrest⟩
      · refine upholds_ret ⟨hu,trivial⟩ stable_true.rely (fun h => ⟨h.1,fun rest hr => ?_⟩)
        cases hr
      · have hall := hrest rest rfl
        rw [List.append_assoc] at hall
        refine upholds_ret ⟨hu,hall⟩ stable_holds.rely (fun h => ⟨h.1,fun rest' hr => ?_⟩)
        cases hr
        exact h.2

/-- What a send knows of its attachments once its message is saved. -/
def Saved (uploads : ℕ → UploadRequest) (n : ℕ) (userID : UserID)
    (pendingAtts : List PendingAttachment) (id : MessageID) (s : Files) : Prop :=
  Holds uploads n userID pendingAtts s ∧ s.authors id = some userID

theorem stable_saved {userID : UserID} {pendingAtts : List PendingAttachment} {id : MessageID} :
    Stable uploads (.command n) (Saved uploads n userID pendingAtts id) :=
  fun hs h ht hg hk => ⟨stable_holds hs h.1 ht hg hk,hg.authors _ _ h.2⟩

theorem saveAttachments_upholds {s3Host : String} {userID owner : UserID} {msg : WsMessage}
    {pendingAtts : List PendingAttachment} (hs : Sound uploads s)
    (hh : Saved uploads n owner pendingAtts msg.id s) :
    CommandUpholds uploads n (fun _ t => Sound uploads t ∧ True) s
      (saveAttachments s3Host userID msg pendingAtts) := by
  unfold saveAttachments
  split
  · exact upholds_harmless trivial stable_true hs trivial
  · refine upholds_ask ⟨hs,hh⟩ stable_saved.rely ?_
    rintro s t r ⟨hs,hh,ha⟩ ⟨hserve,-⟩
    have hmoves : Sound uploads t ∧ Guar uploads (.command n) s t := by
      rcases r with err | _
      · rcases hserve with rfl | ⟨hid,rfl⟩
        · exact ⟨hs,(Calm.refl hs).guar⟩
        · have hm := hs.saveAttachments hh hid ha
          exact ⟨hm.1,fun _ => hm⟩
      · obtain ⟨hid,rfl⟩ := hserve
        have hm := hs.saveAttachments hh hid ha
        exact ⟨hm.1,fun _ => hm⟩
    refine ⟨hmoves.2,upholds_harmless ?_ stable_true hmoves.1 trivial⟩
    rcases r with err | _
    · exact harmless_ask (by simp [KeepsFiles]) (fun _ => trivial)
    · trivial

theorem resolveMentions_harmless (content : String) (authorID : UserID) (channelID : ChannelID)
    (recipientUserIDs : List UserID) :
    Harmless (resolveMentions content authorID channelID recipientUserIDs) := by
  refine harmless_ite (harmless_ask (by simp [KeepsFiles]) ?_) trivial
  rintro (err | (_ | _)) <;> trivial

theorem resolveReply_harmless (channelID : ChannelID) (replyToID : Option MessageID) :
    Harmless (resolveReply channelID replyToID) := by
  cases replyToID with
  | none => trivial
  | some replyToID =>
    refine harmless_ite trivial (harmless_ask (by simp [KeepsFiles]) ?_)
    rintro (err | (_ | rt))
    · trivial
    · trivial
    · exact harmless_ite trivial trivial

theorem saveMentions_harmless (messageID : MessageID) (mentioned : List UserID) :
    Harmless (saveMentions messageID mentioned) :=
  harmless_ite trivial (harmless_ask (by simp [KeepsFiles]) (fun _ => trivial))

theorem revealDM_harmless (s3Host : String) (channelID : ChannelID) (recipientUserIDs : List UserID)
    (createdAt : Time) : Harmless (revealDM s3Host channelID recipientUserIDs createdAt) := by
  have hnotify : ∀ userID peerID : UserID,
      Harmless (notifyDMOpened s3Host channelID createdAt userID peerID) := by
    intro userID peerID
    refine harmless_ask (by simp [KeepsFiles]) ?_
    rintro (err | (_ | peer)) <;> trivial
  refine harmless_ask (by simp [KeepsFiles]) ?_
  rintro (err | (_ | _))
  · trivial
  · trivial
  · refine harmless_ask (by simp [KeepsFiles]) ?_
    rintro (err | _)
    · trivial
    · rcases recipientUserIDs with _ | ⟨a,_ | ⟨b,_ | ⟨c,rest⟩⟩⟩
      · trivial
      · trivial
      · change Harmless (broadcastDMOpened s3Host channelID [a,b] createdAt)
        rw [broadcastDMOpened_two]
        exact (hnotify a b).bind (fun _ => hnotify b a)
      · trivial

theorem enqueuePush_harmless (channelID : ChannelID) (recipientUserIDs : List UserID)
    (msg : WsMessage) (replyTo : Option WsReplyTo) :
    Harmless (enqueuePush channelID recipientUserIDs msg replyTo) := by
  refine harmless_ask (by simp [KeepsFiles]) (fun pushSender => harmless_ite trivial ?_)
  refine harmless_ask (by simp [KeepsFiles]) ?_
  rintro (err | (_ | channel))
  · trivial
  · trivial
  · exact harmless_act (harmless_ask (by simp [KeepsFiles]) (fun online => trivial))

theorem enqueueEmbeds_harmless (recipientUserIDs : List UserID) (msg : WsMessage) :
    Harmless (enqueueEmbeds recipientUserIDs msg) :=
  harmless_ask (by simp [KeepsFiles]) (fun embedService => harmless_ite trivial trivial)

theorem deliverMessage_upholds {s3Host : String} {req : Request} {payload : WsSendMessageRequest}
    {replyTo : Option WsReplyTo} {pendingAtts : List PendingAttachment}
    {recipientUserIDs : List UserID} {user : User} (hs : Sound uploads s)
    (hh : Holds uploads n req.userID pendingAtts s) :
    CommandUpholds uploads n (fun _ _ => True) s
      (deliverMessage s3Host req payload replyTo pendingAtts recipientUserIDs user) := by
  refine upholds_then (resolveMentions_harmless _ _ _ _) stable_holds hs hh ?_
  rintro t ⟨mentioned,everyone⟩ ht hh
  refine upholds_asked (by simp [KeepsFiles]) stable_holds ht hh (fun createdAt hs hh => ?_)
  refine upholds_ask ⟨hs,hh⟩ stable_holds.rely ?_
  rintro s t r ⟨hs,hh⟩ ⟨hserve,-⟩
  have hcalm : Calm uploads s t := serve_calm hs (by simp [KeepsFiles]) hserve
  refine ⟨hcalm.guar,?_⟩
  rcases r with err | ⟨id,savedAt⟩
  · exact upholds_quietly trivial hcalm.1
  · have hsaved : Saved uploads n req.userID pendingAtts id t := by
      refine ⟨stable_holds.calm hs hh hcalm,?_⟩
      obtain ⟨-,rfl⟩ := hserve
      exact Function.update_self _ _ _
    refine upholds_then (saveMentions_harmless _ _) stable_saved hcalm.1 hsaved (fun _ hu hsaved => ?_)
    refine (saveAttachments_upholds hu hsaved).bind (Rely.refl _) ?_
    rintro (err | msg) v ⟨hv,-⟩
    · exact upholds_quietly trivial hv
    · refine upholds_quietly ((revealDM_harmless _ _ _ _).bind (fun _ => harmless_act ?_)) hv
      refine (enqueuePush_harmless _ _ _ _).bind (fun _ => ?_)
      exact (enqueueEmbeds_harmless _ _).bind (fun _ => trivial)

theorem sendChecked_upholds {s3Host : String} {req : Request} {payload : WsSendMessageRequest}
    (hs : Sound uploads s) :
    CommandUpholds uploads n (fun _ _ => True) s (sendChecked s3Host req payload) := by
  refine upholds_asked (by simp [KeepsFiles]) stable_true hs trivial ?_
  rintro t (err | (_ | _)) ht -
  · exact upholds_quietly trivial ht
  · exact upholds_quietly trivial ht
  · refine upholds_then (resolveReply_harmless _ _) stable_true ht trivial ?_
    rintro s (err | replyTo) hs -
    · exact upholds_quietly trivial hs
    · dsimp only
      split
      · exact upholds_quietly trivial hs
      · have hnone : Holds uploads n req.userID [] s := ⟨List.nodup_nil,fun _ hm => by cases hm⟩
        refine (takeAttachments_holds _ hs hnone).bind (Rely.refl _) ?_
        rintro (err | pendingAtts) t ⟨ht,hheld⟩
        · exact upholds_quietly trivial ht
        · refine upholds_asked (by simp [KeepsFiles]) stable_holds ht (hheld _ rfl) ?_
          rintro s (err | recipientUserIDs) hs hh
          · exact upholds_quietly trivial hs
          · refine upholds_asked (by simp [KeepsFiles]) stable_holds hs hh ?_
            rintro t (err | (_ | user)) ht hh
            · exact upholds_quietly trivial ht
            · exact upholds_quietly trivial ht
            · exact deliverMessage_upholds ht hh

theorem sendMessage_upholds {s3Host : String} {req : Request}
    {payload : Option WsSendMessageRequest} (hs : Sound uploads s) :
    CommandUpholds uploads n (fun _ _ => True) s (sendMessage s3Host req payload) := by
  refine upholds_asked (by simp [KeepsFiles]) stable_true hs trivial (fun {t} allowed ht _ => ?_)
  dsimp only
  split
  · exact upholds_quietly trivial ht
  · cases payload with
    | none => exact upholds_quietly trivial ht
    | some payload =>
      dsimp only
      split
      · exact upholds_quietly trivial ht
      · split
        · exact upholds_quietly trivial ht
        · split
          · exact upholds_quietly trivial ht
          · exact sendChecked_upholds ht

/-- The objects are deleted once their message is gone. -/
theorem deleteMessage_upholds {req : Request} {payload : Option MessageID} (hs : Sound uploads s) :
    CommandUpholds uploads n (fun _ _ => True) s (deleteMessage req payload) := by
  cases payload with
  | none => exact upholds_quietly trivial hs
  | some messageID =>
    unfold deleteMessage
    dsimp only
    split
    · exact upholds_quietly trivial hs
    · refine upholds_ask ⟨hs,trivial⟩ stable_true.rely ?_
      rintro s t r ⟨hs,-⟩ ⟨hserve,-⟩
      have hcalm : Calm uploads s t := serve_calm hs (by simp [KeepsFiles]) hserve
      refine ⟨hcalm.guar,?_⟩
      rcases r with err | fileKeys
      · exact upholds_quietly trivial hcalm.1
      · have hdead : Dead fileKeys t := by
          obtain ⟨-,hkeys,rfl⟩ := hserve
          refine fun k hk => ⟨messageID,hkeys k hk,fun hm => ?_⟩
          obtain ⟨u,hu⟩ := Finmap.mem_iff.mp hm
          rw [Files.deleteMessages,GoMap.lookup_filter,Option.filter_eq_some_iff] at hu
          simp at hu
        refine upholds_ask ⟨hcalm.1,hdead⟩ stable_dead.rely ?_
        rintro s t r ⟨hs,hdead⟩ ⟨hserve,-⟩
        have hcalm : Calm uploads s t := by
          rcases r with err | _
          · obtain ⟨gone,hgone,rfl⟩ := hserve
            exact hs.deleteObjects (fun k hk => hdead k (hgone hk))
          · obtain rfl := hserve
            exact hs.deleteObjects hdead
        refine ⟨hcalm.guar,upholds_quietly ?_ hcalm.1⟩
        rcases r with err | _ <;> trivial

end Commands

section Requests
variable {B : Type} {n : ℕ} {Q : Files → Prop} {post : B → Files → Prop}

variable (uploads) in
abbrev UploadUpholds (n : ℕ) (post : B → Files → Prop) : Files → UploadM B → Prop :=
  Upholds ((uploadWorld n).within PutOnce) (Rely uploads (.upload n)) (Guar uploads (.upload n)) post

/-- The call puts no object, and writes no folder key that is not a UUID. -/
def Quiet : UploadCall → Prop
  | .updateAttachmentFolderKey _ newKey => newKey.toList.length = 36
  | .putAttachment _ _ _ _ _ => False
  | .setPendingAttachment _ _ => False
  | _ => True

theorem serveUpload_calm {c : UploadCall} {r : c.Answer} (hs : Sound uploads s) (hc : Quiet c)
    (h : (uploadWorld n).serve s c r t) : Calm uploads s t := by
  cases c with
  | readAll limit =>
    rcases r with err | raw
    · cases h
      exact Calm.refl hs
    · obtain ⟨-,rfl⟩ := h
      exact Calm.refl hs
  | selectAttachmentFolderKey userID =>
    rcases r with err | folderKey
    · cases h
      exact Calm.refl hs
    · obtain ⟨-,rfl⟩ := h
      exact Calm.refl hs
  | updateAttachmentFolderKey userID newKey =>
    rcases r with err | _
    · rcases h with rfl | rfl
      · exact Calm.refl hs
      · exact hs.updateFolderKey userID hc
    · obtain rfl := h
      exact hs.updateFolderKey userID hc
  | newString =>
    obtain ⟨-,rfl⟩ := h
    exact Calm.refl hs
  | putAttachment => exact hc.elim
  | addAttachmentID =>
    obtain ⟨-,rfl⟩ := h
    exact hs.addAttachmentID _
  | setPendingAttachment => exact hc.elim
  | _ => cases h; exact Calm.refl hs

theorem upload_asked {c : UploadCall} {f : c.Answer → UploadM B} (hc : Quiet c)
    (hQ : Stable uploads (.upload n) Q) (hs : Sound uploads s) (hq : Q s)
    (h : ∀ {s t r}, Sound uploads s → Sound uploads t → Q t → (uploadWorld n).serve s c r t →
      UploadUpholds uploads n post t (f r)) :
    UploadUpholds uploads n post s (call c >>= f) := by
  refine upholds_ask ⟨hs,hq⟩ hQ.rely (fun h' hserve => ?_)
  have hcalm := serveUpload_calm h'.1 hc hserve.1
  exact ⟨hcalm.guar,h h'.1 hcalm.1 (hQ.calm h'.1 h'.2 hcalm) hserve.1⟩

theorem upload_logged {a : UploadAct} {f : Unit → UploadM B} (hs : Sound uploads s)
    (h : ∀ {t}, Sound uploads t → UploadUpholds uploads n post t (f ())) :
    UploadUpholds uploads n post s (perform a >>= f) :=
  upholds_act ⟨hs,trivial⟩ stable_true.rely (fun h' => ⟨(Calm.refl h'.1).guar,h h'.1⟩)

theorem upload_ret {b : B} (hs : Sound uploads s) :
    UploadUpholds uploads n (fun _ _ => True) s (.ret b) :=
  upholds_ret ⟨hs,trivial⟩ stable_true.rely (fun _ => trivial)

/-- Every folder key is a UUID. -/
theorem getOrCreateAttachmentFolderKey_upholds (userID : UserID) (hs : Sound uploads s) :
    UploadUpholds uploads n (fun r t => Sound uploads t ∧ ∀ k, r = .ok k → k.toList.length = 36) s
      (getOrCreateAttachmentFolderKey userID) := by
  have hret : ∀ {s : Files} {r : Except GoError String}, Sound uploads s →
      (∀ k, r = .ok k → k.toList.length = 36) → UploadUpholds uploads n
        (fun r t => Sound uploads t ∧ ∀ k, r = .ok k → k.toList.length = 36) s (.ret r) :=
    fun hs hr => upholds_ret ⟨hs,trivial⟩ stable_true.rely (fun h => ⟨h.1,hr⟩)
  refine upload_asked trivial stable_true hs trivial ?_
  rintro s t (err | folderKey) hs ht - hserve
  · exact hret ht (fun k hk => by cases hk)
  · dsimp only
    cases hk : folderKey.filter (· ≠ "") with
    | some k =>
      refine hret ht (fun k' hk' => ?_)
      cases hk'
      obtain ⟨rfl,-⟩ := hserve
      exact hs.folder userID k (Option.filter_eq_some_iff.mp hk).1
    | none =>
      refine upload_asked trivial stable_true ht trivial ?_
      rintro s t newKey hs ht - ⟨hlen,-⟩
      refine upload_asked hlen stable_true ht trivial ?_
      rintro s t (err | _) hs ht - -
      · exact hret ht (fun k hk => by cases hk)
      · refine upload_logged ht (fun hu => hret hu (fun k hk => ?_))
        cases hk
        exact hlen

/-- The request holds the object it put. -/
def Put (n : ℕ) (key : String) (file : File) (s : Files) : Prop :=
  s.place key = .stored n ∧ s.files key = some file

theorem stable_put {key : String} {file : File} : Stable uploads (.upload n) (Put n key file) := by
  rintro s t - ⟨hp,hf⟩ - hg hk
  exact ⟨(hk key (by rw [hp]; rfl)).trans hp,hg.files _ _ hf⟩

theorem storePendingAttachment_upholds {pa : PendingAttachment} {file : File}
    (hs : Sound uploads s) (hput : Put n pa.fileKey file s)
    (hup : ∀ s, s.files pa.fileKey = some file →
      Uploaded uploads s pa.userID pa.fileKey pa.fileName pa.contentType pa.sizeBytes) :
    UploadUpholds uploads n (fun _ t => Sound uploads t ∧ True) s (storePendingAttachment pa) := by
  refine upload_asked trivial stable_put hs hput (fun {_ t id} _ ht hput _ => ?_)
  refine upholds_ask ⟨ht,hput⟩ stable_put.rely ?_
  rintro s t r ⟨hs,hput⟩ ⟨hserve,-⟩
  have hmoves : Moves uploads (.upload n) s t := by
    obtain rfl := hserve
    exact hs.setPending hput.1 (hup s hput.2)
  exact ⟨fun _ => hmoves,upholds_ret ⟨hmoves.1,trivial⟩ stable_true.rely (fun h => h)⟩

theorem length_take_uuid {uuid : String} (h : uuid.toList.length = 36) :
    (String.ofList (uuid.toList.take 8)).toList.length = 8 := by
  rw [String.toList_ofList,List.length_take,h]
  rfl

theorem storeUpload_upholds {clientID : UserID} {filename : String} {raw : List UInt8}
    (hs : Sound uploads s) (hclient : (uploads n).clientID = some clientID) :
    UploadUpholds uploads n (fun _ _ => True) s (storeUpload clientID filename raw) := by
  refine upload_asked trivial stable_true hs trivial (fun {_ t contentType} _ ht _ _ => ?_)
  dsimp only
  split
  · exact upload_ret ht
  · refine (getOrCreateAttachmentFolderKey_upholds _ ht).bind (Rely.refl _) ?_
    rintro (err | folderKey) s ⟨hs,hfolder⟩
    · exact upload_logged hs upload_ret
    · refine upload_asked trivial stable_true hs trivial ?_
      rintro s t uuid hs ht - ⟨hlen,-⟩
      have hsuffix := length_take_uuid hlen
      generalize String.ofList (uuid.toList.take 8) = fileSuffix at hsuffix ⊢
      refine upholds_ask ⟨ht,trivial⟩ stable_true.rely ?_
      rintro s t r ⟨hs,-⟩ ⟨hserve,honce⟩
      -- A key that was put before would now be among the puts twice.
      have hcalm : t = s.putAttachment n folderKey raw filename contentType fileSuffix →
          Calm uploads s t := by
        rintro rfl
        have hnew := (List.nodup_append.mp honce).2.2
        refine hs.putAttachment (hfolder _ rfl) hsuffix (fun hm => ?_)
        exact hnew _ hm _ (List.mem_singleton_self _) rfl
      rcases r with err | url
      · have hcalm : Calm uploads s t := by
          rcases hserve with rfl | ht
          · exact Calm.refl hs
          · exact hcalm ht
        exact ⟨hcalm.guar,upload_logged hcalm.1 upload_ret⟩
      · have hput : Put n (attachmentKey folderKey fileSuffix filename)
            ⟨n,filename,contentType,raw⟩ t := by
          obtain rfl := hserve
          exact ⟨Function.update_self _ _ _,Function.update_self _ _ _⟩
        refine ⟨(hcalm hserve).guar,?_⟩
        refine (storePendingAttachment_upholds (hcalm hserve).1 hput ?_).bind (Rely.refl _) ?_
        · exact fun s hf => ⟨_,hf,hclient,rfl,rfl,rfl⟩
        · rintro attachmentID u ⟨hu,-⟩
          exact upload_ret hu

theorem handleUpload_upholds (n : ℕ) (hs : Sound uploads s) :
    UploadUpholds uploads n (fun _ _ => True) s (handleUpload (uploads n)) := by
  unfold handleUpload
  cases hclient : (uploads n).clientID with
  | none => exact upload_ret hs
  | some clientID =>
    dsimp only
    split
    · exact upload_ret hs
    · cases (uploads n).file with
      | none => exact upload_ret hs
      | some file =>
        dsimp only
        split
        · exact upload_ret hs
        · split
          · exact upload_ret hs
          · refine upload_asked trivial stable_true hs trivial ?_
            rintro s t (err | _) hs ht - -
            · exact upload_logged ht upload_ret
            · refine upload_asked trivial stable_true ht trivial ?_
              rintro s t (err | raw) hs ht - -
              · exact upload_logged ht upload_ret
              · dsimp only
                split
                · exact upload_ret ht
                · exact storeUpload_upholds ht hclient

end Requests

end MiniDiscord.Uploads
