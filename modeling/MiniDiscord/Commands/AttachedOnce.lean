import MiniDiscord.Commands.SendAtomic
import MiniDiscord.Commands.UploadPrograms

/-! # Every attachment is its author's upload

In every run of requests and commands side by side, as long as no key was put twice: no file
is attached twice, and every attachment row stands for what its author uploaded.
-/
namespace MiniDiscord.Uploads
open SfuTrack ChatHub Effects Program

variable {uploads : ℕ → UploadRequest} {s t : Files}

theorem sound_start : Sound uploads start where
  folder _ _ h := by cases h
  wellFormed _ h := by cases h
  put _ h := absurd rfl h
  recorded _ _ h := by cases h
  attached _ _ h := by cases h
  authors _ _ h := by cases h
  messages _ _ h := by cases h
  pending _ _ h := by cases h
  once := List.nodup_nil
  row _ h := by cases h
  object _ _ h := by cases h

theorem env_calm (hs : Sound uploads s) (h : Files.env s t) : Calm uploads s t := by
  rcases h with rfl | ⟨gone,rfl⟩
  · exact hs.restart
  · exact hs.deleteMessages gone

theorem command_puts {n : ℕ} {c : Call} {r : c.Answer} (h : (commandWorld n).serve s c r t) :
    t.puts = s.puts := by
  cases c with
  | takePendingAttachment id userID =>
    obtain rfl := congrArg Prod.snd h
    unfold Files.takePendingAttachment
    split
    · rfl
    · split <;> rfl
  | saveMessage msg =>
    rcases r with err | ⟨id,createdAt⟩
    · rcases h with rfl | ⟨id,-,rfl⟩ <;> rfl
    · obtain ⟨-,rfl⟩ := h
      rfl
  | saveMessageAttachments id attachments =>
    rcases r with err | _
    · rcases h with rfl | ⟨-,rfl⟩ <;> rfl
    · obtain ⟨-,rfl⟩ := h
      rfl
  | deleteMessage id userID =>
    rcases r with err | fileKeys
    · rcases h with rfl | ⟨-,rfl⟩ <;> rfl
    · obtain ⟨-,-,rfl⟩ := h
      rfl
  | deleteServer =>
    obtain ⟨gone,rfl⟩ := h
    rfl
  | deleteChannel =>
    obtain ⟨gone,rfl⟩ := h
    rfl
  | deleteAttachment keys =>
    rcases r with err | _
    · obtain ⟨gone,-,rfl⟩ := h
      rfl
    · cases h
      rfl
  | _ => cases h; rfl

theorem upload_puts {n : ℕ} {c : UploadCall} {r : c.Answer} (h : (uploadWorld n).serve s c r t) :
    s.puts <+: t.puts := by
  cases c with
  | readAll limit =>
    rcases r with err | raw
    · cases h
      exact List.prefix_rfl
    · obtain ⟨-,rfl⟩ := h
      exact List.prefix_rfl
  | selectAttachmentFolderKey userID =>
    rcases r with err | folderKey
    · cases h
      exact List.prefix_rfl
    · obtain ⟨-,rfl⟩ := h
      exact List.prefix_rfl
  | updateAttachmentFolderKey userID newKey =>
    rcases r with err | _
    · rcases h with rfl | rfl <;> exact List.prefix_rfl
    · cases h
      exact List.prefix_rfl
  | newString =>
    obtain ⟨-,rfl⟩ := h
    exact List.prefix_rfl
  | putAttachment key data filename contentType uniqueSuffix =>
    rcases r with err | url
    · rcases h with rfl | rfl
      · exact List.prefix_rfl
      · exact List.prefix_append _ _
    · cases h
      exact List.prefix_append _ _
  | addAttachmentID =>
    obtain ⟨-,rfl⟩ := h
    exact List.prefix_rfl
  | _ => cases h; exact List.prefix_rfl

/-- The puts are never forgotten. -/
theorem serve_puts {i : Member} {c : i.Call} {r : Member.Answer i c} (h : (world i).serve s c r t) :
    s.puts <+: t.puts := by
  cases i with
  | command n =>
    rw [command_puts h]
  | upload n => exact upload_puts h

theorem opened_upholds (s3Host : String) (commands : ℕ → Request × Command) (i : Member) :
    Upholds ((world i).within PutOnce) (Rely uploads i) (Guar uploads i) (fun _ _ => True) start
      ((opened s3Host commands uploads).left i) := by
  cases i with
  | command n =>
    change CommandUpholds uploads n (fun _ _ => True) start
      (handleCommand s3Host (commands n).1 (commands n).2)
    cases hm : Command.movesFiles (commands n).2 with
    | false => exact upholds_quietly (handleCommand_harmless _ _ hm) sound_start
    | true =>
      cases hc : (commands n).2 with
      | sendMessage payload => exact sendMessage_upholds sound_start
      | deleteMessage payload => exact deleteMessage_upholds sound_start
      | _ => rw [hc] at hm; cases hm
  | upload n => exact handleUpload_upholds n sound_start

theorem reaches_sound {s3Host : String} {commands : ℕ → Request × Command} {p : FilePool}
    (h : Pool.Reaches world Files.env (opened s3Host commands uploads) p) (honce : PutOnce p.shared) :
    Sound uploads p.shared := by
  obtain ⟨-,hr⟩ := h.within honce
    (fun {s t} he ht => by
      rcases he with rfl | ⟨gone,rfl⟩ <;> exact ht)
    (fun hs ht => ht.sublist (serve_puts hs).sublist)
    (fun {i s a} ht => by cases i <;> exact ht)
  obtain ⟨-,hmoves⟩ := hr.upholds Rely.refl Rely.trans
    (fun he hs => ⟨(env_calm hs he.1).1,(env_calm hs he.1).2.1,(env_calm hs he.1).2.2 _⟩)
    (fun hij hg hs => ⟨(hg hs).1,(hg hs).2.1,(hg hs).2.2 _ hij.symm⟩)
    (opened_upholds s3Host commands)
  generalize p.shared = t at hmoves
  induction hmoves with
  | refl => exact sound_start
  | tail _ hm ih =>
    rcases hm with he | ⟨i,hg⟩
    · exact (env_calm ih he.1).1
    · exact (hg ih).1

section Runs
variable {s3Host : String} {commands : ℕ → Request × Command} {p : FilePool}

/-- In every run of any commands and upload requests, side by side, no file is attached twice,
and none that is attached is still pending. -/
theorem attached_once (h : Pool.Reaches world Files.env (opened s3Host commands uploads) p)
    (honce : PutOnce p.shared) :
    (p.shared.attachments.map AttachmentRow.fileKey).Nodup ∧
      ∀ a ∈ p.shared.attachments, ∀ id pa, p.shared.pendingAttachments.lookup id = some pa →
        pa.fileKey ≠ a.fileKey := by
  have hs := reaches_sound h honce
  refine ⟨hs.once,fun a ha id pa hpa he => ?_⟩
  have hp := (hs.pending id pa hpa).1
  rw [he,(hs.row a ha).1] at hp
  cases hp

/-- Every attachment row of every message is what the author of the message uploaded, and its
object is in the object store as it was uploaded. -/
theorem attachment_stands (h : Pool.Reaches world Files.env (opened s3Host commands uploads) p)
    (honce : PutOnce p.shared) {a : AttachmentRow} (ha : a ∈ p.shared.attachments) :
    ∃ author f, p.shared.messages.lookup a.messageID = some author ∧
      p.shared.files a.fileKey = some f ∧ (uploads f.upload).clientID = some author ∧
      a.fileName = f.filename ∧ a.contentType = f.contentType ∧ a.sizeBytes = f.data.length ∧
      p.shared.objects.lookup a.fileKey = some f.data := by
  have hs := reaches_sound h honce
  obtain ⟨hp,author,hm,f,hf,hclient,hname,htype,hsize⟩ := hs.row a ha
  refine ⟨author,f,hm,hf,hclient,hname,htype,hsize,hs.object _ f hf ⟨hs.recorded _ f hf,?_⟩⟩
  intro m hm'
  rw [hp] at hm'
  cases hm'
  exact Finmap.mem_iff.mpr ⟨author,hm⟩

end Runs

/-! A user uploads a file and sends it. -/

def photo : UploadRequest := ⟨some 1,some ⟨String.ofList ['a','.','p','n','g'],3⟩⟩

def folder : String := String.ofList (List.replicate 36 'f')
def suffix : String := String.ofList (List.replicate 8 '0')

def waiting : PendingAttachment :=
  ⟨1,1,folder,attachmentKey folder suffix (String.ofList ['a','.','p','n','g']),
    String.ofList ['a','.','p','n','g'],"image/png",([1,2,3] : List UInt8).length⟩

def stored : Files :=
  ({ start with folderKeys := start.folderKeys.insert 1 folder }).putAttachment 0 folder
    [1,2,3] (String.ofList ['a','.','p','n','g']) "image/png" suffix

def storedPending : Files := ({ stored with nextAttachmentID := 1 }).setPendingAttachment 1 waiting

def photoSteps : List (Entry UploadCall UploadCall.Answer UploadAct) :=
  [.asked .openFile (.ok ()),.asked (.readAll (maxUploadSizeBytes + 1)) (.ok [1,2,3]),
    .asked (.detectContentType [1,2,3]) "image/png",
    .asked (.selectAttachmentFolderKey 1) (.ok none),.asked .newString folder,
    .asked (.updateAttachmentFolderKey 1 folder) (.ok ()),.did (.deleteUserFromCache 1),
    .asked .newString (String.ofList (List.replicate 36 '0')),
    .asked (.putAttachment folder [1,2,3] (String.ofList ['a','.','p','n','g']) "image/png" suffix)
      (.ok ""),
    .asked .addAttachmentID 1,.asked (.setPendingAttachment 1 waiting) ()]

theorem photo_path : Path (handleUpload photo) photoSteps (some (.ok ⟨1,""⟩)) := by
  have hext : String.ofList ((ext (String.ofList ['a','.','p','n','g'])).map toLower) = ".png" := by
    simp only [ext,String.toList_ofList]
    rfl
  have hsuffix : String.ofList ((String.ofList (List.replicate 36 '0')).toList.take 8) = suffix := by
    rw [String.toList_ofList]
    rfl
  unfold handleUpload
  dsimp only [photo]
  rw [if_neg (by decide),if_neg (by decide),if_neg (by rw [hext]; decide)]
  refine path_call _ (path_call _ ?_)
  dsimp only
  rw [if_neg (by decide)]
  refine path_call _ ?_
  rw [if_neg (by decide)]
  refine path_call _ (path_call _ (path_call _ (.act (path_call _ ?_))))
  rw [hsuffix]
  exact path_call _ (path_call _ (path_call _ (.ret _)))

theorem length_uuid (c : Char) : (String.ofList (List.replicate 36 c)).toList.length = 36 := by
  rw [String.toList_ofList,List.length_replicate]

theorem photo_served : (uploadWorld 0).Served start photoSteps storedPending := by
  refine .asked rfl (.asked ⟨by decide,rfl⟩ (.asked rfl (.asked ⟨rfl,rfl⟩ ?_)))
  refine .asked ⟨length_uuid _,rfl⟩ (.asked rfl (.did (.asked ⟨?_,rfl⟩ ?_)))
  · exact length_uuid _
  · exact .asked rfl (.asked ⟨rfl,rfl⟩ (.asked rfl (.nil _)))

/-- The upload attached to the first message. -/
def sent : Files :=
  ((storedPending.takePendingAttachment 0 1 1).2.saveMessage 1 1).saveMessageAttachments 1
    [attachmentOf 1 waiting]

def photoMessage : WsSendMessageRequest := ⟨2,"",[1],none⟩

def unsaved : WsMessage :=
  ⟨0,2,1,"","","",avatarURLFromKey "" "",if "" = "" then " " else "",[],none,none,[],false,[],0,none⟩

def sendSteps : List (Entry Call Call.Answer Act) :=
  [.asked (.allow .sendMessage 1) true,.asked (.canUserAccessChannel 1 2) (.ok true),
    .asked (.takePendingAttachment 1 1) (some waiting),
    .asked (.listChannelMemberUserIDs 2) (.ok []),
    .asked (.getUserByID 1) (.ok (some ⟨1,"","","","","",false⟩)),.asked .now 0,
    .asked (.saveMessage unsaved) (.ok (1,0)),
    .asked (.saveMessageAttachments 1 [attachmentOf 1 waiting]) (.error (.other "timeout")),
    .asked (.deleteMessage 1 1) (.error (.other "timeout")),
    .did (.pushEvent { event := .error, error := "failed to save attachments" })]

theorem photo_sent : Path (sendMessage "" ⟨1,""⟩ (some photoMessage)) sendSteps (some ()) := by
  refine path_checked (by decide) (by decide) (by rw [photoMessage,trimSpace_empty]; decide) ?_
  have hmentions : resolveMentions "" 1 2 [] = .ret ([],false) := by
    unfold resolveMentions
    rw [if_neg (by decide)]
    rfl
  rw [photoMessage,trimSpace_empty]
  refine path_call _ (path_call _ ?_)
  refine path_call _ (path_call _ ?_)
  change Path (deliverMessage "" ⟨1,""⟩ ⟨2,"",[1],none⟩ none [waiting] [] ⟨1,"","","","","",false⟩) _ _
  unfold deliverMessage
  dsimp only
  rw [hmentions]
  refine path_call _ (path_call _ ?_)
  exact path_call _ (path_call _ (.act (.ret ())))

theorem photo_sent_served : (commandWorld 0).Served storedPending sendSteps sent := by
  refine .asked rfl (.asked rfl (.asked rfl (.asked rfl (.asked rfl (.asked rfl ?_)))))
  refine .asked ⟨le_rfl,rfl⟩ (.asked (Or.inr ⟨?_,rfl⟩) (.asked (Or.inl rfl) (.did (.nil _))))
  exact Finmap.mem_insert.mpr (Or.inl rfl)

/-- One upload, then one send whose saving times out after it was done. -/
def uploadedAndSent : FilePool :=
  opened "" (fun _ => (⟨1,""⟩,.sendMessage (some photoMessage))) (fun _ => photo)

theorem photo_reached : ∃ p, Pool.Reaches world Files.env uploadedAndSent p ∧ p.shared = sent := by
  have hupload : ∃ rest, Pool.Reaches world Files.env uploadedAndSent
      ⟨storedPending,Function.update uploadedAndSent.left (.upload 0) rest⟩ :=
    Pool.reaches_served photo_path photo_served
  obtain ⟨rest,hupload⟩ := hupload
  have hsend : ∃ rest', Pool.Reaches world Files.env
      ⟨storedPending,Function.update uploadedAndSent.left (.upload 0) rest⟩
      ⟨sent,Function.update (Function.update uploadedAndSent.left (.upload 0) rest) (.command 0) rest'⟩ :=
    Pool.reaches_served photo_sent photo_sent_served
  obtain ⟨rest',hsend⟩ := hsend
  exact ⟨_,hupload.trans hsend,rfl⟩

theorem sent_putOnce : PutOnce sent := List.nodup_singleton _

theorem attached_once_sent : ∃ p, Pool.Reaches world Files.env uploadedAndSent p ∧
    p.shared.attachments.length = 1 ∧ (p.shared.attachments.map AttachmentRow.fileKey).Nodup := by
  obtain ⟨p,hr,hp⟩ := photo_reached
  refine ⟨p,hr,?_,(attached_once hr ?_).1⟩
  · rw [hp]
    rfl
  · rw [hp]
    exact sent_putOnce

theorem attachment_stands_sent : ∃ p, Pool.Reaches world Files.env uploadedAndSent p ∧
    ∃ a ∈ p.shared.attachments, ∃ author f, p.shared.messages.lookup a.messageID = some author ∧
      photo.clientID = some author ∧ p.shared.objects.lookup a.fileKey = some f := by
  obtain ⟨p,hr,hp⟩ := photo_reached
  have ha : Files.attachmentRow 1 (attachmentOf 1 waiting) ∈ p.shared.attachments := by
    rw [hp]
    exact List.mem_singleton_self _
  obtain ⟨author,f,hm,-,hc,-,-,-,ho⟩ := attachment_stands hr (by rw [hp]; exact sent_putOnce) ha
  exact ⟨p,hr,_,ha,author,f.data,hm,hc,ho⟩

end MiniDiscord.Uploads
