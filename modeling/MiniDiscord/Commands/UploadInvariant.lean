import Mathlib.Data.List.Nodup
import MiniDiscord.Commands.Uploads

/-! # Where every uploaded file is

What a member of the pool holds, only that member moves. The invariant says where a file is,
and what each call does to it is proved once.
-/
namespace MiniDiscord.Uploads
open SfuTrack ChatHub Effects Program

/-! ## The invariant -/

/-- The member that a key is in the hands of. -/
def Place.holder : Place → Option Member
  | .stored n => some (.upload n)
  | .taken n => some (.command n)
  | _ => none

/-- The key is held, pending, or attached to a message that exists. -/
def Files.Alive (s : Files) (k : String) : Prop :=
  s.place k ≠ .nowhere ∧ ∀ m, s.place k = .attached m → m ∈ s.messages

/-- What is known of a file is what its uploader put. -/
def Uploaded (uploads : ℕ → UploadRequest) (s : Files) (userID : UserID)
    (fileKey fileName contentType : String) (sizeBytes : Int) : Prop :=
  ∃ f, s.files fileKey = some f ∧ (uploads f.upload).clientID = some userID ∧
    fileName = f.filename ∧ contentType = f.contentType ∧ sizeBytes = f.data.length

def keyOf (put : String × String × String) : String := attachmentKey put.1 put.2.1 put.2.2

structure Sound (uploads : ℕ → UploadRequest) (s : Files) : Prop where
  folder : ∀ u k, s.folderKeys.lookup u = some k → k.toList.length = 36
  wellFormed : ∀ x ∈ s.puts, x.1.toList.length = 36 ∧ x.2.1.toList.length = 8
  put : ∀ k, s.place k ≠ .nowhere → k ∈ s.puts.map keyOf
  recorded : ∀ k f, s.files k = some f → s.place k ≠ .nowhere
  attached : ∀ k m, s.place k = .attached m → m < s.nextMessageID
  authors : ∀ m u, s.authors m = some u → m < s.nextMessageID
  messages : ∀ m u, s.messages.lookup m = some u → s.authors m = some u
  pending : ∀ id pa, s.pendingAttachments.lookup id = some pa → s.place pa.fileKey = .pending id ∧
    Uploaded uploads s pa.userID pa.fileKey pa.fileName pa.contentType pa.sizeBytes
  once : (s.attachments.map AttachmentRow.fileKey).Nodup
  row : ∀ a ∈ s.attachments, s.place a.fileKey = .attached a.messageID ∧
    ∃ u, s.messages.lookup a.messageID = some u ∧
      Uploaded uploads s u a.fileKey a.fileName a.contentType a.sizeBytes
  object : ∀ k f, s.files k = some f → s.Alive k → s.objects.lookup k = some f.data

/-- What no step takes back. -/
structure Grows (s t : Files) : Prop where
  attached : ∀ k m, s.place k = .attached m → t.place k = .attached m
  files : ∀ k f, s.files k = some f → t.files k = some f
  next : s.nextMessageID ≤ t.nextMessageID
  messages : ∀ m ∈ t.messages, m ∈ s.messages ∨ s.nextMessageID ≤ m
  authors : ∀ m u, s.authors m = some u → t.authors m = some u

/-- What the member holds is where it was. -/
def Spares (i : Member) (s t : Files) : Prop :=
  ∀ k, (s.place k).holder = some i → t.place k = s.place k

variable {uploads : ℕ → UploadRequest} {s t u : Files} {i : Member}

theorem Grows.refl (s : Files) : Grows s s :=
  ⟨fun _ _ => id,fun _ _ => id,le_rfl,fun _ => .inl,fun _ _ => id⟩

theorem Grows.trans (h : Grows s t) (h' : Grows t u) : Grows s u where
  attached k m hk := h'.attached k m (h.attached k m hk)
  files k f hk := h'.files k f (h.files k f hk)
  next := h.next.trans h'.next
  messages m hm := (h'.messages m hm).elim (h.messages m) (fun hn => .inr (h.next.trans hn))
  authors m v hm := h'.authors m v (h.authors m v hm)

theorem Spares.trans (h : Spares i s t) (h' : Spares i t u) : Spares i s u := by
  intro k hk
  have ht := h k hk
  exact (h' k (by rw [ht]; exact hk)).trans ht

variable (uploads) in
/-- What a member relies on, and what it makes sure of. -/
def Rely (i : Member) (s t : Files) : Prop :=
  Sound uploads s → Sound uploads t ∧ Grows s t ∧ Spares i s t

variable (uploads) in
def Guar (i : Member) (s t : Files) : Prop :=
  Sound uploads s → Sound uploads t ∧ Grows s t ∧ ∀ j ≠ i, Spares j s t

variable (uploads) in
/-- A move of things that the member holds, or nobody. -/
def Moves (i : Member) (s t : Files) : Prop :=
  Sound uploads t ∧ Grows s t ∧ ∀ j ≠ i, Spares j s t

variable (uploads) in
/-- A move that takes from nobody. -/
def Calm (s t : Files) : Prop := Sound uploads t ∧ Grows s t ∧ ∀ j, Spares j s t

theorem Rely.refl (i : Member) (s : Files) : Rely uploads i s s :=
  fun hs => ⟨hs,.refl s,fun _ _ => rfl⟩

theorem Rely.trans (h : Rely uploads i s t) (h' : Rely uploads i t u) : Rely uploads i s u := by
  intro hs
  obtain ⟨ht,hg,hk⟩ := h hs
  obtain ⟨hu,hg',hk'⟩ := h' ht
  exact ⟨hu,hg.trans hg',hk.trans hk'⟩

theorem Calm.refl (hs : Sound uploads s) : Calm uploads s s := ⟨hs,.refl s,fun _ _ _ => rfl⟩

theorem Calm.guar (h : Calm uploads s t) : Guar uploads i s t :=
  fun _ => ⟨h.1,h.2.1,fun j _ => h.2.2 j⟩

theorem Uploaded.grows {userID : UserID} {fileKey fileName contentType : String} {sizeBytes : Int}
    (h : Uploaded uploads s userID fileKey fileName contentType sizeBytes) (hg : Grows s t) :
    Uploaded uploads t userID fileKey fileName contentType sizeBytes :=
  let ⟨f,hf,hrest⟩ := h
  ⟨f,hg.files _ _ hf,hrest⟩

/-! ## What each call does to the invariant -/

/-- A key that is held or pending comes to be held by another, or pending. -/
theorem Sound.move (hs : Sound uploads s) {key : String} {p : Place}
    {pendingAttachments : GoMap Int PendingAttachment}
    (hfrom : ∀ m, s.place key ≠ .attached m) (hput : s.place key ≠ .nowhere)
    (hto : ∀ m, p ≠ .attached m) (hp : p ≠ .nowhere)
    (hpending : ∀ id pa, pendingAttachments.lookup id = some pa →
      Function.update s.place key p pa.fileKey = .pending id ∧
        Uploaded uploads s pa.userID pa.fileKey pa.fileName pa.contentType pa.sizeBytes) :
    Sound uploads { s with
      pendingAttachments := pendingAttachments, place := Function.update s.place key p } ∧
    Grows s { s with
      pendingAttachments := pendingAttachments, place := Function.update s.place key p } ∧
    ∀ j, (s.place key).holder ≠ some j → Spares j s { s with
      pendingAttachments := pendingAttachments, place := Function.update s.place key p } := by
  have hattached : ∀ k m, Function.update s.place key p k = .attached m ↔ s.place k = .attached m := by
    intro k m
    by_cases hk : k = key
    · rw [hk,Function.update_self]
      exact iff_of_false (hto m) (hfrom m)
    · rw [Function.update_of_ne hk]
  have hnowhere : ∀ k, Function.update s.place key p k = .nowhere ↔ s.place k = .nowhere := by
    intro k
    by_cases hk : k = key
    · rw [hk,Function.update_self]
      exact iff_of_false hp hput
    · rw [Function.update_of_ne hk]
  refine ⟨{ hs with
    put := fun k hk => hs.put k (mt (hnowhere k).mpr hk)
    recorded := fun k f hf => mt (hnowhere k).mp (hs.recorded k f hf)
    attached := fun k m hk => hs.attached k m ((hattached k m).mp hk)
    pending := hpending
    row := fun a ha => ⟨(hattached _ _).mpr (hs.row a ha).1,(hs.row a ha).2⟩
    object := fun k f hf halive => hs.object k f hf
      ⟨hs.recorded k f hf,fun m hm => halive.2 m ((hattached k m).mpr hm)⟩ },?_,?_⟩
  · exact { Grows.refl s with attached := fun k m hk => (hattached k m).mpr hk }
  · intro j hj k hk
    refine Function.update_of_ne ?_ _ _
    rintro rfl
    exact hj hk

theorem Sound.take (hs : Sound uploads s) (n : ℕ) (id : Int) (userID : UserID) :
    Calm uploads s (s.takePendingAttachment n id userID).2 := by
  unfold Files.takePendingAttachment
  split
  · exact Calm.refl hs
  · rename_i pa hpa
    split
    · exact Calm.refl hs
    · obtain ⟨hplace,-⟩ := hs.pending id pa hpa
      have hpending : ∀ id' pa', (s.pendingAttachments.erase id).lookup id' = some pa' →
          Function.update s.place pa.fileKey (.taken n) pa'.fileKey = .pending id' ∧
            Uploaded uploads s pa'.userID pa'.fileKey pa'.fileName pa'.contentType pa'.sizeBytes := by
        intro id' pa' hpa'
        obtain ⟨hid,hpa'⟩ := GoMap.lookup_of_erase hpa'
        obtain ⟨hp,hu⟩ := hs.pending id' pa' hpa'
        refine ⟨?_,hu⟩
        rw [Function.update_of_ne,hp]
        intro he
        rw [he,hplace] at hp
        exact hid (Place.pending.inj hp).symm
      obtain ⟨ht,hg,hk⟩ := hs.move (by simp [hplace]) (by simp [hplace]) (by simp) (by simp) hpending
      exact ⟨ht,hg,fun j => hk j (by simp [hplace,Place.holder])⟩

theorem Sound.setPending (hs : Sound uploads s) {n : ℕ} {id : Int} {pa : PendingAttachment}
    (hplace : s.place pa.fileKey = .stored n)
    (hup : Uploaded uploads s pa.userID pa.fileKey pa.fileName pa.contentType pa.sizeBytes) :
    Moves uploads (.upload n) s (s.setPendingAttachment id pa) := by
  have hpending : ∀ id' pa', (s.pendingAttachments.insert id pa).lookup id' = some pa' →
      Function.update s.place pa.fileKey (.pending id) pa'.fileKey = .pending id' ∧
        Uploaded uploads s pa'.userID pa'.fileKey pa'.fileName pa'.contentType pa'.sizeBytes := by
    intro id' pa' hpa'
    rw [GoMap.lookup_insert_eq] at hpa'
    split at hpa'
    · rename_i hid
      cases hpa'
      rw [hid]
      exact ⟨Function.update_self _ _ _,hup⟩
    · obtain ⟨hp,hu⟩ := hs.pending id' pa' hpa'
      refine ⟨?_,hu⟩
      rw [Function.update_of_ne,hp]
      intro he
      rw [he,hplace] at hp
      cases hp
  obtain ⟨ht,hg,hk⟩ := hs.move (by simp [hplace]) (by simp [hplace]) (by simp) (by simp) hpending
  refine ⟨ht,hg,fun j hj => hk j ?_⟩
  rw [hplace]
  exact fun he => hj (Option.some.inj he).symm

theorem attachmentKey_inj {folder folder' suffix suffix' filename filename' : String}
    (hf : folder.toList.length = folder'.toList.length)
    (hs : suffix.toList.length = suffix'.toList.length)
    (h : attachmentKey folder suffix filename = attachmentKey folder' suffix' filename') :
    folder = folder' ∧ suffix = suffix' ∧ filename = filename' := by
  have hl := congrArg String.toList h
  simp only [attachmentKey,String.toList_append,List.append_assoc] at hl
  obtain ⟨hfolder,hl⟩ := List.append_inj (List.append_cancel_left hl) hf
  obtain ⟨hsuffix,hl⟩ := List.append_inj (List.append_cancel_left hl) hs
  exact ⟨String.toList_inj.mp hfolder,String.toList_inj.mp hsuffix,
    String.toList_inj.mp (List.append_cancel_left hl)⟩

/-- A key that was not put before is nowhere. -/
theorem Sound.fresh (hs : Sound uploads s) {folder suffix filename : String}
    (hf : folder.toList.length = 36) (hx : suffix.toList.length = 8)
    (hnew : (folder,suffix,filename) ∉ s.puts) :
    s.place (attachmentKey folder suffix filename) = .nowhere := by
  by_contra hp
  obtain ⟨⟨folder',suffix',filename'⟩,hm,hk⟩ := List.mem_map.mp (hs.put _ hp)
  obtain ⟨hf',hx'⟩ := hs.wellFormed _ hm
  obtain ⟨rfl,rfl,rfl⟩ := attachmentKey_inj (hf'.trans hf.symm) (hx'.trans hx.symm) hk
  exact hnew hm

theorem Sound.putAttachment (hs : Sound uploads s) {n : ℕ} {folder suffix filename contentType : String}
    {data : List UInt8} (hf : folder.toList.length = 36) (hx : suffix.toList.length = 8)
    (hnew : (folder,suffix,filename) ∉ s.puts) :
    Calm uploads s (s.putAttachment n folder data filename contentType suffix) := by
  have hplace := hs.fresh hf hx hnew
  have hfile : s.files (attachmentKey folder suffix filename) = none := by
    cases hk : s.files (attachmentKey folder suffix filename) with
    | none => rfl
    | some f => exact absurd hplace (hs.recorded _ f hk)
  generalize hkey : attachmentKey folder suffix filename = key at hplace hfile
  have hput : s.putAttachment n folder data filename contentType suffix = { s with
      objects := s.objects.insert key data
      puts := s.puts ++ [(folder,suffix,filename)]
      files := Function.update s.files key (some ⟨n,filename,contentType,data⟩)
      place := Function.update s.place key (.stored n) } := by
    rw [← hkey]
    rfl
  have hne : ∀ k, s.place k ≠ .nowhere → k ≠ key := by
    rintro k hk rfl
    exact hk hplace
  have hgrows : Grows s (s.putAttachment n folder data filename contentType suffix) := by
    rw [hput]
    refine { Grows.refl s with attached := fun k m hk => ?_, files := fun k f hk => ?_ }
    · exact (Function.update_of_ne (hne k (by rw [hk]; simp)) _ _).trans hk
    · exact (Function.update_of_ne (hne k (hs.recorded k f hk)) _ _).trans hk
  rw [hput] at hgrows ⊢
  refine ⟨{ hs with
    wellFormed := ?_, put := ?_, recorded := ?_, attached := ?_, pending := ?_, row := ?_,
    object := ?_ },hgrows,?_⟩
  · intro x hm
    rcases List.mem_append.mp hm with hm | hm
    · exact hs.wellFormed x hm
    · rw [List.mem_singleton.mp hm]
      exact ⟨hf,hx⟩
  · intro k hk
    rw [List.map_append]
    by_cases hkk : k = key
    · refine List.mem_append_right _ ?_
      simp [hkk,← hkey,keyOf]
    · exact List.mem_append_left _ (hs.put k (by simpa [hkk] using hk))
  · intro k f hk
    by_cases hkk : k = key
    · simp [hkk]
    · simpa [hkk] using hs.recorded k f (by simpa [hkk] using hk)
  · intro k m hk
    by_cases hkk : k = key
    · simp [hkk] at hk
    · exact hs.attached k m (by simpa [hkk] using hk)
  · intro id pa hpa
    obtain ⟨hp,hu⟩ := hs.pending id pa hpa
    exact ⟨(Function.update_of_ne (hne _ (by rw [hp]; simp)) _ _).trans hp,hu.grows hgrows⟩
  · intro a ha
    obtain ⟨hp,u,hm,hu⟩ := hs.row a ha
    exact ⟨(Function.update_of_ne (hne _ (by rw [hp]; simp)) _ _).trans hp,u,hm,hu.grows hgrows⟩
  · intro k f hk halive
    dsimp only at hk ⊢
    by_cases hkk : k = key
    · rw [hkk,Function.update_self] at hk
      cases hk
      rw [hkk,GoMap.lookup_insert_eq,if_pos rfl]
    · rw [Function.update_of_ne hkk] at hk
      rw [GoMap.lookup_insert_eq,if_neg hkk]
      refine hs.object k f hk ⟨hs.recorded k f hk,fun m hm => halive.2 m ?_⟩
      exact (Function.update_of_ne hkk _ _).trans hm
  · intro j k hk
    refine Function.update_of_ne (hne k ?_) _ _
    intro hp
    rw [hp] at hk
    cases hk

theorem Sound.saveMessage (hs : Sound uploads s) {id : MessageID} (authorID : UserID)
    (hid : s.nextMessageID ≤ id) : Calm uploads s (s.saveMessage id authorID) := by
  have hold : ∀ m, m < s.nextMessageID → m ≠ id := fun m hm => (hm.trans_le hid).ne
  have hauthors : ∀ m u, s.authors m = some u →
      Function.update s.authors id (some authorID) m = some u := by
    intro m u hm
    rwa [Function.update_of_ne (hold m (hs.authors m u hm))]
  refine ⟨{ hs with
    attached := ?_, authors := ?_, messages := ?_, row := ?_, object := ?_ },?_,fun _ _ _ => rfl⟩
  · intro k m hk
    exact (hs.attached k m hk).trans (hid.trans_lt (Int.lt_succ id))
  · intro m u hm
    by_cases hmi : m = id
    · rw [hmi]
      exact Int.lt_succ id
    · refine (hs.authors m u ?_).trans (hid.trans_lt (Int.lt_succ id))
      simpa [Files.saveMessage,hmi] using hm
  · intro m u hm
    rw [Files.saveMessage,GoMap.lookup_insert_eq] at hm
    split at hm
    · rename_i hmi
      rw [hmi]
      exact (Function.update_self _ _ _).trans hm
    · exact hauthors m u (hs.messages m u hm)
  · intro a ha
    obtain ⟨hp,u,hm,hu⟩ := hs.row a ha
    refine ⟨hp,u,?_,hu⟩
    rw [Files.saveMessage,GoMap.lookup_insert_eq,if_neg (hold _ (hs.attached _ _ hp))]
    exact hm
  · intro k f hk halive
    refine hs.object k f hk ⟨halive.1,fun m hm => ?_⟩
    rcases Finmap.mem_insert.mp (halive.2 m hm) with hmi | hmem
    · exact absurd hmi (hold m (hs.attached k m hm))
    · exact hmem
  · refine { Grows.refl s with
      next := hid.trans (Int.lt_succ id).le, messages := fun m hm => ?_, authors := hauthors }
    rcases Finmap.mem_insert.mp hm with rfl | hmem
    · exact .inr hid
    · exact .inl hmem

variable (uploads) in
/-- The attachments are ones that the command took for the user, each one once. -/
def Holds (command : ℕ) (userID : UserID) (pendingAtts : List PendingAttachment) (s : Files) : Prop :=
  (pendingAtts.map PendingAttachment.fileKey).Nodup ∧ ∀ pa ∈ pendingAtts,
    s.place pa.fileKey = .taken command ∧
      Uploaded uploads s userID pa.fileKey pa.fileName pa.contentType pa.sizeBytes

theorem Sound.saveAttachments (hs : Sound uploads s) {n : ℕ} {userID : UserID} {id : MessageID}
    {pendingAtts : List PendingAttachment} (hh : Holds uploads n userID pendingAtts s)
    (hid : id ∈ s.messages) (ha : s.authors id = some userID) :
    Moves uploads (.command n) s (s.saveMessageAttachments id (pendingAtts.map (attachmentOf id))) := by
  obtain ⟨hnodup,hheld⟩ := hh
  have hkeys : (pendingAtts.map (attachmentOf id)).map Attachment.fileKey =
      pendingAtts.map PendingAttachment.fileKey := by
    rw [List.map_map]
    rfl
  have htaken : ∀ k ∈ pendingAtts.map PendingAttachment.fileKey, s.place k = .taken n := by
    intro k hk
    obtain ⟨pa,hpa,rfl⟩ := List.mem_map.mp hk
    exact (hheld pa hpa).1
  have hsaved : s.saveMessageAttachments id (pendingAtts.map (attachmentOf id)) = { s with
      attachments := s.attachments ++ pendingAtts.map
        (fun pa => ⟨id,pa.fileKey,pa.fileName,pa.contentType,pa.sizeBytes⟩)
      place := fun k => if k ∈ pendingAtts.map PendingAttachment.fileKey then .attached id
        else s.place k } := by
    rw [Files.saveMessageAttachments,hkeys,List.map_map]
    rfl
  have hkept : ∀ k, s.place k ≠ .taken n → (if k ∈ pendingAtts.map PendingAttachment.fileKey then
      .attached id else s.place k) = s.place k := fun k hk => if_neg (fun hm => hk (htaken k hm))
  obtain ⟨author,hauthor⟩ := Finmap.mem_iff.mp hid
  have hau : author = userID := Option.some.inj ((hs.messages id author hauthor).symm.trans ha)
  rw [hsaved]
  refine ⟨{ hs with
    put := ?_, recorded := ?_, attached := ?_, pending := ?_, once := ?_, row := ?_, object := ?_ },
    ?_,?_⟩
  · intro k hk
    dsimp only at hk
    split at hk
    · rename_i hm
      exact hs.put k (by rw [htaken k hm]; simp)
    · exact hs.put k hk
  · intro k f hk
    dsimp only
    split
    · simp
    · exact hs.recorded k f hk
  · intro k m hk
    dsimp only at hk
    split at hk
    · cases hk
      exact hs.authors id userID ha
    · exact hs.attached k m hk
  · intro i pa hpa
    obtain ⟨hp,hu⟩ := hs.pending i pa hpa
    exact ⟨(hkept _ (by rw [hp]; simp)).trans hp,hu⟩
  · rw [List.map_append,List.map_map,List.nodup_append]
    refine ⟨hs.once,hnodup,?_⟩
    rintro k hk k' hk' rfl
    obtain ⟨a,ha,rfl⟩ := List.mem_map.mp hk
    have hp := (hs.row a ha).1
    rw [htaken _ hk'] at hp
    cases hp
  · intro a hm
    rcases List.mem_append.mp hm with hm | hm
    · obtain ⟨hp,hu⟩ := hs.row a hm
      exact ⟨(hkept _ (by rw [hp]; simp)).trans hp,hu⟩
    · obtain ⟨pa,hpa,rfl⟩ := List.mem_map.mp hm
      refine ⟨if_pos (List.mem_map_of_mem hpa),userID,?_,(hheld pa hpa).2⟩
      rw [← hau]
      exact hauthor
  · intro k f hk halive
    refine hs.object k f hk ⟨hs.recorded k f hk,fun m hm => halive.2 m ?_⟩
    exact (hkept k (by rw [hm]; simp)).trans hm
  · refine { Grows.refl s with attached := fun k m hk => ?_ }
    exact (hkept k (by rw [hk]; simp)).trans hk
  · intro j hj k hk
    refine hkept k ?_
    intro hp
    rw [hp] at hk
    exact hj (Option.some.inj hk).symm

theorem mem_deleteMessages {gone : MessageID → Bool} {m : MessageID}
    (h : m ∈ (s.deleteMessages gone).messages) : m ∈ s.messages := by
  obtain ⟨u,hu⟩ := Finmap.mem_iff.mp h
  rw [Files.deleteMessages,GoMap.lookup_filter,Option.filter_eq_some_iff] at hu
  exact Finmap.mem_iff.mpr ⟨u,hu.1⟩

theorem Sound.deleteMessages (hs : Sound uploads s) (gone : MessageID → Bool) :
    Calm uploads s (s.deleteMessages gone) := by
  refine ⟨{ hs with messages := ?_, once := ?_, row := ?_, object := ?_ },
    { Grows.refl s with messages := fun m hm => .inl (mem_deleteMessages hm) },fun _ _ _ => rfl⟩
  · intro m u hm
    rw [Files.deleteMessages,GoMap.lookup_filter,Option.filter_eq_some_iff] at hm
    exact hs.messages m u hm.1
  · exact hs.once.sublist (List.Sublist.map _ List.filter_sublist)
  · intro a ha
    obtain ⟨hm,hg⟩ := List.mem_filter.mp ha
    obtain ⟨hp,u,hmsg,hu⟩ := hs.row a hm
    refine ⟨hp,u,?_,hu⟩
    rw [Files.deleteMessages,GoMap.lookup_filter,hmsg]
    exact Option.filter_eq_some_iff.mpr ⟨rfl,hg⟩
  · intro k f hk halive
    exact hs.object k f hk ⟨halive.1,fun m hm => mem_deleteMessages (halive.2 m hm)⟩

/-- The keys belonged to messages that are gone. -/
def Dead (keys : List String) (s : Files) : Prop :=
  ∀ k ∈ keys, ∃ m, s.place k = .attached m ∧ m ∉ s.messages

theorem Sound.deleteObjects (hs : Sound uploads s) {keys : List String} (hd : Dead keys s) :
    Calm uploads s (s.deleteObjects keys) := by
  refine ⟨{ hs with object := fun k f hk halive => ?_ },{ Grows.refl s with },fun _ _ _ => rfl⟩
  have hk' : k ∉ keys := by
    intro hm
    obtain ⟨m,hp,hnot⟩ := hd k hm
    exact hnot (halive.2 m hp)
  rw [Files.deleteObjects,GoMap.lookup_filter,hs.object k f hk halive]
  exact Option.filter_eq_some_iff.mpr ⟨rfl,by simpa using hk'⟩

theorem Sound.restart (hs : Sound uploads s) : Calm uploads s s.restart :=
  ⟨{ hs with pending := fun id pa h => by cases h },{ Grows.refl s with },fun _ _ _ => rfl⟩

theorem Sound.addAttachmentID (hs : Sound uploads s) (id : Int) :
    Calm uploads s { s with nextAttachmentID := id } :=
  ⟨{ hs with },{ Grows.refl s with },fun _ _ _ => rfl⟩

theorem Sound.updateFolderKey (hs : Sound uploads s) (userID : UserID) {newKey : String}
    (h : newKey.toList.length = 36) :
    Calm uploads s { s with folderKeys := s.folderKeys.insert userID newKey } := by
  refine ⟨{ hs with folder := fun v k hk => ?_ },{ Grows.refl s with },fun _ _ _ => rfl⟩
  rw [GoMap.lookup_insert_eq] at hk
  split at hk
  · cases hk
    exact h
  · exact hs.folder v k hk

end MiniDiscord.Uploads
