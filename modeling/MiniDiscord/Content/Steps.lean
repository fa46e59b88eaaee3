import MiniDiscord.Content.Invariant

/-! # One step of the hub or of a worker

What each of them does to the tables and to what is on its way.
-/
namespace MiniDiscord.MessageContent
open ChatHub SfuTrack MessageHistory Transition Replication

variable {s : State} {src src' : Source} {m : Message}

/-- A message that a copy in sight stands for. -/
theorem exists_inSight {m : Message} (h : m.subject ∈ (carried s.queue).map Message.subject) :
    ∃ x ∈ s.inSight, x.subject = m.subject := List.mem_map.mp h

theorem queue_push (s : State) (event : WsEvent) :
    (s.push event true).queue = s.queue ++ [parcelOf event] := by
  unfold State.push State.queue
  rw [if_pos rfl,List.map_append]
  rfl

theorem not_editing (h : src.announcing = none) (id : MessageID) : ¬ src.Editing id := by
  rintro ⟨content,editedAt,he⟩
  rw [h] at he
  cases he

/-- What every message that was read survives. -/
theorem Inv.survive (h : Inv s)
    (hgood : ∀ m, ReadGood s.source m → ReadGood src' m) :
    Arrive Change.patch (ReadGood src') s.queue :=
  h.sight.mono patch_subject (fun m _ => hgood m)

/-! ## Jobs -/

/-- Jobs that are linked stay, and none is added. -/
structure Moves (jobs jobs' : List Job) : Prop where
  old : ∀ job' ∈ jobs', ∃ job ∈ jobs, job.messageID = job'.messageID
  linked : ∀ job ∈ jobs, job.Linked → ∃ job' ∈ jobs', job'.messageID = job.messageID ∧ job'.Linked

section Jobs
variable {jobs : List Job} {i : ℕ} {job : Job} (hi : jobs[i]? = some job)
include hi

theorem moves_set {phase : Phase} (hl : job.Linked → phase.isLinked = true) :
    Moves jobs (jobs.set i { job with phase := phase }) := by
  have hlen : i < jobs.length := (List.getElem?_eq_some_iff.mp hi).1
  constructor
  · intro job' hmem
    rcases List.mem_or_eq_of_mem_set hmem with hmem | rfl
    · exact ⟨job',hmem,rfl⟩
    · exact ⟨job,List.mem_of_getElem? hi,rfl⟩
  · intro job' hmem hlinked
    obtain ⟨n,hn⟩ := List.mem_iff_getElem?.mp hmem
    by_cases hni : n = i
    · rw [hni,hi] at hn
      obtain rfl := Option.some.inj hn
      exact ⟨_,List.mem_set hlen _,rfl,hl hlinked⟩
    · refine ⟨job',List.mem_iff_getElem?.mpr ⟨n,?_⟩,rfl,hlinked⟩
      rw [List.getElem?_set_ne (Ne.symm hni),hn]

theorem mem_eraseIdx_of_ne {job' : Job} (hmem : job' ∈ jobs) (hne : job' ≠ job) :
    job' ∈ jobs.eraseIdx i := by
  obtain ⟨n,hn⟩ := List.mem_iff_getElem?.mp hmem
  refine List.mem_eraseIdx_iff_getElem?.mpr ⟨n,?_,hn⟩
  rintro rfl
  rw [hi] at hn
  exact hne (Option.some.inj hn).symm

theorem moves_erase (hl : ¬ job.Linked) : Moves jobs (jobs.eraseIdx i) := by
  constructor
  · intro job' hmem
    exact ⟨job',List.mem_of_mem_eraseIdx hmem,rfl⟩
  · intro job' hmem hlinked
    refine ⟨job',mem_eraseIdx_of_ne hi hmem ?_,rfl,hlinked⟩
    rintro rfl
    exact hl hlinked

end Jobs

theorem Moves.linking {jobs' : List Job} {id : MessageID} (h : Moves src.jobs jobs')
    (hl : src.Linking id) : ∃ job ∈ jobs', job.messageID = id ∧ job.Linked := by
  obtain ⟨job,hmem,hid,hlinked⟩ := hl
  obtain ⟨job',hmem',hid',hlinked'⟩ := h.linked job hmem hlinked
  exact ⟨job',hmem',hid'.trans hid,hlinked'⟩

/-! ## What the workers do -/

/-- A step of a worker moves the jobs, or it writes a record, links a message or broadcasts. -/
theorem work_cases {s' : State} {i : ℕ} {job : Job} {e : WorkerEvent} (hi : s.jobs[i]? = some job)
    (h : s.work i job e = some s') :
    (∃ cache jobs, Moves s.jobs jobs ∧ s' = { s with cache := cache, jobs := jobs }) ∨
    (∃ hash record jobs, e = .upsertLinkPreview true ∧ job.phase = .fetched hash record ∧
      Moves s.jobs jobs ∧
      s' = { s with tables := s.tables.upsertLinkPreview hash record, jobs := jobs }) ∨
    (∃ hash preview, job.phase = .resolved hash preview ∧
      s' = { s with
        tables := s.tables.linkMessageEmbed job.messageID hash
        jobs := s.jobs.set i { job with phase := .linked preview } }) ∨
    ∃ fits preview, e = .broadcastEmbeds fits ∧ job.phase = .linked preview ∧
      s' = { s with jobs := s.jobs.eraseIdx i }.push (.change (.embeds job.messageID [preview]))
        (job.recipient && fits) := by
  have hset : ∀ phase, job.phase.isLinked = false →
      Moves s.jobs (s.jobs.set i { job with phase := phase }) := by
    intro phase hnot
    exact moves_set hi (fun hl => absurd (hnot.symm.trans hl) Bool.false_ne_true)
  have herase : job.phase.isLinked = false → Moves s.jobs (s.jobs.eraseIdx i) := by
    intro hnot
    exact moves_erase hi (fun hl => absurd (hnot.symm.trans hl) Bool.false_ne_true)
  have hresolved : ∀ cache hash entry, job.phase.isLinked = false →
      ∃ jobs, Moves s.jobs jobs ∧
        { s with cache := cache }.resolvedTo i job hash entry =
          { s with cache := cache, jobs := jobs } := by
    intro cache hash entry hnot
    unfold State.resolvedTo
    split
    · exact ⟨_,hset _ hnot,rfl⟩
    · exact ⟨_,herase hnot,rfl⟩
  unfold State.work at h
  split at h
  · rename_i hp
    cases h
    exact Or.inl ⟨_,_,herase (congrArg Phase.isLinked hp),rfl⟩
  · rename_i hp
    cases h
    exact Or.inl ⟨_,_,hset _ (congrArg Phase.isLinked hp),rfl⟩
  · rename_i hash hp
    split at h
    · cases h
      obtain ⟨jobs,hmoves,heq⟩ := hresolved s.cache hash _ (congrArg Phase.isLinked hp)
      exact Or.inl ⟨_,jobs,hmoves,heq⟩
    · cases h
      exact Or.inl ⟨_,_,hset _ (congrArg Phase.isLinked hp),rfl⟩
  · rename_i hash hp
    split at h
    · cases h
      exact Or.inl ⟨_,_,hset _ (congrArg Phase.isLinked hp),rfl⟩
    · cases h
      exact Or.inl ⟨_,_,hset _ (congrArg Phase.isLinked hp),rfl⟩
  · rename_i hash hp
    cases h
    exact Or.inl ⟨_,_,hset _ (congrArg Phase.isLinked hp),rfl⟩
  · rename_i hash hp
    split at h
    · cases h
      obtain ⟨jobs,hmoves,heq⟩ := hresolved s.cache hash _ (congrArg Phase.isLinked hp)
      exact Or.inl ⟨_,jobs,hmoves,heq⟩
    · cases h
      exact Or.inl ⟨_,_,herase (congrArg Phase.isLinked hp),rfl⟩
  · rename_i ok hash record hp
    split at h
    · rename_i hok
      cases h
      exact Or.inr (Or.inl ⟨hash,record,_,by rw [hok],hp,hset _ (congrArg Phase.isLinked hp),rfl⟩)
    · cases h
      exact Or.inl ⟨_,_,herase (congrArg Phase.isLinked hp),rfl⟩
  · rename_i hash entry hp
    cases h
    obtain ⟨jobs,hmoves,heq⟩ := hresolved _ hash entry (congrArg Phase.isLinked hp)
    exact Or.inl ⟨_,jobs,hmoves,heq⟩
  · rename_i ok hash preview hp
    split at h
    · cases h
      exact Or.inr (Or.inr (Or.inl ⟨hash,preview,hp,rfl⟩))
    · cases h
      exact Or.inl ⟨_,_,herase (congrArg Phase.isLinked hp),rfl⟩
  · rename_i fits preview hp
    cases h
    exact Or.inr (Or.inr (Or.inr ⟨fits,preview,rfl,hp,rfl⟩))
  · cases h

/-- Texts are written by the loop alone, and embeds only of messages that have a job. -/
theorem AnnounceGood.mono (h : AnnounceGood src) (ha : src'.announcing = src.announcing)
    (hlast : src'.last = src.last) (hrows : src'.tables.rows = src.tables.rows)
    (hold : ∀ job' ∈ src'.jobs, ∃ job ∈ src.jobs, job.messageID = job'.messageID)
    (hembeds : ∀ id, (∀ job ∈ src.jobs, job.messageID ≠ id) →
      src'.tables.messageEmbeds id = src.tables.messageEmbeds id) : AnnounceGood src' := by
  unfold AnnounceGood at *
  rw [ha]
  cases hann : src.announcing with
  | none => trivial
  | some a =>
    rw [hann] at h
    cases a with
    | message m recipient =>
      obtain ⟨hgood,hlinked,hjobs⟩ := h
      have hlinked' : src'.tables.messageEmbeds m.id = none := (hembeds m.id hjobs).trans hlinked
      refine ⟨hgood.mono hlast.ge ?_ ⟨?_,Or.inl ?_⟩,hlinked',?_⟩
      · intro id _
        exact keepsText_of_eq (congrFun hrows id) ha
      · rintro ⟨job,hmem,hid,-⟩
        exact absurd hid (hjobs job hmem)
      · rw [Tables.embedsOf_none hlinked,Tables.embedsOf_none hlinked']
      · intro job' hmem' heq
        obtain ⟨job,hmem,hid⟩ := hold job' hmem'
        exact hjobs job hmem (hid.trans heq)
    | edited messageID content editedAt =>
      unfold Tables.contentOf at *
      rw [hrows]
      exact h

/-- A step of a worker before the broadcast leaves the texts alone, and changes the embeds of
no message in sight unless it is going to announce them. -/
theorem Inv.work (h : Inv s) {tables : Tables} {jobs : List Job}
    {cache : URLHash → Option CachedPreview} (hstored : tables.stored = s.tables.stored)
    (hrows : tables.rows = s.tables.rows)
    (hold : ∀ job' ∈ jobs, ∃ job ∈ s.jobs, job.messageID = job'.messageID)
    (hembeds : ∀ id, (∀ job ∈ s.jobs, job.messageID ≠ id) →
      tables.messageEmbeds id = s.tables.messageEmbeds id)
    (hkeeps : ∀ m ∈ s.inSight, KeepsEmbeds s.source ⟨tables,s.last,s.announcing,jobs⟩ m.id) :
    Inv { s with tables := tables, cache := cache, jobs := jobs } := by
  constructor
  · change ∀ k ∈ tables.stored, k.id ≤ s.last
    rw [hstored]
    exact h.stored
  · change ∀ id, ∀ r ∈ (tables.rows id).replyToID, r < id
    rw [hrows]
    exact h.replies
  · intro id hid
    have hnone := h.linked id hid
    rw [← hembeds id ?_] at hnone
    · exact hnone
    · rintro job hmem rfl
      exact absurd (h.jobs job hmem) (not_le.mpr hid)
  · intro job' hmem'
    obtain ⟨job,hmem,hid⟩ := hold job' hmem'
    rw [← hid]
    exact h.jobs job hmem
  · exact h.announcing.mono rfl rfl hrows hold hembeds
  · refine h.sight.mono patch_subject (fun m hm hgood => hgood.mono le_rfl ?_ ?_)
    · exact fun id _ => keepsText_of_eq (congrFun hrows id) rfl
    · obtain ⟨x,hx,hsubject⟩ := exists_inSight hm
      rw [← subject_id hsubject]
      exact hkeeps x hx

/-- When the job is gone, its message shows what is stored. -/
theorem ReadGood.dropJob {i : ℕ} {job : Job} (h : ReadGood src m)
    (hi : src.jobs[i]? = some job)
    (hm : m.id = job.messageID → m.embeds = src.tables.embedsOf m.id) :
    ReadGood { src with jobs := src.jobs.eraseIdx i } m := by
  refine ⟨h.known,h.text,h.quoted,?_⟩
  by_cases hid : m.id = job.messageID
  · exact Or.inl (hm hid)
  · refine h.embeds.imp_right ?_
    rintro ⟨job',hmem,hid',hlinked⟩
    refine ⟨job',mem_eraseIdx_of_ne hi hmem ?_,hid',hlinked⟩
    rintro rfl
    exact hid hid'.symm

/-- A broadcast reaches the client when it sees the message, and tells what is stored. -/
theorem Inv.broadcast {i : ℕ} {job : Job} {preview : WsLinkPreview} {reaches : Bool} (h : Inv s)
    (hi : s.jobs[i]? = some job)
    (hsight : ∀ m ∈ s.inSight, m.id = job.messageID →
      reaches = true ∧ s.tables.embedsOf m.id = [preview]) :
    Inv ({ s with jobs := s.jobs.eraseIdx i }.push
      (.change (.embeds job.messageID [preview])) reaches) := by
  have hold : ∀ job' ∈ s.jobs.eraseIdx i, ∃ job ∈ s.jobs, job.messageID = job'.messageID :=
    fun job' hmem => ⟨job',List.mem_of_mem_eraseIdx hmem,rfl⟩
  have hannouncing : AnnounceGood { s.source with jobs := s.jobs.eraseIdx i } :=
    h.announcing.mono rfl rfl rfl hold (fun _ _ => rfl)
  have hjobs : ∀ job' ∈ s.jobs.eraseIdx i, job'.messageID ≤ s.last :=
    fun job' hmem => h.jobs job' (List.mem_of_mem_eraseIdx hmem)
  cases reaches with
  | false =>
    refine ⟨h.stored,h.replies,h.linked,hjobs,hannouncing,?_⟩
    refine h.sight.mono patch_subject (fun m hm hgood => hgood.dropJob hi (fun hid => ?_))
    obtain ⟨x,hx,hsubject⟩ := exists_inSight hm
    exact absurd (hsight x hx ((subject_id hsubject).trans hid)).1 Bool.false_ne_true
  | true =>
    refine ⟨h.stored,h.replies,h.linked,hjobs,hannouncing,?_⟩
    rw [queue_push]
    refine h.sight.push_change patch_subject _ (fun m hm hgood => ?_)
    obtain ⟨x,hx,hsubject⟩ := exists_inSight hm
    have hstored : m.id = job.messageID → s.tables.embedsOf job.messageID = [preview] := by
      intro hid
      have hx' := (subject_id hsubject).trans hid
      rw [← hx']
      exact (hsight x hx hx').2
    refine (hgood.withEmbeds hstored).dropJob hi (fun hid => ?_)
    have hm' : m.id = job.messageID :=
      (subject_id (patch_subject (.embeds job.messageID [preview]) m)).symm.trans hid
    dsimp only [Change.patch]
    rw [if_pos hm']
    change [preview] = s.tables.embedsOf m.id
    rw [hm',hstored hm']

/-! ## What the loop does -/

/-- A message gets an ID that is not in use, and quotes what is stored. -/
theorem Inv.save (h : Inv s) (hfree : s.announcing = none) {k : Key} {row : Row} {recipient : Bool}
    (hk : k.id = s.last + 1) (hreply : ∀ r ∈ row.replyToID, r ≤ s.last)
    (hspace : row.content ≠ " ") :
    let m : Message :=
      { key := k
        content := row.content
        replyToID := row.replyToID
        replyTo := row.replyToID.map s.tables.replyPreview
        editedAt := row.editedAt }
    Inv { s with
      tables := s.tables.saveMessage k row
      last := s.last + 1
      announcing := some (.message m recipient) } := by
  intro m
  have hlt : ∀ id, id ≤ s.last → id < s.last + 1 := fun id hid => Int.lt_add_one_iff.mpr hid
  have hnew : (s.tables.saveMessage k row).rows (s.last + 1) =
      { row with content := storedContent row.content } := by
    rw [← hk]
    exact Function.update_self _ _ _
  have hrest : ∀ id ≠ s.last + 1, (s.tables.saveMessage k row).rows id = s.tables.rows id := by
    intro id hid
    apply Function.update_of_ne
    rw [hk]
    exact hid
  have hcontent : ∀ id ≤ s.last,
      (s.tables.saveMessage k row).contentOf id = s.tables.contentOf id := by
    intro id hid
    unfold Tables.contentOf
    rw [hrest id (ne_of_lt (hlt id hid))]
  have hgood : ∀ m', ReadGood s.source m' → ReadGood ⟨s.tables.saveMessage k row,
      s.last + 1,some (.message m recipient),s.jobs⟩ m' := by
    intro m' hgood
    refine hgood.mono (le_of_lt (hlt _ (le_refl _))) ?_ ⟨fun hl => hl,Or.inl rfl⟩
    intro id hid
    refine ⟨fun hediting => absurd hediting (not_editing hfree id),Or.inl ⟨hcontent id hid,?_⟩⟩
    exact congrArg Row.editedAt (hrest id (ne_of_lt (hlt id hid)))
  constructor
  · intro k' hk'
    rcases (List.mem_orderedInsert (· ≤ ·)).mp hk' with rfl | hk'
    · exact le_of_eq hk
    · exact le_of_lt (hlt _ (h.stored k' hk'))
  · intro id r hr
    by_cases hid : id = s.last + 1
    · subst hid
      change r ∈ ((s.tables.saveMessage k row).rows (s.last + 1)).replyToID at hr
      rw [hnew] at hr
      exact hlt r (hreply r hr)
    · change r ∈ ((s.tables.saveMessage k row).rows id).replyToID at hr
      rw [hrest id hid] at hr
      exact h.replies id r hr
  · intro id hid
    exact h.linked id (lt_trans (hlt _ (le_refl _)) hid)
  · intro job hmem
    exact le_of_lt (hlt _ (h.jobs job hmem))
  · have hid : m.id = s.last + 1 := hk
    have hlinked : s.tables.messageEmbeds m.id = none := by
      apply h.linked
      rw [hid]
      exact hlt _ (le_refl _)
    refine ⟨⟨le_of_eq hk,Or.inl ⟨?_,?_⟩,?_,Or.inl ?_⟩,hlinked,?_⟩
    · change row.content = (s.tables.saveMessage k row).contentOf m.id
      unfold Tables.contentOf
      rw [hid,hnew]
      exact (shownContent_stored hspace).symm
    · change row.editedAt = ((s.tables.saveMessage k row).rows m.id).editedAt
      rw [hid,hnew]
    · intro q hq
      obtain ⟨r,hr,rfl⟩ := Option.map_eq_some_iff.mp hq
      refine ⟨?_,Or.inl (hcontent r (hreply r hr)).symm⟩
      rw [hid]
      exact hlt r (hreply r hr)
    · exact (Tables.embedsOf_none (t := s.tables.saveMessage k row) hlinked).symm
    · intro job hmem heq
      have hle := h.jobs job hmem
      rw [heq,hid] at hle
      exact absurd hle (not_le.mpr (hlt _ (le_refl _)))
  · exact h.survive hgood

theorem inv_sendMessage {s' : State} {userID : UserID} {content : String}
    {replyToID : Option MessageID} {createdAt : Time} {hasAttachments recipient : Bool}
    (h : Inv s) (hfree : s.announcing = none)
    (he : s.sendMessage userID content replyToID createdAt hasAttachments recipient = some s') :
    Inv s' := by
  unfold State.sendMessage at he
  dsimp only at he
  split at he
  · cases he
  · split at he
    · cases he
    · split at he
      · cases he
      · rename_i hreply
        cases he
        let row : Row := ⟨userID,trimSpace content,none,replyToID,hasAttachments⟩
        have hknown : ∀ r ∈ row.replyToID, r ≤ s.last := by
          intro r hr
          by_contra hlt
          apply hreply
          refine ⟨r,hr,?_⟩
          rintro k hk rfl
          exact hlt (h.stored k hk)
        exact h.save hfree rfl hknown (trimSpace_ne_space content)

/-- An edit is announced to all that show the message or quote it. -/
theorem Inv.edit {messageID : MessageID} {content : String} {editedAt : Time} {row : Row}
    (h : Inv s) (hfree : s.announcing = none)
    (hreply : row.replyToID = (s.tables.rows messageID).replyToID)
    (hcontent : shownContent row.content = content) (hmark : row.editedAt = some editedAt) :
    Inv { s with
      tables := s.tables.setRow messageID row
      announcing := some (.edited messageID content editedAt) } := by
  have hself : (s.tables.setRow messageID row).rows messageID = row := Function.update_self _ _ _
  have hrest : ∀ id ≠ messageID, (s.tables.setRow messageID row).rows id = s.tables.rows id :=
    fun id hid => Function.update_of_ne hid _ _
  have hgood : ∀ m, ReadGood s.source m → ReadGood ⟨s.tables.setRow messageID row,
      s.last,some (.edited messageID content editedAt),s.jobs⟩ m := by
    intro m hgood
    refine hgood.mono (le_refl _) ?_ ⟨fun hl => hl,Or.inl rfl⟩
    intro id _
    refine ⟨fun hediting => absurd hediting (not_editing hfree id),?_⟩
    by_cases hid : id = messageID
    · subst hid
      exact Or.inr ⟨_,_,rfl⟩
    · refine Or.inl ⟨?_,congrArg Row.editedAt (hrest id hid)⟩
      unfold Tables.contentOf
      rw [hrest id hid]
      rfl
  refine ⟨h.stored,?_,h.linked,h.jobs,⟨?_,?_⟩,?_⟩
  · intro id r hr
    apply h.replies id r
    by_cases hid : id = messageID
    · subst hid
      change r ∈ ((s.tables.setRow id row).rows id).replyToID at hr
      rw [hself,hreply] at hr
      exact hr
    · change r ∈ ((s.tables.setRow messageID row).rows id).replyToID at hr
      rw [hrest id hid] at hr
      exact hr
  · change shownContent ((s.tables.setRow messageID row).rows messageID).content = content
    rw [hself,hcontent]
  · change ((s.tables.setRow messageID row).rows messageID).editedAt = some editedAt
    rw [hself,hmark]
  · exact h.survive hgood

theorem inv_editMessage {s' : State} {messageID : MessageID} {userID : UserID} {content : String}
    {windowExpired : Bool} {editedAt : Time} (h : Inv s) (hfree : s.announcing = none)
    (he : s.editMessage messageID userID content windowExpired editedAt = some s') : Inv s' := by
  unfold State.editMessage at he
  dsimp only at he
  split at he
  · cases he
  · split at he
    · cases he
    · rename_i tables hok
      cases he
      obtain ⟨-,rfl⟩ := s.tables.editMessage_ok hok
      exact h.edit hfree rfl (shownContent_stored (trimSpace_ne_space content)) rfl

/-! ## The ends of the two commands -/

theorem announceGood_message {recipient : Bool}
    (ha : src.announcing = some (.message m recipient)) (h : AnnounceGood src) :
    ReadGood src m := by
  unfold AnnounceGood at h
  rw [ha] at h
  exact h.1

theorem announceGood_edited {messageID : MessageID} {content : String} {editedAt : Time}
    (ha : src.announcing = some (.edited messageID content editedAt)) (h : AnnounceGood src) :
    src.tables.contentOf messageID = content ∧
      (src.tables.rows messageID).editedAt = some editedAt := by
  unfold AnnounceGood at h
  rw [ha] at h
  exact h

/-- Pages and single messages that show what is stored may be pushed at any time. -/
theorem Inv.pushCopies {event : WsEvent} {messages : List Message} {reaches : Bool} (h : Inv s)
    (hevent : parcelOf event = .copies messages)
    (hgood : ∀ m ∈ messages, ReadGood s.source m) : Inv (s.push event reaches) := by
  cases reaches with
  | false => exact h
  | true =>
    refine ⟨h.stored,h.replies,h.linked,h.jobs,h.announcing,?_⟩
    rw [queue_push,hevent]
    exact h.sight.push_copies hgood

theorem Inv.enqueue {job : Job} (h : Inv s) (hfree : s.announcing = none)
    (hknown : job.messageID ≤ s.last) : Inv { s with jobs := s.jobs ++ [job] } := by
  have hgood : ∀ m, ReadGood s.source m →
      ReadGood ⟨s.tables,s.last,s.announcing,s.jobs ++ [job]⟩ m := by
    intro m hgood
    refine hgood.mono (le_refl _) (fun id _ => keepsText_of_eq rfl rfl) ⟨?_,Or.inl rfl⟩
    rintro ⟨job',hmem,hid,hl⟩
    exact ⟨job',List.mem_append_left _ hmem,hid,hl⟩
  refine ⟨h.stored,h.replies,h.linked,?_,?_,?_⟩
  · intro job' hmem
    rcases List.mem_append.mp hmem with hmem | hmem
    · exact h.jobs job' hmem
    · rw [List.mem_singleton.mp hmem]
      exact hknown
  · unfold AnnounceGood State.source
    rw [hfree]
    trivial
  · exact h.survive hgood

/-- The message is pushed as it was saved, and its job comes after it. -/
theorem Inv.announceMessage {recipient fits enqueued : Bool} (h : Inv s)
    (ha : s.announcing = some (.message m recipient)) :
    Inv (s.announce fits enqueued (.message m recipient)) := by
  have hread := announceGood_message ha h.announcing
  have hmono : ∀ m', ReadGood s.source m' → ReadGood ⟨s.tables,s.last,none,s.jobs⟩ m' := by
    intro m' hm'
    refine hm'.mono (le_refl _) (fun id _ => ⟨?_,Or.inl ⟨rfl,rfl⟩⟩) ⟨fun hl => hl,Or.inl rfl⟩
    rintro ⟨content,editedAt,he⟩
    rw [show s.source.announcing = s.announcing from rfl,ha] at he
    cases he
  have hidle : Inv { s with announcing := none } :=
    ⟨h.stored,h.replies,h.linked,h.jobs,trivial,h.survive hmono⟩
  have hpushed : Inv ({ s with announcing := none }.push (.message m) (recipient && fits)) := by
    apply hidle.pushCopies rfl
    intro m' hm'
    rw [List.mem_singleton.mp hm']
    exact hmono _ hread
  have hpush : ∀ event reaches, ({ s with announcing := none }.push event reaches).announcing = none ∧
      ({ s with announcing := none }.push event reaches).last = s.last := by
    intro event reaches
    cases reaches <;> exact ⟨rfl,rfl⟩
  unfold State.announce
  dsimp only
  split
  · refine hpushed.enqueue (hpush _ _).1 ?_
    rw [(hpush _ _).2]
    exact hread.known
  · exact hpushed

/-- An edit reaches the client when it shows the message. -/
theorem Inv.announceEdited {messageID : MessageID} {content : String} {editedAt : Time}
    {fits enqueued : Bool} (h : Inv s)
    (ha : s.announcing = some (.edited messageID content editedAt))
    (hsight : fits = false → ∀ m ∈ s.inSight, ¬ m.Shows messageID) :
    Inv (s.announce fits enqueued (.edited messageID content editedAt)) := by
  obtain ⟨hcontent,hmark⟩ := announceGood_edited ha h.announcing
  have hgood : ∀ m, ReadGood s.source m →
      ReadGood ⟨s.tables,s.last,none,s.jobs⟩ (m.edited messageID content editedAt) :=
    fun m hm => hm.edited ha hcontent hmark
  cases fits with
  | false =>
    refine ⟨h.stored,h.replies,h.linked,h.jobs,trivial,?_⟩
    refine h.sight.mono patch_subject (fun m hm hread => ?_)
    obtain ⟨x,hx,hsubject⟩ := exists_inSight hm
    rw [← edited_not_shown (m := m) (fun hshows => hsight rfl x hx ((subject_shows hsubject).mpr hshows))]
    exact hgood m hread
  | true =>
    refine ⟨h.stored,h.replies,h.linked,h.jobs,trivial,?_⟩
    unfold State.announce
    rw [queue_push]
    exact h.sight.push_change patch_subject _ (fun m _ => hgood m)

/-- The handlers are no part of what is in sight. -/
theorem Inv.handlersTo (h : Inv s) (handlers : List Handler) : Inv { s with handlers := handlers } :=
  ⟨h.stored,h.replies,h.linked,h.jobs,h.announcing,h.sight⟩

end MiniDiscord.MessageContent
