import MiniDiscord.Content.Readings

/-! # The content of the messages that a client shows converges

While no page is sent that was read before an announced change was stored, no event about a
message in sight is lost or made of an outdated record, and none meets a message that is shown
twice, every message shown agrees with the tables as soon as nothing is on its way.
-/
namespace MiniDiscord.MessageContent
open ChatHub SfuTrack MessageHistory Transition Replication

variable {noted : Noted} {s : State}

/-! ## When a step is harmless -/

/-- An edit that is announced reaches the client if it shows the message or a reply to it. -/
def CanAnnounce (s : State) (fits : Bool) : Prop :=
  match s.announcing with
  | some (.edited messageID _ _) => fits = false → ∀ m ∈ s.inSight, ¬ m.Shows messageID
  | _ => True

/-- What is shown of a record; the image is served under its token. -/
def LinkPreviewRecord.shown (record : LinkPreviewRecord) : LinkPreviewRecord :=
  { record with imageURL := "" }

/-- The record that a message is linked to. -/
def Tables.embed (t : Tables) (id : MessageID) : Option LinkPreviewRecord :=
  ((t.messageEmbeds id).bind t.linkPreviews).map LinkPreviewRecord.shown

/-- What a page has of the message was read after the last change was stored, unless the change
is still to be announced. -/
structure Timely (s : State) (r : Reading) (m : Message) : Prop where
  text : ((r.rows.rows m.id).content = (s.tables.rows m.id).content ∧
    (r.rows.rows m.id).editedAt = (s.tables.rows m.id).editedAt) ∨ s.source.Editing m.id
  quoted : ∀ q ∈ m.replyTo,
    (r.replies.rows q.messageID).content = (s.tables.rows q.messageID).content ∨
      s.source.Editing q.messageID
  embeds : r.embeds.embed m.id = s.tables.embed m.id ∨ s.source.Linking m.id

def CanRespond (noted : Noted) (s : State) (i : ℕ) (fits : Bool) : Prop :=
  fits = true → ∀ hd ∈ s.handlers[i]?, ∀ r ∈ noted.readings[i]?, ∀ m ∈ hd.messages, Timely s r m

/-- The site says again what it said before. -/
def SameAnswer (old record : LinkPreviewRecord) : Prop :=
  (old.status = .ok ↔ record.status = .ok) ∧
    (record.status = .ok → record.url = old.url ∧ record.title = old.title ∧
      record.description = old.description ∧ record.siteName = old.siteName ∧
      (record.imageURL = "" → old.imageToken = "") ∧
      (record.imageURL ≠ "" → old.imageToken = "" → record.imageToken = ""))

/-- A site that messages in sight link to has not changed when it is fetched again. A broadcast
about a message in sight reaches the client, and its preview was made of the record that is
stored. -/
def CanWork (noted : Noted) (s : State) (i : ℕ) (e : WorkerEvent) : Prop :=
  match s.jobs[i]? with
  | none => True
  | some job =>
    match e,job.phase with
    | .upsertLinkPreview true,.fetched hash record =>
      ∀ m ∈ s.inSight, s.tables.messageEmbeds m.id = some hash → s.source.Linking m.id ∨
        ∃ old ∈ s.tables.linkPreviews hash, SameAnswer old record
    | .broadcastEmbeds fits,.linked _ =>
      ∀ m ∈ s.inSight, m.id = job.messageID → (job.recipient && fits) = true ∧
        s.tables.embed m.id = some (noted.origin m.id).shown
    | _,_ => True

/-- Only the first message with the ID gets the embeds; any other has them. -/
def CanDeliver (s : State) : Prop :=
  match s.outbound with
  | .change (.embeds messageID embeds) :: _ =>
    ∀ m ∈ (s.messages.filter (fun m => decide (m.id = messageID))).drop 1, m.embeds = embeds
  | _ => True

def Allowed (x : RecordedState) : Event → Prop
  | .announce fits _ => CanAnnounce x.state fits
  | .respond i fits => CanRespond x.record x.state i fits
  | .work i e => CanWork x.record x.state i e
  | .deliver => CanDeliver x.state
  | _ => True

/-! ## The client -/

/-- What is found first is all there is to change. -/
theorem withEmbedsOf_eq {messageID : MessageID} {previews : List WsLinkPreview}
    {messages : List Message}
    (h : ∀ m ∈ (messages.filter (fun m => decide (m.id = messageID))).drop 1, m.embeds = previews) :
    withEmbedsOf messageID previews messages =
      messages.map (Change.patch (.embeds messageID previews)) := by
  induction messages with
  | nil => rfl
  | cons m rest ih =>
    rw [List.filter_cons] at h
    unfold withEmbedsOf
    rw [List.map_cons]
    by_cases hid : m.id = messageID
    · rw [if_pos (decide_eq_true hid)] at h
      have hrest : ∀ x ∈ rest, Change.patch (.embeds messageID previews) x = x := by
        intro x hx
        dsimp only [Change.patch]
        split
        · rename_i hxid
          have hembeds := h x (List.mem_filter.mpr ⟨hx,decide_eq_true hxid⟩)
          rw [← hembeds]
        · rfl
      rw [if_pos hid,List.map_congr_left hrest,List.map_id']
      exact congrArg (· :: rest) (if_pos hid).symm
    · rw [if_neg (by rw [decide_eq_true_iff]; exact hid)] at h
      rw [if_neg hid,ih h]
      exact congrArg (· :: _) (if_neg hid).symm

theorem Inv.client (h : Inv s) {messages : List Message} {outbound : List WsEvent}
    {hasMoreNewer paginationRef : Bool}
    (hsight : Arrive Change.patch (ReadGood s.source)
      (.copies messages :: outbound.map parcelOf)) :
    Inv { s with
      messages := messages
      outbound := outbound
      hasMoreNewer := hasMoreNewer
      paginationRef := paginationRef } :=
  ⟨h.stored,h.replies,h.linked,h.jobs,h.announcing,hsight⟩

theorem inv_deliver {event : WsEvent} {rest : List WsEvent} (h : Inv s) (hg : CanDeliver s)
    (ho : s.outbound = event :: rest) : Inv ({ s with outbound := rest }.receive event) := by
  have hsight := h.sight
  unfold State.queue at hsight
  rw [ho,List.map_cons] at hsight
  cases event with
  | message m =>
    unfold State.receive
    dsimp only
    split
    · exact h.client (hsight.deliver_copies (List.subset_append_left _ _))
    · exact h.client (hsight.deliver_copies (List.Subset.refl _))
  | change c =>
    cases c with
    | edited messageID content editedAt => exact h.client hsight.deliver_change
    | embeds messageID embeds =>
      unfold CanDeliver at hg
      rw [ho] at hg
      unfold State.receive
      dsimp only
      rw [withEmbedsOf_eq hg]
      exact h.client hsight.deliver_change
  | page load res messages =>
    have hpage : messages ⊆ s.messages ++ messages := List.subset_append_right _ _
    cases load with
    | initial => exact h.client (hsight.deliver_copies hpage)
    | older cursor =>
      refine h.client (hsight.deliver_copies ?_)
      exact List.append_subset.mpr ⟨hpage,List.subset_append_left _ _⟩
    | jump messageID => exact h.client (hsight.deliver_copies hpage)
    | newer cursor => exact h.client (hsight.deliver_copies (List.Subset.refl _))
    | reset => exact h.client (hsight.deliver_copies hpage)

/-! ## Every step -/

theorem inv_announce {a : Announcement} {fits enqueued : Bool} (h : Inv s) (hg : CanAnnounce s fits)
    (ha : s.announcing = some a) : Inv (s.announce fits enqueued a) := by
  unfold CanAnnounce at hg
  rw [ha] at hg
  cases a with
  | message m recipient => exact h.announceMessage ha
  | edited messageID content editedAt => exact h.announceEdited ha hg

/-! ### Pages -/

/-- The embeds of a message are those of the record that it is linked to. -/
theorem embedsOf_eq (t : Tables) (id : MessageID) : t.embedsOf id =
    ((t.embed id).map fun record => if record.status = .ok then [record.preview] else []).getD [] := by
  unfold Tables.embedsOf Tables.embed
  cases t.messageEmbeds id with
  | none => rfl
  | some hash =>
    rw [Option.bind_some]
    dsimp only
    cases t.linkPreviews hash <;> rfl

theorem contentOf_congr {t t' : Tables} {id : MessageID}
    (h : (t.rows id).content = (t'.rows id).content) : t.contentOf id = t'.contentOf id :=
  congrArg shownContent h

/-- A page that was read in time shows what is stored, or changed by an event to come. -/
theorem Found.readGood {hd : Handler} {r : Reading} {m : Message} (h : Found s.last hd r)
    (hstage : hd.stage = .embeds) (hm : m ∈ hd.messages) (ht : Timely s r m) :
    ReadGood s.source m := by
  constructor
  · exact h.known m hm
  · obtain ⟨hcontent,hmark⟩ := h.text m hm
    refine ht.text.imp_left ?_
    rintro ⟨hsame,hsameMark⟩
    exact ⟨hcontent.trans (contentOf_congr hsame),hmark.trans hsameMark⟩
  · intro q hq
    obtain ⟨hlt,hcontent⟩ := h.quoted m hm q hq
    exact ⟨hlt,(ht.quoted q hq).imp_left (fun hsame => hcontent.trans (contentOf_congr hsame))⟩
  · refine ht.embeds.imp_left (fun hsame => ?_)
    have hread := h.embeds m hm
    rw [if_pos hstage] at hread
    change m.embeds = s.tables.embedsOf m.id
    rw [hread,embedsOf_eq,embedsOf_eq,hsame]

theorem inv_respond {i : ℕ} {hd : Handler} {fits : Bool} (h : Inv s) (hfound : AllFound noted s)
    (hg : CanRespond noted s i fits) (hi : s.handlers[i]? = some hd) (hstage : hd.stage = .embeds) :
    Inv ((s.setHandler i none).push (.page hd.load hd.page hd.messages) fits) := by
  have hrest : Inv (s.setHandler i none) := h.handlersTo _
  cases fits with
  | false => exact hrest
  | true =>
    obtain ⟨r,hr,hpage⟩ := forall₂_getElem? hfound hi
    exact hrest.pushCopies rfl (fun m hm => hpage.readGood hstage hm (hg rfl hd hi r hr m hm))

/-! ### The workers -/

/-- What the messages linked to a site show stays, when the site says what it said. -/
theorem embedsOf_upsert {t : Tables} {hash : URLHash} {old record : LinkPreviewRecord} {id : MessageID}
    (hid : t.messageEmbeds id = some hash) (hold : t.linkPreviews hash = some old)
    (hsame : SameAnswer old record) :
    (t.upsertLinkPreview hash record).embedsOf id = t.embedsOf id := by
  have hnew : (t.upsertLinkPreview hash record).linkPreviews hash =
      some { record with imageToken := t.effectiveToken hash record } := Function.update_self ..
  have hlink : (t.upsertLinkPreview hash record).messageEmbeds id = some hash := hid
  unfold Tables.embedsOf
  rw [hlink,hid]
  dsimp only
  rw [hnew,hold]
  dsimp only
  by_cases hok : record.status = .ok
  · rw [if_pos hok,if_pos (hsame.1.mpr hok)]
    obtain ⟨hurl,htitle,hdescription,hsite,hnone,hsome⟩ := hsame.2 hok
    have htoken : t.effectiveToken hash record = old.imageToken := by
      unfold Tables.effectiveToken
      rw [hold]
      dsimp only
      split
      · rename_i himage
        exact (hnone himage).symm
      · rename_i himage
        split
        · rename_i hold
          rw [hsome himage hold,hold]
        · rfl
    unfold LinkPreviewRecord.preview
    rw [hurl,htitle,hdescription,hsite,htoken]
  · rw [if_neg hok,if_neg (fun h => hok (hsame.1.mp h))]

theorem embedsOf_upsert_of_ne {t : Tables} {hash : URLHash} {record : LinkPreviewRecord}
    {id : MessageID} (hid : t.messageEmbeds id ≠ some hash) :
    (t.upsertLinkPreview hash record).embedsOf id = t.embedsOf id := by
  have hsame : (t.upsertLinkPreview hash record).messageEmbeds id = t.messageEmbeds id := rfl
  unfold Tables.embedsOf
  rw [hsame]
  cases hlink : t.messageEmbeds id with
  | none => rfl
  | some hash' =>
    have hne : hash' ≠ hash := by
      rintro rfl
      exact hid hlink
    have hother : (t.upsertLinkPreview hash record).linkPreviews hash' = t.linkPreviews hash' :=
      Function.update_of_ne hne ..
    dsimp only
    rw [hother]

theorem inv_work {t : State} {i : ℕ} {job : Job} {e : WorkerEvent} (h : Inv s)
    (htraced : Traced noted s) (hg : CanWork noted s i e) (hi : s.jobs[i]? = some job)
    (he : s.work i job e = some t) : Inv t := by
  unfold CanWork at hg
  rw [hi] at hg
  obtain ⟨cache,jobs,hmoves,rfl⟩ | ⟨hash,record,jobs,rfl,hp,hmoves,rfl⟩ | ⟨hash,preview,hp,rfl⟩ |
    ⟨fits,preview,rfl,hp,rfl⟩ := work_cases hi he
  · exact h.work rfl rfl hmoves.old (fun _ _ => rfl) (fun m _ => ⟨hmoves.linking,Or.inl rfl⟩)
  · simp only [hp] at hg
    refine h.work rfl rfl hmoves.old (fun _ _ => rfl) (fun m hm => ⟨hmoves.linking,?_⟩)
    by_cases hlink : s.tables.messageEmbeds m.id = some hash
    · rcases hg m hm hlink with hlinking | ⟨old,hold,hsame⟩
      · exact Or.inr (hmoves.linking hlinking)
      · exact Or.inl (embedsOf_upsert hlink hold hsame)
    · exact Or.inl (embedsOf_upsert_of_ne hlink)
  · have hmoves : Moves s.jobs (s.jobs.set i { job with phase := .linked preview }) :=
      moves_set hi (fun _ => rfl)
    have hlen : i < s.jobs.length := (List.getElem?_eq_some_iff.mp hi).1
    refine h.work rfl rfl hmoves.old ?_ ?_
    · intro id hid
      exact Function.update_of_ne (Ne.symm (hid job (List.mem_of_getElem? hi))) _ _
    · intro m _
      refine ⟨hmoves.linking,?_⟩
      by_cases hid : m.id = job.messageID
      · exact Or.inr ⟨_,List.mem_set hlen _,hid.symm,rfl⟩
      · exact Or.inl (Tables.embedsOf_congr (Function.update_of_ne hid _ _) rfl)
  · simp only [hp] at hg
    refine h.broadcast hi (fun m hm hid => ?_)
    obtain ⟨hreaches,hstored⟩ := hg m hm hid
    have hmade := htraced.jobs job (List.mem_of_getElem? hi)
    rw [hp,← hid] at hmade
    obtain ⟨hstatus,rfl⟩ := hmade
    refine ⟨hreaches,?_⟩
    rw [embedsOf_eq,hstored]
    change (if (noted.origin m.id).status = .ok then _ else _) = _
    rw [if_pos hstatus]
    rfl

theorem not_busy (h : ¬ s.Busy) : s.announcing = none := by
  by_contra hne
  exact h (Or.inl hne)

/-- The invariant, with what is known of the record. -/
structure Kept (x : RecordedState) : Prop where
  inv : Inv x.state
  found : AllFound x.record x.state
  traced : Traced x.record x.state

theorem traced_unrecorded : Traced unrecorded.record unrecorded.state := by
  refine ⟨List.nodup_nil,?_,List.forall_mem_nil _⟩
  intro hash entry hentry
  cases hentry

theorem kept_unrecorded : Kept unrecorded :=
  ⟨inv_init,.nil,traced_unrecorded⟩

theorem inv_step {t : State} {e : Event} (h : Kept ⟨s,noted⟩) (hg : Allowed ⟨s,noted⟩ e)
    (hstep : step s e = some t) : Inv t := by
  obtain ⟨h,hfound,htraced⟩ := h
  dsimp only at h hfound htraced
  cases e with
  | request load =>
    unfold step at hstep
    dsimp only at hstep
    split at hstep
    · cases hstep
    · cases hstep
      exact h.handlersTo _
  | sendMessage userID content replyToID createdAt hasAttachments recipient =>
    unfold step at hstep
    dsimp only at hstep
    split at hstep
    · cases hstep
    · rename_i hbusy
      exact inv_sendMessage h (not_busy hbusy) hstep
  | editMessage messageID userID content windowExpired editedAt =>
    unfold step at hstep
    dsimp only at hstep
    split at hstep
    · cases hstep
    · rename_i hbusy
      exact inv_editMessage h (not_busy hbusy) hstep
  | announce fits enqueued =>
    obtain ⟨a,ha,rfl⟩ := Option.map_eq_some_iff.mp hstep
    exact inv_announce h hg ha
  | read i ok =>
    obtain ⟨hd,hi,rfl⟩ := Option.map_eq_some_iff.mp hstep
    cases s.readNext hd ok <;> exact h.handlersTo _
  | respond i fits =>
    unfold step at hstep
    dsimp only at hstep
    split at hstep
    · cases hstep
    · rename_i hd hi
      split at hstep
      · rename_i hstage
        cases hstep
        exact inv_respond h hfound hg hi hstage
      · cases hstep
  | work i e =>
    obtain ⟨job,hi,he⟩ := Option.bind_eq_some_iff.mp hstep
    exact inv_work h htraced hg hi he
  | cacheExpire hash =>
    cases hstep
    exact ⟨h.stored,h.replies,h.linked,h.jobs,h.announcing,h.sight⟩
  | deliver =>
    unfold step at hstep
    dsimp only at hstep
    split at hstep
    · cases hstep
    · rename_i event rest ho
      cases hstep
      exact inv_deliver h hg ho
  | render =>
    cases hstep
    exact h.client h.sight

theorem kept_step {x y : RecordedState} {e : Event} (h : Kept x) (hg : Allowed x e)
    (hstep : recordedStep x e = some y) : Kept y := by
  obtain ⟨s,noted⟩ := x
  obtain ⟨t,noted'⟩ := y
  obtain ⟨hstep,rfl⟩ := recording_eq_some_iff.mp hstep
  exact ⟨inv_step h hg hstep,found_step h.found h.inv hstep,traced_step h.traced h.inv hstep⟩

/-! ## What the user sees -/

/-- Nothing is in flight. -/
def Quiet (s : State) : Prop :=
  s.announcing = none ∧ s.handlers = [] ∧ s.jobs = [] ∧ s.outbound = []

instance (s : State) : Decidable (Quiet s) := by
  unfold Quiet
  infer_instance

structure UpToDate (t : Tables) (m : Message) : Prop where
  content : m.content = t.contentOf m.id
  editedAt : m.editedAt = (t.rows m.id).editedAt
  embeds : m.embeds = t.embedsOf m.id
  quoted : ∀ q ∈ m.replyTo, q.content = t.contentOf q.messageID

theorem Inv.upToDate (h : Inv s) (hq : Quiet s) : ∀ m ∈ s.messages, UpToDate s.tables m := by
  obtain ⟨hfree,-,hjobs,hout⟩ := hq
  have hsight := h.sight
  unfold State.queue at hsight
  rw [hout] at hsight
  have hlinking : ∀ id, ¬ s.source.Linking id := by
    rintro id ⟨job,hmem,-⟩
    unfold State.source at hmem
    rw [hjobs] at hmem
    cases hmem
  intro m hm
  have hgood := hsight.settled m hm
  obtain ⟨hcontent,hmark⟩ := hgood.text.resolve_right (not_editing hfree m.id)
  refine ⟨hcontent,hmark,hgood.embeds.resolve_right (hlinking m.id),?_⟩
  intro q hq
  exact (hgood.quoted q hq).2.resolve_right (not_editing hfree q.messageID)

/-- In every run whose steps are allowed, every message shown has the text, the mark and the
embeds that are stored, and quotes what is stored, in every state with nothing in flight. -/
theorem content_converges {es : List Event} {x : RecordedState}
    (h : RunsWhen recordedStep Allowed unrecorded es x) (hq : Quiet x.state) :
    ∀ m ∈ x.state.messages, UpToDate x.state.tables m :=
  (h.invariant kept_unrecorded kept_step).inv.upToDate hq

/-! ## Two runs -/

instance (s : State) (fits : Bool) : Decidable (CanAnnounce s fits) := by
  unfold CanAnnounce
  split <;> infer_instance

instance (src : Source) (id : MessageID) : Decidable (src.Editing id) :=
  match h : src.announcing with
  | some (.edited messageID content editedAt) =>
    if heq : messageID = id then isTrue ⟨content,editedAt,heq ▸ h⟩
    else isFalse (fun ⟨_,_,he⟩ => heq (by rw [h] at he; cases he; rfl))
  | some (.message _ _) => isFalse (fun ⟨_,_,he⟩ => by rw [h] at he; cases he)
  | none => isFalse (fun ⟨_,_,he⟩ => by rw [h] at he; cases he)

instance (src : Source) (id : MessageID) : Decidable (src.Linking id) := by
  unfold Source.Linking Job.Linked
  infer_instance

instance (s : State) (r : Reading) (m : Message) : Decidable (Timely s r m) :=
  decidable_of_iff
    ((((r.rows.rows m.id).content = (s.tables.rows m.id).content ∧
      (r.rows.rows m.id).editedAt = (s.tables.rows m.id).editedAt) ∨ s.source.Editing m.id) ∧
    (∀ q ∈ m.replyTo, (r.replies.rows q.messageID).content = (s.tables.rows q.messageID).content ∨
      s.source.Editing q.messageID) ∧
    (r.embeds.embed m.id = s.tables.embed m.id ∨ s.source.Linking m.id))
    ⟨fun ⟨ht,hq,he⟩ => ⟨ht,hq,he⟩,fun h => ⟨h.text,h.quoted,h.embeds⟩⟩

instance (noted : Noted) (s : State) (i : ℕ) (fits : Bool) : Decidable (CanRespond noted s i fits) := by
  unfold CanRespond
  infer_instance

instance (old record : LinkPreviewRecord) : Decidable (SameAnswer old record) := by
  unfold SameAnswer
  infer_instance

instance (noted : Noted) (s : State) (i : ℕ) (e : WorkerEvent) : Decidable (CanWork noted s i e) := by
  unfold CanWork
  split
  · infer_instance
  · split <;> infer_instance

instance (s : State) : Decidable (CanDeliver s) := by
  unfold CanDeliver
  split <;> infer_instance

instance (x : RecordedState) (e : Event) : Decidable (Allowed x e) := by
  cases e <;> unfold Allowed <;> infer_instance

/-- A message gets its embeds, is loaded again, quoted, and edited. -/
theorem content_converges_edited : ∃ x, RunsWhen recordedStep Allowed unrecorded
    [.sendMessage 1 "http://x" none 1 false true,.announce true true,.deliver,
      .work 0 (.process (some "x")),.work 0 .cacheGet,.work 0 (.getLinkPreview false),
      .work 0 (.fetch ⟨"http://x",.ok,"X","","","",""⟩),.work 0 (.upsertLinkPreview true),
      .work 0 .cacheSet,.work 0 (.linkMessageEmbed true),.work 0 (.broadcastEmbeds true),.deliver,
      .request .initial,.read 0 true,.read 0 true,.read 0 true,.respond 0 true,.deliver,
      .sendMessage 2 "re" (some 1) 2 false true,.announce true false,.deliver,
      .editMessage 1 1 "b" false 3,.announce true false,.deliver] x ∧
    (Quiet x.state ∧ x.state.messages.map Message.content = ["b","re"] ∧
      x.state.messages.map Message.replyTo = [none,some ⟨1,"b"⟩]) ∧
    ∀ m ∈ x.state.messages, UpToDate x.state.tables m := by
  obtain ⟨x,hx,hf⟩ := exists_runsWhen_of_exec recordedStep Allowed unrecorded
    [.sendMessage 1 "http://x" none 1 false true,.announce true true,.deliver,
      .work 0 (.process (some "x")),.work 0 .cacheGet,.work 0 (.getLinkPreview false),
      .work 0 (.fetch ⟨"http://x",.ok,"X","","","",""⟩),.work 0 (.upsertLinkPreview true),
      .work 0 .cacheSet,.work 0 (.linkMessageEmbed true),.work 0 (.broadcastEmbeds true),.deliver,
      .request .initial,.read 0 true,.read 0 true,.read 0 true,.respond 0 true,.deliver,
      .sendMessage 2 "re" (some 1) 2 false true,.announce true false,.deliver,
      .editMessage 1 1 "b" false 3,.announce true false,.deliver]
    (fun x => decide (Quiet x.state ∧ x.state.messages.map Message.content = ["b","re"] ∧
      x.state.messages.map Message.replyTo = [none,some ⟨1,"b"⟩])) true (by decide +kernel)
  have hshown := of_decide_eq_true hf
  exact ⟨x,hx,hshown,content_converges hx hshown.1⟩

/-- A jump reads message 1, which is then edited; the client has nothing of the channel yet
and ignores the event, and the page that follows has the old text. -/
theorem stale_page_shown : ¬ ∀ (es : List Event) (s : State), Runs step init es s → Quiet s →
    ∀ m ∈ s.messages, m.content = s.tables.contentOf m.id := by
  intro h
  obtain ⟨s,hs,hf⟩ := exists_runs_of_exec step init
    [.sendMessage 1 "a" none 1 false false,.announce true false,.request (.jump 1),.read 0 true,
      .editMessage 1 1 "b" false 2,.announce true false,.deliver,.read 0 true,.read 0 true,
      .respond 0 true,.deliver]
    (fun s => decide (Quiet s ∧ s.messages.map (fun m => (m.id,m.content)) = [(1,"a")] ∧
      s.tables.contentOf 1 = "b")) true (by decide +kernel)
  obtain ⟨hq,hms,hstored⟩ := of_decide_eq_true hf
  obtain ⟨m,hm,hpair⟩ : ∃ m ∈ s.messages, (m.id,m.content) = ((1 : MessageID),"a") :=
    List.mem_map.mp (by rw [hms]; exact List.mem_singleton.mpr rfl)
  obtain ⟨hid,hcontent⟩ := Prod.mk.inj hpair
  have hshown := h _ s hs hq m hm
  rw [hid,hcontent,hstored] at hshown
  exact absurd hshown (by decide)

end MiniDiscord.MessageContent
