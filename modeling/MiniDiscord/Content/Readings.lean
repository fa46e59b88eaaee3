import MiniDiscord.Content.Steps
import MiniDiscord.Transition.Histories

/-! # What was read, and when

Beside the system runs a record of the tables as the queries of each page found them, and of
the record of a link that an entry of the workers was made of.
-/
namespace MiniDiscord.MessageContent
open ChatHub SfuTrack MessageHistory Transition Replication

variable {s : State}

/-! ## What is noted -/

/-- The tables as the three queries of a page found them. -/
structure Reading where
  rows : Tables
  replies : Tables
  embeds : Tables

/-- `readings` go with the handlers; `origin` is what the entry of a message's job was made of,
and `cachedFrom` what the entry in the cache was. -/
structure Noted where
  readings : List Reading
  origin : MessageID → LinkPreviewRecord
  cachedFrom : URLHash → LinkPreviewRecord

/-- What a query for embeds finds that fails. -/
def Tables.withoutEmbeds (t : Tables) : Tables := { t with messageEmbeds := fun _ => none }

def Reading.next (r : Reading) (t : Tables) (ok : Bool) : Stage → Reading
  | .requested => { r with rows := t }
  | .rows => { r with replies := t }
  | .replies => { r with embeds := if ok = true then t else t.withoutEmbeds }
  | .embeds => r

def Noted.takes (noted : Noted) (job : Job) (record : LinkPreviewRecord) : Noted :=
  { noted with origin := Function.update noted.origin job.messageID record }

def Noted.sets (noted : Noted) (hash : URLHash) (record : LinkPreviewRecord) : Noted :=
  { noted with cachedFrom := Function.update noted.cachedFrom hash record }

def noteWork (s : State) (noted : Noted) (job : Job) (e : WorkerEvent) : Noted :=
  match e,job.phase with
  | .cacheGet,.resolving hash => noted.takes job (noted.cachedFrom hash)
  | .getLinkPreview _,.missed hash =>
    match s.tables.linkPreviews hash with
    | some record => noted.takes job record
    | none => noted
  | .joinFlight,.fetching hash => noted.takes job (noted.cachedFrom hash)
  | .upsertLinkPreview _,.fetched hash record =>
    noted.takes job { record with imageToken := s.tables.effectiveToken hash record }
  | .cacheSet,.found hash _ => noted.sets hash (noted.origin job.messageID)
  | _,_ => noted

def note (s : State) (noted : Noted) : Event → Noted
  | .request _ => { noted with readings := noted.readings ++ [⟨s.tables,s.tables,s.tables⟩] }
  | .read i ok =>
    match s.handlers[i]?,noted.readings[i]? with
    | some hd,some r =>
      if (s.readNext hd ok).isSome = true then
        { noted with readings := noted.readings.set i (r.next s.tables ok hd.stage) }
      else { noted with readings := noted.readings.eraseIdx i }
    | _,_ => noted
  | .respond i _ => { noted with readings := noted.readings.eraseIdx i }
  | .work i e =>
    match s.jobs[i]? with
    | some job => noteWork s noted job e
    | none => noted
  | _ => noted

abbrev RecordedState := Recorded State Noted

abbrev recordedStep : RecordedState → Event → Option RecordedState := recording step note

def unrecorded : RecordedState :=
  ⟨init,[],fun _ => ⟨"",.failed,"","","","",""⟩,fun _ => ⟨"",.failed,"","","","",""⟩⟩

/-! ## Pages -/

/-- The page has what its queries found. -/
structure Found (last : MessageID) (hd : Handler) (r : Reading) : Prop where
  known : ∀ m ∈ hd.messages, m.id ≤ last
  text : ∀ m ∈ hd.messages, m.content = r.rows.contentOf m.id ∧
    m.editedAt = (r.rows.rows m.id).editedAt
  quoted : ∀ m ∈ hd.messages, ∀ q ∈ m.replyTo, q.messageID < m.id ∧
    q.content = r.replies.contentOf q.messageID
  embeds : ∀ m ∈ hd.messages,
    m.embeds = if hd.stage = .embeds then r.embeds.embedsOf m.id else []

theorem found_nil {last : MessageID} {load : Load} {r : Reading} : Found last { load := load } r :=
  ⟨List.forall_mem_nil _,List.forall_mem_nil _,List.forall_mem_nil _,List.forall_mem_nil _⟩

theorem Found.mono {last last' : MessageID} {hd : Handler} {r : Reading} (h : Found last hd r)
    (hlast : last ≤ last') : Found last' hd r :=
  ⟨fun m hm => le_trans (h.known m hm) hlast,h.text,h.quoted,h.embeds⟩

/-- What a query puts to the messages leaves their rows as they were found. -/
theorem Found.rows_map {last : MessageID} {hd : Handler} {r : Reading} (h : Found last hd r)
    {f : Message → Message} (hid : ∀ m, (f m).id = m.id)
    (hcontent : ∀ m, (f m).content = m.content) (hedited : ∀ m, (f m).editedAt = m.editedAt) :
    ∀ m ∈ hd.messages.map f, m.id ≤ last ∧ m.content = r.rows.contentOf m.id ∧
      m.editedAt = (r.rows.rows m.id).editedAt := by
  intro m hm
  obtain ⟨x,hx,rfl⟩ := List.mem_map.mp hm
  rw [hid,hcontent,hedited]
  exact ⟨h.known x hx,h.text x hx⟩

/-- A query finds what is stored. -/
theorem Found.next {hd hd' : Handler} {r : Reading} {ok : Bool} (h : Found s.last hd r)
    (hinv : Inv s) (hread : s.readNext hd ok = some hd') :
    Found s.last hd' (r.next s.tables ok hd.stage) := by
  have hembeds := h.embeds
  cases hstage : hd.stage with
  | requested =>
    simp only [State.readNext,hstage] at hread
    split at hread
    · cases hread
    · obtain ⟨page,hpage,rfl⟩ := Option.map_eq_some_iff.mp hread
      constructor
      · intro m hm
        obtain ⟨k,hk,rfl⟩ := List.mem_map.mp hm
        exact hinv.stored k (page_subset hpage hk)
      · intro m hm
        obtain ⟨k,-,rfl⟩ := List.mem_map.mp hm
        exact ⟨rfl,rfl⟩
      · intro m hm q hq
        obtain ⟨k,-,rfl⟩ := List.mem_map.mp hm
        cases hq
      · intro m hm
        obtain ⟨k,-,rfl⟩ := List.mem_map.mp hm
        rfl
  | rows =>
    simp only [State.readNext,hstage] at hread
    rw [hstage] at hembeds
    split at hread
    · cases hread
    · cases hread
      have hrows := h.rows_map (f := s.tables.withReplyTo)
        (fun _ => rfl) (fun _ => rfl) (fun _ => rfl)
      constructor
      · exact fun m hm => (hrows m hm).1
      · exact fun m hm => (hrows m hm).2
      · intro m hm q hq
        obtain ⟨x,hx,rfl⟩ := List.mem_map.mp hm
        obtain ⟨id,hid,rfl⟩ := Option.map_eq_some_iff.mp hq
        exact ⟨hinv.replies x.id id hid,rfl⟩
      · intro m hm
        obtain ⟨x,hx,rfl⟩ := List.mem_map.mp hm
        exact hembeds x hx
  | replies =>
    simp only [State.readNext,hstage] at hread
    rw [hstage] at hembeds
    cases hread
    cases ok with
    | true =>
      have hrows := h.rows_map (f := s.tables.withEmbeds)
        (fun _ => rfl) (fun _ => rfl) (fun _ => rfl)
      constructor
      · exact fun m hm => (hrows m hm).1
      · exact fun m hm => (hrows m hm).2
      · intro m hm
        obtain ⟨x,hx,rfl⟩ := List.mem_map.mp hm
        exact h.quoted x hx
      · intro m hm
        obtain ⟨x,hx,rfl⟩ := List.mem_map.mp hm
        rfl
    | false => exact ⟨h.known,h.text,h.quoted,hembeds⟩
  | embeds =>
    simp only [State.readNext,hstage] at hread
    cases hread
    exact h

def AllFound (noted : Noted) (s : State) : Prop :=
  List.Forall₂ (Found s.last) s.handlers noted.readings

/-! ## Jobs -/

/-- What a job has of a preview was made of the record. -/
def Made (record : LinkPreviewRecord) : Phase → Prop
  | .found _ entry => entry = toCached record
  | .resolved _ preview => record.status = .ok ∧ preview = record.preview
  | .linked preview => record.status = .ok ∧ preview = record.preview
  | _ => True

/-- A message has one job at most, and every entry was made of a record. -/
structure Traced (noted : Noted) (s : State) : Prop where
  one : (s.jobs.map Job.messageID).Nodup
  cache : ∀ hash, ∀ entry ∈ s.cache hash, entry = toCached (noted.cachedFrom hash)
  jobs : ∀ job ∈ s.jobs, Made (noted.origin job.messageID) job.phase

theorem toCached_ok {record : LinkPreviewRecord} (h : (toCached record).ok = true) :
    record.status = .ok ∧ (toCached record).preview = record.preview := by
  unfold toCached at h ⊢
  split at h
  · rename_i hstatus
    rw [if_pos hstatus]
    exact ⟨hstatus,rfl⟩
  · cases h

section Jobs
variable {noted noted' : Noted} {i : ℕ} {job : Job} (h : Traced noted s)
  (hi : s.jobs[i]? = some job)
  (horigin : ∀ id ≠ job.messageID, noted'.origin id = noted.origin id)
include h hi

/-- The other jobs are of other messages. -/
theorem Traced.other {j : ℕ} {job' : Job} (hj : s.jobs[j]? = some job') (hne : j ≠ i) :
    job'.messageID ≠ job.messageID := by
  intro heq
  have hlen : j < (s.jobs.map Job.messageID).length := by
    rw [List.length_map]
    exact (List.getElem?_eq_some_iff.mp hj).1
  refine hne ((List.getElem?_inj hlen h.one).mp ?_)
  rw [List.getElem?_map,List.getElem?_map,hj,hi]
  exact congrArg some heq

include horigin

/-- A job goes on to a phase that has what its record gives. -/
theorem Traced.setJob {phase : Phase} (hphase : Made (noted'.origin job.messageID) phase)
    {tables : Tables} {cache : URLHash → Option CachedPreview}
    (hcache : ∀ hash, ∀ entry ∈ cache hash, entry = toCached (noted'.cachedFrom hash)) :
    Traced noted' { s with
      tables := tables, cache := cache, jobs := s.jobs.set i { job with phase := phase } } := by
  have hlen : i < s.jobs.length := (List.getElem?_eq_some_iff.mp hi).1
  refine ⟨?_,hcache,?_⟩
  · have hmap : (s.jobs.set i { job with phase := phase }).map Job.messageID =
        s.jobs.map Job.messageID := by
      have hsame : (s.jobs.map Job.messageID)[i]? = some job.messageID := by
        rw [List.getElem?_map,hi]
        rfl
      obtain ⟨hlen',hval⟩ := List.getElem?_eq_some_iff.mp hsame
      rw [List.map_set]
      change (s.jobs.map Job.messageID).set i job.messageID = _
      rw [← hval,List.set_getElem_self]
    change ((s.jobs.set i { job with phase := phase }).map Job.messageID).Nodup
    rw [hmap]
    exact h.one
  · intro job' hmem
    obtain ⟨j,hj⟩ := List.mem_iff_getElem?.mp hmem
    by_cases hji : j = i
    · rw [hji,List.getElem?_set_self hlen] at hj
      cases hj
      exact hphase
    · rw [List.getElem?_set_ne (Ne.symm hji)] at hj
      rw [horigin _ (h.other hi hj hji)]
      exact h.jobs job' (List.mem_of_getElem? hj)

theorem Traced.dropJob {tables : Tables} {cache : URLHash → Option CachedPreview}
    (hcache : ∀ hash, ∀ entry ∈ cache hash, entry = toCached (noted'.cachedFrom hash)) :
    Traced noted' { s with tables := tables, cache := cache, jobs := s.jobs.eraseIdx i } := by
  refine ⟨?_,hcache,?_⟩
  · exact h.one.sublist ((List.eraseIdx_sublist s.jobs i).map Job.messageID)
  · intro job' hmem
    obtain ⟨j,hji,hj⟩ := List.mem_eraseIdx_iff_getElem?.mp hmem
    rw [horigin _ (h.other hi hj hji)]
    exact h.jobs job' (List.mem_of_getElem? hj)

/-- An entry of a record that is ok becomes the job's preview. -/
theorem Traced.resolvedTo {hash : URLHash} {entry : CachedPreview}
    (hentry : entry = toCached (noted'.origin job.messageID)) {cache : URLHash → Option CachedPreview}
    (hcache : ∀ hash, ∀ entry ∈ cache hash, entry = toCached (noted'.cachedFrom hash)) :
    Traced noted' ({ s with cache := cache }.resolvedTo i job hash entry) := by
  unfold State.resolvedTo
  split
  · rename_i hok
    rw [hentry] at hok ⊢
    refine h.setJob hi horigin ?_ hcache
    exact toCached_ok hok
  · exact h.dropJob hi horigin hcache

end Jobs

@[simp] theorem takes_origin (noted : Noted) (job : Job) (record : LinkPreviewRecord) :
    (noted.takes job record).origin job.messageID = record := Function.update_self ..

theorem takes_others (noted : Noted) (job : Job) (record : LinkPreviewRecord) :
    ∀ id ≠ job.messageID, (noted.takes job record).origin id = noted.origin id :=
  fun _ hid => Function.update_of_ne hid _ _

theorem sets_self (noted : Noted) (hash : URLHash) (record : LinkPreviewRecord) :
    (noted.sets hash record).cachedFrom hash = record := Function.update_self ..

theorem sets_of_ne (noted : Noted) {hash hash' : URLHash} (h : hash' ≠ hash)
    (record : LinkPreviewRecord) :
    (noted.sets hash record).cachedFrom hash' = noted.cachedFrom hash' := Function.update_of_ne h ..

theorem noteWork_readings (s : State) (noted : Noted) (job : Job) (e : WorkerEvent) :
    (noteWork s noted job e).readings = noted.readings := by
  unfold noteWork
  split
  · rfl
  · split <;> rfl
  · rfl
  · rfl
  · rfl
  · rfl

/-- A worker makes an entry of the record that is stored, or takes one that was made so. -/
theorem traced_work {noted : Noted} {t : State} {i : ℕ} {job : Job} {e : WorkerEvent}
    (h : Traced noted s) (hi : s.jobs[i]? = some job) (he : s.work i job e = some t) :
    Traced (noteWork s noted job e) t := by
  have hgood := h.jobs job (List.mem_of_getElem? hi)
  unfold State.work at he
  split at he
  · rename_i hp
    cases he
    have hnote : noteWork s noted job (.process none) = noted := rfl
    rw [hnote]
    exact h.dropJob hi (fun _ _ => rfl) h.cache
  · rename_i hash hp
    cases he
    have hnote : noteWork s noted job (.process (some hash)) = noted := rfl
    rw [hnote]
    refine h.setJob hi (fun _ _ => rfl) ?_ h.cache
    exact trivial
  · rename_i hash hp
    have hnote : noteWork s noted job .cacheGet = noted.takes job (noted.cachedFrom hash) := by
      simp only [noteWork,hp]
    rw [hnote]
    split at he
    · rename_i entry hentry
      cases he
      refine h.resolvedTo hi (takes_others _ _ _) ?_ h.cache
      rw [takes_origin]
      exact h.cache hash entry hentry
    · cases he
      refine h.setJob hi (takes_others _ _ _) ?_ h.cache
      exact trivial
  · rename_i fresh hash hp
    cases hrecord : s.tables.linkPreviews hash with
    | none =>
      have hnote : noteWork s noted job (.getLinkPreview fresh) = noted := by
        simp only [noteWork,hp,hrecord]
      rw [hrecord] at he
      cases he
      rw [hnote]
      refine h.setJob hi (fun _ _ => rfl) ?_ h.cache
      exact trivial
    | some record =>
      have hnote : noteWork s noted job (.getLinkPreview fresh) = noted.takes job record := by
        simp only [noteWork,hp,hrecord]
      rw [hrecord] at he
      rw [hnote]
      cases fresh with
      | true =>
        cases he
        refine h.setJob hi (takes_others _ _ _) ?_ h.cache
        rw [takes_origin]
        exact rfl
      | false =>
        cases he
        refine h.setJob hi (takes_others _ _ _) ?_ h.cache
        exact trivial
  · rename_i record hash hp
    cases he
    have hnote : noteWork s noted job (.fetch record) = noted := rfl
    rw [hnote]
    refine h.setJob hi (fun _ _ => rfl) ?_ h.cache
    exact trivial
  · rename_i hash hp
    have hnote : noteWork s noted job .joinFlight = noted.takes job (noted.cachedFrom hash) := by
      simp only [noteWork,hp]
    rw [hnote]
    split at he
    · rename_i entry hentry
      cases he
      refine h.resolvedTo hi (takes_others _ _ _) ?_ h.cache
      rw [takes_origin]
      exact h.cache hash entry hentry
    · cases he
      exact h.dropJob hi (takes_others _ _ _) h.cache
  · rename_i ok hash record hp
    have hnote : noteWork s noted job (.upsertLinkPreview ok) = noted.takes job
        { record with imageToken := s.tables.effectiveToken hash record } := by
      simp only [noteWork,hp]
    rw [hnote]
    split at he
    · cases he
      refine h.setJob hi (takes_others _ _ _) ?_ h.cache
      rw [takes_origin]
      exact rfl
    · cases he
      exact h.dropJob hi (takes_others _ _ _) h.cache
  · rename_i hash entry hp
    cases he
    rw [hp] at hgood
    have hnote : noteWork s noted job .cacheSet = noted.sets hash (noted.origin job.messageID) := by
      simp only [noteWork,hp]
    rw [hnote]
    have horigin : ∀ id ≠ job.messageID,
        (noted.sets hash (noted.origin job.messageID)).origin id = noted.origin id := fun _ _ => rfl
    refine h.resolvedTo hi horigin hgood ?_
    intro hash' entry' hentry'
    by_cases hsame : hash' = hash
    · rw [hsame,Function.update_self] at hentry'
      cases hentry'
      rw [hsame,sets_self]
      exact hgood
    · rw [Function.update_of_ne hsame] at hentry'
      rw [sets_of_ne noted hsame]
      exact h.cache hash' entry' hentry'
  · rename_i ok hash preview hp
    rw [hp] at hgood
    have hnote : noteWork s noted job (.linkMessageEmbed ok) = noted := rfl
    rw [hnote]
    split at he
    · cases he
      refine h.setJob hi (fun _ _ => rfl) ?_ h.cache
      exact hgood
    · cases he
      exact h.dropJob hi (fun _ _ => rfl) h.cache
  · rename_i fits preview hp
    cases he
    have hnote : noteWork s noted job (.broadcastEmbeds fits) = noted := rfl
    rw [hnote]
    have hdrop : Traced noted (s.dropJob i) := h.dropJob hi (fun _ _ => rfl) h.cache
    unfold State.push
    split
    · exact ⟨hdrop.one,hdrop.cache,hdrop.jobs⟩
    · exact hdrop
  · cases he

/-! ## Every step -/

section Steps
variable {noted : Noted} {t : State} {e : Event}

theorem Traced.congr (h : Traced noted s) {noted' : Noted} (hjobs : t.jobs = s.jobs)
    (hcache : t.cache = s.cache) (horigin : noted'.origin = noted.origin)
    (hfrom : noted'.cachedFrom = noted.cachedFrom) : Traced noted' t := by
  constructor
  · rw [hjobs]
    exact h.one
  · rw [hcache,hfrom]
    exact h.cache
  · rw [hjobs,horigin]
    exact h.jobs

theorem push_frame (s : State) (event : WsEvent) (reaches : Bool) :
    (s.push event reaches).jobs = s.jobs ∧ (s.push event reaches).cache = s.cache ∧
      (s.push event reaches).handlers = s.handlers ∧ (s.push event reaches).last = s.last := by
  unfold State.push
  split <;> exact ⟨rfl,rfl,rfl,rfl⟩

theorem receive_frame (s : State) (event : WsEvent) : (s.receive event).jobs = s.jobs ∧
    (s.receive event).cache = s.cache ∧ (s.receive event).handlers = s.handlers ∧
      (s.receive event).last = s.last := by
  cases event with
  | message m =>
    unfold State.receive
    dsimp only
    split <;> exact ⟨rfl,rfl,rfl,rfl⟩
  | change c => cases c <;> exact ⟨rfl,rfl,rfl,rfl⟩
  | page load res messages => cases load <;> exact ⟨rfl,rfl,rfl,rfl⟩

theorem sendMessage_frame {userID : UserID} {content : String} {replyToID : Option MessageID}
    {createdAt : Time} {hasAttachments recipient : Bool}
    (he : s.sendMessage userID content replyToID createdAt hasAttachments recipient = some t) :
    t.jobs = s.jobs ∧ t.cache = s.cache ∧ t.handlers = s.handlers ∧ s.last ≤ t.last := by
  unfold State.sendMessage at he
  dsimp only at he
  split at he
  · cases he
  · split at he
    · cases he
    · split at he
      · cases he
      · cases he
        exact ⟨rfl,rfl,rfl,Int.le_add_one le_rfl⟩

theorem editMessage_frame {messageID : MessageID} {userID : UserID} {content : String}
    {windowExpired : Bool} {editedAt : Time}
    (he : s.editMessage messageID userID content windowExpired editedAt = some t) :
    t.jobs = s.jobs ∧ t.cache = s.cache ∧ t.handlers = s.handlers ∧ t.last = s.last := by
  unfold State.editMessage at he
  dsimp only at he
  split at he
  · cases he
  · split at he
    · cases he
    · cases he
      exact ⟨rfl,rfl,rfl,rfl⟩

theorem announce_frame (fits enqueued : Bool) (a : Announcement) :
    (s.announce fits enqueued a).cache = s.cache ∧
      (s.announce fits enqueued a).handlers = s.handlers ∧
        (s.announce fits enqueued a).last = s.last := by
  cases a with
  | message m recipient =>
    obtain ⟨-,hcache,hhandlers,hlast⟩ :=
      push_frame { s with announcing := none } (.message m) (recipient && fits)
    unfold State.announce
    dsimp only
    split <;> exact ⟨hcache,hhandlers,hlast⟩
  | edited messageID content editedAt =>
    obtain ⟨-,hcache,hhandlers,hlast⟩ :=
      push_frame { s with announcing := none } (.change (.edited messageID content editedAt)) fits
    exact ⟨hcache,hhandlers,hlast⟩

/-- A message that was saved has no job before it is announced. -/
theorem traced_announce {a : Announcement} {fits enqueued : Bool} (h : Traced noted s)
    (hinv : Inv s) (ha : s.announcing = some a) : Traced noted (s.announce fits enqueued a) := by
  obtain ⟨hcache,-,-⟩ := announce_frame (s := s) fits enqueued a
  cases a with
  | message m recipient =>
    have hnew : ∀ job ∈ s.jobs, job.messageID ≠ m.id := by
      have hgood := hinv.announcing
      unfold AnnounceGood State.source at hgood
      rw [ha] at hgood
      exact hgood.2.2
    obtain ⟨hjobs,-⟩ := push_frame { s with announcing := none } (.message m) (recipient && fits)
    unfold State.announce at hcache ⊢
    dsimp only at hcache ⊢
    split
    · refine ⟨?_,?_,?_⟩
      · dsimp only
        rw [hjobs,List.map_append,List.nodup_append]
        refine ⟨h.one,List.nodup_singleton _,?_⟩
        intro id hid id' hid' heq
        obtain ⟨job,hmem,hjob⟩ := List.mem_map.mp hid
        exact hnew job hmem (hjob.trans (heq.trans (List.mem_singleton.mp hid')))
      · dsimp only
        rw [push_frame _ _ _ |>.2.1]
        exact h.cache
      · intro job hmem
        dsimp only at hmem
        rw [hjobs] at hmem
        rcases List.mem_append.mp hmem with hmem | hmem
        · exact h.jobs job hmem
        · rw [List.mem_singleton.mp hmem]
          exact trivial
    · exact h.congr hjobs (push_frame _ _ _).2.1 rfl rfl
  | edited messageID content editedAt =>
    exact h.congr (push_frame _ _ _).1 (push_frame _ _ _).2.1 rfl rfl

theorem traced_step (h : Traced noted s) (hinv : Inv s) (he : step s e = some t) :
    Traced (note s noted e) t := by
  unfold step at he
  cases e with
  | request load =>
    dsimp only at he
    split at he
    · cases he
    · cases he
      exact h.congr rfl rfl rfl rfl
  | sendMessage userID content replyToID createdAt hasAttachments recipient =>
    dsimp only at he
    split at he
    · cases he
    · obtain ⟨hjobs,hcache,-⟩ := sendMessage_frame he
      exact h.congr hjobs hcache rfl rfl
  | editMessage messageID userID content windowExpired editedAt =>
    dsimp only at he
    split at he
    · cases he
    · obtain ⟨hjobs,hcache,-⟩ := editMessage_frame he
      exact h.congr hjobs hcache rfl rfl
  | announce fits enqueued =>
    obtain ⟨a,ha,rfl⟩ := Option.map_eq_some_iff.mp he
    exact traced_announce h hinv ha
  | read i ok =>
    obtain ⟨hd,hi,rfl⟩ := Option.map_eq_some_iff.mp he
    have hread : (note s noted (.read i ok)).origin = noted.origin ∧
        (note s noted (.read i ok)).cachedFrom = noted.cachedFrom := by
      unfold note
      dsimp only
      split
      · split <;> exact ⟨rfl,rfl⟩
      · exact ⟨rfl,rfl⟩
    cases hnext : s.readNext hd ok <;> exact h.congr rfl rfl hread.1 hread.2
  | respond i fits =>
    dsimp only at he
    split at he
    · cases he
    · split at he
      · cases he
        exact h.congr (push_frame _ _ _).1 (push_frame _ _ _).2.1 rfl rfl
      · cases he
  | work i w =>
    obtain ⟨job,hi,he⟩ := Option.bind_eq_some_iff.mp he
    have hnote : note s noted (.work i w) = noteWork s noted job w := by
      unfold note
      dsimp only
      rw [hi]
    rw [hnote]
    exact traced_work h hi he
  | cacheExpire hash =>
    cases he
    refine ⟨h.one,fun hash' entry hentry => ?_,h.jobs⟩
    by_cases hsame : hash' = hash
    · rw [hsame] at hentry
      dsimp only at hentry
      rw [Function.update_self] at hentry
      cases hentry
    · dsimp only at hentry
      rw [Function.update_of_ne hsame] at hentry
      exact h.cache hash' entry hentry
  | deliver =>
    dsimp only at he
    split at he
    · cases he
    · cases he
      exact h.congr (receive_frame _ _).1 (receive_frame _ _).2.1 rfl rfl
  | render =>
    cases he
    exact h.congr rfl rfl rfl rfl

theorem AllFound.congr (h : AllFound noted s) {noted' : Noted} (hhandlers : t.handlers = s.handlers)
    (hlast : s.last ≤ t.last) (hreadings : noted'.readings = noted.readings) :
    AllFound noted' t := by
  unfold AllFound
  rw [hhandlers,hreadings]
  exact h.imp (fun _ _ hfound => hfound.mono hlast)

/-- Nothing but the queries themselves concerns what they have found. -/
theorem found_step (h : AllFound noted s) (hinv : Inv s) (he : step s e = some t) :
    AllFound (note s noted e) t := by
  unfold step at he
  cases e with
  | request load =>
    dsimp only at he
    split at he
    · cases he
    · cases he
      exact List.rel_append h (.cons found_nil .nil)
  | sendMessage userID content replyToID createdAt hasAttachments recipient =>
    dsimp only at he
    split at he
    · cases he
    · obtain ⟨-,-,hhandlers,hlast⟩ := sendMessage_frame he
      exact h.congr hhandlers hlast rfl
  | editMessage messageID userID content windowExpired editedAt =>
    dsimp only at he
    split at he
    · cases he
    · obtain ⟨-,-,hhandlers,hlast⟩ := editMessage_frame he
      exact h.congr hhandlers hlast.ge rfl
  | announce fits enqueued =>
    obtain ⟨a,-,rfl⟩ := Option.map_eq_some_iff.mp he
    obtain ⟨-,hhandlers,hlast⟩ := announce_frame (s := s) fits enqueued a
    exact h.congr hhandlers hlast.ge rfl
  | read i ok =>
    obtain ⟨hd,hi,rfl⟩ := Option.map_eq_some_iff.mp he
    obtain ⟨r,hr,hfound⟩ := forall₂_getElem? h hi
    unfold note AllFound
    dsimp only
    rw [hi,hr]
    dsimp only
    cases hnext : s.readNext hd ok with
    | none => exact forall₂_eraseIdx h i
    | some hd' => exact forall₂_set h (hfound.next hinv hnext) i
  | respond i fits =>
    dsimp only at he
    split at he
    · cases he
    · split at he
      · cases he
        obtain ⟨-,-,hhandlers,hlast⟩ := push_frame (s.setHandler i none) _ fits
        unfold AllFound
        rw [hhandlers,hlast]
        exact forall₂_eraseIdx h i
      · cases he
  | work i w =>
    obtain ⟨job,hi,he⟩ := Option.bind_eq_some_iff.mp he
    have hreadings : (note s noted (.work i w)).readings = noted.readings := by
      unfold note
      dsimp only
      rw [hi]
      exact noteWork_readings s noted job w
    obtain ⟨cache,jobs,-,rfl⟩ | ⟨hash,record,jobs,-,-,-,rfl⟩ | ⟨hash,preview,-,rfl⟩ |
      ⟨fits,preview,-,-,rfl⟩ := work_cases hi he
    · exact h.congr rfl le_rfl hreadings
    · exact h.congr rfl le_rfl hreadings
    · exact h.congr rfl le_rfl hreadings
    · obtain ⟨-,-,hhandlers,hlast⟩ := push_frame { s with jobs := s.jobs.eraseIdx i }
        (.change (.embeds job.messageID [preview])) (job.recipient && fits)
      exact h.congr hhandlers hlast.ge hreadings
  | cacheExpire hash =>
    cases he
    exact h.congr rfl le_rfl rfl
  | deliver =>
    dsimp only at he
    split at he
    · cases he
    · rename_i event rest ho
      cases he
      obtain ⟨-,-,hhandlers,hlast⟩ := receive_frame { s with outbound := rest } event
      exact h.congr hhandlers hlast.ge rfl
  | render =>
    cases he
    exact h.congr rfl le_rfl rfl

end Steps

end MiniDiscord.MessageContent
