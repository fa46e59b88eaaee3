import MiniDiscord.Content.System

/-! # What holds of a message on its way

A message that is shown, or will be, has what is stored, except for the changes that are
stored and still to be announced.
-/
namespace MiniDiscord.MessageContent
open ChatHub SfuTrack MessageHistory Transition Replication

/-! ## Changes of a message -/

def Change.patch : Change → Message → Message
  | .edited messageID content editedAt,m => m.edited messageID content editedAt
  | .embeds messageID previews,m => if m.id = messageID then { m with embeds := previews } else m

/-- Nothing changes which message it is, and which one it quotes. -/
def Message.subject (m : Message) : Key × Option MessageID :=
  (m.key,m.replyTo.map ReplyTo.messageID)

/-- The message, or the reply to it. -/
def Message.Shows (m : Message) (messageID : MessageID) : Prop :=
  m.id = messageID ∨ ∃ q ∈ m.replyTo, q.messageID = messageID

instance (m : Message) (messageID : MessageID) : Decidable (m.Shows messageID) := by
  unfold Message.Shows
  infer_instance

variable {m m' : Message} {messageID : MessageID} {content : String} {editedAt : Time}

theorem edited_subject (m : Message) (messageID : MessageID) (content : String) (editedAt : Time) :
    (m.edited messageID content editedAt).subject = m.subject := by
  unfold Message.edited
  split
  · rfl
  · cases hq : m.replyTo with
    | none => rfl
    | some q =>
      dsimp only
      split
      · simp [Message.subject,hq]
      · rfl

theorem patch_subject (c : Change) (m : Message) : (c.patch m).subject = m.subject := by
  cases c with
  | edited messageID content editedAt => exact edited_subject m messageID content editedAt
  | embeds messageID embeds =>
    dsimp only [Change.patch]
    split <;> rfl

theorem subject_id (h : m.subject = m'.subject) : m.id = m'.id :=
  congrArg Key.id (congrArg Prod.fst h)

theorem subject_shows (h : m.subject = m'.subject) : m.Shows messageID ↔ m'.Shows messageID := by
  have hq : m.replyTo.map ReplyTo.messageID = m'.replyTo.map ReplyTo.messageID :=
    congrArg Prod.snd h
  have hmap (x : Message) : (∃ q ∈ x.replyTo, q.messageID = messageID) ↔
      x.replyTo.map ReplyTo.messageID = some messageID := by
    rw [Option.map_eq_some_iff]
    rfl
  unfold Message.Shows
  rw [subject_id h,hmap m,hmap m',hq]

theorem edited_not_shown (h : ¬ m.Shows messageID) : m.edited messageID content editedAt = m := by
  unfold Message.edited
  rw [if_neg (fun hid => h (Or.inl hid))]
  cases hq : m.replyTo with
  | none => rfl
  | some q => exact if_neg (fun hid => h (Or.inr ⟨q,hq,hid⟩))

/-! ## Messages that agree with the tables -/

/-- The part of the state that decides what is stored and what is still to be announced. -/
structure Source where
  tables : Tables
  last : MessageID
  announcing : Option Announcement
  jobs : List Job

def State.source (s : State) : Source := ⟨s.tables,s.last,s.announcing,s.jobs⟩

def Source.Editing (src : Source) (messageID : MessageID) : Prop :=
  ∃ content editedAt, src.announcing = some (.edited messageID content editedAt)

def Phase.isLinked : Phase → Bool
  | .linked _ => true
  | _ => false

def Job.Linked (job : Job) : Prop := job.phase.isLinked = true

def Source.Linking (src : Source) (messageID : MessageID) : Prop :=
  ∃ job ∈ src.jobs, job.messageID = messageID ∧ job.Linked

/-- The message shows what is stored, or is changed by an event to come. -/
structure ReadGood (src : Source) (m : Message) : Prop where
  known : m.id ≤ src.last
  text : (m.content = src.tables.contentOf m.id ∧
    m.editedAt = (src.tables.rows m.id).editedAt) ∨ src.Editing m.id
  quoted : ∀ q ∈ m.replyTo, q.messageID < m.id ∧
    (q.content = src.tables.contentOf q.messageID ∨ src.Editing q.messageID)
  embeds : m.embeds = src.tables.embedsOf m.id ∨ src.Linking m.id

/-- What is stored of a message's text has not changed, or is about to be announced. -/
def KeepsText (src src' : Source) (id : MessageID) : Prop :=
  (src.Editing id → src'.Editing id) ∧
    ((src'.tables.contentOf id = src.tables.contentOf id ∧
      (src'.tables.rows id).editedAt = (src.tables.rows id).editedAt) ∨ src'.Editing id)

def KeepsEmbeds (src src' : Source) (id : MessageID) : Prop :=
  (src.Linking id → src'.Linking id) ∧
    (src'.tables.embedsOf id = src.tables.embedsOf id ∨ src'.Linking id)

variable {src src' : Source}

theorem ReadGood.mono (h : ReadGood src m) (hlast : src.last ≤ src'.last)
    (ht : ∀ id ≤ src.last, KeepsText src src' id)
    (he : KeepsEmbeds src src' m.id) : ReadGood src' m := by
  constructor
  · exact le_trans h.known hlast
  · obtain ⟨hediting,⟨hcontent,hmark⟩ | hnow⟩ := ht m.id h.known
    · rw [hcontent,hmark]
      exact h.text.imp_right hediting
    · exact Or.inr hnow
  · intro q hq
    obtain ⟨hlt,htext⟩ := h.quoted q hq
    refine ⟨hlt,?_⟩
    obtain ⟨hediting,⟨hcontent,-⟩ | hnow⟩ := ht q.messageID (le_trans (le_of_lt hlt) h.known)
    · rw [hcontent]
      exact htext.imp_right hediting
    · exact Or.inr hnow
  · obtain ⟨hlinking,hembeds | hnow⟩ := he
    · rw [hembeds]
      exact h.embeds.imp_right hlinking
    · exact Or.inr hnow

theorem keepsText_of_eq {id : MessageID} (hrows : src'.tables.rows id = src.tables.rows id)
    (ha : src'.announcing = src.announcing) : KeepsText src src' id := by
  unfold KeepsText Source.Editing Tables.contentOf
  rw [hrows,ha]
  exact ⟨fun h => h,Or.inl ⟨rfl,rfl⟩⟩

/-- An edit that is announced is applied, and nothing else is outstanding. -/
theorem ReadGood.edited (h : ReadGood src m)
    (ha : src.announcing = some (.edited messageID content editedAt))
    (hcontent : src.tables.contentOf messageID = content)
    (hmark : (src.tables.rows messageID).editedAt = some editedAt) :
    ReadGood { src with announcing := none } (m.edited messageID content editedAt) := by
  have hother : ∀ id, src.Editing id → id = messageID := by
    rintro id ⟨c,at',he⟩
    rw [ha] at he
    cases he
    rfl
  have hlinking : m.embeds = src.tables.embedsOf m.id ∨
      Source.Linking { src with announcing := none } m.id := h.embeds
  unfold Message.edited
  split
  · rename_i hid
    refine ⟨h.known,Or.inl ⟨?_,?_⟩,?_,hlinking⟩
    · change content = src.tables.contentOf m.id
      rw [hid,hcontent]
    · change some editedAt = (src.tables.rows m.id).editedAt
      rw [hid,hmark]
    · intro q hq
      obtain ⟨hlt,htext⟩ := h.quoted q hq
      refine ⟨hlt,Or.inl (htext.resolve_right ?_)⟩
      intro hediting
      have heq := hother _ hediting
      rw [heq,hid] at hlt
      exact lt_irrefl _ hlt
  · rename_i hid
    have htext := h.text.resolve_right (fun hediting => hid (hother _ hediting))
    cases hq : m.replyTo with
    | none =>
      refine ⟨h.known,Or.inl htext,?_,hlinking⟩
      rw [hq]
      exact fun q hq => (by cases hq)
    | some q =>
      obtain ⟨hlt,hquote⟩ := h.quoted q hq
      dsimp only
      split
      · rename_i hqid
        refine ⟨h.known,Or.inl htext,?_,hlinking⟩
        intro q' hq'
        cases hq'
        refine ⟨hlt,Or.inl ?_⟩
        change content = src.tables.contentOf q.messageID
        rw [hqid,hcontent]
      · rename_i hqid
        refine ⟨h.known,Or.inl htext,?_,hlinking⟩
        intro q' hq'
        rw [hq] at hq'
        cases hq'
        exact ⟨hlt,Or.inl (hquote.resolve_right (fun hediting => hqid (hother _ hediting)))⟩

/-- Embeds that are stored can be announced. -/
theorem ReadGood.withEmbeds {embeds : List WsLinkPreview} (h : ReadGood src m)
    (hid : m.id = messageID → src.tables.embedsOf messageID = embeds) :
    ReadGood src (Change.patch (.embeds messageID embeds) m) := by
  dsimp only [Change.patch]
  split
  · rename_i heq
    refine ⟨h.known,h.text,h.quoted,Or.inl ?_⟩
    change embeds = src.tables.embedsOf m.id
    rw [heq,hid heq]
  · exact h

/-! ## Pages -/

theorem page_subset {stored : List Key} {load : Load} {page : Page}
    (h : load.page stored = some page) : page.messages ⊆ stored := by
  have hbackward : ∀ limit cursor, (getMessages stored limit cursor).messages ⊆ stored := by
    intro limit cursor k hk
    have hrow := limited_subset _ _ (List.mem_reverse.mp hk)
    exact List.mem_of_mem_filter (List.mem_reverse.mp hrow)
  cases load with
  | initial =>
    cases h
    exact hbackward 100 none
  | older cursor =>
    cases h
    exact hbackward 50 (some cursor)
  | reset =>
    cases h
    exact hbackward 100 none
  | newer cursor =>
    cases h
    intro k hk
    exact List.mem_of_mem_filter (limited_subset _ _ hk)
  | jump messageID =>
    unfold Load.page MessageHistory.getMessagesAround at h
    dsimp only at h
    split at h
    · cases h
    · cases h
      intro k hk
      rcases List.mem_append.mp hk with hk | hk
      · have hrow := limited_subset _ _ (List.mem_reverse.mp hk)
        exact List.mem_of_mem_filter (List.mem_reverse.mp hrow)
      · exact List.mem_of_mem_filter (limited_subset _ _ hk)

/-! ## The invariant -/

def parcelOf : WsEvent → Parcel Change Message
  | .message m => .copies [m]
  | .change c => .change c
  | .page _ _ messages => .copies messages

/-- What the client shows, and what is on its way to it. -/
def State.queue (s : State) : List (Parcel Change Message) :=
  .copies s.messages :: s.outbound.map parcelOf

def State.inSight (s : State) : List Message := carried s.queue

/-- What is to be announced is what is stored. -/
def AnnounceGood (src : Source) : Prop :=
  match src.announcing with
  | none => True
  | some (.message m _) => ReadGood src m ∧ src.tables.messageEmbeds m.id = none ∧
      ∀ job ∈ src.jobs, job.messageID ≠ m.id
  | some (.edited messageID content editedAt) =>
    src.tables.contentOf messageID = content ∧
      (src.tables.rows messageID).editedAt = some editedAt

structure Inv (s : State) : Prop where
  stored : ∀ k ∈ s.tables.stored, k.id ≤ s.last
  replies : ∀ id, ∀ r ∈ (s.tables.rows id).replyToID, r < id
  linked : ∀ id, s.last < id → s.tables.messageEmbeds id = none
  jobs : ∀ job ∈ s.jobs, job.messageID ≤ s.last
  announcing : AnnounceGood s.source
  sight : Arrive Change.patch (ReadGood s.source) s.queue

theorem inv_init : Inv init := by
  constructor
  · exact List.forall_mem_nil _
  · exact fun id r hr => (by cases hr)
  · exact fun id hid => rfl
  · exact List.forall_mem_nil _
  · trivial
  · exact ⟨List.forall_mem_nil _,trivial⟩

end MiniDiscord.MessageContent
