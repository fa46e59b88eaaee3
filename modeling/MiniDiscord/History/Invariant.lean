import MiniDiscord.History.Client
import MiniDiscord.Transition.Histories

/-! # What holds of a client's history

But for what the user has taken out of it, the view is a tail of the history or a window into
it, and a response that is awaited is a page that fits the messages announced after it.
-/
namespace MiniDiscord.MessageHistory
open ChatHub SfuTrack Paging Transition

/-! ## What is on its way -/

def messagesOf : List WsEvent → List Key
  | [] => []
  | .message k :: l => k :: messagesOf l
  | .ack _ _ :: l => messagesOf l
  | .error _ :: l => messagesOf l

@[simp] theorem messagesOf_append (l l' : List WsEvent) :
    messagesOf (l ++ l') = messagesOf l ++ messagesOf l' := by
  induction l with
  | nil => rfl
  | cons e l ih => cases e <;> simp [messagesOf,ih]

theorem mem_messagesOf {out : List WsEvent} {k : Key} (h : k ∈ messagesOf out) :
    WsEvent.message k ∈ out := by
  induction out with
  | nil => cases h
  | cons e out ih =>
    cases e with
    | message k' =>
      rcases List.mem_cons.mp h with rfl | h
      · exact List.mem_cons_self
      · exact List.mem_cons_of_mem _ (ih h)
    | ack req page => exact List.mem_cons_of_mem _ (ih h)
    | error req => exact List.mem_cons_of_mem _ (ih h)

/-- The messages announced after `out` began. -/
def ahead (out : List WsEvent) (sending : Option Key) : List Key := messagesOf out ++ sending.toList

@[simp] theorem ahead_none (out : List WsEvent) : ahead out none = messagesOf out :=
  List.append_nil _

@[simp] theorem ahead_some (out : List WsEvent) (k : Key) :
    ahead out (some k) = messagesOf out ++ [k] := rfl

def State.undelivered (s : State) : List Key := ahead s.outbound s.sending

/-- The requests in flight, the pending one first. -/
def State.loads (s : State) : List Load := (s.pending.map Request.load).toList ++ s.queue

def Load.deletes : Load → Bool
  | .delete _ => true
  | .rollback => true
  | _ => false

def Load.jumps : Load → Bool
  | .jump _ => true
  | _ => false

/-- The requests that extend what is already there. -/
def Load.pages : Load → Bool
  | .older _ => true
  | .newer _ => true
  | _ => false

/-- The requests whose response replaces the messages of the view. -/
def Load.replaces : Load → Bool
  | .initial => true
  | .jump _ => true
  | .reset => true
  | .rollback => true
  | _ => false

def Deleting (loads : List Load) : Prop := ∃ l ∈ loads, l.deletes = true
def Jumping (loads : List Load) : Prop := ∃ l ∈ loads, l.jumps = true

/-! ## What is noted of a run -/

/-- The log as the hub read it for a request, and the messages that the user has taken out of
the view since it was replaced last. -/
structure Noted where
  readings : List (Request × List Key)
  hidden : List Key
  deriving DecidableEq

/-- The messages that a delete takes out of the view. -/
def State.taken (s : State) (messageID : MessageID) : List Key :=
  if s.rendered.isConnected = false then []
  else s.view.messages.filter (fun k => decide (k.id = messageID))

/-- The next event replaces the messages of the view. -/
def State.Replacing (s : State) : Prop :=
  match s.outbound.head?,s.pending with
  | some (.ack req _),some pending =>
    State.stale req pending = false ∧ pending.load.replaces = true
  | _,_ => False

instance (s : State) : Decidable s.Replacing := by
  unfold State.Replacing
  split <;> infer_instance

def note (s : State) (noted : Noted) : Event → Noted
  | .handle ok _ _ =>
    match s.commands with
    | [] => noted
    | (_,req) :: _ =>
      if ok = true ∧ req.load.offLoop = false then
        { noted with readings := noted.readings ++ [(req,s.stored)] }
      else noted
  | .read i ok =>
    match s.handlers[i]? with
    | none => noted
    | some h =>
      if ok = true then { noted with readings := noted.readings ++ [(h.req,s.stored)] } else noted
  | .deliver => if s.Replacing then { noted with hidden := [] } else noted
  | .handleDeleteMessage messageID =>
    { noted with hidden := noted.hidden ++ s.taken messageID }
  | _ => noted

abbrev RecordedState := Recorded State Noted

abbrev recordedStep : RecordedState → Event → Option RecordedState := recording step note

def unrecorded : RecordedState := ⟨init,[],[]⟩

/-- What is stored and was not taken out of the view. -/
def visible (noted : Noted) (stored : List Key) : List Key :=
  stored.filter (fun k => decide (k ∉ noted.hidden))

/-- For such a request the log `stored` was read to its end. -/
def ReadToEnd (stored : List Key) : Load → Prop
  | .jump messageID => ∃ anchor ∈ stored, anchor.id = messageID ∧
      (stored.filter (fun k => decide (anchor < k))).length ≤ 25
  | .newer c => (stored.filter (fun k => decide (c < k))).length ≤ 50
  | _ => False

/-- The hundredth message from the end of a log with more than a hundred. -/
def hundredth (stored : List Key) : Option Key :=
  if 100 < stored.length then stored[stored.length - 100]? else none

/-! ## Pages on their way -/

section Pages
variable (stored T : List Key)

/-- The latest page. -/
def LatestGood (page : Page) : Prop :=
  page.hasMore = page.nextCursor.isSome ∧ Tail page.nextCursor page.messages T ∧
    Reaches stored page.nextCursor page.messages T

def AroundGood (page : Page) : Prop :=
  page.hasMoreOlder = page.olderCursor.isSome ∧
    ((∃ hi, page.hasMoreNewer = true ∧ page.newerCursor = some hi ∧
        Window page.olderCursor page.messages hi ∧ Fills stored page.olderCursor page.messages hi) ∨
      (page.hasMoreNewer = false ∧ page.newerCursor = none ∧
        Tail page.olderCursor page.messages T ∧ Reaches stored page.olderCursor page.messages T))

def AfterGood (c : Key) (page : Page) : Prop :=
  (∃ hi, page.hasMore = true ∧ page.nextCursor = some hi ∧ NewerPage stored c page.messages hi) ∨
    (page.hasMore = false ∧ page.nextCursor = none ∧ LastPage stored c page.messages T)

/-- A response that is followed by the messages `T`. -/
def AckGood : Load → Page → Prop
  | .older c,page => page.hasMore = page.nextCursor.isSome ∧
      OlderPage stored page.nextCursor page.messages c
  | .jump _,page => AroundGood stored T page
  | .newer c,page => AfterGood stored T c page
  | .delete _,_ => False
  | _,page => LatestGood stored T page

/-- A page that was read off the loop from the log `read`. -/
def HandlerGood (read : List Key) : Load → Page → Prop
  | .jump messageID,page => page.hasMoreOlder = page.olderCursor.isSome ∧
      ((∃ hi, page.hasMoreNewer = true ∧ page.newerCursor = some hi ∧
          Window page.olderCursor page.messages hi ∧ Fills stored page.olderCursor page.messages hi) ∨
        (ReadToEnd read (.jump messageID) ∧ page.hasMoreNewer = false ∧ page.newerCursor = none ∧
          Tail page.olderCursor page.messages [] ∧ Reaches read page.olderCursor page.messages []))
  | .newer c,page =>
    (∃ hi, page.hasMore = true ∧ page.nextCursor = some hi ∧ NewerPage stored c page.messages hi) ∨
      (ReadToEnd read (.newer c) ∧ page.hasMore = false ∧ page.nextCursor = none ∧
        LastPage read c page.messages [])
  | _,_ => False

/-- Only the response to the pending request counts. -/
def AcksGood (sending : Option Key) (pending : Option Request) : List WsEvent → Prop
  | [] => True
  | .ack req page :: post =>
    (pending = some req → AckGood stored (ahead post sending) req.load page) ∧
      AcksGood sending pending post
  | .message _ :: post => AcksGood sending pending post
  | .error _ :: post => AcksGood sending pending post

end Pages

/-! ## The view -/

/-- The view is a window. -/
def Windowed (stored ms : List Key) (pg : ChannelPagination) : Prop :=
  ∃ hi, pg.hasMoreNewer = true ∧ pg.newerCursor = some hi ∧ Window pg.cursor ms hi ∧
    Fills stored pg.cursor ms hi

/-- The view follows the history up to the messages `T`. -/
def Following (stored T ms : List Key) (pg : ChannelPagination) : Prop :=
  pg.hasMoreNewer = false ∧ Tail pg.cursor ms T ∧ Reaches stored pg.cursor ms T

def ViewGood (stored T : List Key) (v : View) : Prop :=
  ∀ pg, v.pagination = some pg → pg.hasMore = pg.cursor.isSome ∧
    (Windowed stored v.messages pg ∨ Following stored T v.messages pg)

/-! ## Every message is one that was saved -/

def Page.keys (p : Page) : List Key :=
  p.messages ++ p.nextCursor.toList ++ p.olderCursor.toList ++ p.newerCursor.toList

def Load.keys : Load → List Key
  | .older c => [c]
  | .newer c => [c]
  | _ => []

def ChannelPagination.keys (pg : ChannelPagination) : List Key :=
  pg.cursor.toList ++ pg.newerCursor.toList

def View.keys (v : View) : List Key :=
  v.messages ++ ((v.pagination.map ChannelPagination.keys).getD [])

def WsEvent.keys : WsEvent → List Key
  | .message k => [k]
  | .ack req page => req.load.keys ++ page.keys
  | .error req => req.load.keys

def Handler.keys (h : Handler) : List Key :=
  h.req.load.keys ++ ((h.page.bind id).map Page.keys).getD []

structure Bounded (s : State) : Prop where
  stored : ∀ k ∈ s.stored, k ≤ s.last
  sending : ∀ k ∈ s.sending, k = s.last
  view : ∀ k ∈ s.view.keys, k ≤ s.last
  rendered : ∀ k ∈ s.rendered.keys, k ≤ s.last
  loads : ∀ l ∈ s.loads, ∀ k ∈ l.keys, k ≤ s.last
  commands : ∀ c ∈ s.commands, ∀ k ∈ c.2.load.keys, k ≤ s.last
  handlers : ∀ h ∈ s.handlers, ∀ k ∈ h.keys, k ≤ s.last
  outbound : ∀ e ∈ s.outbound, ∀ k ∈ e.keys, k ≤ s.last

/-- The next request gets an ID that no other one has. -/
structure Numbered (s : State) : Prop where
  commands : ∀ c ∈ s.commands, c.2.id < s.nextRequestID
  handlers : ∀ h ∈ s.handlers, h.req.id < s.nextRequestID
  acks : ∀ req page, .ack req page ∈ s.outbound → req.id < s.nextRequestID

/-- What a handler has read, and that it comes before a message that was saved since. -/
def ReadGood (noted : Noted) (s : State) (h : Handler) (page : Page) : Prop :=
  ∃ read, (h.req,read) ∈ noted.readings ∧ HandlerGood s.stored read h.req.load page ∧
    ∀ m ∈ s.sending, m ∉ read → ∀ k ∈ h.keys, k < m

/-- What does not depend on the client's view. -/
structure Core (noted : Noted) (s : State) : Prop where
  sorted : s.stored.Pairwise (· < ·)
  bounded : Bounded s
  numbered : Numbered s
  sending : ∀ k ∈ s.sending, k ∈ s.stored
  closed : s.isOpen = false → s.outbound = [] ∧ s.loads = []
  acks : AcksGood s.stored s.sending s.pending s.outbound
  reloads : ∀ req page, .ack req page ∈ s.outbound → req.load = .rollback →
    ∃ read, (req,read) ∈ noted.readings ∧ page.nextCursor = hundredth read
  handlers : ∀ h ∈ s.handlers, ∀ page, h.page = some (some page) → ReadGood noted s h page

/-- `extra` are requests that have left the queue and are about to be answered. -/
structure Inv (noted : Noted) (extra : List Load) (s : State) : Prop where
  core : Core noted s
  view : ViewGood (visible noted s.stored) s.undelivered s.view
  hidden : Deleting (extra ++ s.loads) ∨ ∀ k ∈ noted.hidden, k ∉ s.stored
  loaded : s.view.loaded = true → s.view.pagination ≠ none ∨ Jumping (extra ++ s.loads)
  rendered : s.rendered.pagination ≠ none → s.view.pagination ≠ none
  paging : ∀ l ∈ extra ++ s.loads, l.pages = true → s.view.pagination ≠ none
  taken : ∀ k ∈ noted.hidden, k ≤ s.last

/-! ## What is visible -/

section Visible
variable {noted : Noted} {stored : List Key}

theorem mem_visible {k : Key} : k ∈ visible noted stored ↔ k ∈ stored ∧ k ∉ noted.hidden := by
  unfold visible
  rw [List.mem_filter,decide_eq_true_iff]

theorem visible_subset : visible noted stored ⊆ stored := fun _ hk => (mem_visible.mp hk).1

theorem visible_mono {stored' : List Key} (hs : stored' ⊆ stored) :
    visible noted stored' ⊆ visible noted stored := by
  intro k hk
  obtain ⟨hstored,hshown⟩ := mem_visible.mp hk
  exact mem_visible.mpr ⟨hs hstored,hshown⟩

end Visible

/-! ## The log grows and shrinks -/

section Growth
variable {stored stored' T : List Key} {m : Key}

theorem AckGood.shrink {load : Load} {page : Page} (h : AckGood stored T load page)
    (hs : stored' ⊆ stored) : AckGood stored' T load page := by
  cases load with
  | initial => exact ⟨h.1,h.2.1,h.2.2.shrink hs⟩
  | reset => exact ⟨h.1,h.2.1,h.2.2.shrink hs⟩
  | rollback => exact ⟨h.1,h.2.1,h.2.2.shrink hs⟩
  | older c => exact ⟨h.1,h.2.shrink hs⟩
  | delete messageID => exact h
  | jump messageID =>
    refine ⟨h.1,?_⟩
    rcases h.2 with ⟨hi,hmore,hcursor,hw,hf⟩ | ⟨hmore,hcursor,ht,hr⟩
    · exact Or.inl ⟨hi,hmore,hcursor,hw,hf.shrink hs⟩
    · exact Or.inr ⟨hmore,hcursor,ht,hr.shrink hs⟩
  | newer c =>
    rcases h with ⟨hi,hmore,hcursor,hp⟩ | ⟨hmore,hcursor,hp⟩
    · exact Or.inl ⟨hi,hmore,hcursor,hp.shrink hs⟩
    · exact Or.inr ⟨hmore,hcursor,hp.shrink hs⟩

theorem HandlerGood.shrink {read : List Key} {load : Load} {page : Page}
    (h : HandlerGood stored read load page) (hs : stored' ⊆ stored) :
    HandlerGood stored' read load page := by
  cases load with
  | jump messageID =>
    refine ⟨h.1,?_⟩
    rcases h.2 with ⟨hi,hmore,hcursor,hw,hf⟩ | hlast
    · exact Or.inl ⟨hi,hmore,hcursor,hw,hf.shrink hs⟩
    · exact Or.inr hlast
  | newer c =>
    rcases h with ⟨hi,hmore,hcursor,hp⟩ | hlast
    · exact Or.inl ⟨hi,hmore,hcursor,hp.shrink hs⟩
    · exact Or.inr hlast
  | _ => exact h

theorem AcksGood.shrink {sending : Option Key} {pending : Option Request} {out : List WsEvent}
    (h : AcksGood stored sending pending out) (hs : stored' ⊆ stored) :
    AcksGood stored' sending pending out := by
  induction out with
  | nil => exact h
  | cons e out ih =>
    cases e with
    | ack req page => exact ⟨fun hp => (h.1 hp).shrink hs,ih h.2⟩
    | message k => exact ih h
    | error req => exact ih h

theorem ViewGood.shrink {v : View} (h : ViewGood stored T v) (hs : stored' ⊆ stored) :
    ViewGood stored' T v := by
  intro pg hpg
  obtain ⟨hmore,hw | hf⟩ := h pg hpg
  · obtain ⟨hi,hnewer,hcursor,hw,hfill⟩ := hw
    exact ⟨hmore,Or.inl ⟨hi,hnewer,hcursor,hw,hfill.shrink hs⟩⟩
  · obtain ⟨hnewer,ht,hr⟩ := hf
    exact ⟨hmore,Or.inr ⟨hnewer,ht,hr.shrink hs⟩⟩

variable (hs : ∀ k ∈ stored', k = m ∨ k ∈ stored)
include hs

theorem AckGood.grow {load : Load} {page : Page} (h : AckGood stored T load page)
    (hload : ∀ k ∈ load.keys, k < m) (hpage : ∀ k ∈ page.keys, k < m) (hT : ∀ k ∈ T, k < m) :
    AckGood stored' (T ++ [m]) load page := by
  have hms : ∀ k ∈ page.messages ++ T, k < m := by
    intro k hk
    rcases List.mem_append.mp hk with hk | hk
    · exact hpage k (by simp [Page.keys,hk])
    · exact hT k hk
  have hnext : Above page.nextCursor m := by
    intro c hc
    exact le_of_lt (hpage c (by simp [Page.keys,Option.mem_def.mp hc]))
  have hlatest : ∀ h : LatestGood stored T page, LatestGood stored' (T ++ [m]) page :=
    fun h => ⟨h.1,h.2.1.grow hms hnext,h.2.2.grow hs⟩
  cases load with
  | initial => exact hlatest h
  | reset => exact hlatest h
  | rollback => exact hlatest h
  | older c => exact ⟨h.1,h.2.grow hs (le_of_lt (hload c List.mem_cons_self))⟩
  | delete messageID => exact h
  | jump messageID =>
    refine ⟨h.1,?_⟩
    rcases h.2 with ⟨hi,hmore,hcursor,hw,hf⟩ | ⟨hmore,hcursor,ht,hr⟩
    · exact Or.inl ⟨hi,hmore,hcursor,hw,hf.grow hs (hpage hi (by simp [Page.keys,hcursor]))⟩
    · refine Or.inr ⟨hmore,hcursor,ht.grow hms ?_,hr.grow hs⟩
      intro c hc
      exact le_of_lt (hpage c (by simp [Page.keys,Option.mem_def.mp hc]))
  | newer c =>
    rcases h with ⟨hi,hmore,hcursor,hp⟩ | ⟨hmore,hcursor,hp⟩
    · exact Or.inl ⟨hi,hmore,hcursor,hp.grow hs (hpage hi (by simp [Page.keys,hcursor]))⟩
    · exact Or.inr ⟨hmore,hcursor,hp.grow hs hms (hload c List.mem_cons_self)⟩

theorem HandlerGood.grow {read : List Key} {load : Load} {page : Page}
    (h : HandlerGood stored read load page) (hpage : ∀ k ∈ page.keys, k < m) :
    HandlerGood stored' read load page := by
  cases load with
  | jump messageID =>
    refine ⟨h.1,?_⟩
    rcases h.2 with ⟨hi,hmore,hcursor,hw,hf⟩ | hlast
    · exact Or.inl ⟨hi,hmore,hcursor,hw,hf.grow hs (hpage hi (by simp [Page.keys,hcursor]))⟩
    · exact Or.inr hlast
  | newer c =>
    rcases h with ⟨hi,hmore,hcursor,hp⟩ | hlast
    · exact Or.inl ⟨hi,hmore,hcursor,hp.grow hs (hpage hi (by simp [Page.keys,hcursor]))⟩
    · exact Or.inr hlast
  | _ => exact h

theorem AcksGood.grow {pending : Option Request} {out : List WsEvent}
    (h : AcksGood stored none pending out) (hout : ∀ e ∈ out, ∀ k ∈ e.keys, k < m) :
    AcksGood stored' (some m) pending out := by
  induction out with
  | nil => exact h
  | cons e out ih =>
    have htail : ∀ e ∈ out, ∀ k ∈ e.keys, k < m := fun e he => hout e (List.mem_cons_of_mem _ he)
    cases e with
    | ack req page =>
      refine ⟨fun hp => ?_,ih h.2 htail⟩
      have hgood := h.1 hp
      have hkeys := hout _ List.mem_cons_self
      have hT : ∀ k ∈ messagesOf out, k < m := by
        intro k hk
        exact htail _ (mem_messagesOf hk) k List.mem_cons_self
      rw [ahead_none] at hgood
      rw [ahead_some]
      exact hgood.grow hs (fun k hk => hkeys k (List.mem_append_left _ hk))
        (fun k hk => hkeys k (List.mem_append_right _ hk)) hT
    | message k => exact ih h htail
    | error req => exact ih h htail

theorem ViewGood.grow {v : View} (h : ViewGood stored T v) (hv : ∀ k ∈ v.keys, k < m)
    (hT : ∀ k ∈ T, k < m) : ViewGood stored' (T ++ [m]) v := by
  intro pg hpg
  have hcursor : ∀ c ∈ pg.cursor, c < m := by
    intro c hc
    exact hv c (by simp [View.keys,hpg,ChannelPagination.keys,Option.mem_def.mp hc])
  obtain ⟨hmore,hw | hf⟩ := h pg hpg
  · obtain ⟨hi,hnewer,hhi,hw,hfill⟩ := hw
    have hlt : hi < m := hv hi (by simp [View.keys,hpg,ChannelPagination.keys,hhi])
    exact ⟨hmore,Or.inl ⟨hi,hnewer,hhi,hw,hfill.grow hs hlt⟩⟩
  · obtain ⟨hnewer,ht,hr⟩ := hf
    refine ⟨hmore,Or.inr ⟨hnewer,ht.grow ?_ ?_,hr.grow hs⟩⟩
    · intro k hk
      rcases List.mem_append.mp hk with hk | hk
      · exact hv k (List.mem_append_left _ hk)
      · exact hT k hk
    · intro c hc
      exact le_of_lt (hcursor c hc)

end Growth

/-! ## Events are put on their way -/

section Outbound
variable {stored : List Key} {sending : Option Key} {pending : Option Request} {out : List WsEvent}

/-- No response on its way is awaited. -/
theorem AcksGood.of_unawaited (h : ∀ req page, .ack req page ∈ out → pending ≠ some req) :
    AcksGood stored sending pending out := by
  induction out with
  | nil => exact trivial
  | cons e out ih =>
    have htail := ih (fun req page hm => h req page (List.mem_cons_of_mem _ hm))
    cases e with
    | ack req page => exact ⟨fun hp => absurd hp (h req page List.mem_cons_self),htail⟩
    | message k => exact htail
    | error req => exact htail

/-- What is put at the end changes nothing that is ahead of the responses before it. -/
theorem AcksGood.append {sending' : Option Key} {new : List WsEvent}
    (h : AcksGood stored sending pending out) (hnew : AcksGood stored sending' pending new)
    (hsame : ahead new sending' = sending.toList) :
    AcksGood stored sending' pending (out ++ new) := by
  induction out with
  | nil => exact hnew
  | cons e out ih =>
    rw [List.cons_append]
    cases e with
    | ack req page =>
      refine ⟨fun hp => ?_,ih h.2⟩
      have hgood := h.1 hp
      unfold ahead at hgood hsame ⊢
      rw [messagesOf_append,List.append_assoc,hsame]
      exact hgood
    | message k => exact ih h
    | error req => exact ih h

end Outbound

/-! ## The messages of a page were saved -/

theorem mem_nextOf_toList {rows : List Key} {limit : ℕ} {k : Key}
    (h : k ∈ (nextOf rows limit).toList) : k ∈ rows :=
  limited_subset rows limit (nextOf_mem (Option.mem_toList.mp h))

theorem getMessages_keys {stored : List Key} {limit : ℕ} {cursor : Option Key} {k : Key}
    (h : k ∈ (getMessages stored limit cursor).keys) : k ∈ stored := by
  have hrows : k ∈ (stored.filter (fun k => cursor.all (fun c => decide (k < c)))).reverse := by
    simp only [Page.keys,getMessages,List.mem_append,Option.toList_none,List.not_mem_nil,
      or_false] at h
    rcases h with hk | hk
    · exact limited_subset _ _ (List.mem_reverse.mp hk)
    · exact mem_nextOf_toList hk
  exact (List.mem_filter.mp (List.mem_reverse.mp hrows)).1

theorem getMessagesAfter_keys {stored : List Key} {limit : ℕ} {cursor k : Key}
    (h : k ∈ (getMessagesAfter stored limit cursor).keys) : k ∈ stored := by
  have hrows : k ∈ stored.filter (fun k => decide (cursor < k)) := by
    simp only [Page.keys,getMessagesAfter,List.mem_append,Option.toList_none,List.not_mem_nil,
      or_false] at h
    rcases h with hk | hk
    · exact limited_subset _ _ hk
    · exact mem_nextOf_toList hk
  exact (List.mem_filter.mp hrows).1

theorem getMessagesAround_keys {stored : List Key} {limit : ℕ} {messageID : MessageID} {page : Page}
    (hp : getMessagesAround stored messageID limit = some page) {k : Key} (h : k ∈ page.keys) :
    k ∈ stored := by
  unfold getMessagesAround at hp
  dsimp only at hp
  split at hp
  · cases hp
  rename_i anchor hanchor
  rw [olderCursor_eq (clampLimit_pos (by omega) (by omega)),
    newerCursor_eq (clampLimit_pos (by omega) (by omega))] at hp
  obtain rfl := Option.some.inj hp
  have hback : ∀ k ∈ (stored.filter (fun k => decide (k ≤ anchor))).reverse, k ∈ stored :=
    fun k hk => (List.mem_filter.mp (List.mem_reverse.mp hk)).1
  have hforth : ∀ k ∈ stored.filter (fun k => decide (anchor < k)), k ∈ stored :=
    fun k hk => (List.mem_filter.mp hk).1
  simp only [Page.keys,List.mem_append,Option.toList_none,List.not_mem_nil,or_false] at h
  rcases h with ((hk | hk) | hk) | hk
  · exact hback k (limited_subset _ _ (List.mem_reverse.mp hk))
  · exact hforth k (limited_subset _ _ hk)
  · exact hback k (mem_nextOf_toList hk)
  · exact hforth k (mem_nextOf_toList hk)

end MiniDiscord.MessageHistory
