import MiniDiscord.History.Invariant

/-! # The steps of a client

Requests that are sent, rejected and answered keep the invariant, the responses as far as
their pages fit the view.
-/
namespace MiniDiscord.MessageHistory
open ChatHub SfuTrack Paging Transition

/-! ## The client's procedures -/

namespace State
variable (s : State) (load : Load)

/-- Either nothing is sent, or the next request of the queue is. -/
theorem flushQueue_cases : s.flushQueue = s ∨ ∃ load rest, s.isOpen = true ∧ s.pending = none ∧
    s.queue = load :: rest ∧ s.flushQueue = { s with
      queue := rest
      pending := some ⟨s.nextRequestID,load⟩
      nextRequestID := s.nextRequestID + 1
      commands := s.commands ++ [(s.conn,⟨s.nextRequestID,load⟩)] } := by
  unfold flushQueue
  split
  · exact Or.inl rfl
  · rename_i hopen
    split
    · rename_i load rest hpending hqueue
      exact Or.inr ⟨load,rest,by simpa using hopen,hpending,hqueue,rfl⟩
    · exact Or.inl rfl

@[simp] theorem flushQueue_view : s.flushQueue.view = s.view := by
  rcases s.flushQueue_cases with h | ⟨_,_,_,_,_,h⟩ <;> rw [h]
@[simp] theorem flushQueue_rendered : s.flushQueue.rendered = s.rendered := by
  rcases s.flushQueue_cases with h | ⟨_,_,_,_,_,h⟩ <;> rw [h]
@[simp] theorem flushQueue_stored : s.flushQueue.stored = s.stored := by
  rcases s.flushQueue_cases with h | ⟨_,_,_,_,_,h⟩ <;> rw [h]
@[simp] theorem flushQueue_last : s.flushQueue.last = s.last := by
  rcases s.flushQueue_cases with h | ⟨_,_,_,_,_,h⟩ <;> rw [h]
@[simp] theorem flushQueue_sending : s.flushQueue.sending = s.sending := by
  rcases s.flushQueue_cases with h | ⟨_,_,_,_,_,h⟩ <;> rw [h]
@[simp] theorem flushQueue_handlers : s.flushQueue.handlers = s.handlers := by
  rcases s.flushQueue_cases with h | ⟨_,_,_,_,_,h⟩ <;> rw [h]
@[simp] theorem flushQueue_outbound : s.flushQueue.outbound = s.outbound := by
  rcases s.flushQueue_cases with h | ⟨_,_,_,_,_,h⟩ <;> rw [h]
@[simp] theorem flushQueue_isOpen : s.flushQueue.isOpen = s.isOpen := by
  rcases s.flushQueue_cases with h | ⟨_,_,_,_,_,h⟩ <;> rw [h]

/-- The request that is sent stays in flight. -/
@[simp] theorem flushQueue_loads : s.flushQueue.loads = s.loads := by
  rcases s.flushQueue_cases with h | ⟨load,rest,-,hpending,hqueue,h⟩
  · rw [h]
  · rw [h]
    unfold loads
    rw [hpending,hqueue]
    rfl

theorem flushQueue_commands : ∀ c ∈ s.flushQueue.commands, c ∈ s.commands ∨ c.2.load ∈ s.loads := by
  intro c hc
  rcases s.flushQueue_cases with h | ⟨load,rest,-,hpending,hqueue,h⟩
  · rw [h] at hc
    exact Or.inl hc
  · rw [h] at hc
    rcases List.mem_append.mp hc with hc | hc
    · exact Or.inl hc
    · rw [List.mem_singleton.mp hc]
      refine Or.inr ?_
      unfold loads
      rw [hpending,hqueue]
      exact List.mem_cons_self

end State

/-! ## The core -/

/-- A step of the client that changes the view or the queue leaves the rest alone. -/
theorem Core.client {noted noted' : Noted} {s t : State} (h : Core noted s)
    (hread : noted'.readings = noted.readings) (hstored : t.stored = s.stored)
    (hlast : t.last = s.last) (hsending : t.sending = s.sending) (hhandlers : t.handlers = s.handlers)
    (houtbound : t.outbound = s.outbound) (hopen : t.isOpen = s.isOpen)
    (hcommands : t.commands = s.commands) (hpending : t.pending = s.pending)
    (hnext : t.nextRequestID = s.nextRequestID) (hview : ∀ k ∈ t.view.keys, k ≤ s.last)
    (hrendered : ∀ k ∈ t.rendered.keys, k ≤ s.last) (hloads : ∀ l ∈ t.loads, ∀ k ∈ l.keys, k ≤ s.last)
    (hclosed : t.isOpen = false → t.loads = []) : Core noted' t := by
  constructor
  · rw [hstored]
    exact h.sorted
  · constructor
    · rw [hstored,hlast]
      exact h.bounded.stored
    · rw [hsending,hlast]
      exact h.bounded.sending
    · rw [hlast]
      exact hview
    · rw [hlast]
      exact hrendered
    · rw [hlast]
      exact hloads
    · rw [hcommands,hlast]
      exact h.bounded.commands
    · rw [hhandlers,hlast]
      exact h.bounded.handlers
    · rw [houtbound,hlast]
      exact h.bounded.outbound
  · constructor
    · rw [hcommands,hnext]
      exact h.numbered.commands
    · rw [hhandlers,hnext]
      exact h.numbered.handlers
    · rw [houtbound,hnext]
      exact h.numbered.acks
  · rw [hsending,hstored]
    exact h.sending
  · intro ho
    refine ⟨?_,hclosed ho⟩
    rw [houtbound]
    rw [hopen] at ho
    exact (h.closed ho).1
  · rw [hstored,hsending,hpending,houtbound]
    exact h.acks
  · rw [houtbound,hread]
    exact h.reloads
  · unfold ReadGood
    rw [hhandlers,hread,hstored,hsending]
    exact h.handlers

/-- The request that is sent has an ID of its own, so that no response to it is on its way. -/
theorem Core.flushQueue {noted : Noted} {s : State} (h : Core noted s) : Core noted s.flushQueue := by
  have hloads := s.flushQueue_loads
  have hcommands := s.flushQueue_commands
  rcases s.flushQueue_cases with heq | ⟨load,rest,hopen,hpending,hqueue,heq⟩
  · rw [heq]
    exact h
  rw [heq] at hloads hcommands ⊢
  obtain ⟨hstored,hsending,hview,hrendered,hbloads,hbcommands,hhandlers,hout⟩ := h.bounded
  have hnew : ∀ c ∈ s.commands ++ [(s.conn,(⟨s.nextRequestID,load⟩ : Request))],
      c.2.id < s.nextRequestID + 1 := by
    intro c hc
    rcases List.mem_append.mp hc with hc | hc
    · exact Nat.lt_succ_of_lt (h.numbered.commands c hc)
    · rw [List.mem_singleton.mp hc]
      exact Nat.lt_succ_self _
  refine ⟨h.sorted,⟨hstored,hsending,hview,hrendered,?_,?_,hhandlers,hout⟩,⟨hnew,?_,?_⟩,h.sending,?_,
    ?_,h.reloads,h.handlers⟩
  · rw [hloads]
    exact hbloads
  · intro c hc
    rcases hcommands c hc with hold | hload
    · exact hbcommands c hold
    · exact hbloads _ hload
  · exact fun handler hh => Nat.lt_succ_of_lt (h.numbered.handlers handler hh)
  · exact fun req page hm => Nat.lt_succ_of_lt (h.numbered.acks req page hm)
  · intro hclosed
    cases hopen.symm.trans hclosed
  · refine AcksGood.of_unawaited (fun req page hm heq => ?_)
    have hlt := h.numbered.acks req page hm
    rw [← Option.some.inj heq] at hlt
    exact lt_irrefl _ hlt

variable {noted : Noted} {s : State} {extra : List Load} {load : Load}

theorem Inv.flushQueue (h : Inv noted extra s) : Inv noted extra s.flushQueue := by
  constructor
  · exact h.core.flushQueue
  · simpa [State.undelivered] using h.view
  · simpa using h.hidden
  · simpa using h.loaded
  · simpa using h.rendered
  · simpa using h.paging
  · simpa using h.taken

theorem Deleting.mono {loads loads' : List Load} (h : Deleting loads)
    (hs : ∀ l ∈ loads, l.deletes = true → l ∈ loads') : Deleting loads' := by
  obtain ⟨l,hl,hd⟩ := h
  exact ⟨l,hs l hl hd,hd⟩

theorem Jumping.mono {loads loads' : List Load} (h : Jumping loads)
    (hs : ∀ l ∈ loads, l.jumps = true → l ∈ loads') : Jumping loads' := by
  obtain ⟨l,hl,hj⟩ := h
  exact ⟨l,hs l hl hj,hj⟩

/-- One more request is about to be made. -/
theorem Inv.hold (h : Inv noted extra s) (hp : load.pages = true → s.view.pagination ≠ none) :
    Inv noted (load :: extra) s := by
  constructor
  · exact h.core
  · exact h.view
  · exact h.hidden.imp_left (fun hold => hold.mono (fun l hl _ => List.mem_cons_of_mem _ hl))
  · intro hloaded
    refine (h.loaded hloaded).imp_right (fun hold => hold.mono ?_)
    exact fun l hl _ => List.mem_cons_of_mem _ hl
  · exact h.rendered
  · intro l hl hpages
    rcases List.mem_cons.mp hl with rfl | hl
    · exact hp hpages
    · exact h.paging l hl hpages
  · exact h.taken

/-- A request that is no jump does not keep the channel loaded. -/
theorem Inv.loaded_of (h : Inv noted (load :: extra) s) (hj : load.jumps = false)
    (hloaded : s.view.loaded = true) : s.view.pagination ≠ none ∨ Jumping (extra ++ s.loads) := by
  refine (h.loaded hloaded).imp_right (fun hold => hold.mono (fun l hl hlj => ?_))
  rcases List.mem_cons.mp hl with rfl | hl
  · rw [hj] at hlj
    cases hlj
  · exact hl

/-- A request is put into the queue, and sent when nothing is pending. -/
theorem Inv.sendCommand (h : Inv noted (load :: extra) s) (hopen : s.isOpen = true)
    (hkeys : ∀ k ∈ load.keys, k ≤ s.last) : Inv noted extra (s.sendCommand load) := by
  apply Inv.flushQueue
  have hloads : ({ s with queue := s.queue ++ [load] } : State).loads = s.loads ++ [load] := by
    unfold State.loads
    rw [List.append_assoc]
  have hmem : ∀ l ∈ load :: extra ++ s.loads, l ∈ extra ++ (s.loads ++ [load]) := by
    intro l hl
    simp only [List.mem_append,List.mem_cons] at hl ⊢
    tauto
  constructor
  · refine h.core.client rfl rfl rfl rfl rfl rfl rfl rfl rfl rfl h.core.bounded.view
      h.core.bounded.rendered ?_ ?_
    · rw [hloads]
      intro l hl
      rcases List.mem_append.mp hl with hl | hl
      · exact h.core.bounded.loads l hl
      · rw [List.mem_singleton.mp hl]
        exact hkeys
    · intro hclosed
      rw [hopen] at hclosed
      cases hclosed
  · exact h.view
  · rw [hloads]
    exact h.hidden.imp_left (fun hd => hd.mono (fun l hl _ => hmem l hl))
  · rw [hloads]
    intro hloaded
    exact (h.loaded hloaded).imp_right (fun hold => hold.mono (fun l hl _ => hmem l hl))
  · exact h.rendered
  · rw [hloads]
    intro l hl
    apply h.paging l
    simp only [List.mem_append,List.mem_cons] at hl ⊢
    tauto
  · exact h.taken

/-! ## Rejections -/

/-- The request that is about to be answered was none that the view waits for. -/
theorem Inv.drop (h : Inv noted (load :: extra) s)
    (hd : load.deletes = true → Deleting (extra ++ s.loads) ∨ ∀ k ∈ noted.hidden, k ∉ s.stored)
    (hj : load.jumps = true → s.view.pagination ≠ none) : Inv noted extra s := by
  constructor
  · exact h.core
  · exact h.view
  · by_cases hdel : load.deletes = true
    · exact hd hdel
    · refine h.hidden.imp_left (fun hold => hold.mono (fun l hl hld => ?_))
      rcases List.mem_cons.mp hl with rfl | hl
      · exact absurd hld hdel
      · exact hl
  · intro hloaded
    by_cases hjump : load.jumps = true
    · exact Or.inl (hj hjump)
    · exact h.loaded_of (Bool.eq_false_of_not_eq_true hjump) hloaded
  · exact h.rendered
  · exact fun l hl => h.paging l (List.mem_cons_of_mem _ hl)
  · exact h.taken

/-- An update of the flags alone. -/
theorem Inv.setPagination (h : Inv noted extra s) {f : ChannelPagination → ChannelPagination}
    (hsome : s.view.pagination ≠ none)
    (hf : ∀ pg, (f pg).cursor = pg.cursor ∧ (f pg).hasMore = pg.hasMore ∧
      (f pg).newerCursor = pg.newerCursor ∧ (f pg).hasMoreNewer = pg.hasMoreNewer) :
    Inv noted extra (s.setPagination f) := by
  cases hpg : s.view.pagination with
  | none => exact absurd hpg hsome
  | some pg =>
    obtain ⟨hcursor,hmore,hnewer,hmoreNewer⟩ := hf pg
    have hview : (s.setPagination f).view.pagination = some (f pg) := by
      unfold State.setPagination View.setPagination
      rw [hpg]
      rfl
    have hsome' : (s.setPagination f).view.pagination ≠ none := by
      rw [hview]
      exact Option.some_ne_none _
    constructor
    · refine h.core.client rfl rfl rfl rfl rfl rfl rfl rfl rfl rfl ?_ h.core.bounded.rendered
        h.core.bounded.loads (fun ho => (h.core.closed ho).2)
      intro k hk
      apply h.core.bounded.view k
      have hms : (s.setPagination f).view.messages = s.view.messages := rfl
      unfold View.keys at hk ⊢
      rw [hview,hms] at hk
      rw [hpg]
      simpa [ChannelPagination.keys,hcursor,hnewer] using hk
    · intro pg' hpg'
      rw [hview] at hpg'
      obtain rfl := Option.some.inj hpg'
      have hgood := h.view pg hpg
      unfold Windowed Following at hgood ⊢
      rw [hcursor,hmore,hnewer,hmoreNewer]
      exact hgood
    · exact h.hidden
    · exact fun _ => Or.inl hsome'
    · exact fun _ => hsome'
    · exact fun _ _ _ => hsome'
    · exact h.taken

/-- What a rejected request leaves, when it was no reload that the view is waiting for. -/
theorem Inv.rejected (h : Inv noted (load :: extra) s)
    (hd : load.deletes = true → (s.isOpen = true ∧ load ≠ .rollback) ∨
      Deleting (extra ++ s.loads) ∨ ∀ k ∈ noted.hidden, k ∉ s.stored)
    (hj : load.jumps = true → s.view.pagination ≠ none) : Inv noted extra (s.rejected load) := by
  cases load with
  | initial => exact h.drop nofun nofun
  | reset => exact h.drop nofun nofun
  | jump messageID => exact h.drop nofun hj
  | older c =>
    have hsome := h.paging _ List.mem_cons_self rfl
    exact (h.drop nofun nofun).setPagination hsome (fun pg => ⟨rfl,rfl,rfl,rfl⟩)
  | newer c =>
    have hsome := h.paging _ List.mem_cons_self rfl
    exact (h.drop nofun nofun).setPagination hsome (fun pg => ⟨rfl,rfl,rfl,rfl⟩)
  | rollback =>
    refine h.drop (fun hdel => ?_) nofun
    rcases hd hdel with ⟨-,hne⟩ | hc
    · exact absurd rfl hne
    · exact hc
  | delete messageID =>
    unfold State.rejected
    dsimp only
    split
    · rename_i hopen
      -- the reload takes the place of the delete
      refine Inv.sendCommand ?_ hopen nofun
      constructor
      · exact h.core
      · exact h.view
      · exact Or.inl ⟨_,List.mem_cons_self,rfl⟩
      · intro hloaded
        refine (h.loaded_of rfl hloaded).imp_right (fun hold => hold.mono ?_)
        exact fun l hl _ => List.mem_cons_of_mem _ hl
      · exact h.rendered
      · intro l hl hp
        rcases List.mem_cons.mp hl with rfl | hl
        · cases hp
        · exact h.paging l (List.mem_cons_of_mem _ hl) hp
      · exact h.taken
    · rename_i hclosed
      refine h.drop (fun hdel => ?_) nofun
      rcases hd hdel with ⟨hopen,-⟩ | hc
      · exact absurd hopen hclosed
      · exact hc

/-- A request that is made with a socket that is not open is rejected. -/
theorem Inv.start (h : Inv noted (load :: extra) s) (hkeys : ∀ k ∈ load.keys, k ≤ s.last)
    (hd : load.deletes = true → s.isOpen = true ∨ ∀ k ∈ noted.hidden, k ∉ s.stored)
    (hj : load.jumps = true → s.isOpen = true ∨ s.view.pagination ≠ none) :
    Inv noted extra (s.start load) := by
  unfold State.start
  split
  · rename_i hopen
    exact h.sendCommand hopen hkeys
  · rename_i hclosed
    refine h.rejected ?_ ?_
    · intro hdel
      exact Or.inr (Or.inr ((hd hdel).resolve_left hclosed))
    · intro hjump
      exact (hj hjump).resolve_left hclosed

theorem Inv.settle (h : Inv noted [] s) {pending : Request} (hp : s.pending = some pending) :
    Inv noted [pending.load] s.settle := by
  apply Inv.flushQueue
  have hloads : s.loads = pending.load :: ({ s with pending := none } : State).loads := by
    unfold State.loads
    rw [hp]
    rfl
  have hhidden := h.hidden
  have hloaded := h.loaded
  have hpaging := h.paging
  rw [List.nil_append,hloads] at hhidden hloaded hpaging
  constructor
  · obtain ⟨hstored,hsending,hview,hrendered,hbloads,hcommands,hhandlers,hout⟩ := h.core.bounded
    refine ⟨h.core.sorted,⟨hstored,hsending,hview,hrendered,?_,hcommands,hhandlers,hout⟩,
      ⟨h.core.numbered.commands,h.core.numbered.handlers,h.core.numbered.acks⟩,h.core.sending,?_,
      AcksGood.of_unawaited (fun _ _ _ => nofun),h.core.reloads,h.core.handlers⟩
    · intro l hl
      apply hbloads l
      rw [hloads]
      exact List.mem_cons_of_mem _ hl
    · intro hclosed
      have hnil := (h.core.closed hclosed).2
      rw [hloads] at hnil
      cases hnil
  · exact h.view
  · exact hhidden
  · exact hloaded
  · exact h.rendered
  · exact hpaging
  · exact h.taken

/-! ## Responses -/

/-- The view is replaced by one that is good. -/
theorem Inv.show (h : Inv noted (load :: extra) s) (noted' : Noted)
    (hread : noted'.readings = noted.readings) {v : View} (hkeys : ∀ k ∈ v.keys, k ≤ s.last)
    (hsome : v.pagination ≠ none)
    (hgood : ViewGood (visible noted' s.stored) s.undelivered v)
    (hhidden : Deleting (extra ++ s.loads) ∨ ∀ k ∈ noted'.hidden, k ∉ s.stored)
    (htaken : ∀ k ∈ noted'.hidden, k ≤ s.last) : Inv noted' extra { s with view := v } := by
  constructor
  · exact h.core.client hread rfl rfl rfl rfl rfl rfl rfl rfl rfl hkeys
      h.core.bounded.rendered h.core.bounded.loads (fun ho => (h.core.closed ho).2)
  · exact hgood
  · exact hhidden
  · exact fun _ => Or.inl hsome
  · exact fun _ => hsome
  · exact fun _ _ _ => hsome
  · exact htaken

/-- A request that is no delete is done with, and what was taken out stays so. -/
theorem Inv.hidden_rest (h : Inv noted (load :: extra) s) (hd : load.deletes = false) :
    Deleting (extra ++ s.loads) ∨ ∀ k ∈ noted.hidden, k ∉ s.stored := by
  refine h.hidden.imp_left (fun hold => hold.mono (fun l hl hld => ?_))
  rcases List.mem_cons.mp hl with rfl | hl
  · cases hd.symm.trans hld
  · exact hl

/-- The latest page makes a view that follows the history. -/
theorem latest_viewGood {stored T : List Key} {res : Page} (h : LatestGood stored T res) (v : View)
    (hms : v.messages = res.messages)
    (hpg : v.pagination = some { cursor := res.nextCursor, hasMore := res.hasMore }) :
    ViewGood stored T v := by
  intro pg hpg'
  rw [hpg] at hpg'
  obtain rfl := Option.some.inj hpg'
  rw [hms]
  exact ⟨h.1,Or.inr ⟨rfl,h.2.1,h.2.2⟩⟩

theorem latest_keys {res : Page} {last : Key} (h : ∀ k ∈ res.keys, k ≤ last) {v : View}
    (hms : v.messages = res.messages)
    (hpg : v.pagination = some { cursor := res.nextCursor, hasMore := res.hasMore }) :
    ∀ k ∈ v.keys, k ≤ last := by
  intro k hk
  apply h k
  unfold View.keys at hk
  rw [hms,hpg] at hk
  simp only [Option.map_some,Option.getD_some,ChannelPagination.keys,Option.toList_none,
    List.append_nil,List.mem_append] at hk
  simp only [Page.keys,List.mem_append]
  tauto

/-- What is shown again is no longer taken out. -/
def Noted.shown (noted : Noted) : Noted := { noted with hidden := [] }

theorem Inv.latest {res : Page} (h : Inv noted (load :: extra) s) (hkeys : ∀ k ∈ res.keys, k ≤ s.last)
    (hgood : LatestGood s.stored s.undelivered res) {v : View} (hms : v.messages = res.messages)
    (hpg : v.pagination = some { cursor := res.nextCursor, hasMore := res.hasMore }) :
    Inv noted.shown extra { s with view := v } := by
  refine h.show noted.shown rfl (latest_keys hkeys hms hpg) (by rw [hpg]; exact Option.some_ne_none _) ?_
    (Or.inr (List.forall_mem_nil _)) (List.forall_mem_nil _)
  exact (latest_viewGood hgood v hms hpg).shrink visible_subset

/-- The response fits the view that it is put beside. -/
def FitsView (noted : Noted) (v : View) (req : Request) : Prop :=
  match req.load with
  | .older c => v.pagination.bind ChannelPagination.cursor = some c
  | .newer c => v.hasMoreNewer = true ∧ v.pagination.bind ChannelPagination.newerCursor = some c
  | .rollback => v.hasMoreNewer = false ∧ ∀ reading ∈ noted.readings, reading.1 = req →
      ∀ pg ∈ v.pagination, pg.cursor = hundredth reading.2
  | _ => True

theorem Inv.older {c : Key} {res : Page} (h : Inv noted (.older c :: extra) s)
    (hkeys : ∀ k ∈ res.keys, k ≤ s.last)
    (hfits : s.view.pagination.bind ChannelPagination.cursor = some c)
    (hgood : AckGood s.stored s.undelivered (.older c) res) :
    Inv noted extra (s.resolved res (.older c)) := by
  obtain ⟨pg,hpg,hcursor⟩ := Option.bind_eq_some_iff.mp hfits
  obtain ⟨hmore,hpage⟩ := hgood
  have hsub : visible noted s.stored ⊆ s.stored := visible_subset
  have hpage := hpage.shrink hsub
  have hold := h.core.bounded.view
  have hview := h.view pg hpg
  unfold State.resolved State.setPagination View.setPagination
  dsimp only
  rw [hpg]
  refine h.show noted rfl ?_ (Option.some_ne_none _) ?_ (h.hidden_rest rfl)
    h.taken
  · intro k hk
    simp only [View.keys,Option.map_some,Option.getD_some,ChannelPagination.keys,
      List.mem_append] at hk
    simp only [View.keys,hpg,Option.map_some,Option.getD_some,ChannelPagination.keys,
      List.mem_append] at hold
    simp only [Page.keys,List.mem_append] at hkeys
    rcases hk with (hk | hk) | hk | hk
    · exact hkeys k (by tauto)
    · exact hold k (by tauto)
    · exact hkeys k (by tauto)
    · exact hold k (by tauto)
  · intro pg' hpg'
    obtain rfl := Option.some.inj hpg'
    refine ⟨hmore,?_⟩
    rcases hview.2 with ⟨hi,hnewer,hhi,hw,hfill⟩ | ⟨hnewer,ht,hr⟩
    · rw [hcursor] at hw hfill
      exact Or.inl ⟨hi,hnewer,hhi,hw.prepend hpage,hfill.prepend hpage⟩
    · rw [hcursor] at ht hr
      exact Or.inr ⟨hnewer,ht.prepend hpage,hr.prepend hpage⟩

theorem Inv.newer {c : Key} {res : Page} (h : Inv noted (.newer c :: extra) s)
    (hkeys : ∀ k ∈ res.keys, k ≤ s.last) (hwindow : s.view.hasMoreNewer = true)
    (hfits : s.view.pagination.bind ChannelPagination.newerCursor = some c)
    (hgood : AckGood s.stored s.undelivered (.newer c) res) :
    Inv noted extra (s.resolved res (.newer c)) := by
  obtain ⟨pg,hpg,hcursor⟩ := Option.bind_eq_some_iff.mp hfits
  have hsub : visible noted s.stored ⊆ s.stored := visible_subset
  have hold := h.core.bounded.view
  obtain ⟨hmore,hview⟩ := h.view pg hpg
  unfold State.resolved State.setPagination View.setPagination
  dsimp only
  rw [hpg]
  refine h.show noted rfl ?_ (Option.some_ne_none _) ?_ (h.hidden_rest rfl)
    h.taken
  · intro k hk
    simp only [View.keys,Option.map_some,Option.getD_some,ChannelPagination.keys,
      List.mem_append] at hk
    simp only [View.keys,hpg,Option.map_some,Option.getD_some,ChannelPagination.keys,
      List.mem_append] at hold
    simp only [Page.keys,List.mem_append] at hkeys
    rcases hk with (hk | hk) | hk | hk
    · exact hold k (by tauto)
    · exact hkeys k (by tauto)
    · exact hold k (by tauto)
    · exact hkeys k (by tauto)
  · intro pg' hpg'
    obtain rfl := Option.some.inj hpg'
    refine ⟨hmore,?_⟩
    rcases hview with ⟨hi,hnewer,hhi,hw,hfill⟩ | ⟨hnewer,-⟩
    · rw [hcursor] at hhi
      obtain rfl := Option.some.inj hhi
      rcases hgood with ⟨hi,hres,hnext,hpage⟩ | ⟨hres,hnext,hpage⟩
      · have hpage := hpage.shrink hsub
        exact Or.inl ⟨hi,hres,hnext,hw.append hpage,hfill.append hpage⟩
      · have hpage := hpage.shrink hsub
        exact Or.inr ⟨hres,hw.close hpage,hfill.close hpage⟩
    · unfold View.hasMoreNewer at hwindow
      rw [hpg] at hwindow
      rw [Option.map_some,Option.getD_some,hnewer] at hwindow
      cases hwindow

theorem Inv.jump {messageID : MessageID} {res : Page} (h : Inv noted (.jump messageID :: extra) s)
    (hkeys : ∀ k ∈ res.keys, k ≤ s.last)
    (hgood : AckGood s.stored s.undelivered (.jump messageID) res) :
    Inv noted.shown extra (s.resolved res (.jump messageID)) := by
  refine h.show noted.shown rfl ?_ (Option.some_ne_none _) ?_ (Or.inr (List.forall_mem_nil _))
    (List.forall_mem_nil _)
  · intro k hk
    simp only [View.keys,Option.map_some,Option.getD_some,ChannelPagination.keys,
      List.mem_append] at hk
    simp only [Page.keys,List.mem_append] at hkeys
    exact hkeys k (by tauto)
  · refine ViewGood.shrink ?_ visible_subset
    intro pg hpg
    obtain rfl := Option.some.inj hpg
    refine ⟨hgood.1,?_⟩
    rcases hgood.2 with ⟨hi,hnewer,hcursor,hw,hfill⟩ | ⟨hnewer,-,ht,hr⟩
    · exact Or.inl ⟨hi,hnewer,hcursor,hw,hfill⟩
    · exact Or.inr ⟨hnewer,ht,hr⟩

/-- The reload after a delete shows the latest page under the cursor that was there. -/
theorem Inv.rollback {res : Page} (h : Inv noted (.rollback :: extra) s)
    (hkeys : ∀ k ∈ res.keys, k ≤ s.last) (hnewer : s.view.hasMoreNewer = false)
    (hcursor : ∀ pg ∈ s.view.pagination, pg.cursor = res.nextCursor)
    (hgood : LatestGood s.stored s.undelivered res) :
    Inv noted.shown extra (s.resolved res .rollback) := by
  cases hpg : s.view.pagination with
  | none =>
    constructor
    · refine h.core.client rfl rfl rfl rfl rfl rfl rfl rfl rfl rfl ?_
        h.core.bounded.rendered h.core.bounded.loads (fun ho => (h.core.closed ho).2)
      intro k hk
      apply hkeys k
      simp only [State.resolved,View.keys,hpg,Option.map_none,Option.getD_none,List.append_nil] at hk
      simp only [Page.keys,List.mem_append]
      tauto
    · intro pg hpg'
      rw [show (s.resolved res .rollback).view.pagination = s.view.pagination from rfl,hpg] at hpg'
      cases hpg'
    · exact Or.inr (List.forall_mem_nil _)
    · exact h.loaded_of rfl
    · exact h.rendered
    · exact fun l hl => h.paging l (List.mem_cons_of_mem _ hl)
    · exact List.forall_mem_nil _
  | some pg =>
    have hold := h.core.bounded.view
    obtain ⟨hmore,hview⟩ := h.view pg hpg
    refine h.show noted.shown rfl ?_ ?_ (ViewGood.shrink ?_ visible_subset)
      (Or.inr (List.forall_mem_nil _)) (List.forall_mem_nil _)
    · intro k hk
      simp only [View.keys,hpg,Option.map_some,Option.getD_some,List.mem_append] at hk hold
      simp only [Page.keys,List.mem_append] at hkeys
      rcases hk with hk | hk
      · exact hkeys k (by tauto)
      · exact hold k (Or.inr hk)
    · rw [hpg]
      exact Option.some_ne_none _
    · intro pg' hpg'
      rw [hpg] at hpg'
      obtain rfl := Option.some.inj hpg'
      refine ⟨hmore,Or.inr ⟨?_,?_,?_⟩⟩
      · unfold View.hasMoreNewer at hnewer
        rw [hpg] at hnewer
        exact hnewer
      · rw [hcursor pg hpg]
        exact hgood.2.1
      · rw [hcursor pg hpg]
        exact hgood.2.2

/-- What a response to such a request leaves noted. -/
def Noted.resolved (noted : Noted) (load : Load) : Noted :=
  if load.replaces = true then noted.shown else noted

theorem Inv.resolved {req : Request} {res : Page} (h : Inv noted (req.load :: extra) s)
    (hkeys : ∀ k ∈ res.keys, k ≤ s.last) (hfits : FitsView noted s.view req)
    (hreload : req.load = .rollback →
      ∃ read, (req,read) ∈ noted.readings ∧ res.nextCursor = hundredth read)
    (hgood : AckGood s.stored s.undelivered req.load res) :
    Inv (noted.resolved req.load) extra (s.resolved res req.load) := by
  unfold FitsView at hfits
  cases hload : req.load with
  | initial =>
    rw [hload] at h hgood
    exact h.latest hkeys hgood rfl rfl
  | reset =>
    rw [hload] at h hgood
    exact h.latest hkeys hgood rfl rfl
  | older c =>
    rw [hload] at h hgood hfits
    exact h.older hkeys hfits hgood
  | newer c =>
    rw [hload] at h hgood hfits
    exact h.newer hkeys hfits.1 hfits.2 hgood
  | jump messageID =>
    rw [hload] at h hgood
    exact h.jump hkeys hgood
  | delete messageID =>
    rw [hload] at hgood
    exact hgood.elim
  | rollback =>
    obtain ⟨read,hread,hnext⟩ := hreload hload
    rw [hload] at h hgood hfits
    refine h.rollback hkeys hfits.1 (fun pg hpg => ?_) hgood
    rw [hnext]
    exact hfits.2 _ hread rfl pg hpg

end MiniDiscord.MessageHistory
