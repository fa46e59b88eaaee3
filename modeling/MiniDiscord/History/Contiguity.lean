import MiniDiscord.History.HubSteps

/-! # The client's history has no gap

While no response crosses an announcement, no page is put beside a view it was not asked
for, and no announcement and no reload of a delete is lost.
-/
namespace MiniDiscord.MessageHistory
open ChatHub SfuTrack Paging Transition

variable {noted : Noted} {s : State} {extra : List Load} {load : Load}

/-! ## Disconnects -/

theorem Inv.setConnected (h : Inv noted extra s) (isConnected : Bool) :
    Inv noted extra { s with view := { s.view with isConnected := isConnected } } := by
  constructor
  · exact h.core.client rfl rfl rfl rfl rfl rfl rfl rfl rfl rfl h.core.bounded.view
      h.core.bounded.rendered h.core.bounded.loads (fun ho => (h.core.closed ho).2)
  · exact h.view
  · exact h.hidden
  · exact h.loaded
  · exact h.rendered
  · exact h.paging
  · exact h.taken

/-- What a closed socket leaves of the view when it rejects a request. -/
theorem rejected_closed (load : Load) (hclosed : s.isOpen = false) :
    (s.rejected load).isOpen = false ∧ (s.rejected load).stored = s.stored ∧
      (s.view.pagination ≠ none → (s.rejected load).view.pagination ≠ none) := by
  cases load with
  | older c => exact ⟨hclosed,rfl,fun _ => Option.some_ne_none _⟩
  | newer c => exact ⟨hclosed,rfl,fun _ => Option.some_ne_none _⟩
  | delete messageID =>
    unfold State.rejected
    dsimp only
    rw [if_neg (by rw [hclosed]; exact Bool.false_ne_true)]
    exact ⟨hclosed,rfl,id⟩
  | _ => exact ⟨hclosed,rfl,id⟩

theorem Inv.rejectAll {loads : List Load} (h : Inv noted loads s) (hclosed : s.isOpen = false)
    (hjumps : ∀ l ∈ loads, l.jumps = true → s.view.pagination ≠ none)
    (hhidden : ∀ k ∈ noted.hidden, k ∉ s.stored) :
    Inv noted [] (loads.foldl State.rejected s) := by
  induction loads generalizing s with
  | nil => exact h
  | cons l loads ih =>
    obtain ⟨hopen,hstored,hsome⟩ := rejected_closed l hclosed
    rw [List.foldl_cons]
    refine ih (h.rejected (fun _ => Or.inr (Or.inr hhidden)) (hjumps l List.mem_cons_self)) hopen ?_ ?_
    · exact fun l' hl' hjump => hsome (hjumps l' (List.mem_cons_of_mem _ hl') hjump)
    · rw [hstored]
      exact hhidden

theorem inv_close (h : Inv noted [] s) (hmsgs : s.view.follows = true → messagesOf s.outbound = [])
    (hjumps : ∀ load ∈ s.loads, load.jumps = true → s.view.pagination ≠ none)
    (hhidden : ∀ k ∈ noted.hidden, k ∉ s.stored) : Inv noted [] s.close := by
  apply Inv.setConnected
  let closed : State := { s with isOpen := false, outbound := [], pending := none, queue := [] }
  have hview : ViewGood (visible noted s.stored) closed.undelivered s.view := by
    cases hv : s.view.follows with
    | true =>
      have hT : closed.undelivered = s.undelivered := by
        unfold State.undelivered ahead
        rw [hmsgs hv]
        rfl
      rw [hT]
      exact h.view
    | false => exact h.view.unfollowed hv
  have hnil : closed.loads = [] := rfl
  have hinv : Inv noted s.loads closed := by
    constructor
    · obtain ⟨hstored,hsending,hbview,hrendered,-,hcommands,hhandlers,-⟩ := h.core.bounded
      refine ⟨h.core.sorted,⟨hstored,hsending,hbview,hrendered,?_,hcommands,hhandlers,
        List.forall_mem_nil _⟩,⟨h.core.numbered.commands,h.core.numbered.handlers,?_⟩,h.core.sending,
        fun _ => ⟨rfl,hnil⟩,trivial,?_,h.core.handlers⟩
      · rw [hnil]
        exact List.forall_mem_nil _
      · intro req page hm
        cases hm
      · intro req page hm
        cases hm
    · exact hview
    · exact Or.inr hhidden
    · rw [hnil,List.append_nil]
      exact h.loaded
    · exact h.rendered
    · rw [hnil,List.append_nil]
      exact h.paging
    · exact h.taken
  exact hinv.rejectAll rfl hjumps hhidden

theorem inv_reconnect (h : Inv noted [] s) :
    Inv noted [] { s with
      isOpen := true, conn := s.conn + 1, view := { s.view with isConnected := true } } := by
  have hopen : Inv noted [] { s with isOpen := true, conn := s.conn + 1 } := by
    constructor
    · obtain ⟨hstored,hsending,hview,hrendered,hloads,hcommands,hhandlers,hout⟩ := h.core.bounded
      exact ⟨h.core.sorted,⟨hstored,hsending,hview,hrendered,hloads,hcommands,hhandlers,hout⟩,
        ⟨h.core.numbered.commands,h.core.numbered.handlers,h.core.numbered.acks⟩,h.core.sending,
        nofun,h.core.acks,h.core.reloads,h.core.handlers⟩
    · exact h.view
    · exact h.hidden
    · exact h.loaded
    · exact h.rendered
    · exact h.paging
    · exact h.taken
  exact hopen.setConnected true

theorem inv_render (h : Inv noted [] s) : Inv noted [] { s with rendered := s.view } := by
  constructor
  · exact h.core.client rfl rfl rfl rfl rfl rfl rfl rfl rfl rfl h.core.bounded.view
      h.core.bounded.view h.core.bounded.loads (fun ho => (h.core.closed ho).2)
  · exact h.view
  · exact h.hidden
  · exact h.loaded
  · exact fun hsome => hsome
  · exact h.paging
  · exact h.taken

/-! ## What the user asks for -/

/-- A request that is neither a delete nor a jump can be made at any time. -/
theorem Inv.begin (h : Inv noted [] s) (hkeys : ∀ k ∈ load.keys, k ≤ s.last)
    (hd : load.deletes = false) (hj : load.jumps = false)
    (hp : load.pages = true → s.view.pagination ≠ none) : Inv noted [] (s.start load) := by
  refine (h.hold hp).start hkeys ?_ ?_
  · rw [hd]
    exact nofun
  · rw [hj]
    exact nofun

theorem inv_loadOlder (h : Inv noted [] s) : Inv noted [] s.loadOlderMessages := by
  unfold State.loadOlderMessages
  cases hr : s.rendered.pagination with
  | none => exact h
  | some state =>
    dsimp only
    split
    · exact h
    · cases hcursor : state.cursor with
      | none => exact h
      | some cursor =>
        have hsome := h.rendered (by rw [hr]; exact Option.some_ne_none _)
        have hflags := h.setPagination hsome
          (f := fun pg => { pg with isLoadingMore := true, error := false })
          (fun pg => ⟨rfl,rfl,rfl,rfl⟩)
        refine hflags.begin ?_ rfl rfl (fun _ => Option.some_ne_none _)
        intro k hk
        rw [List.mem_singleton.mp hk]
        apply h.core.bounded.rendered
        simp [View.keys,hr,ChannelPagination.keys,hcursor]

theorem inv_loadNewer (h : Inv noted [] s) : Inv noted [] s.loadNewerMessages := by
  unfold State.loadNewerMessages
  cases hr : s.rendered.pagination with
  | none => exact h
  | some state =>
    dsimp only
    split
    · exact h
    · cases hcursor : state.newerCursor with
      | none => exact h
      | some cursor =>
        have hsome := h.rendered (by rw [hr]; exact Option.some_ne_none _)
        have hflags := h.setPagination hsome
          (f := fun pg => { pg with isLoadingNewer := true }) (fun pg => ⟨rfl,rfl,rfl,rfl⟩)
        refine hflags.begin ?_ rfl rfl (fun _ => Option.some_ne_none _)
        intro k hk
        rw [List.mem_singleton.mp hk]
        apply h.core.bounded.rendered
        simp [View.keys,hr,ChannelPagination.keys,hcursor]

/-- A jump counts the channel as loaded from the start. -/
theorem inv_jumpTo (h : Inv noted [] s) {messageID : MessageID}
    (hg : s.isOpen = true ∨ s.view.pagination ≠ none) : Inv noted [] (s.jumpToMessage messageID) := by
  unfold State.jumpToMessage
  split
  · exact h
  split
  · exact h
  have hhold : Inv noted [.jump messageID] s := h.hold nofun
  have hload : Inv noted [.jump messageID] { s with view := { s.view with loaded := true } } := by
    constructor
    · exact h.core.client rfl rfl rfl rfl rfl rfl rfl rfl rfl rfl h.core.bounded.view
        h.core.bounded.rendered h.core.bounded.loads (fun ho => (h.core.closed ho).2)
    · exact h.view
    · exact hhold.hidden
    · exact fun _ => Or.inr ⟨_,List.mem_cons_self,rfl⟩
    · exact h.rendered
    · exact hhold.paging
    · exact h.taken
  exact hload.start nofun nofun (fun _ => hg)

/-- A view of which some messages are taken out shows the others. -/
theorem ViewGood.filter {stored stored' T : List Key} {v : View} (h : ViewGood stored T v)
    (p : Key → Bool) (hs : ∀ k ∈ stored', k ∈ stored ∧ (k ∈ v.messages → p k = true)) :
    ViewGood stored' T { v with messages := v.messages.filter p } := by
  intro pg hpg
  obtain ⟨hmore,hw | hf⟩ := h pg hpg
  · obtain ⟨hi,hnewer,hcursor,hw,hfill⟩ := hw
    refine ⟨hmore,Or.inl ⟨hi,hnewer,hcursor,hw.filter p,fun k hk hlo hhi => ?_⟩⟩
    have hm := hfill k (hs k hk).1 hlo hhi
    exact List.mem_filter.mpr ⟨hm,(hs k hk).2 hm⟩
  · obtain ⟨hnewer,ht,hr⟩ := hf
    refine ⟨hmore,Or.inr ⟨hnewer,ht.filter p,fun k hk hlo => ?_⟩⟩
    exact (hr k (hs k hk).1 hlo).imp_left (fun hm => List.mem_filter.mpr ⟨hm,(hs k hk).2 hm⟩)

/-- The message is taken out of the view at once, and counts as hidden. -/
theorem inv_delete (h : Inv noted [] s) {messageID : MessageID}
    (hg : s.isOpen = true ∨ ∀ k ∈ s.taken messageID, k ∉ s.stored) :
    Inv (note s noted (.handleDeleteMessage messageID)) [] (s.handleDeleteMessage messageID) := by
  have htaken : (note s noted (.handleDeleteMessage messageID)).hidden =
      noted.hidden ++ s.taken messageID := rfl
  have hnever : s.rendered.isConnected = false → s.taken messageID = [] := fun hc => if_pos hc
  unfold State.handleDeleteMessage
  split
  · rename_i hconn
    refine h.recorded ?_ (List.Subset.refl _)
    rw [htaken,hnever hconn,List.append_nil]
  rename_i hconn
  have htake : s.taken messageID = s.view.messages.filter (fun k => decide (k.id = messageID)) :=
    if_neg hconn
  have hkeys : ∀ k ∈ s.taken messageID, k ≤ s.last := by
    intro k hk
    rw [htake] at hk
    exact h.core.bounded.view k (List.mem_append_left _ (List.mem_filter.mp hk).1)
  have hhold : Inv noted [.delete messageID] s := h.hold nofun
  have hload : Inv (note s noted (.handleDeleteMessage messageID)) [.delete messageID]
      { s with view := { s.view with
        messages := s.view.messages.filter (fun k => decide (k.id ≠ messageID)) } } := by
    constructor
    · refine h.core.client rfl rfl rfl rfl rfl rfl rfl rfl rfl rfl ?_
        h.core.bounded.rendered h.core.bounded.loads (fun ho => (h.core.closed ho).2)
      intro k hk
      apply h.core.bounded.view k
      rcases List.mem_append.mp hk with hk | hk
      · exact List.mem_append_left _ (List.mem_filter.mp hk).1
      · exact List.mem_append_right _ hk
    · refine h.view.filter _ (fun k hk => ?_)
      obtain ⟨hstored,hshown⟩ := mem_visible.mp hk
      rw [htaken,List.mem_append,htake] at hshown
      refine ⟨mem_visible.mpr ⟨hstored,fun hh => hshown (Or.inl hh)⟩,fun hm => ?_⟩
      refine decide_eq_true (fun hid => hshown (Or.inr ?_))
      exact List.mem_filter.mpr ⟨hm,decide_eq_true hid⟩
    · exact Or.inl ⟨_,List.mem_cons_self,rfl⟩
    · exact hhold.loaded
    · exact h.rendered
    · exact hhold.paging
    · rw [htaken]
      intro k hk
      rcases List.mem_append.mp hk with hk | hk
      · exact h.taken k hk
      · exact hkeys k hk
  refine hload.start nofun (fun _ => ?_) nofun
  by_cases hopen : s.isOpen = true
  · exact Or.inl hopen
  · refine Or.inr ?_
    have hnil := (h.core.closed (by simpa using hopen)).2
    have hold := h.hidden.resolve_left (by rw [hnil]; rintro ⟨l,hl,-⟩; cases hl)
    rw [htaken]
    intro k hk
    rcases List.mem_append.mp hk with hk | hk
    · exact hold k hk
    · exact hg.resolve_left hopen k hk

/-! ## Every run -/

theorem inv_init : Inv unrecorded.record [] init := by
  constructor
  · constructor
    · exact List.Pairwise.nil
    · refine ⟨?_,?_,?_,?_,?_,?_,?_,?_⟩ <;> intro k hk <;> cases hk
    · exact ⟨List.forall_mem_nil _,List.forall_mem_nil _,fun _ _ hm => by cases hm⟩
    · exact nofun
    · exact fun _ => ⟨rfl,rfl⟩
    · exact trivial
    · intro req page hm
      cases hm
    · intro handler hh
      cases hh
  · intro pg hpg
    cases hpg
  · exact Or.inr (List.forall_mem_nil _)
  · intro hloaded
    cases hloaded
  · intro hsome
    exact absurd rfl hsome
  · intro l hl
    cases hl
  · exact List.forall_mem_nil _

theorem inv_handle {t : State} (h : Inv noted [] s) {ok removed fits : Bool}
    (hstep : step s (.handle ok removed fits) = some t) :
    Inv (note s noted (.handle ok removed fits)) [] t := by
  unfold step at hstep
  cases hc : s.commands with
  | nil =>
    rw [hc] at hstep
    cases hstep
  | cons c rest =>
    obtain ⟨conn,req⟩ := c
    rw [hc] at hstep
    dsimp only at hstep
    have hmem : (conn,req) ∈ s.commands := by
      rw [hc]
      exact List.mem_cons_self
    have hnote : note s noted (.handle ok removed fits) =
        if ok = true ∧ req.load.offLoop = false then
          { noted with readings := noted.readings ++ [(req,s.stored)] }
        else noted := by
      simp only [note,hc]
    split at hstep
    · rename_i hs
      obtain rfl := Option.some.inj hstep
      have hnoted : Inv (note s noted (.handle ok removed fits)) [] s := by
        rw [hnote]
        split
        · exact h.recorded rfl (List.subset_append_left _ _)
        · exact h
      have hrest : Inv (note s noted (.handle ok removed fits)) [] { s with commands := rest } :=
        hnoted.commands (by rw [hc]; exact List.subset_cons_self _ _)
      refine hrest.handleCommand hs (h.core.bounded.commands _ hmem) (h.core.numbered.commands _ hmem)
        (fun hok hoff => ?_) removed fits
      rw [hnote,if_pos ⟨hok,hoff⟩]
      exact List.mem_append_right _ List.mem_cons_self
    · cases hstep

theorem inv_deliver {t : State} (h : Inv noted [] s) (hg : Allowed ⟨s,noted⟩ .deliver)
    (hstep : step s .deliver = some t) : Inv (note s noted .deliver) [] t := by
  unfold step at hstep
  cases ho : s.outbound with
  | nil =>
    rw [ho] at hstep
    cases hstep
  | cons e rest =>
    rw [ho] at hstep
    obtain rfl := Option.some.inj hstep
    have he : CanReceive noted s e := hg e (by dsimp only; rw [ho]; rfl)
    have hnot : e.isAck = false → note s noted .deliver = noted := by
      intro hack
      refine note_deliver_of_not (fun hr => ?_)
      unfold State.Replacing at hr
      rw [ho] at hr
      cases e with
      | ack req page => cases hack
      | message k => exact hr
      | error req => exact hr
    cases e with
    | message k =>
      rw [hnot rfl]
      exact inv_message h ho he
    | ack req res => exact inv_ack h ho he
    | error req =>
      rw [hnot rfl]
      exact inv_error h ho he

theorem inv_step {x y : RecordedState} {e : Event} (h : Inv x.record [] x.state) (hg : Allowed x e)
    (hstep : recordedStep x e = some y) : Inv y.record [] y.state := by
  obtain ⟨s,noted⟩ := x
  obtain ⟨t,noted'⟩ := y
  obtain ⟨hstep,rfl⟩ := recording_eq_some_iff.mp hstep
  dsimp only at h hstep ⊢
  cases e with
  | handle ok removed fits => exact inv_handle h hstep
  | deliver => exact inv_deliver h hg hstep
  | save createdAt =>
    unfold step at hstep
    dsimp only at hstep
    split at hstep
    · rename_i hs
      obtain rfl := Option.some.inj hstep
      exact inv_save h hs (lt_saved hg)
    · cases hstep
  | push fits =>
    unfold step at hstep
    dsimp only at hstep
    split at hstep
    · cases hstep
    · rename_i k hs
      obtain rfl := Option.some.inj hstep
      exact inv_push h hs hg
  | deleteStored messageID =>
    unfold step at hstep
    dsimp only at hstep
    split at hstep
    · rename_i hs
      obtain rfl := Option.some.inj hstep
      exact h.removeStored hs messageID
    · cases hstep
  | read i ok =>
    unfold step at hstep
    dsimp only at hstep
    split at hstep
    · cases hstep
    · rename_i handler hi
      split at hstep
      · obtain rfl := Option.some.inj hstep
        exact inv_read h hi ok
      · cases hstep
  | respond i fits =>
    unfold step at hstep
    dsimp only at hstep
    split at hstep
    · cases hstep
    · rename_i handler hi
      split at hstep
      · cases hstep
      · rename_i page hpage
        obtain rfl := Option.some.inj hstep
        exact inv_respond h hi hpage hg
  | timeout =>
    unfold step at hstep
    dsimp only at hstep
    split at hstep
    · cases hstep
    · rename_i pending hp
      obtain rfl := Option.some.inj hstep
      exact h.reject hp (hg pending hp)
  | disconnect received =>
    unfold step at hstep
    dsimp only at hstep
    split at hstep
    · obtain rfl := Option.some.inj hstep
      have hrest : Inv noted [] { s with commands := s.commands.take received } :=
        h.commands (List.take_subset _ _)
      exact inv_close hrest hg.1 hg.2.1 hg.2.2
    · cases hstep
  | reconnect =>
    unfold step at hstep
    dsimp only at hstep
    split at hstep
    · obtain rfl := Option.some.inj hstep
      exact inv_reconnect h
    · cases hstep
  | render =>
    obtain rfl := Option.some.inj hstep
    exact inv_render h
  | initialLoad =>
    obtain rfl := Option.some.inj hstep
    unfold State.initialLoad
    split
    · exact h.begin nofun rfl rfl nofun
    · exact h
  | loadOlderMessages =>
    obtain rfl := Option.some.inj hstep
    exact inv_loadOlder h
  | jumpToMessage messageID =>
    obtain rfl := Option.some.inj hstep
    exact inv_jumpTo h hg
  | loadNewerMessages =>
    obtain rfl := Option.some.inj hstep
    exact inv_loadNewer h
  | resetToLiveTail =>
    obtain rfl := Option.some.inj hstep
    unfold State.resetToLiveTail
    split
    · exact h.begin nofun rfl rfl nofun
    · exact h
  | handleDeleteMessage messageID =>
    obtain rfl := Option.some.inj hstep
    exact inv_delete h hg

/-! ## What the user sees -/

instance (loads : List Load) : Decidable (Deleting loads) := by
  unfold Deleting
  infer_instance

instance (stored : List Key) (load : Load) : Decidable (ReadToEnd stored load) := by
  cases load <;> unfold ReadToEnd <;> infer_instance

instance (s : State) (read : List Key) : Decidable (Followed s read) := by
  unfold Followed
  infer_instance

instance (noted : Noted) (v : View) (req : Request) : Decidable (FitsView noted v req) := by
  unfold FitsView
  split <;> infer_instance

instance (noted : Noted) (s : State) (load : Load) : Decidable (CanFail noted s load) := by
  unfold CanFail
  infer_instance

instance (noted : Noted) (s : State) (e : WsEvent) : Decidable (CanReceive noted s e) := by
  cases e <;> unfold CanReceive <;> infer_instance

instance (s : State) : Decidable (Unanswered s) := by
  unfold Unanswered
  infer_instance

instance (x : RecordedState) (e : Event) : Decidable (Allowed x e) := by
  cases e <;> unfold Allowed <;> infer_instance

end MiniDiscord.MessageHistory
