import MiniDiscord.History.ClientSteps

/-! # What is allowed, and deliveries

The steps in which nothing is lost and nothing is put where it does not belong, and what
such a delivery leaves.
-/
namespace MiniDiscord.MessageHistory
open ChatHub SfuTrack Paging Transition

variable {noted : Noted} {s : State} {extra : List Load} {load : Load}

/-! ## What is allowed -/

/-- The view follows the history. -/
def View.follows (v : View) : Bool := v.pagination.isSome && !v.hasMoreNewer

/-- Of what is stored, that which was not read is what is still to be announced. -/
def Followed (s : State) (read : List Key) : Prop :=
  (∀ k ∈ s.stored, k ∈ read ∨ k ∈ s.sending) ∧ ∀ k ∈ s.sending, k ∉ read

/-- A channel without a page needs the jump, and a view that lacks a stored message the reload
after a delete, unless another one follows. -/
def CanFail (noted : Noted) (s : State) (load : Load) : Prop :=
  (load.jumps = true → s.view.pagination ≠ none) ∧
    (load = .rollback → Deleting s.queue ∨ ∀ k ∈ noted.hidden, k ∉ s.stored)

/-- A message is appended to a view that follows, and to no window; a response is the
pending request's, and fits the view. -/
def CanReceive (noted : Noted) (s : State) : WsEvent → Prop
  | .message _ =>
    if s.rendered.isConnected = true ∧ s.rendered.hasMoreNewer = false then
      s.view.hasMoreNewer = false
    else s.view.follows = false
  | .ack req _ => ∀ pending ∈ s.pending,
      State.stale req pending = true ∨ (pending = req ∧ FitsView noted s.view req)
  | .error req => ∀ pending ∈ s.pending,
      State.stale req pending = true ∨ CanFail noted s pending.load

def WsEvent.isAck : WsEvent → Bool
  | .ack _ _ => true
  | _ => false

def WsEvent.answers (pending : Option Request) : WsEvent → Bool
  | .ack req _ => decide (pending = some req)
  | _ => false

/-- No response that is awaited is on its way. -/
def Unanswered (s : State) : Prop := ∀ e ∈ s.outbound, e.answers s.pending = false

def Allowed (x : RecordedState) : Event → Prop
  | .save createdAt => (ofLex x.state.last).1 ≤ createdAt
  | .push fits => (x.state.isOpen = true ∧ fits = true) ∨
      (x.state.view.follows = false ∧ Unanswered x.state)
  | .respond i fits => fits = true → ∀ h ∈ x.state.handlers[i]?, x.state.pending = some h.req →
      ∀ reading ∈ x.record.readings, reading.1 = h.req → ReadToEnd reading.2 h.req.load →
        Followed x.state reading.2
  | .deliver => ∀ e ∈ x.state.outbound.head?, CanReceive x.record x.state e
  | .timeout => ∀ pending ∈ x.state.pending, CanFail x.record x.state pending.load
  | .disconnect _ => (x.state.view.follows = true → messagesOf x.state.outbound = []) ∧
      (∀ load ∈ x.state.loads, load.jumps = true → x.state.view.pagination ≠ none) ∧
        ∀ k ∈ x.record.hidden, k ∉ x.state.stored
  | .jumpToMessage _ => x.state.isOpen = true ∨ x.state.view.pagination ≠ none
  | .handleDeleteMessage messageID => x.state.isOpen = true ∨
      ∀ k ∈ x.state.taken messageID, k ∉ x.state.stored
  | _ => True

/-! ## Deliveries -/

theorem ViewGood.unfollowed {stored T T' : List Key} {v : View} (h : ViewGood stored T v)
    (hv : v.follows = false) : ViewGood stored T' v := by
  intro pg hpg
  obtain ⟨hmore,hw | ⟨hnewer,-⟩⟩ := h pg hpg
  · exact ⟨hmore,Or.inl hw⟩
  · unfold View.follows View.hasMoreNewer at hv
    rw [hpg] at hv
    simp [hnewer] at hv

/-- The first event on its way is taken off. -/
theorem Core.tail (h : Core noted s) {e : WsEvent} {rest : List WsEvent}
    (ho : s.outbound = e :: rest) : Core noted { s with outbound := rest } := by
  have hmem : ∀ e' ∈ rest, e' ∈ s.outbound := by
    intro e' he'
    rw [ho]
    exact List.mem_cons_of_mem _ he'
  constructor
  · exact h.sorted
  · obtain ⟨hstored,hsending,hview,hrendered,hloads,hcommands,hhandlers,hout⟩ := h.bounded
    exact ⟨hstored,hsending,hview,hrendered,hloads,hcommands,hhandlers,fun e' he' => hout e' (hmem e' he')⟩
  · exact ⟨h.numbered.commands,h.numbered.handlers,fun req page hm => h.numbered.acks req page (hmem _ hm)⟩
  · exact h.sending
  · intro hclosed
    have hnil := (h.closed hclosed).1
    rw [ho] at hnil
    cases hnil
  · have hacks := h.acks
    rw [ho] at hacks
    cases e with
    | ack req page => exact hacks.2
    | message k => exact hacks
    | error req => exact hacks
  · exact fun req page hm => h.reloads req page (hmem _ hm)
  · exact h.handlers

theorem Inv.tail (h : Inv noted extra s) {e : WsEvent} {rest : List WsEvent}
    (ho : s.outbound = e :: rest) (he : messagesOf [e] = []) :
    Inv noted extra { s with outbound := rest } := by
  have hsame : ({ s with outbound := rest } : State).undelivered = s.undelivered := by
    unfold State.undelivered ahead
    rw [ho,← List.singleton_append,messagesOf_append,he,List.nil_append]
  constructor
  · exact h.core.tail ho
  · rw [hsame]
    exact h.view
  · exact h.hidden
  · exact h.loaded
  · exact h.rendered
  · exact h.paging
  · exact h.taken

/-- The event is no response that replaces the messages. -/
theorem note_deliver_of_not (h : ¬ s.Replacing) : note s noted .deliver = noted := if_neg h

theorem inv_message (h : Inv noted [] s) {k : Key} {rest : List WsEvent}
    (ho : s.outbound = .message k :: rest) (hg : CanReceive noted s (.message k)) :
    Inv noted [] ({ s with outbound := rest }.receive (.message k)) := by
  have hT : s.undelivered = k :: ({ s with outbound := rest } : State).undelivered := by
    unfold State.undelivered
    rw [ho]
    rfl
  have hview := h.view
  rw [hT] at hview
  have hdrop : s.view.follows = false → Inv noted [] { s with outbound := rest } := by
    intro hv
    exact ⟨h.core.tail ho,hview.unfollowed hv,h.hidden,h.loaded,h.rendered,h.paging,h.taken⟩
  unfold CanReceive at hg
  unfold State.receive
  dsimp only
  by_cases hconn : s.rendered.isConnected = false
  · rw [if_neg (by rw [hconn]; simp)] at hg
    rw [if_pos hconn]
    exact hdrop hg
  rw [if_neg hconn]
  by_cases hwindow : s.rendered.hasMoreNewer = true
  · rw [if_neg (by rw [hwindow]; simp)] at hg
    rw [if_pos hwindow]
    exact hdrop hg
  rw [if_neg hwindow]
  rw [if_pos ⟨by simpa using hconn,by simpa using hwindow⟩] at hg
  have hcore := h.core.tail ho
  constructor
  · refine hcore.client rfl rfl rfl rfl rfl rfl rfl rfl rfl rfl ?_
      hcore.bounded.rendered hcore.bounded.loads (fun ho => (hcore.closed ho).2)
    intro k' hk'
    have hk : k ≤ s.last :=
      h.core.bounded.outbound _ (by rw [ho]; exact List.mem_cons_self) k List.mem_cons_self
    have hold := hcore.bounded.view
    unfold View.keys at hk' hold
    simp only [List.mem_append,List.mem_singleton] at hk' hold
    rcases hk' with (hk' | rfl) | hk'
    · exact hold k' (Or.inl hk')
    · exact hk
    · exact hold k' (Or.inr hk')
  · intro pg hpg
    obtain ⟨hmore,⟨hi,hnewer,-⟩ | ⟨hnewer,ht,hr⟩⟩ := hview pg hpg
    · unfold View.hasMoreNewer at hg
      rw [show s.view.pagination = some pg from hpg,Option.map_some,Option.getD_some,hnewer] at hg
      cases hg
    · exact ⟨hmore,Or.inr ⟨hnewer,ht.arrive,hr.arrive⟩⟩
  · exact h.hidden
  · exact h.loaded
  · exact h.rendered
  · exact h.paging
  · exact h.taken

theorem inv_ack (h : Inv noted [] s) {req : Request} {res : Page} {rest : List WsEvent}
    (ho : s.outbound = .ack req res :: rest) (hg : CanReceive noted s (.ack req res)) :
    Inv (note s noted .deliver) [] ({ s with outbound := rest }.receive (.ack req res)) := by
  have htail := h.tail ho rfl
  have hreplacing : s.Replacing ↔ ∃ pending, s.pending = some pending ∧
      State.stale req pending = false ∧ pending.load.replaces = true := by
    unfold State.Replacing
    rw [ho]
    cases s.pending with
    | none => simp
    | some pending => simp
  unfold State.receive
  dsimp only
  split
  · rename_i hnone
    rw [note_deliver_of_not (fun hr => ?_)]
    · exact htail
    · obtain ⟨pending,hp,-⟩ := hreplacing.mp hr
      cases hnone.symm.trans hp
  · rename_i pending hp
    have hp : s.pending = some pending := hp
    split
    · rename_i hstale
      rw [note_deliver_of_not (fun hr => ?_)]
      · exact htail
      · obtain ⟨pending',hp',hnot,-⟩ := hreplacing.mp hr
        obtain rfl := Option.some.inj (hp.symm.trans hp')
        cases hstale.symm.trans hnot
    · rename_i hstale
      obtain ⟨rfl,hfits⟩ := (hg pending hp).resolve_left hstale
      have hnote : note s noted .deliver = noted.resolved pending.load := by
        change (if s.Replacing then _ else _) = _
        unfold Noted.resolved Noted.shown
        refine if_congr (hreplacing.trans ⟨?_,?_⟩) rfl rfl
        · rintro ⟨pending',hp',-,hreplaces⟩
          obtain rfl := Option.some.inj (hp.symm.trans hp')
          exact hreplaces
        · exact fun hreplaces => ⟨pending,hp,Bool.eq_false_of_not_eq_true hstale,hreplaces⟩
      rw [hnote]
      have hmem : .ack pending res ∈ s.outbound := by
        rw [ho]
        exact List.mem_cons_self
      have hacks := h.core.acks
      rw [ho] at hacks
      have hgood := hacks.1 hp
      refine (htail.settle hp).resolved ?_ ?_ (h.core.reloads pending res hmem) ?_
      · intro k hk
        unfold State.settle
        rw [State.flushQueue_last]
        exact h.core.bounded.outbound _ hmem k (List.mem_append_right _ hk)
      · unfold State.settle
        rw [State.flushQueue_view]
        exact hfits
      · unfold State.settle State.undelivered
        rw [State.flushQueue_stored,State.flushQueue_outbound,State.flushQueue_sending]
        exact hgood

/-- A pending request is rejected. -/
theorem Inv.reject (h : Inv noted [] s) {pending : Request} (hp : s.pending = some pending)
    (hg : CanFail noted s pending.load) : Inv noted [] (s.settle.rejected pending.load) := by
  refine (h.settle hp).rejected ?_ ?_
  · intro hdel
    by_cases hroll : pending.load = .rollback
    · refine Or.inr ((hg.2 hroll).imp ?_ ?_)
      · unfold State.settle
        rw [State.flushQueue_loads]
        exact fun hd => hd
      · unfold State.settle
        rw [State.flushQueue_stored]
        exact fun hd => hd
    · refine Or.inl ⟨?_,hroll⟩
      unfold State.settle
      rw [State.flushQueue_isOpen]
      by_contra hclosed
      have hnil := (h.core.closed (by simpa using hclosed)).2
      unfold State.loads at hnil
      rw [hp] at hnil
      cases hnil
  · intro hjump
    unfold State.settle
    rw [State.flushQueue_view]
    exact hg.1 hjump

theorem inv_error (h : Inv noted [] s) {req : Request} {rest : List WsEvent}
    (ho : s.outbound = .error req :: rest) (hg : CanReceive noted s (.error req)) :
    Inv noted [] ({ s with outbound := rest }.receive (.error req)) := by
  have htail := h.tail ho rfl
  unfold State.receive
  dsimp only
  split
  · exact htail
  · rename_i pending hp
    split
    · exact htail
    · rename_i hstale
      exact htail.reject hp ((hg pending hp).resolve_left hstale)

end MiniDiscord.MessageHistory
