import MiniDiscord.Connections.Registry

/-! # Outbound channels are safe

Whoever is registered has an open channel, and a channel is closed only where its client
loses its place in `clientsByUser`, in the same section.
-/
namespace MiniDiscord.Connections
open Transition

/-- No send on a closed channel and no second close; every event that was put on a channel
was on that of the connection registered for its user at that step. -/
structure OutboundSafe (s : State) : Prop where
  panic : s.panic = none
  closes : ∀ cl, (s.clients cl).closes ≤ 1
  sent : ∀ d ∈ s.sent, d.registered = some d.client ∧ (s.clients d.client).userID = d.userID

structure Registered (s : State) : Prop extends OutboundSafe s where
  holder : ∀ u cl, s.clientsByUser.lookup u = some cl →
    cl ∈ s.handed ∧ (s.clients cl).userID = u ∧ (s.clients cl).closes = 0
  waiting : ∀ cl, cl ∉ s.handed → (s.clients cl).closes = 0
  handed : ∀ cl ∈ s.handed, cl < s.nextClient
  sentTo : ∀ d ∈ s.sent, d.client < s.nextClient

variable {s s' : State} {e : Event} {u : UserID} {cl : ClientID}

/-- Only queues and connections change. -/
theorem Registered.congr (h : Registered s) (huser : ∀ x, (s'.clients x).userID = (s.clients x).userID)
    (hcloses : ∀ x, (s'.clients x).closes = (s.clients x).closes) (hpanic : s'.panic = s.panic)
    (hmap : s'.clientsByUser = s.clientsByUser) (hhanded : s'.handed = s.handed)
    (hnext : s'.nextClient = s.nextClient) (hsent : ∀ d ∈ s'.sent, d ∈ s.sent ∨
      (d.registered = some d.client ∧ (s.clients d.client).userID = d.userID ∧ d.client < s.nextClient)) :
    Registered s' := by
  constructor
  case toOutboundSafe =>
    refine ⟨hpanic.trans h.panic,fun x => ?_,fun d hd => ?_⟩
    · rw [hcloses]
      exact h.closes x
    · rw [huser]
      rcases hsent d hd with hold | ⟨h1,h2,-⟩
      · exact h.sent d hold
      · exact ⟨h1,h2⟩
  case holder =>
    intro v x hx
    rw [hmap] at hx
    rw [hhanded,huser,hcloses]
    exact h.holder v x hx
  case waiting =>
    intro x hx
    rw [hhanded] at hx
    rw [hcloses]
    exact h.waiting x hx
  case handed => rw [hhanded,hnext]; exact h.handed
  case sentTo =>
    intro d hd
    rw [hnext]
    rcases hsent d hd with hold | ⟨-,-,h3⟩
    · exact h.sentTo d hold
    · exact h3

theorem setClient_clients (s : State) (cl x : ClientID) (c : Client) :
    (s.setClient cl c).clients x = if x = cl then c else s.clients x := by
  by_cases hx : x = cl
  · rw [if_pos hx,hx]
    exact Function.update_self _ _ _
  · rw [if_neg hx]
    exact Function.update_of_ne hx _ _

theorem Registered.closeConn (h : Registered s) (cl : ClientID) : Registered (s.closeConn cl) := by
  refine h.congr (fun x => ?_) (fun x => ?_) rfl rfl rfl rfl (fun d hd => Or.inl hd)
  · rw [State.closeConn, setClient_clients]
    split
    · rename_i hx
      rw [hx]
    · rfl
  · rw [State.closeConn, setClient_clients]
    split
    · rename_i hx
      rw [hx]
    · rfl

/-- A push finds the registered client's channel open. -/
theorem Registered.enqueueEvent (h : Registered s) (hu : s.clientsByUser.lookup u = some cl)
    (event : WsEvent) : Registered (s.enqueueEvent u cl event) := by
  obtain ⟨hhanded,huser,hopen⟩ := h.holder u cl hu
  unfold State.enqueueEvent
  dsimp only
  rw [if_neg (fun hn => hn hopen)]
  split
  · refine h.congr (fun x => ?_) (fun x => ?_) rfl rfl rfl rfl (fun d hd => ?_)
    · change ((s.setClient cl _).clients x).userID = _
      rw [setClient_clients]
      split
      · rename_i hx
        rw [hx]
      · rfl
    · change ((s.setClient cl _).clients x).closes = _
      rw [setClient_clients]
      split
      · rename_i hx
        rw [hx]
      · rfl
    · rcases List.mem_append.mp hd with hold | hnew
      · exact Or.inl hold
      · cases List.mem_singleton.mp hnew
        exact Or.inr ⟨hu,huser,h.handed cl hhanded⟩
  · split
    · exact h.closeConn cl
    · exact h

theorem Registered.pushToUsers (h : Registered s) (userIDs : List UserID) (event : WsEvent) :
    Registered (s.pushToUsers userIDs event) := by
  unfold State.pushToUsers
  induction userIDs generalizing s with
  | nil => exact h
  | cons v vs ih =>
    rw [List.foldl_cons]
    apply ih
    unfold State.pushToUser
    split
    · exact h
    · exact h.enqueueEvent ‹_› event

theorem Registered.pushEvent (h : Registered s) (cl : ClientID) (event : WsEvent) :
    Registered (s.pushEvent cl event) := by
  unfold State.pushEvent
  split
  · exact h.enqueueEvent ‹_› event
  · exact h

/-- A channel that was never closed is closed once its client is nobody's any more. -/
theorem Registered.closeOutbound (h : Registered s) {m : GoMap UserID ClientID}
    (hhanded : cl ∈ s.handed) (hopen : (s.clients cl).closes = 0)
    (hm : ∀ v x, m.lookup v = some x → s.clientsByUser.lookup v = some x ∧ x ≠ cl) :
    Registered ({ s with clientsByUser := m }.closeOutbound cl) := by
  obtain ⟨s',hs'⟩ : ∃ s', s' = { s with clientsByUser := m }.closeOutbound cl := ⟨_,rfl⟩
  have hclients : ∀ x, s'.clients x =
      if x = cl then { s.clients cl with closes := (s.clients cl).closes + 1 } else s.clients x := by
    intro x
    rw [hs']
    exact setClient_clients _ _ _ _
  have huser : ∀ x, (s'.clients x).userID = (s.clients x).userID := by
    intro x
    rw [hclients]
    split
    · rename_i hx
      rw [hx]
    · rfl
  have hsame : ∀ x, x ≠ cl → (s'.clients x).closes = (s.clients x).closes := by
    intro x hx
    rw [hclients,if_neg hx]
  have hmap : s'.clientsByUser = m := by rw [hs']; rfl
  have hsent : s'.sent = s.sent := by rw [hs']; rfl
  have hh : s'.handed = s.handed := by rw [hs']; rfl
  have hnext : s'.nextClient = s.nextClient := by rw [hs']; rfl
  rw [← hs']
  constructor
  case toOutboundSafe =>
    refine ⟨?_,fun x => ?_,fun d hd => ?_⟩
    · rw [hs']
      change (if (s.clients cl).closes = 0 then s.panic else _) = none
      rw [if_pos hopen]
      exact h.panic
    · by_cases hx : x = cl
      · rw [hclients,if_pos hx]
        change (s.clients cl).closes + 1 ≤ 1
        omega
      · rw [hsame x hx]
        exact h.closes x
    · rw [hsent] at hd
      rw [huser]
      exact h.sent d hd
  case holder =>
    intro v x hx
    rw [hmap] at hx
    obtain ⟨hold,hne⟩ := hm v x hx
    rw [hh,huser,hsame x hne]
    exact h.holder v x hold
  case waiting =>
    intro x hx
    rw [hh] at hx
    rw [hsame x (by rintro rfl; exact hx hhanded)]
    exact h.waiting x hx
  case handed => rw [hh,hnext]; exact h.handed
  case sentTo => rw [hsent,hnext]; exact h.sentTo

/-- A client whose channel is open may take its user's place. -/
theorem Registered.take (h : Registered s) (hhanded : cl ∈ s.handed) (hopen : (s.clients cl).closes = 0)
    {m : GoMap UserID ClientID} (g : Option ClientID)
    (hm : ∀ v x, m.lookup v = some x → s.clientsByUser.lookup v = some x ∨
      (v = (s.clients cl).userID ∧ x = cl)) :
    Registered { s with clientsByUser := m, greeting := g } := by
  refine ⟨⟨h.panic,h.closes,h.sent⟩,fun v x hx => ?_,h.waiting,h.handed,h.sentTo⟩
  rcases hm v x hx with hold | ⟨rfl,rfl⟩
  · exact h.holder v x hold
  · exact ⟨hhanded,rfl,hopen⟩

/-- The client before it is closed and gives way in one section. -/
theorem Registered.registerClient (h : Registered s) (hhanded : cl ∈ s.handed)
    (hopen : (s.clients cl).closes = 0) : Registered (s.registerClient cl) := by
  have hinsert : ∀ v x, (s.clientsByUser.insert (s.clients cl).userID cl).lookup v = some x →
      (v = (s.clients cl).userID ∧ x = cl) ∨
        (v ≠ (s.clients cl).userID ∧ s.clientsByUser.lookup v = some x) := by
    intro v x hx
    rw [GoMap.lookup_insert_eq] at hx
    split at hx
    · rename_i hv
      cases hx
      exact Or.inl ⟨hv,rfl⟩
    · rename_i hv
      exact Or.inr ⟨hv,hx⟩
  have hkeep : Registered { s with
      clientsByUser := s.clientsByUser.insert (s.clients cl).userID cl, greeting := some cl } :=
    h.take hhanded hopen _ (fun v x hx => (hinsert v x hx).symm.imp_left And.right)
  unfold State.registerClient
  dsimp only
  cases hold : s.clientsByUser.lookup (s.clients cl).userID with
  | none => exact hkeep
  | some old =>
    dsimp only
    by_cases hne : old = cl
    · rw [if_neg (fun hn => hn hne)]
      exact hkeep
    · rw [if_pos hne]
      obtain ⟨h1,h2,h3⟩ := h.holder _ old hold
      have hclosed : (s.closeConn old).clients old = { s.clients old with connClosed := true } := by
        rw [State.closeConn,setClient_clients,if_pos rfl]
      -- the place is empty for the moment
      have hgone : Registered ({ s.closeConn old with
          clientsByUser := s.clientsByUser.erase (s.clients cl).userID }.closeOutbound old) := by
        refine (h.closeConn old).closeOutbound h1 (by rw [hclosed]; exact h3) (fun v x hx => ?_)
        rw [GoMap.lookup_erase_eq] at hx
        split at hx
        · cases hx
        · rename_i hv
          refine ⟨hx,?_⟩
          rintro rfl
          exact hv ((h.holder v _ hx).2.1.symm.trans h2)
      have hsame : (({ s.closeConn old with
          clientsByUser := s.clientsByUser.erase (s.clients cl).userID }.closeOutbound old).clients cl) =
          s.clients cl := by
        change ((State.setClient _ old _).clients cl) = _
        rw [setClient_clients,if_neg (Ne.symm hne)]
        change ((s.setClient old _).clients cl) = _
        rw [setClient_clients,if_neg (Ne.symm hne)]
      refine hgone.take hhanded (by rw [hsame]; exact hopen) (some cl) (fun v x hx => ?_)
      rw [hsame]
      rcases hinsert v x hx with hnew | ⟨hv,hx⟩
      · exact Or.inr hnew
      · left
        change (s.clientsByUser.erase (s.clients cl).userID).lookup v = some x
        rw [GoMap.lookup_erase_eq,if_neg hv]
        exact hx

theorem Registered.unregisterClient (h : Registered s) (cl : ClientID) :
    Registered (s.unregisterClient cl) := by
  unfold State.unregisterClient
  dsimp only
  split
  · rename_i hcl
    obtain ⟨h1,h2,h3⟩ := h.holder _ cl hcl
    refine h.closeOutbound h1 h3 (fun v x hx => ?_)
    rw [GoMap.lookup_erase_eq] at hx
    split at hx
    · cases hx
    · rename_i hv
      refine ⟨hx,?_⟩
      rintro rfl
      exact hv (h.holder v _ hx).2.1.symm
  · exact h

/-- A new connection is known to nobody. -/
theorem Registered.handleSocket (h : Registered s) (u : UserID) :
    Registered { s.setClient s.nextClient (newClient u) with nextClient := s.nextClient + 1 } := by
  obtain ⟨s',hs'⟩ : ∃ s', s' =
    { s.setClient s.nextClient (newClient u) with nextClient := s.nextClient + 1 } := ⟨_,rfl⟩
  have hclients : ∀ x, s'.clients x = if x = s.nextClient then newClient u else s.clients x := by
    intro x
    rw [hs']
    exact setClient_clients _ _ _ _
  have hold : ∀ {x}, x < s.nextClient → s'.clients x = s.clients x := by
    intro x hx
    rw [hclients,if_neg (Nat.ne_of_lt hx)]
  rw [← hs']
  constructor
  case toOutboundSafe =>
    refine ⟨by rw [hs']; exact h.panic,fun x => ?_,fun d hd => ?_⟩
    · rw [hclients]
      split
      · exact Nat.zero_le _
      · exact h.closes x
    · have hd' : d ∈ s.sent := by rw [hs'] at hd; exact hd
      rw [hold (h.sentTo d hd')]
      exact h.sent d hd'
  case holder =>
    intro v x hx
    have hx' : s.clientsByUser.lookup v = some x := by rw [hs'] at hx; exact hx
    obtain ⟨h1,h2,h3⟩ := h.holder v x hx'
    rw [hold (h.handed x h1)]
    exact ⟨by rw [hs']; exact h1,h2,h3⟩
  case waiting =>
    intro x hx
    have hx' : x ∉ s.handed := by rw [hs'] at hx; exact hx
    rw [hclients]
    split
    · rfl
    · exact h.waiting x hx'
  case handed =>
    intro x hx
    have hx' : x ∈ s.handed := by rw [hs'] at hx; exact hx
    have hlt := h.handed x hx'
    rw [hs']
    exact Nat.lt_succ_of_lt hlt
  case sentTo =>
    intro d hd
    have hd' : d ∈ s.sent := by rw [hs'] at hd; exact hd
    have hlt := h.sentTo d hd'
    rw [hs']
    exact Nat.lt_succ_of_lt hlt

theorem step_registered (h : Registered s) (he : step s e = some s') : Registered s' := by
  unfold step at he
  rw [if_neg (fun hn => hn h.panic)] at he
  cases e with
  | handleSocket u =>
    dsimp only at he
    split at he <;> cases he
    exact h.handleSocket u
  | register cl =>
    dsimp only at he
    split at he <;> cases he
    rename_i hc
    obtain ⟨hlt,hn,-⟩ := hc
    have hh : Registered { s with handed := insert cl s.handed } := by
      refine ⟨⟨h.panic,h.closes,h.sent⟩,fun v x hx => ?_,fun x hx => ?_,fun x hx => ?_,h.sentTo⟩
      · obtain ⟨h1,h2⟩ := h.holder v x hx
        exact ⟨Finset.mem_insert_of_mem h1,h2⟩
      · exact h.waiting x (fun hm => hx (Finset.mem_insert_of_mem hm))
      · rcases Finset.mem_insert.mp hx with rfl | hm
        · exact hlt
        · exact h.handed x hm
    exact hh.registerClient (Finset.mem_insert_self _ _) (h.waiting cl hn)
  | greet =>
    dsimp only at he
    split at he
    · cases he
    · cases he
      have hg : Registered { s with greeting := none } :=
        ⟨⟨h.panic,h.closes,h.sent⟩,h.holder,h.waiting,h.handed,h.sentTo⟩
      exact hg.pushEvent _ _
  | unregister cl =>
    dsimp only at he
    split at he <;> cases he
    exact h.unregisterClient cl
  | pushToUsers us ev =>
    cases he
    exact h.pushToUsers us ev
  | pushEvent cl ev =>
    dsimp only at he
    split at he <;> cases he
    exact h.pushEvent cl ev
  | writeMessage cl =>
    dsimp only at he
    split at he
    · cases he
    · cases he
      refine h.congr (fun x => ?_) (fun x => ?_) rfl rfl rfl rfl (fun d hd => Or.inl hd)
      · rw [setClient_clients]
        split
        · rename_i hx
          rw [hx]
        · rfl
      · rw [setClient_clients]
        split
        · rename_i hx
          rw [hx]
        · rfl
  | closeConn cl =>
    dsimp only at he
    split at he <;> cases he
    exact h.closeConn cl

theorem registered_init : Registered init where
  panic := rfl
  closes _ := Nat.zero_le _
  sent _ hd := nomatch hd
  holder _ _ hx := nomatch hx
  waiting _ _ := rfl
  handed _ hx := absurd hx (Finset.notMem_empty _)
  sentTo _ hd := nomatch hd

/-- Whatever the order of registrations, evictions, unregistrations and pushes. -/
theorem outbound_safe {es : List Event} {s : State} (h : Runs step init es s) : OutboundSafe s :=
  (h.invariant registered_init (fun hs _ he => step_registered hs he)).toOutboundSafe

/-- A second connection of user 1 evicts the first, which is unregistered twice. -/
def secondConnection : List Event :=
  [.handleSocket 1, .register 0, .greet, .handleSocket 1, .pushToUsers [1] { event := "message" },
   .register 1, .pushEvent 0 { event := "message" }, .greet, .unregister 0, .unregister 0,
   .pushToUsers [1,1] { event := "message" }, .unregister 1, .pushToUsers [1] { event := "message" }]

theorem outbound_safe_evicted : ∃ s, Runs step init secondConnection s ∧
    s.sent.map Sent.client = [0,0,1,1,1] ∧ OutboundSafe s := by
  obtain ⟨s,hrun,hs⟩ := exists_runs_of_exec step init secondConnection
    (fun s : State => s.sent.map Sent.client) [0,0,1,1,1] (by decide +kernel)
  exact ⟨s,hrun,hs,outbound_safe hrun⟩

end MiniDiscord.Connections
