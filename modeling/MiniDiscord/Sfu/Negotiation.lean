import MiniDiscord.Sfu.PeerSections

/-! # What a step of the SFU can do to a negotiation

Most sections leave every peer's negotiation state alone. `step_negotiation` says
which peer a step may touch, by which of its operations, and what the step sends.
-/
namespace MiniDiscord.SfuMedia
open SfuTrack SfuPeer Transition
open SfuRouter (CallID)

/-- The part of a peer that decides when it is offered a renegotiation. -/
structure Negotiation where
  userID : UserID
  sessionID : SessionID
  subs : GoMap SubKey TrackRef
  negotiating : Bool
  renegotiatePending : Bool
  detached : Bool

def negotiation (p : Peer) : Negotiation :=
  ⟨p.userID,p.sessionID,p.subs,p.negotiating,p.renegotiatePending,p.detached⟩

/-- Offers and answers; everything else is news for the client. -/
def negotiates : Signal → Bool
  | .offer _ _ => true
  | .answer _ _ => true
  | _ => false

/-- The subscription that the next section of `sid` asks for. -/
def State.subscribes (s : State) (sid : SessionID) : Option SubKey :=
  let p := s.peers sid
  match p.cont with
  | .idle =>
    match p.commands with
    | .doSubscribe u pub _ :: _ => some ⟨u,(s.tracks pub).source⟩
    | _ => none
  | .autoSubscribeTracks u (pub :: _) _ => some ⟨u,(s.tracks pub).source⟩
  | .subscribeVideo u pub _ => some ⟨u,(s.tracks pub).source⟩
  | _ => none

/-- What the step does to peer `sid`, seen through some `p` that differs from the peer
before the step in its queue only. -/
inductive NegotiationStep (s : State) (sid : SessionID) (p : Peer) :
    Event → Negotiation → List Signal → Prop
  | other {e new} : (∀ sig ∈ new, negotiates sig = false) →
      NegotiationStep s sid p e (negotiation p) new
  | joined {t u c q} : q.sessionID = sid →
      NegotiationStep s sid p (.router (.join t sid u c)) (negotiation (newPeer q)) []
  | handleOffer {c slots} : NegotiationStep s sid p (.run sid c)
      (negotiation (p.handleOffer slots c.pc).1) (p.handleOffer slots c.pc).2
  | handleAnswer {c} : NegotiationStep s sid p (.run sid c)
      (negotiation (p.handleAnswer c.pc).1) (p.handleAnswer c.pc).2
  | markDetached {c} : NegotiationStep s sid p (.run sid c) (negotiation p.markDetached) []
  | clearDetached {c} : NegotiationStep s sid p (.run sid c)
      (negotiation (p.clearDetached c.pc).1) (p.clearDetached c.pc).2
  | addSub {c key pub} : s.subscribes sid = some key → key ∉ p.subs → c.pc.newTrackLocal = none →
      c.pc.addTrack = none → NegotiationStep s sid p (.run sid c)
        (negotiation (p.addSub key pub c.pc).1) (p.addSub key pub c.pc).2
  | dropSub {c key pub} : p.subs.lookup key = some pub → NegotiationStep s sid p (.run sid c)
      (negotiation (p.dropSub key c.pc).1) (p.dropSub key c.pc).2
  | closeSub {c key} : NegotiationStep s sid p (.run sid c)
      { negotiation p with subs := p.subs.erase key } []

/-- One peer's negotiation is stepped, every other one stays, and `new` was sent. -/
structure Negotiated (s : State) (e : Event) (s' : State) (sid : SessionID) (p : Peer)
    (new : List Signal) : Prop where
  same : negotiation p = negotiation (s.peers sid)
  peer : NegotiationStep s sid p e (negotiation (s'.peers sid)) new
  others : ∀ x, x ≠ sid → negotiation (s'.peers x) = negotiation (s.peers x)
  signals : s'.signals = s.signals ++ new

variable {s s' : State} {e : Event} {sid : SessionID}

@[simp] theorem negotiation_enqueue (p : Peer) (fn : Task) :
    negotiation (p.enqueue fn) = negotiation p := by
  unfold Peer.enqueue
  split
  · rfl
  · split <;> rfl

@[simp] theorem negotiation_close (p : Peer) : negotiation p.close = negotiation p := by
  unfold Peer.close
  split
  · rfl
  · exact negotiation_enqueue _ _

theorem negotiation_setPeer (p : Peer) (h : negotiation p = negotiation (s.peers sid))
    (x : SessionID) : negotiation ((s.setPeer sid p).peers x) = negotiation (s.peers x) := by
  by_cases hx : x = sid
  · subst hx
    rw [State.setPeer_peers_self,h]
  · rw [State.setPeer_peers_of_ne _ _ hx]

theorem negotiation_setCont (k : Cont) (x : SessionID) :
    negotiation ((s.setCont sid k).peers x) = negotiation (s.peers x) :=
  negotiation_setPeer _ (by rfl) x

/-- A step that sends news at most, and steps nobody's negotiation. -/
theorem negotiated_of_same {new : List Signal} (sid : SessionID)
    (hpeers : ∀ x, negotiation (s'.peers x) = negotiation (s.peers x))
    (hsignals : s'.signals = s.signals ++ new) (hnew : ∀ sig ∈ new, negotiates sig = false) :
    ∃ p new, Negotiated s e s' sid p new := by
  refine ⟨s.peers sid,new,rfl,?_,fun x _ => hpeers x,hsignals⟩
  rw [hpeers]
  exact .other hnew

/-- A step that sends nothing, and steps nobody's negotiation. -/
theorem negotiated_of_silent (sid : SessionID)
    (hpeers : ∀ x, negotiation (s'.peers x) = negotiation (s.peers x))
    (hsignals : s'.signals = s.signals) : ∃ p new, Negotiated s e s' sid p new := by
  apply negotiated_of_same sid hpeers (hsignals.trans (List.append_nil _).symm)
  intro sig hm
  cases hm

/-- A step of the peer's own goroutine from a state that differs in its queue only. -/
theorem negotiated_of_emit (s₁ : State) {c : Choice} {r : Peer × List Signal}
    (hpeers : ∀ x, negotiation (s₁.peers x) = negotiation (s.peers x))
    (hsignals : s₁.signals = s.signals)
    (h : NegotiationStep s sid (s₁.peers sid) (.run sid c) (negotiation r.1) r.2) :
    ∃ p new, Negotiated s (.run sid c) (s₁.emit sid r) sid p new := by
  refine ⟨s₁.peers sid,r.2,hpeers sid,?_,fun x hx => ?_,?_⟩
  · have hr : (s₁.emit sid r).peers sid = r.1 := Function.update_self _ _ _
    rw [hr]
    exact h
  · have hx' : (s₁.emit sid r).peers x = s₁.peers x := Function.update_of_ne hx _ _
    rw [hx',hpeers]
  · change s₁.signals ++ r.2 = _
    rw [hsignals]

theorem doSubscribe_negotiated {s₁ : State} {c : Choice} {u : UserID} {pub : TrackRef} {q : Quality}
    (hpeers : ∀ x, negotiation (s₁.peers x) = negotiation (s.peers x))
    (hsignals : s₁.signals = s.signals)
    (hsub : s.subscribes sid = some ⟨u,(s₁.tracks pub).source⟩) :
    ∃ p new, Negotiated s (.run sid c) (s₁.doSubscribe sid u pub q c) sid p new := by
  unfold State.doSubscribe
  dsimp only
  split
  · exact negotiated_of_silent sid hpeers hsignals
  · rename_i hk
    split
    · exact negotiated_of_silent sid hpeers hsignals
    · exact negotiated_of_silent sid hpeers hsignals
    · rename_i hl ha
      exact negotiated_of_emit (s₁.setTrack pub _) hpeers hsignals (.addSub hsub hk hl ha)

theorem runTask_negotiated {s₁ : State} {c : Choice} {fn : Task}
    (he : s₁.runTask sid c fn = some s')
    (hpeers : ∀ x, negotiation (s₁.peers x) = negotiation (s.peers x))
    (hsignals : s₁.signals = s.signals)
    (hsub : ∀ u pub q, fn = .doSubscribe u pub q →
      s.subscribes sid = some ⟨u,(s₁.tracks pub).source⟩) :
    ∃ p new, Negotiated s (.run sid c) s' sid p new := by
  cases fn with
  | handleOffer slots =>
    cases he
    exact negotiated_of_emit _ hpeers hsignals .handleOffer
  | handleAnswer =>
    cases he
    exact negotiated_of_emit _ hpeers hsignals .handleAnswer
  | handleCandidate =>
    cases he
    exact negotiated_of_silent sid hpeers hsignals
  | snapshot =>
    cases he
    exact negotiated_of_silent sid hpeers hsignals
  | handleOnTrack mid kind rid codec =>
    simp only [State.runTask] at he
    split at he
    · split at he
      · cases he
        exact negotiated_of_silent sid hpeers hsignals
      · cases he
        refine negotiated_of_silent sid (fun x => ?_) ?_
        · unfold State.handleOnTrack
          dsimp only
          split
          · rw [negotiation_setCont,hpeers]
          · exact (negotiation_setPeer _ (by rfl) x).trans (hpeers x)
        · unfold State.handleOnTrack
          dsimp only
          split <;> exact hsignals
    · cases he
  | doSubscribe u pub q =>
    simp only [State.runTask] at he
    split at he
    · cases he
      exact doSubscribe_negotiated hpeers hsignals (hsub u pub q rfl)
    · cases he
  | doUnsubscribe u source =>
    cases he
    unfold State.doUnsubscribe
    dsimp only
    split
    · exact negotiated_of_silent sid hpeers hsignals
    · rename_i pub hl
      exact negotiated_of_emit (s₁.setTrack pub _) hpeers hsignals (.dropSub hl)
  | subscribeVideo publisher u source q =>
    cases he
    unfold State.subscribeVideo
    dsimp only
    split
    · exact negotiated_of_same sid hpeers (congrArg (· ++ _) hsignals) (by simp [Peer.fail, negotiates])
    · split
      · exact negotiated_of_silent sid (fun x => by rw [negotiation_setCont,hpeers]) hsignals
      · exact negotiated_of_same sid hpeers (congrArg (· ++ _) hsignals) (by simp [Peer.fail, negotiates])
  | markDetached =>
    cases he
    have hs' : s₁.setPeer sid (s₁.peers sid).markDetached =
        s₁.emit sid ((s₁.peers sid).markDetached,[]) := by
      simp [State.emit, State.send, State.setPeer]
    rw [hs']
    exact negotiated_of_emit _ hpeers hsignals .markDetached
  | clearDetached =>
    cases he
    exact negotiated_of_emit _ hpeers hsignals .clearDetached
  | doClose =>
    simp only [State.runTask] at he
    split at he
    · cases he
      exact negotiated_of_silent sid (fun x => (negotiation_setPeer _ (by rfl) x).trans (hpeers x))
        hsignals
    · cases he

theorem run_negotiated {c : Choice} (he : s.run sid c = some s') :
    ∃ p new, Negotiated s (.run sid c) s' sid p new := by
  have hcont : ∀ k, ∃ p new, Negotiated s (.run sid c) (s.setCont sid k) sid p new := fun k =>
    negotiated_of_silent sid (negotiation_setCont k) rfl
  have hview := run_view he
  generalize hk : (s.peers sid).cont = k at hview
  cases hview with
  | task hc hs ht =>
    refine runTask_negotiated ht (fun x => negotiation_setPeer _ (by rfl) x) rfl (fun u pub q hf => ?_)
    subst hf
    simp [State.subscribes, hk, hc, State.setPeer]
  | existing =>
    exact doSubscribe_negotiated (negotiation_setCont _) rfl
      (by simp [State.subscribes, hk, State.setCont, State.setPeer])
  | snapshotPeer => exact negotiated_of_same sid (negotiation_setCont _) rfl (by simp [negotiates])
  | addLayer => exact negotiated_of_silent sid (negotiation_setCont (s := State.setTrack s _ _) _) rfl
  | announce => exact negotiated_of_same sid (negotiation_setCont _) rfl (by simp [negotiates])
  | subscribeOther =>
    refine negotiated_of_silent sid (fun x => ?_) rfl
    unfold State.enqueue
    rw [negotiation_setPeer _ (negotiation_enqueue _ _),negotiation_setCont]
  | subscribeVideo =>
    exact doSubscribe_negotiated (negotiation_setCont _) rfl
      (by simp [State.subscribes, hk, State.setCont, State.setPeer])
  | closeSub =>
    unfold State.closeSub
    dsimp only
    split
    · exact hcont _
    · refine ⟨s.peers sid,[],rfl,?_,fun x hx => ?_,(List.append_nil _).symm⟩
      · rw [State.setPeer_peers_self]
        exact .closeSub
      · rw [State.setPeer_peers_of_ne _ _ hx]
        rfl
  | closeTrack => exact negotiated_of_same sid (negotiation_setCont _) rfl (by simp [negotiates])
  | closeSubscriber =>
    refine negotiated_of_silent sid (fun x => ?_) ?_
    · unfold State.closeSubscriber State.enqueue
      split
      · exact negotiation_setCont _ x
      · rw [negotiation_setPeer _ (negotiation_enqueue _ _),negotiation_setCont]
    · unfold State.closeSubscriber
      split <;> rfl
  | _ => exact hcont _

/-- A `Join` registers a peer under the session ID it was given. -/
theorem join_lookup {r r' : SfuRouter.State} {t : CallID} {u : UserID} {c : ChannelID}
    (he : SfuRouter.step r (.join t sid u c) = some r') :
    ∃ room, r'.peers.lookup sid = some ⟨sid,u,c,room⟩ := by
  obtain ⟨-,hv⟩ := SfuRouter.step_view he
  cases hv with
  | @joinOld _ _ _ _ room _ _ _ =>
    exists room
    exact (GoMap.lookup_insert_eq _ _ _ _).trans (if_pos rfl)
  | joinNew =>
    exists r.nextRoom
    exact (GoMap.lookup_insert_eq _ _ _ _).trans (if_pos rfl)

theorem routed_negotiated {re : SfuRouter.Event} {r : SfuRouter.State}
    (he : SfuRouter.step s.router re = some r) :
    ∃ sid p new, Negotiated s (.router re) (s.routed re r) sid p new := by
  have hsame : ∀ e, ∃ sid p new, Negotiated s e { s with router := r } sid p new := fun _ =>
    ⟨"",negotiated_of_silent "" (fun _ => rfl) rfl⟩
  unfold State.routed
  cases re with
  | join t sid u c =>
    obtain ⟨room,hp⟩ := join_lookup he
    simp only [hp]
    refine ⟨sid,s.peers sid,[],rfl,?_,fun x hx => ?_,(List.append_nil _).symm⟩
    · rw [State.setPeer_peers_self]
      exact .joined rfl
    · rw [State.setPeer_peers_of_ne _ _ hx]
  | peerClose t =>
    dsimp only
    split
    · exact ⟨"",negotiated_of_silent ""
        (fun x => negotiation_setPeer (s := { s with router := r }) _ (negotiation_close _) x) rfl⟩
    · exact hsame _
  | _ => exact hsame _

theorem proceed_negotiated {t : CallID} (he : s.proceed t = some s') :
    ∃ sid p new, Negotiated s (.proceed t) s' sid p new := by
  have hcall : ∀ (s₁ : State) c, (∀ x, negotiation (s₁.peers x) = negotiation (s.peers x)) →
      s₁.signals = s.signals → ∃ sid p new, Negotiated s (.proceed t) (s₁.setCall t c) sid p new := by
    intro s₁ c hpeers hsignals
    exact ⟨"",negotiated_of_silent "" hpeers hsignals⟩
  unfold State.proceed at he
  split at he
  · cases he
  · cases he
    exact hcall _ _ (negotiation_setPeer _ (negotiation_enqueue _ _)) rfl
  · split at he <;> cases he
    · exact hcall s _ (fun _ => rfl) rfl
    · exact hcall s _ (fun _ => rfl) rfl
  · split at he
    · cases he
      exact hcall s _ (fun _ => rfl) rfl
    · split at he <;> cases he
      · exact hcall s _ (fun _ => rfl) rfl
      · exact hcall s _ (fun _ => rfl) rfl
  · cases he
    exact hcall _ _ (fun x => negotiation_setPeer _ (by rfl) x) rfl

/-- Every step is a step of one peer's negotiation, or of none. -/
theorem step_negotiated (he : step s e = some s') : ∃ sid p new, Negotiated s e s' sid p new := by
  unfold step at he
  split at he
  · cases he
  · cases e with
    | router re =>
      obtain ⟨r,hr,hs⟩ := Option.map_eq_some_iff.mp he
      subst hs
      exact routed_negotiated hr
    | request t sid r =>
      dsimp only at he
      split at he <;> cases he
      exact ⟨"",negotiated_of_silent "" (fun _ => rfl) rfl⟩
    | proceed t => exact proceed_negotiated he
    | onTrack sid mid kind rid codec =>
      dsimp only at he
      split at he <;> cases he
      exact ⟨sid,negotiated_of_silent sid (negotiation_setPeer _ (negotiation_enqueue _ _)) rfl⟩
    | adminSnapshot sid =>
      dsimp only at he
      split at he <;> cases he
      exact ⟨sid,negotiated_of_silent sid (negotiation_setPeer _ (negotiation_enqueue _ _)) rfl⟩
    | run sid c => exact ⟨sid,run_negotiated he⟩

end MiniDiscord.SfuMedia
