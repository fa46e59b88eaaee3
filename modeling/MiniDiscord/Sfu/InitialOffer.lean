import MiniDiscord.Sfu.Negotiation

/-! # No server offer before the initial exchange

The client offers once, and every later offer is the server's. A peer without
subscriptions has nothing to renegotiate, so the order is kept as long as nobody
subscribes the peer to a track before its own offer was answered.
-/
namespace MiniDiscord.SfuMedia
open SfuTrack SfuPeer Transition

/-- Every offer is preceded by an answer to the same session. -/
def OffersAnswered (l : List Signal) : Prop :=
  ∀ (i : ℕ) (u : UserID) (sid : SessionID), l[i]? = some (Signal.offer u sid) →
    ∃ j, j < i ∧ l[j]? = some (Signal.answer u sid)

/-- The first offer of the client has been answered. -/
def State.answered (s : State) (sid : SessionID) : Bool :=
  decide (Signal.answer (s.peers sid).userID (s.peers sid).sessionID ∈ s.signals)

/-- A section adds a track to a peer's connection only when the peer has been answered. -/
def AnswersFirst (s : State) : Event → Prop
  | .run sid c => ∀ key ∈ s.subscribes sid, key ∉ (s.peers sid).subs → c.pc.newTrackLocal = none →
      c.pc.addTrack = none → s.answered sid = true
  | _ => True

instance (s : State) (e : Event) : Decidable (AnswersFirst s e) :=
  match e with
  | .run .. => by
    unfold AnswersFirst
    infer_instance
  | .router _ | .request .. | .proceed _ | .onTrack .. | .adminSnapshot _ => instDecidableTrue

/-- Nothing to renegotiate, and nothing being renegotiated. -/
structure Quiet (n : Negotiation) : Prop where
  subs : n.subs = ∅
  negotiating : n.negotiating = false
  renegotiatePending : n.renegotiatePending = false

def Answered (n : Negotiation) (l : List Signal) : Prop := .answer n.userID n.sessionID ∈ l

/-- Who has not been answered is quiet. -/
def Unoffered (s : State) : Prop :=
  ∀ sid, Answered (negotiation (s.peers sid)) s.signals ∨ Quiet (negotiation (s.peers sid))

/-- New offers to sessions that were answered keep the order. -/
theorem OffersAnswered.append {l new : List Signal} (h : OffersAnswered l)
    (hnew : ∀ u sid, .offer u sid ∈ new → .answer u sid ∈ l) : OffersAnswered (l ++ new) := by
  intro i u sid hi
  by_cases hlt : i < l.length
  · rw [List.getElem?_append_left hlt] at hi
    obtain ⟨j,hj,ha⟩ := h i u sid hi
    exact ⟨j,hj,by rw [List.getElem?_append_left (by omega)]; exact ha⟩
  · rw [List.getElem?_append_right (by omega)] at hi
    obtain ⟨j,hj,ha⟩ := List.mem_iff_getElem.mp (hnew u sid (List.mem_of_getElem? hi))
    refine ⟨j,by omega,?_⟩
    rw [List.getElem?_append_left hj,List.getElem?_eq_getElem hj,ha]

/-- The result of a peer's operation: what it sends about a negotiation is about itself. -/
structure Own (u : UserID) (sid : SessionID) (r : Peer × List Signal) : Prop where
  userID : r.1.userID = u
  sessionID : r.1.sessionID = sid
  signals : ∀ sig ∈ r.2, sig = .offer u sid ∨ sig = .answer u sid ∨ negotiates sig = false

section Operations
variable {p : Peer}

theorem own_sendOffer (p : Peer) (pc : Pion) : Own p.userID p.sessionID (p.sendOffer pc) := by
  unfold Peer.sendOffer
  split
  · exact ⟨rfl,rfl,by simp⟩
  · split
    · exact ⟨rfl,rfl,by simp [Peer.fail, negotiates]⟩
    · split
      · exact ⟨rfl,rfl,by simp [Peer.fail, negotiates]⟩
      · exact ⟨rfl,rfl,by simp⟩

theorem own_scheduleNegotiate (p : Peer) (pc : Pion) : Own p.userID p.sessionID (p.scheduleNegotiate pc) := by
  unfold Peer.scheduleNegotiate
  split
  · exact ⟨rfl,rfl,by simp⟩
  · exact own_sendOffer { p with negotiating := true } pc

theorem own_sendPending (p : Peer) (pc : Pion) : Own p.userID p.sessionID (p.sendPending pc) := by
  unfold Peer.sendPending
  split
  · exact own_sendOffer { p with renegotiatePending := false, negotiating := true } pc
  · exact ⟨rfl,rfl,by simp⟩

theorem own_handleOffer (p : Peer) (slots : List SlotDecl) (pc : Pion) :
    Own p.userID p.sessionID (p.handleOffer slots pc) := by
  unfold Peer.handleOffer
  dsimp only
  split
  · exact ⟨rfl,rfl,by simp [Peer.fail, negotiates]⟩
  · split
    · exact ⟨rfl,rfl,by simp [Peer.fail, negotiates]⟩
    · split
      · exact ⟨rfl,rfl,by simp [Peer.fail, negotiates]⟩
      · exact ⟨rfl,rfl,by simp⟩

theorem own_handleAnswer (p : Peer) (pc : Pion) : Own p.userID p.sessionID (p.handleAnswer pc) := by
  unfold Peer.handleAnswer
  split
  · exact ⟨rfl,rfl,by simp [Peer.fail, negotiates]⟩
  · exact own_sendPending { p with negotiating := false } pc

theorem own_clearDetached (p : Peer) (pc : Pion) : Own p.userID p.sessionID (p.clearDetached pc) :=
  own_sendPending { p with detached := false } pc

theorem own_addSub (p : Peer) (key : SubKey) (pub : TrackRef) (pc : Pion) :
    Own p.userID p.sessionID (p.addSub key pub pc) :=
  own_scheduleNegotiate { p with subs := p.subs.insert key pub } pc

theorem own_dropSub (p : Peer) (key : SubKey) (pc : Pion) : Own p.userID p.sessionID (p.dropSub key pc) :=
  own_scheduleNegotiate { p with subs := p.subs.erase key } pc

theorem Own.answered {r : Peer × List Signal} {l : List Signal} (h : Own p.userID p.sessionID r)
    (ha : Answered (negotiation p) l) : Answered (negotiation r.1) (l ++ r.2) ∧
      ∀ u sid, Signal.offer u sid ∈ r.2 → Signal.answer u sid ∈ l := by
  constructor
  · have hself : Answered (negotiation r.1) l := by
      simpa [Answered, negotiation, h.userID, h.sessionID] using ha
    exact List.mem_append_left _ hself
  · intro u sid hm
    rcases h.signals _ hm with ho | ho | ho
    · cases ho
      exact ha
    · cases ho
    · cases ho

/-- Only `SendAnswer` ends the quiet of a peer, and only its own offer leads there. -/
theorem handleOffer_quiet (slots : List SlotDecl) (pc : Pion) (hq : Quiet (negotiation p)) :
    (Answered (negotiation (p.handleOffer slots pc).1) (p.handleOffer slots pc).2 ∨
      Quiet (negotiation (p.handleOffer slots pc).1)) ∧
    ∀ u sid, Signal.offer u sid ∉ (p.handleOffer slots pc).2 := by
  have hfail : ∀ {q : Peer} {code err : String}, Quiet (negotiation q) →
      (Answered (negotiation q) [q.fail code err] ∨ Quiet (negotiation q)) ∧
        ∀ u sid, Signal.offer u sid ∉ [q.fail code err] :=
    fun h => ⟨Or.inr h,by simp [Peer.fail]⟩
  have hslots : Quiet (negotiation
      { p with slotBySource := GoMap.collect (fun s => (s.source,s.mid)) slots }) := hq
  unfold Peer.handleOffer
  dsimp only
  split
  · exact hfail hslots
  · split
    · exact hfail hslots
    · split
      · exact hfail hslots
      · exact ⟨Or.inl List.mem_cons_self,by simp⟩

theorem sendPending_quiet (pc : Pion) (hq : Quiet (negotiation p)) :
    Quiet (negotiation (p.sendPending pc).1) ∧ (p.sendPending pc).2 = [] := by
  have hp : p.renegotiatePending = false := hq.renegotiatePending
  simp only [Peer.sendPending, hp, Bool.false_eq_true, if_false]
  exact ⟨hq,trivial⟩

theorem handleAnswer_quiet (pc : Pion) (hq : Quiet (negotiation p)) :
    Quiet (negotiation (p.handleAnswer pc).1) ∧
      ∀ u sid, Signal.offer u sid ∉ (p.handleAnswer pc).2 := by
  have hq' : Quiet (negotiation { p with negotiating := false }) :=
    ⟨hq.subs,rfl,hq.renegotiatePending⟩
  unfold Peer.handleAnswer
  split
  · exact ⟨hq',by simp [Peer.fail]⟩
  · obtain ⟨hs,hnil⟩ := sendPending_quiet pc hq'
    rw [hnil]
    exact ⟨hs,by simp⟩

theorem markDetached_quiet (hq : Quiet (negotiation p)) : Quiet (negotiation p.markDetached) := by
  have hn : p.negotiating = false := hq.negotiating
  simp only [Peer.markDetached, hn, Bool.false_eq_true, if_false]
  exact ⟨hq.subs,rfl,hq.renegotiatePending⟩

theorem clearDetached_quiet (pc : Pion) (hq : Quiet (negotiation p)) :
    Quiet (negotiation (p.clearDetached pc).1) ∧ (p.clearDetached pc).2 = [] :=
  sendPending_quiet (p := { p with detached := false }) pc
    ⟨hq.subs,hq.negotiating,hq.renegotiatePending⟩

end Operations

theorem quiet_newPeer (q : SfuRouter.Peer) : Quiet (negotiation (newPeer q)) := ⟨rfl,rfl,rfl⟩

/-- One step of an answered or quiet peer. -/
theorem NegotiationStep.unoffered {s : State} {sid : SessionID} {p : Peer} {e : Event}
    {n : Negotiation} {new : List Signal} (h : NegotiationStep s sid p e n new)
    (hp : negotiation p = negotiation (s.peers sid)) (hg : AnswersFirst s e)
    (hu : Answered (negotiation p) s.signals ∨ Quiet (negotiation p)) :
    (Answered n (s.signals ++ new) ∨ Quiet n) ∧
      ∀ u x, Signal.offer u x ∈ new → Signal.answer u x ∈ s.signals := by
  have hown : ∀ {r : Peer × List Signal}, Own p.userID p.sessionID r → Answered (negotiation p) s.signals →
      (Answered (negotiation r.1) (s.signals ++ r.2) ∨ Quiet (negotiation r.1)) ∧
        ∀ u x, Signal.offer u x ∈ r.2 → Signal.answer u x ∈ s.signals :=
    fun ho ha => ⟨Or.inl (ho.answered ha).1,(ho.answered ha).2⟩
  cases h with
  | other hnew =>
    refine ⟨hu.imp_left (List.mem_append_left _),fun u x hm => ?_⟩
    cases hnew _ hm
  | joined hq => exact ⟨Or.inr (quiet_newPeer _),by simp⟩
  | @handleOffer c slots =>
    rcases hu with ha | hq
    · exact hown (own_handleOffer p slots c.pc) ha
    · obtain ⟨hr,hnone⟩ := handleOffer_quiet slots c.pc hq
      exact ⟨hr.imp_left (List.mem_append_right _),fun u x hm => absurd hm (hnone u x)⟩
  | @handleAnswer c =>
    rcases hu with ha | hq
    · exact hown (own_handleAnswer p c.pc) ha
    · obtain ⟨hr,hnone⟩ := handleAnswer_quiet c.pc hq
      exact ⟨Or.inr hr,fun u x hm => absurd hm (hnone u x)⟩
  | markDetached =>
    refine ⟨?_,by simp⟩
    rcases hu with ha | hq
    · left
      unfold Peer.markDetached
      split <;> exact List.mem_append_left _ ha
    · exact Or.inr (markDetached_quiet hq)
  | @clearDetached c =>
    rcases hu with ha | hq
    · exact hown (own_clearDetached p c.pc) ha
    · obtain ⟨hr,hnil⟩ := clearDetached_quiet c.pc hq
      rw [hnil]
      exact ⟨Or.inr hr,by simp⟩
  | @addSub c key pub hs hk hl ht =>
    -- here alone a quiet peer could start to negotiate
    apply hown (own_addSub p key pub c.pc)
    have hsubs : p.subs = (s.peers sid).subs := congrArg Negotiation.subs hp
    have ha := decide_eq_true_iff.mp (hg key hs (hsubs ▸ hk) hl ht)
    rw [hp]
    exact ha
  | @dropSub c key pub hl =>
    rcases hu with ha | hq
    · exact hown (own_dropSub p key c.pc) ha
    · have he : p.subs = ∅ := hq.subs
      rw [he] at hl
      cases hl
  | @closeSub c key =>
    refine ⟨?_,by simp⟩
    rcases hu with ha | hq
    · exact Or.inl (List.mem_append_left _ ha)
    · have he : p.subs = ∅ := hq.subs
      refine Or.inr ⟨?_,hq.negotiating,hq.renegotiatePending⟩
      rw [he]
      rfl

theorem step_unoffered {s s' : State} {e : Event} (hl : OffersAnswered s.signals) (hu : Unoffered s)
    (hg : AnswersFirst s e) (he : step s e = some s') :
    OffersAnswered s'.signals ∧ Unoffered s' := by
  obtain ⟨sid,p,new,hn⟩ := step_negotiated he
  obtain ⟨hself,hnew⟩ := hn.peer.unoffered hn.same hg (hn.same ▸ hu sid)
  rw [hn.signals]
  refine ⟨hl.append hnew,fun x => ?_⟩
  rw [hn.signals]
  by_cases hx : x = sid
  · rw [hx]
    exact hself
  · rw [hn.others x hx]
    exact (hu x).imp_left (List.mem_append_left _)

/-- A section that asks for a new subscription, and whose track can be added, adds it. -/
theorem run_addSub {s s' : State} {sid : SessionID} {c : Choice} {key : SubKey}
    (he : s.run sid c = some s') (hs : s.subscribes sid = some key) (hk : key ∉ (s.peers sid).subs)
    (hl : c.pc.newTrackLocal = none) (ht : c.pc.addTrack = none) :
    ∃ p pub, negotiation p = negotiation (s.peers sid) ∧
      s'.signals = s.signals ++ (p.addSub key pub c.pc).2 := by
  have hadd : ∀ (s₁ : State) u pub q, negotiation (s₁.peers sid) = negotiation (s.peers sid) →
      s₁.signals = s.signals → key = ⟨u,(s₁.tracks pub).source⟩ →
      ∃ p pub', negotiation p = negotiation (s.peers sid) ∧
        (s₁.doSubscribe sid u pub q c).signals = s.signals ++ (p.addSub key pub' c.pc).2 := by
    intro s₁ u pub q hpeer hsignals hkey
    have hsubs : (s₁.peers sid).subs = (s.peers sid).subs := congrArg Negotiation.subs hpeer
    have hnew : (⟨u,(s₁.tracks pub).source⟩ : SubKey) ∉ (s₁.peers sid).subs := by
      rw [hsubs,← hkey]
      exact hk
    refine ⟨s₁.peers sid,pub,hpeer,?_⟩
    simp only [State.doSubscribe, if_neg hnew, hl, ht]
    rw [hkey,← hsignals]
    rfl
  unfold State.subscribes at hs
  unfold State.run at he
  dsimp only at hs he
  split at hs
  · rename_i hcont
    simp only [hcont] at he
    split at hs
    · rename_i u pub q rest hc
      cases hs
      simp only [hc] at he
      split at he
      · cases he
      · simp only [State.runTask] at he
        split at he <;> cases he
        exact hadd _ u pub q (by rw [State.setPeer_peers_self]; rfl) rfl rfl
    · cases hs
  · rename_i u pub pubs os hcont
    cases hs
    simp only [hcont] at he
    split at he <;> cases he
    exact hadd _ u pub .high (negotiation_setCont _ _) rfl rfl
  · rename_i u pub q hcont
    cases hs
    simp only [hcont] at he
    split at he <;> cases he
    exact hadd _ u pub q (negotiation_setCont _ _) rfl rfl
  · cases hs

/-- A track added too early is offered at once, unless the peer is detached or the
offer fails. -/
theorem not_offersAnswered_of_added {s s' : State} {sid : SessionID} {c : Choice}
    (hu : Unoffered s) (he : s.run sid c = some s') (hg : ¬ AnswersFirst s (.run sid c))
    (hd : (s.peers sid).detached = false) (ho : c.pc.createOffer = none)
    (hl : c.pc.setLocalDescription = none) : ¬ OffersAnswered s'.signals := by
  simp only [AnswersFirst, not_forall] at hg
  obtain ⟨key,hs,hk,hn,ht,ha⟩ := hg
  have hun : Signal.answer (s.peers sid).userID (s.peers sid).sessionID ∉ s.signals := by
    simpa [State.answered] using ha
  have hq : Quiet (negotiation (s.peers sid)) := (hu sid).resolve_left hun
  obtain ⟨p,pub,hp,hsignals⟩ := run_addSub he hs hk hn ht
  have hidle : p.negotiating = false := (congrArg Negotiation.negotiating hp).trans hq.negotiating
  have hatt : p.detached = false := (congrArg Negotiation.detached hp).trans hd
  have huser : p.userID = (s.peers sid).userID := congrArg Negotiation.userID hp
  have hsession : p.sessionID = (s.peers sid).sessionID := congrArg Negotiation.sessionID hp
  have hoffer : (p.addSub key pub c.pc).2 =
      [Signal.offer (s.peers sid).userID (s.peers sid).sessionID] := by
    simp [Peer.addSub, Peer.scheduleNegotiate, Peer.sendOffer, hidle, hatt, ho, hl, huser, hsession]
  intro h
  rw [hsignals,hoffer] at h
  obtain ⟨j,hj,haj⟩ := h s.signals.length _ _
    (List.getElem?_concat_length)
  rw [List.getElem?_append_left hj] at haj
  exact hun (List.mem_of_getElem? haj)

/-- No peer is offered a renegotiation before it was answered, in any run that adds no
track to the connection of a peer that was not; and the first such track of an attached
peer, once offered, breaks the order. -/
theorem offers_answered {es : List Event} {s : State} (h : RunsWhen step AnswersFirst init es s) :
    OffersAnswered s.signals ∧ ∀ sid c s', step s (.run sid c) = some s' →
      ¬ AnswersFirst s (.run sid c) → (s.peers sid).detached = false → c.pc.createOffer = none →
        c.pc.setLocalDescription = none → ¬ OffersAnswered s'.signals := by
  have hinv := h.invariant (P := fun s => OffersAnswered s.signals ∧ Unoffered s)
    ⟨fun _ _ _ hi => (nomatch hi),fun _ => Or.inr (quiet_newPeer _)⟩
    (fun hs hg he => step_unoffered hs.1 hs.2 hg he)
  refine ⟨hinv.1,fun sid c s' he hg hd ho hl => ?_⟩
  have hrun : s.run sid c = some s' := by
    unfold step at he
    split at he
    · cases he
    · exact he
  exact not_offersAnswered_of_added hinv.2 hrun hg hd ho hl

/-- User 1 enters channel 7, offers, and publishes its microphone. -/
def publishMic : List Event :=
  [.router (.join 0 "a" 1 7), .router (.roomAdd 0), .request 0 "a" (.handleOffer [⟨"0",SourceMic⟩]),
   .proceed 0, .run "a" {}, .run "a" {}, .run "a" {}, .run "a" {}, .run "a" {},
   .onTrack "a" "0" .audio "" "opus"]

/-- User 2 enters the room and is asked to subscribe to the microphone of user 1. -/
def notifySecond : List Event :=
  [.run "a" { source := some SourceMic }, .run "a" {}, .run "a" {}, .run "a" { users := [2] },
   .run "a" {}]

/-- The offer of user 2 is answered before its subscription is handled. -/
def offeredFirst : List Event :=
  publishMic ++ [.router (.join 1 "b" 2 7), .router (.roomAdd 1),
    .request 1 "b" (.handleOffer [⟨"0",SourceMic⟩]), .proceed 1, .run "b" {},
    .run "b" { users := [1] }, .run "b" {}, .run "b" {}, .run "b" {}, .run "b" { users := [1] },
    .run "b" {}, .run "b" {}] ++ notifySecond ++ [.run "b" {}]

/-- The subscription reaches user 2 before its own offer does. -/
def subscribedFirst : List Event :=
  publishMic ++ [.router (.join 1 "b" 2 7), .router (.roomAdd 1)] ++ notifySecond ++ [.run "b" {}]

theorem offers_answered_offeredFirst : ∃ s, Runs step init offeredFirst s ∧
    .offer 2 "b" ∈ s.signals ∧ OffersAnswered s.signals := by
  obtain ⟨s,hrun,hs⟩ := exists_runsWhen_of_exec step AnswersFirst init offeredFirst
    (fun s => decide (Signal.offer 2 "b" ∈ s.signals)) true (by decide)
  exact ⟨s,hrun.runs,of_decide_eq_true hs,(offers_answered hrun).1⟩

theorem offered_before_answer : ¬ ∀ es s, Runs step init es s → OffersAnswered s.signals := by
  intro h
  obtain ⟨s,hrun,hs⟩ := exists_runs_of_exec step init subscribedFirst
    (fun s => (decide (Signal.offer 2 "b" ∈ s.signals),decide (Signal.answer 2 "b" ∈ s.signals)))
    (true,false) (by decide)
  simp only [Prod.mk.injEq, decide_eq_true_eq, decide_eq_false_iff_not] at hs
  obtain ⟨i,hi⟩ := List.mem_iff_getElem?.mp hs.1
  obtain ⟨j,-,ha⟩ := h _ s hrun i 2 "b" hi
  exact hs.2 (List.mem_of_getElem? ha)

end MiniDiscord.SfuMedia
