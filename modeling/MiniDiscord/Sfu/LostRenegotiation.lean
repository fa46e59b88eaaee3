import MiniDiscord.Sfu.PeerSession

/-! # No change of subscriptions is forgotten

A change that cannot be offered at once is remembered in `renegotiatePending`, unless
the offer itself fails: then both flags are cleared. A failed answer clears
`negotiating` and leaves the pending change to nobody.
-/
namespace MiniDiscord.SfuPeer
open SfuTrack Transition

/-- A change not yet offered is being waited for or recorded, and a recorded one that
nothing waits for belongs to a detached peer. -/
structure NothingLost (s : Session) : Prop where
  noticed : changedSince s.log = true →
    s.peer.negotiating = true ∨ s.peer.renegotiatePending = true
  fired : s.peer.renegotiatePending = true → s.peer.negotiating = false → s.peer.detached = true

/-- An offer that the section attempts now. -/
def mayOffer (p : Peer) (pc : Pion) : Prop := p.detached = false → pc.offers = true

instance (p : Peer) (pc : Pion) : Decidable (mayOffer p pc) := by
  unfold mayOffer
  infer_instance

/-- No offer of a change fails, and no answer fails while an attached peer has another
change pending. -/
def KeepsChanges (s : Session) : PeerEvent → Prop
  | .subscribe key _ pc =>
    s.peer.subscribes key pc = true → s.peer.negotiating = false → mayOffer s.peer pc
  | .unsubscribe key pc => key ∈ s.peer.subs → s.peer.negotiating = false → mayOffer s.peer pc
  | .answer _ pc =>
    s.peer.renegotiatePending = true →
      if pc.setRemoteDescription = none then changedSince s.log = true → mayOffer s.peer pc
      else s.peer.detached = true
  | .resume pc =>
    s.peer.renegotiatePending = true → changedSince s.log = true → pc.offers = true
  | .offer _ _ => True
  | .detach => True

instance (s : Session) (e : PeerEvent) : Decidable (KeepsChanges s e) := by
  unfold KeepsChanges
  cases e <;> infer_instance

/-- What the code keeps: a change not yet offered is always recorded as pending. -/
structure Recorded (p : Peer) (l : List Mark) : Prop where
  pending : changedSince l = true → p.renegotiatePending = true
  fired : p.renegotiatePending = true → p.negotiating = false → p.detached = true

theorem Recorded.nothingLost {s : Session} (h : Recorded s.peer s.log) : NothingLost s :=
  ⟨fun hc => Or.inr (h.pending hc),h.fired⟩

/-- A section whose outcome is right if and only if a condition holds. -/
structure Hinges (r : Peer × List Signal) (l : List Mark) (cond : Prop) : Prop where
  kept : cond → Recorded r.1 (record r.2 l)
  lost : ¬ cond → ¬ NothingLost ⟨r.1,record r.2 l⟩

theorem Hinges.of_recorded {r : Peer × List Signal} {l : List Mark} {cond : Prop}
    (h : Recorded r.1 (record r.2 l)) (hc : cond) : Hinges r l cond :=
  ⟨fun _ => h,fun hn => absurd hc hn⟩

section Operations
variable {p : Peer} {l : List Mark}

/-- An offer that is sent covers every change before it, and one that fails drops them. -/
theorem hinges_sendOffer (pc : Pion) (hp : p.renegotiatePending = true → p.detached = true) :
    Hinges (p.sendOffer pc) l (changedSince l = true → mayOffer p pc) := by
  cases hd : p.detached with
  | true =>
    rw [sendOffer_detached hd]
    refine .of_recorded ⟨fun _ => rfl,fun _ _ => hd⟩ (fun _ h => ?_)
    rw [hd] at h
    cases h
  | false =>
    have hpend : p.renegotiatePending = false := by
      cases h : p.renegotiatePending with
      | false => rfl
      | true => exact absurd (hp h) (by rw [hd]; exact Bool.false_ne_true)
    cases ho : pc.offers with
    | true =>
      rw [sendOffer_sent hd ho]
      refine .of_recorded ⟨?_,fun h => ?_⟩ (fun _ _ => ho)
      · rw [record_offer]
        exact fun h => absurd h Bool.false_ne_true
      · exact absurd (hpend.symm.trans h) Bool.false_ne_true
    | false =>
      obtain ⟨err,he⟩ := sendOffer_failed (p := p) hd ho
      rw [he]
      have hlog : record [p.fail "negotiate_failed" err] l = l := record_fail _ _ l
      constructor
      · intro hc
        refine ⟨fun hch => ?_,fun h => absurd (hpend.symm.trans h) Bool.false_ne_true⟩
        rw [hlog] at hch
        exact absurd (ho.symm.trans (hc hch hd)) Bool.false_ne_true
      · intro hc hk
        have hch : changedSince l = true := by
          by_contra hch
          exact hc (fun h => absurd h hch)
        rcases hk.noticed (by rw [hlog]; exact hch) with h | h
        · exact Bool.false_ne_true h
        · exact Bool.false_ne_true (hpend.symm.trans h)

theorem hinges_scheduleNegotiate (pc : Pion) (h : Recorded p l) :
    Hinges (p.scheduleNegotiate pc) (.changed :: l) (p.negotiating = false → mayOffer p pc) := by
  cases hn : p.negotiating with
  | true =>
    have hr : p.scheduleNegotiate pc = ({ p with renegotiatePending := true },[]) := by
      simp only [Peer.scheduleNegotiate, hn, if_true]
    rw [hr]
    refine .of_recorded ⟨fun _ => rfl,fun _ hneg => ?_⟩ (fun hf => nomatch hf)
    exact absurd (hn.symm.trans hneg) Bool.noConfusion
  | false =>
    have hr : p.scheduleNegotiate pc = { p with negotiating := true }.sendOffer pc := by
      simp only [Peer.scheduleNegotiate, hn, Bool.false_eq_true, if_false]
    have ho := hinges_sendOffer (p := { p with negotiating := true }) (l := .changed :: l) pc
      (fun hp => h.fired hp hn)
    rw [hr]
    exact ⟨fun hc => ho.kept (fun _ => hc rfl),fun hc => ho.lost (fun hm => hc (fun _ => hm rfl))⟩

theorem hinges_sendPending (pc : Pion) (hc : changedSince l = true → p.renegotiatePending = true) :
    Hinges (p.sendPending pc) l (p.renegotiatePending = true → changedSince l = true → mayOffer p pc) := by
  cases hp : p.renegotiatePending with
  | true =>
    have hr : p.sendPending pc =
        { p with renegotiatePending := false, negotiating := true }.sendOffer pc := by
      simp only [Peer.sendPending, hp, if_true]
    have ho := hinges_sendOffer (p := { p with renegotiatePending := false, negotiating := true })
      (l := l) pc (fun h => nomatch h)
    rw [hr]
    exact ⟨fun hm => ho.kept (hm rfl),fun hm => ho.lost (fun h => hm (fun _ => h))⟩
  | false =>
    have hr : p.sendPending pc = (p,[]) := by
      simp only [Peer.sendPending, hp, Bool.false_eq_true, if_false]
    rw [hr]
    refine .of_recorded ⟨hc,fun h => ?_⟩ (fun h => nomatch h)
    exact absurd (hp.symm.trans h) Bool.false_ne_true

theorem hinges_handleAnswer (pc : Pion) (h : Recorded p l) (n : ℕ) :
    Hinges (p.handleAnswer pc) (.answered n pc.setRemoteDescription.isNone :: l)
      (p.renegotiatePending = true →
        if pc.setRemoteDescription = none then changedSince l = true → mayOffer p pc
        else p.detached = true) := by
  cases hr : pc.setRemoteDescription with
  | none =>
    have ha : p.handleAnswer pc = { p with negotiating := false }.sendPending pc := by
      simp only [Peer.handleAnswer, hr]
    rw [ha,if_pos rfl]
    exact hinges_sendPending (p := { p with negotiating := false }) pc h.pending
  | some err =>
    have ha : p.handleAnswer pc = ({ p with negotiating := false },
        [p.fail "answer_failed" ("set remote description: " ++ err)]) := by
      simp only [Peer.handleAnswer, hr]
    have hlog : ∀ l, record [p.fail "answer_failed" ("set remote description: " ++ err)] l = l :=
      record_fail _ _
    rw [ha,if_neg (Option.some_ne_none err)]
    constructor
    · intro hc
      refine ⟨fun hch => ?_,fun hp _ => hc hp⟩
      rw [hlog] at hch
      exact h.pending hch
    · intro hc hk
      exact hc (fun hp => hk.fired hp rfl)

theorem recorded_markDetached (h : Recorded p l) : Recorded p.markDetached (.detached :: l) := by
  cases hn : p.negotiating with
  | true =>
    have hr : p.markDetached =
        { p with detached := true, negotiating := false, renegotiatePending := true } := by
      simp only [Peer.markDetached, hn, if_true]
    rw [hr]
    exact ⟨fun _ => rfl,fun _ _ => rfl⟩
  | false =>
    have hr : p.markDetached = { p with detached := true } := by
      simp only [Peer.markDetached, hn, Bool.false_eq_true, if_false]
    rw [hr]
    exact ⟨h.pending,fun _ _ => rfl⟩

theorem recorded_handleOffer (pc : Pion) (h : Recorded p l) (slots : List SlotDecl) :
    Recorded (p.handleOffer slots pc).1 l := by
  unfold Peer.handleOffer
  dsimp only
  split
  · exact ⟨h.pending,h.fired⟩
  · split
    · exact ⟨h.pending,h.fired⟩
    · split <;> exact ⟨h.pending,h.fired⟩

end Operations

/-- Each event hinges on its condition. -/
theorem hinges_perform {s : Session} (h : Recorded s.peer s.log) (e : PeerEvent) :
    Hinges (s.peer.perform e) (s.peer.mark e ++ s.log) (KeepsChanges s e) := by
  cases e with
  | subscribe key pub pc =>
    by_cases hs : s.peer.subscribes key pc = true
    · simp only [Peer.perform, Peer.mark, KeepsChanges, if_pos hs]
      have ho := hinges_scheduleNegotiate (p := { s.peer with subs := s.peer.subs.insert key pub })
        (l := s.log) pc ⟨h.pending,h.fired⟩
      exact ⟨fun hc => ho.kept (hc hs),fun hc => ho.lost (fun hm => hc (fun _ => hm))⟩
    · simp only [Peer.perform, Peer.mark, KeepsChanges, if_neg hs]
      exact .of_recorded (by simpa using h) (fun hs' => absurd hs' hs)
  | unsubscribe key pc =>
    by_cases hk : key ∈ s.peer.subs
    · simp only [Peer.perform, Peer.mark, KeepsChanges, if_pos hk]
      have ho := hinges_scheduleNegotiate (p := { s.peer with subs := s.peer.subs.erase key })
        (l := s.log) pc ⟨h.pending,h.fired⟩
      exact ⟨fun hc => ho.kept (hc hk),fun hc => ho.lost (fun hm => hc (fun _ => hm))⟩
    · simp only [Peer.perform, Peer.mark, KeepsChanges, if_neg hk]
      exact .of_recorded (by simpa using h) (fun hk' => absurd hk' hk)
  | offer slots pc =>
    refine .of_recorded ?_ trivial
    simp only [Peer.perform, Peer.mark, List.nil_append, record_handleOffer]
    exact recorded_handleOffer pc h slots
  | answer n pc => exact hinges_handleAnswer pc h n
  | detach =>
    refine .of_recorded ?_ trivial
    simp only [Peer.perform, Peer.mark, record_nil]
    exact recorded_markDetached h
  | resume pc =>
    have ho := hinges_sendPending (p := { s.peer with detached := false }) (l := s.log) pc
      h.pending
    exact ⟨fun hc => ho.kept (fun hp hch _ => hc hp hch),
      fun hc => ho.lost (fun hm => hc (fun hp hch => hm hp hch rfl))⟩

theorem step_recorded {s s' : Session} {e : PeerEvent} (h : Recorded s.peer s.log)
    (hg : KeepsChanges s e) (he : s.step e = some s') : Recorded s'.peer s'.log := by
  cases he
  exact (hinges_perform h e).kept hg

/-- In every run in which no offer of a change fails, and no answer fails while an
attached peer has another change pending, no change is lost; and the first event that
is not so loses one. -/
theorem no_lost_renegotiation {q : SfuRouter.Peer} {es : List PeerEvent} {s : Session}
    (h : RunsWhen Session.step KeepsChanges (.init q) es s) :
    NothingLost s ∧ ∀ e s', s.step e = some s' → (NothingLost s' ↔ KeepsChanges s e) := by
  have hr : Recorded s.peer s.log := by
    refine h.invariant (P := fun s => Recorded s.peer s.log) ?_ step_recorded
    exact ⟨fun hc => absurd hc Bool.false_ne_true,fun hp => absurd hp Bool.false_ne_true⟩
  refine ⟨hr.nothingLost,fun e s' he => ?_⟩
  have hh := hinges_perform hr e
  cases he
  constructor
  · intro hk
    by_contra hc
    exact hh.lost hc hk
  · exact fun hc => (hh.kept hc).nothingLost

/-- A second track arrives while the first is offered, and the client drops and resumes. -/
def offeredTwice : List PeerEvent :=
  [.offer [⟨"0",SourceMic⟩] {},.subscribe ⟨2,SourceMic⟩ 0 {},.subscribe ⟨3,SourceMic⟩ 1 {},
    .answer 0 {},.detach,.unsubscribe ⟨2,SourceMic⟩ {},.resume {},.answer 2 {}]

theorem no_lost_renegotiation_offeredTwice :
    ∃ s, RunsWhen Session.step KeepsChanges (.init ⟨"a",1,7,0⟩) offeredTwice s ∧ NothingLost s ∧
      s.log = [.answered 2 true,.offered 2,.changed,.detached,.offered 1,.answered 0 true,.changed,
        .offered 0,.changed] := by
  obtain ⟨s,h,hl⟩ := exists_runsWhen_of_exec Session.step KeepsChanges (.init ⟨"a",1,7,0⟩) offeredTwice
    Session.log [.answered 2 true,.offered 2,.changed,.detached,.offered 1,.answered 0 true,.changed,
      .offered 0,.changed] (by decide)
  exact ⟨s,h,(no_lost_renegotiation h).1,hl⟩

/-- `CreateOffer` fails for the first track: the peer never hears of it again. -/
theorem failed_offer_forgotten :
    ∃ s, Runs Session.step (.init ⟨"a",1,7,0⟩)
        [.subscribe ⟨2,SourceMic⟩ 0 { createOffer := some "no codec" }] s ∧
      ⟨2,SourceMic⟩ ∈ s.peer.subs ∧ s.log = [.changed] ∧ ¬ NothingLost s := by
  obtain ⟨s,h,hf⟩ := exists_runs_of_exec Session.step (.init ⟨"a",1,7,0⟩)
    [.subscribe ⟨2,SourceMic⟩ 0 { createOffer := some "no codec" }]
    (fun s => (decide (⟨2,SourceMic⟩ ∈ s.peer.subs),s.log,s.peer.negotiating,s.peer.renegotiatePending))
    (true,[.changed],false,false) (by decide)
  simp only [Prod.mk.injEq, decide_eq_true_eq] at hf
  obtain ⟨hm,hl,hn,hp⟩ := hf
  refine ⟨s,h,hm,hl,fun hk => ?_⟩
  rcases hk.noticed (by rw [hl]; rfl) with hn' | hp'
  · exact Bool.false_ne_true (hn.symm.trans hn')
  · exact Bool.false_ne_true (hp.symm.trans hp')

end MiniDiscord.SfuPeer
