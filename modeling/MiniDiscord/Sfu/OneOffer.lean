import MiniDiscord.Sfu.PeerSession
import Mathlib.Data.Set.Finite.Basic

/-! # One outstanding offer

`negotiating` says that an offer waits for its answer. Every answer clears it, whichever
offer it answers, and `clearDetached` offers without looking at it: then a second offer
leaves while the first is still out.
-/
namespace MiniDiscord.SfuPeer
open SfuTrack Transition

/-- No offer leaves while another one is outstanding, and what is applied answers the
offer sent last. -/
def OneAtATime : List Mark → Prop
  | [] => True
  | .changed :: l => OneAtATime l
  | .offered _ :: l => outstanding l = [] ∧ OneAtATime l
  | .answered n applied :: l => (applied = true → lastOffer l = some n) ∧ OneAtATime l
  | .detached :: l => OneAtATime l

/-- While an offer is outstanding its own answer comes, and no resumption of a peer with
a pending change; an answer that can be applied is to the last offer. -/
def AnswersInTurn (s : Session) : PeerEvent → Prop
  | .answer n pc => (∀ m ∈ outstanding s.log, m = n) ∧
      (pc.setRemoteDescription = none → lastOffer s.log = some n)
  | .resume _ => s.peer.negotiating = true → s.peer.renegotiatePending = false
  | .subscribe _ _ _ => True
  | .unsubscribe _ _ => True
  | .offer _ _ => True
  | .detach => True

instance (s : Session) (e : PeerEvent) : Decidable (AnswersInTurn s e) :=
  match e with
  | .answer .. | .resume _ => by
    unfold AnswersInTurn
    infer_instance
  | .subscribe .. | .unsubscribe .. | .offer .. | .detach => instDecidableTrue

/-- The flag and the log agree on whether an offer is outstanding. -/
structure InTurn (p : Peer) (l : List Mark) : Prop where
  ordered : OneAtATime l
  idle : p.negotiating = false → outstanding l = []
  busy : p.negotiating = true → outstanding l ≠ [] ∧ p.detached = false

section Operations
variable {p : Peer} {l : List Mark} {pc : Pion}

/-- Who has nothing outstanding may try to send an offer. -/
theorem inTurn_sendOffer (hn : p.negotiating = true) (hl : OneAtATime l) (ho : outstanding l = []) :
    InTurn (p.sendOffer pc).1 (record (p.sendOffer pc).2 l) := by
  cases hd : p.detached with
  | true =>
    rw [sendOffer_detached hd,record_nil]
    exact ⟨hl,fun _ => ho,fun h => absurd h Bool.false_ne_true⟩
  | false =>
    cases hs : pc.offers with
    | true =>
      rw [sendOffer_sent hd hs,record_offer]
      refine ⟨⟨ho,hl⟩,fun h => ?_,fun _ => ⟨List.cons_ne_nil _ _,hd⟩⟩
      exact absurd (hn.symm.trans h) Bool.noConfusion
    | false =>
      obtain ⟨err,he⟩ := sendOffer_failed (p := p) hd hs
      rw [he,record_fail]
      exact ⟨hl,fun _ => ho,fun h => absurd h Bool.false_ne_true⟩

theorem inTurn_scheduleNegotiate (h : InTurn p l) :
    InTurn (p.scheduleNegotiate pc).1 (record (p.scheduleNegotiate pc).2 (.changed :: l)) := by
  cases hn : p.negotiating with
  | true =>
    simp only [Peer.scheduleNegotiate, hn, if_true, record_nil]
    exact ⟨h.ordered,fun hf => absurd hf.symm Bool.false_ne_true,fun _ => h.busy hn⟩
  | false =>
    simp only [Peer.scheduleNegotiate, hn, Bool.false_eq_true, if_false]
    exact inTurn_sendOffer (p := { p with negotiating := true }) rfl h.ordered (h.idle hn)

theorem inTurn_sendPending (h : InTurn p l)
    (hn : p.renegotiatePending = true → p.negotiating = false) :
    InTurn (p.sendPending pc).1 (record (p.sendPending pc).2 l) := by
  cases hp : p.renegotiatePending with
  | true =>
    simp only [Peer.sendPending, hp, if_true]
    exact inTurn_sendOffer rfl h.ordered (h.idle (hn hp))
  | false =>
    simp only [Peer.sendPending, hp, Bool.false_eq_true, if_false, record_nil]
    exact h

theorem inTurn_handleAnswer (h : InTurn p l) {n : ℕ} (hm : ∀ m ∈ outstanding l, m = n)
    (hlast : pc.setRemoteDescription = none → lastOffer l = some n) :
    InTurn (p.handleAnswer pc).1
      (record (p.handleAnswer pc).2 (.answered n pc.setRemoteDescription.isNone :: l)) := by
  have ho : outstanding (.answered n pc.setRemoteDescription.isNone :: l) = [] := by
    simp only [outstanding, List.filter_eq_nil_iff, decide_eq_true_eq, not_not]
    exact hm
  have ha : InTurn { p with negotiating := false } (.answered n pc.setRemoteDescription.isNone :: l) :=
    ⟨⟨fun hb => hlast (Option.isNone_iff_eq_none.mp hb),h.ordered⟩,fun _ => ho,
      fun hf => absurd hf Bool.false_ne_true⟩
  cases hr : pc.setRemoteDescription with
  | none =>
    simp only [Peer.handleAnswer, hr]
    rw [hr] at ha
    exact inTurn_sendPending ha (fun _ => rfl)
  | some err =>
    simp only [Peer.handleAnswer, hr]
    rw [hr] at ha
    rw [record_fail]
    exact ha

theorem inTurn_markDetached (h : InTurn p l) : InTurn p.markDetached (.detached :: l) := by
  have hf : p.markDetached.negotiating = false := by
    unfold Peer.markDetached
    split
    · rfl
    · simpa using ‹¬ p.negotiating = true›
  exact ⟨h.ordered,fun _ => rfl,fun hn => absurd (hf.symm.trans hn) Bool.false_ne_true⟩

theorem inTurn_handleOffer (h : InTurn p l) (slots : List SlotDecl) :
    InTurn (p.handleOffer slots pc).1 l := by
  unfold Peer.handleOffer
  dsimp only
  split
  · exact ⟨h.ordered,h.idle,h.busy⟩
  · split
    · exact ⟨h.ordered,h.idle,h.busy⟩
    · split <;> exact ⟨h.ordered,h.idle,h.busy⟩

end Operations

theorem step_inTurn {s s' : Session} {e : PeerEvent} (h : InTurn s.peer s.log)
    (hg : AnswersInTurn s e) (he : s.step e = some s') : InTurn s'.peer s'.log := by
  cases he
  cases e with
  | subscribe key pub pc =>
    by_cases hs : s.peer.subscribes key pc = true
    · simp only [Peer.perform, Peer.mark, if_pos hs]
      exact inTurn_scheduleNegotiate (p := { s.peer with subs := s.peer.subs.insert key pub })
        ⟨h.ordered,h.idle,h.busy⟩
    · simp only [Peer.perform, Peer.mark, if_neg hs, record_nil, List.nil_append]
      exact h
  | unsubscribe key pc =>
    by_cases hk : key ∈ s.peer.subs
    · simp only [Peer.perform, Peer.mark, if_pos hk]
      exact inTurn_scheduleNegotiate (p := { s.peer with subs := s.peer.subs.erase key })
        ⟨h.ordered,h.idle,h.busy⟩
    · simp only [Peer.perform, Peer.mark, if_neg hk, record_nil, List.nil_append]
      exact h
  | offer slots pc =>
    simp only [Peer.perform, Peer.mark, List.nil_append, record_handleOffer]
    exact inTurn_handleOffer h slots
  | answer n pc => exact inTurn_handleAnswer h hg.1 hg.2
  | detach =>
    simp only [Peer.perform, Peer.mark, record_nil]
    exact inTurn_markDetached h
  | resume pc =>
    have hr : InTurn { s.peer with detached := false } s.log :=
      ⟨h.ordered,h.idle,fun hn => ⟨(h.busy hn).1,rfl⟩⟩
    refine inTurn_sendPending hr (fun hp => ?_)
    by_contra hn
    have hn' : s.peer.negotiating = true := by simpa using hn
    exact Bool.false_ne_true ((hg hn').symm.trans hp)

/-! ## What a step out of turn leads to -/

/-- Some continuation sends or applies what it must not. -/
def Overlaps (s : Session) : Prop := ∃ es s', Runs Session.step s es s' ∧ ¬ OneAtATime s'.log

theorem Overlaps.of_step {s s' : Session} {e : PeerEvent} (he : s.step e = some s')
    (h : Overlaps s') : Overlaps s := by
  obtain ⟨es,t,hr,ht⟩ := h
  exact ⟨e :: es,t,.cons he hr,ht⟩

theorem overlaps_of_log {s : Session} (h : ¬ OneAtATime s.log) : Overlaps s := ⟨[],s,.refl s,h⟩

theorem OneAtATime.of_record {signals : List Signal} {l : List Mark}
    (h : OneAtATime (record signals l)) : OneAtATime l := by
  unfold record at h
  split at h
  · exact h.2
  · exact h

/-- A map of subscriptions leaves some key unused. -/
theorem exists_notMem_subs (m : GoMap SubKey TrackRef) : ∃ key, key ∉ m := by
  obtain ⟨u,hu⟩ := Infinite.exists_notMem_finset (m.keys.image SubKey.publisherUserID)
  refine ⟨⟨u,SourceMic⟩,fun hm => hu ?_⟩
  exact Finset.mem_image.mpr ⟨⟨u,SourceMic⟩,Finmap.mem_keys.mpr hm,rfl⟩

section Breaks
variable {p : Peer} {l : List Mark} {pc : Pion}

/-- With the flag cleared too early, the next subscription sends an offer. -/
theorem overlaps_of_cleared (hn : p.negotiating = false) (hd : p.detached = false)
    (ho : outstanding l ≠ []) : Overlaps ⟨p,l⟩ := by
  obtain ⟨key,hk⟩ := exists_notMem_subs p.subs
  have hs : p.subscribes key {} = true := decide_eq_true ⟨hk,rfl,rfl⟩
  have hr : p.addSub key 0 {} = ({ p with subs := p.subs.insert key 0, negotiating := true },
      [.offer p.userID p.sessionID]) := by
    simp only [Peer.addSub, Peer.scheduleNegotiate, hn, Bool.false_eq_true, if_false]
    exact sendOffer_sent hd rfl
  refine Overlaps.of_step (e := .subscribe key 0 {}) rfl (overlaps_of_log ?_)
  simp only [Peer.perform, Peer.mark, if_pos hs, hr, record_offer]
  exact fun h => ho h.1

theorem overlaps_of_sendPending (hd : p.detached = false) (ho : outstanding l ≠ [])
    (hn : p.renegotiatePending = false → p.negotiating = false) :
    Overlaps ⟨(p.sendPending pc).1,record (p.sendPending pc).2 l⟩ := by
  cases hp : p.renegotiatePending with
  | false =>
    simp only [Peer.sendPending, hp, Bool.false_eq_true, if_false, record_nil]
    exact overlaps_of_cleared (hn hp) hd ho
  | true =>
    simp only [Peer.sendPending, hp, if_true]
    let q : Peer := { p with renegotiatePending := false, negotiating := true }
    cases hs : pc.offers with
    | true =>
      have hr : q.sendOffer pc = (q,[.offer q.userID q.sessionID]) := sendOffer_sent hd hs
      rw [hr,record_offer]
      exact overlaps_of_log (fun h => ho h.1)
    | false =>
      obtain ⟨err,hr⟩ := sendOffer_failed (p := q) hd hs
      rw [hr,record_fail]
      exact overlaps_of_cleared rfl hd ho

theorem overlaps_of_handleAnswer (hd : p.detached = false) {n : ℕ}
    (ho : outstanding (.answered n pc.setRemoteDescription.isNone :: l) ≠ []) :
    Overlaps ⟨(p.handleAnswer pc).1,
      record (p.handleAnswer pc).2 (.answered n pc.setRemoteDescription.isNone :: l)⟩ := by
  cases hr : pc.setRemoteDescription with
  | none =>
    rw [hr] at ho
    simp only [Peer.handleAnswer, hr]
    exact overlaps_of_sendPending hd ho (fun _ => rfl)
  | some err =>
    rw [hr] at ho
    simp only [Peer.handleAnswer, hr, record_fail]
    exact overlaps_of_cleared rfl hd ho

end Breaks

theorem overlaps_of_not_answersInTurn {s : Session} {e : PeerEvent} (h : InTurn s.peer s.log)
    (hg : ¬ AnswersInTurn s e) : ∃ s', s.step e = some s' ∧ Overlaps s' := by
  have hbusy : outstanding s.log ≠ [] → s.peer.detached = false := by
    intro ho
    have hn : s.peer.negotiating = true := by
      by_contra hn
      exact ho (h.idle (by simpa using hn))
    exact (h.busy hn).2
  refine ⟨_,rfl,?_⟩
  cases e with
  | subscribe key pub pc => exact absurd trivial hg
  | unsubscribe key pc => exact absurd trivial hg
  | offer slots pc => exact absurd trivial hg
  | detach => exact absurd trivial hg
  | answer n pc =>
    by_cases hm : ∀ m ∈ outstanding s.log, m = n
    · -- nothing else is out: then it is applied though it is not to the last offer
      have hlast : ¬ (pc.setRemoteDescription = none → lastOffer s.log = some n) := fun hl => hg ⟨hm,hl⟩
      obtain ⟨hr,hl⟩ := Classical.not_imp.mp hlast
      refine overlaps_of_log (fun ho => hl ?_)
      have ha : OneAtATime (.answered n pc.setRemoteDescription.isNone :: s.log) := ho.of_record
      exact ha.1 (by rw [hr]; rfl)
    · push Not at hm
      obtain ⟨m,hm,hne⟩ := hm
      have hmem : m ∈ outstanding (.answered n pc.setRemoteDescription.isNone :: s.log) :=
        List.mem_filter.mpr ⟨hm,decide_eq_true hne⟩
      exact overlaps_of_handleAnswer (hbusy (List.ne_nil_of_mem hm)) (List.ne_nil_of_mem hmem)
  | resume pc =>
    obtain ⟨hn,hp⟩ := Classical.not_imp.mp hg
    have hp' : s.peer.renegotiatePending = true := by simpa using hp
    refine overlaps_of_sendPending (p := { s.peer with detached := false }) rfl (h.busy hn).1 (fun hf => ?_)
    exact absurd (hf.symm.trans hp') Bool.false_ne_true

/-- In every run in which answers come in turn and no peer is resumed in the middle of a
negotiation with another one pending, offers leave one at a time and only the last one's
answer is applied; and the first event that is not so can be continued to an overlap. -/
theorem one_offer {q : SfuRouter.Peer} {es : List PeerEvent} {s : Session}
    (h : RunsWhen Session.step AnswersInTurn (.init q) es s) :
    OneAtATime s.log ∧ ∀ e, ¬ AnswersInTurn s e → ∃ s', s.step e = some s' ∧ Overlaps s' := by
  have hi : InTurn s.peer s.log := by
    refine h.invariant (P := fun s => InTurn s.peer s.log) ?_ step_inTurn
    exact ⟨trivial,fun _ => rfl,fun hn => absurd hn Bool.false_ne_true⟩
  exact ⟨hi.ordered,fun e hg => overlaps_of_not_answersInTurn hi hg⟩

/-- The client drops with an offer out and its old answer arrives while it is away. -/
def answeredLate : List PeerEvent :=
  [.subscribe ⟨2,SourceMic⟩ 0 {},.subscribe ⟨3,SourceMic⟩ 1 {},.detach,
    .answer 0 {},.resume {},.answer 1 {},.unsubscribe ⟨2,SourceMic⟩ {}]

theorem one_offer_answeredLate :
    ∃ s, RunsWhen Session.step AnswersInTurn (.init ⟨"a",1,7,0⟩) answeredLate s ∧ OneAtATime s.log ∧
      s.log = [.offered 2,.changed,.answered 1 true,.offered 1,.answered 0 true,.detached,.changed,
        .offered 0,.changed] := by
  obtain ⟨s,h,hl⟩ := exists_runsWhen_of_exec Session.step AnswersInTurn (.init ⟨"a",1,7,0⟩) answeredLate
    Session.log [.offered 2,.changed,.answered 1 true,.offered 1,.answered 0 true,.detached,.changed,
      .offered 0,.changed] (by decide)
  exact ⟨s,h,(one_offer h).1,hl⟩

/-- A client resumes though nobody took it for detached. -/
theorem resumed_twice :
    ∃ s, Runs Session.step (.init ⟨"a",1,7,0⟩)
        [.subscribe ⟨2,SourceMic⟩ 0 {},.unsubscribe ⟨2,SourceMic⟩ {},.resume {}] s ∧
      s.log = [.offered 1,.changed,.offered 0,.changed] ∧ ¬ OneAtATime s.log := by
  obtain ⟨s,h,hl⟩ := exists_runs_of_exec Session.step (.init ⟨"a",1,7,0⟩)
    [.subscribe ⟨2,SourceMic⟩ 0 {},.unsubscribe ⟨2,SourceMic⟩ {},.resume {}] Session.log
    [.offered 1,.changed,.offered 0,.changed] (by decide)
  refine ⟨s,h,hl,?_⟩
  rw [hl]
  exact fun ho => List.cons_ne_nil _ _ ho.1

end MiniDiscord.SfuPeer
