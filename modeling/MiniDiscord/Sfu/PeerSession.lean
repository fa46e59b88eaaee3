import MiniDiscord.Sfu.Negotiation

/-! # One peer's offers and answers

What reaches a single peer, in any order and with any outcome of its Pion calls, with
a log of what matters to its renegotiation. An answer says which offer it answers, so
that a late or a repeated one can be told from the one that is waited for; the code
cannot tell them apart.
-/
namespace MiniDiscord.SfuPeer
open SfuTrack Transition

/-- What a peer's history is about; offers are numbered from zero. -/
inductive Mark where
  | changed
  | offered (n : ℕ)
  | answered (n : ℕ) (applied : Bool)
  | detached
  deriving DecidableEq

/-- What the `run` goroutine is given to do with its negotiation. -/
inductive PeerEvent where
  | subscribe (key : SubKey) (pub : TrackRef) (pc : Pion)
  | unsubscribe (key : SubKey) (pc : Pion)
  | offer (slots : List SlotDecl) (pc : Pion)
  | answer (n : ℕ) (pc : Pion)
  | detach
  | resume (pc : Pion)
  deriving DecidableEq

/-- `log` is newest first. -/
structure Session where
  peer : Peer
  log : List Mark

/-- `sendOffer` gets as far as `SendOffer`. -/
def Pion.offers (pc : Pion) : Bool :=
  decide (pc.createOffer = none ∧ pc.setLocalDescription = none)

namespace Peer

/-- `doSubscribe` gets past its early returns. -/
def subscribes (p : Peer) (key : SubKey) (pc : Pion) : Bool :=
  decide (key ∉ p.subs ∧ pc.newTrackLocal = none ∧ pc.addTrack = none)

def perform (p : Peer) : PeerEvent → Peer × List Signal
  | .subscribe key pub pc => if p.subscribes key pc = true then p.addSub key pub pc else (p,[])
  | .unsubscribe key pc => if key ∈ p.subs then p.dropSub key pc else (p,[])
  | .offer slots pc => p.handleOffer slots pc
  | .answer _ pc => p.handleAnswer pc
  | .detach => (p.markDetached,[])
  | .resume pc => p.clearDetached pc

/-- What the event itself adds to the history, before anything is sent. -/
def mark (p : Peer) : PeerEvent → List Mark
  | .subscribe key _ pc => if p.subscribes key pc = true then [.changed] else []
  | .unsubscribe key _ => if key ∈ p.subs then [.changed] else []
  | .offer _ _ => []
  | .answer n pc => [.answered n pc.setRemoteDescription.isNone]
  | .detach => [.detached]
  | .resume _ => []

end Peer

/-- How many offers were sent. -/
def sent (l : List Mark) : ℕ :=
  l.countP (fun m => match m with | .offered _ => true | _ => false)

/-- The subscriptions changed after the last offer, or before the first. -/
def changedSince : List Mark → Bool
  | [] => false
  | .changed :: _ => true
  | .offered _ :: _ => false
  | .answered _ _ :: l => changedSince l
  | .detached :: l => changedSince l

/-- The offers nobody answered, of those sent since the last `Detach`. -/
def outstanding : List Mark → List ℕ
  | [] => []
  | .changed :: l => outstanding l
  | .offered n :: l => n :: outstanding l
  | .answered n _ :: l => (outstanding l).filter (fun m => decide (m ≠ n))
  | .detached :: _ => []

def lastOffer : List Mark → Option ℕ
  | [] => none
  | .offered n :: _ => some n
  | .changed :: l => lastOffer l
  | .answered _ _ :: l => lastOffer l
  | .detached :: l => lastOffer l

/-- An offer among the signals is the next one of the log. -/
def record (signals : List Signal) (l : List Mark) : List Mark :=
  if signals.any (fun sig => match sig with | .offer _ _ => true | _ => false) = true then
    .offered (sent l) :: l
  else l

namespace Session

/-- A peer that `newPeer` just made. -/
def init (q : SfuRouter.Peer) : Session := ⟨newPeer q,[]⟩

def step (s : Session) (e : PeerEvent) : Option Session :=
  some ⟨(s.peer.perform e).1,record (s.peer.perform e).2 (s.peer.mark e ++ s.log)⟩

end Session

section SendOffer
variable {p : Peer} {pc : Pion}

theorem sendOffer_detached (hd : p.detached = true) :
    p.sendOffer pc = ({ p with negotiating := false, renegotiatePending := true },[]) := by
  simp only [Peer.sendOffer, hd, if_true]

theorem sendOffer_sent (hd : p.detached = false) (ho : pc.offers = true) :
    p.sendOffer pc = (p,[.offer p.userID p.sessionID]) := by
  obtain ⟨hc,hl⟩ := of_decide_eq_true ho
  simp [Peer.sendOffer, hd, hc, hl]

/-- Whichever call failed, the flag is cleared and nothing is remembered. -/
theorem sendOffer_failed (hd : p.detached = false) (ho : pc.offers = false) :
    ∃ err, p.sendOffer pc = ({ p with negotiating := false },[p.fail "negotiate_failed" err]) := by
  cases hc : pc.createOffer with
  | some err =>
    exists "create offer: " ++ err
    simp [Peer.sendOffer, hd, hc]
  | none =>
    cases hl : pc.setLocalDescription with
    | some err =>
      exists "set local description: " ++ err
      simp [Peer.sendOffer, hd, hc, hl]
    | none => simp [Pion.offers, hc, hl] at ho

@[simp] theorem record_nil (l : List Mark) : record [] l = l := by simp [record]

@[simp] theorem record_fail (code err : String) (l : List Mark) :
    record [p.fail code err] l = l := by simp [record, Peer.fail]

@[simp] theorem record_offer (u : UserID) (sid : SessionID) (l : List Mark) :
    record [.offer u sid] l = .offered (sent l) :: l := by simp [record]

/-- The client's own offer sends no offer back. -/
theorem record_handleOffer (slots : List SlotDecl) (l : List Mark) :
    record (p.handleOffer slots pc).2 l = l := by
  unfold Peer.handleOffer
  dsimp only
  split
  · exact record_fail _ _ l
  · split
    · exact record_fail _ _ l
    · split
      · exact record_fail _ _ l
      · simp [record]

end SendOffer
end MiniDiscord.SfuPeer

namespace MiniDiscord.SfuMedia
open SfuTrack SfuPeer Transition

/-- What a step of the whole SFU does to one peer's negotiation is an event of that
peer's session, unless the peer is new or is being closed. -/
theorem NegotiationStep.performs {s : State} {sid : SessionID} {p : Peer} {e : Event}
    {n : Negotiation} {new : List Signal} (h : NegotiationStep s sid p e n new) :
    (n = negotiation p ∧ ∀ sig ∈ new, negotiates sig = false) ∨
    (∃ q, n = negotiation (newPeer q) ∧ new = []) ∨
    (∃ ev, n = negotiation (p.perform ev).1 ∧ new = (p.perform ev).2) ∨
    (∃ key, n = { negotiation p with subs := p.subs.erase key } ∧ new = []) := by
  have hev : ∀ ev {r}, p.perform ev = r → (∃ ev, negotiation r.1 = negotiation (p.perform ev).1 ∧
      r.2 = (p.perform ev).2) := by
    intro ev r hr
    exact ⟨ev,by rw [hr],by rw [hr]⟩
  cases h with
  | other hnew => exact Or.inl ⟨rfl,hnew⟩
  | @joined _ _ _ q _ => exact Or.inr (Or.inl ⟨q,rfl,rfl⟩)
  | @handleOffer c slots => exact Or.inr (Or.inr (Or.inl (hev (.offer slots c.pc) rfl)))
  | @handleAnswer c => exact Or.inr (Or.inr (Or.inl (hev (.answer 0 c.pc) rfl)))
  | markDetached => exact Or.inr (Or.inr (Or.inl (hev .detach rfl)))
  | @clearDetached c => exact Or.inr (Or.inr (Or.inl (hev (.resume c.pc) rfl)))
  | @addSub c key pub _ hk hl ht =>
    have hs : p.subscribes key c.pc = true := decide_eq_true ⟨hk,hl,ht⟩
    exact Or.inr (Or.inr (Or.inl (hev (.subscribe key pub c.pc) (if_pos hs))))
  | @dropSub c key pub hl =>
    have hk : key ∈ p.subs := Finmap.mem_of_lookup_eq_some hl
    exact Or.inr (Or.inr (Or.inl (hev (.unsubscribe key c.pc) (if_pos hk))))
  | @closeSub _ key => exact Or.inr (Or.inr (Or.inr ⟨key,rfl,rfl⟩))

end MiniDiscord.SfuMedia
