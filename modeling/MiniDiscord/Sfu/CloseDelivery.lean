import MiniDiscord.Sfu.Lifecycle

/-! # Whether a close arrives

`Leave` ends in `close`, which fires once and leaves the teardown to the peer's own queue,
where it is one command among others. The callback of the connection never goes through the
queue: it reports a session that died without a `Leave`, and the hub may answer with one.
-/
namespace MiniDiscord.SfuMedia
open SfuRoom SfuTrack SfuPeer Transition
open SfuRouter (RoomRef CallID)

inductive PeerConnectionState where
  | new
  | connecting
  | connected
  | disconnected
  | failed
  | closed
  deriving DecidableEq

inductive CloseReason where
  | pcFailed
  | pcClosed
  deriving DecidableEq

/-- The states that end a session, with the reason that the observer is told. -/
def PeerConnectionState.reason : PeerConnectionState → Option CloseReason
  | .failed => some .pcFailed
  | .closed => some .pcClosed
  | _ => none

/-- The arguments of `OnSessionClosed`. -/
structure SessionClosed where
  userID : UserID
  sessionID : SessionID
  channelID : ChannelID
  reason : CloseReason
  deriving DecidableEq

/-- The `close` at the end of a `Leave` finds room in the queue. -/
def CloseFits (s : State) : Event → Prop
  | .router (.peerClose t) => ∀ p ∈ leaver (s.router.calls t),
      (s.peers p.sessionID).commands.length < commandsCap
  | _ => True

instance (s : State) (e : Event) : Decidable (CloseFits s e) := by
  unfold CloseFits
  split <;> infer_instance

/-- The SFU beside the callbacks of its connections. A callback has read `stopped` and is
about to swap `closeNotified`; `notices` are in the order of the calls. -/
structure Monitored where
  sfu : State
  closeNotified : SessionID → Bool
  callbacks : CallID → Option (SessionID × CloseReason)
  notices : List SessionClosed

namespace Monitored

def init : Monitored := ⟨SfuMedia.init,fun _ => false,fun _ => none,[]⟩

/-- The first half of `handleConnectionStateChange`. -/
def handleConnectionStateChange (m : Monitored) (t : CallID) (sid : SessionID)
    (state : PeerConnectionState) : Monitored :=
  match state.reason with
  | none => m
  | some reason =>
    if (m.sfu.peers sid).stopped = true then m
    else { m with callbacks := Function.update m.callbacks t (some (sid,reason)) }

/-- `closeNotified.CompareAndSwap(false, true)`, and the notice it lets through. -/
def swapNotified (m : Monitored) (t : CallID) (sid : SessionID) (reason : CloseReason) :
    Monitored :=
  let m' := { m with callbacks := Function.update m.callbacks t none }
  if m.closeNotified sid = true then m'
  else { m' with
    closeNotified := Function.update m.closeNotified sid true
    notices := m.notices ++
      [⟨(m.sfu.peers sid).userID,sid,(m.sfu.peers sid).channelID,reason⟩] }

inductive Event where
  | sfu (e : SfuMedia.Event)
  | stateChange (t : CallID) (sid : SessionID) (state : PeerConnectionState)
  | swapNotified (t : CallID)
  deriving DecidableEq

def step (m : Monitored) : Event → Option Monitored
  | .sfu e => (SfuMedia.step m.sfu e).map (fun s => { m with sfu := s })
  | .stateChange t sid state =>
    if m.callbacks t = none ∧ sid ∈ m.sfu.router.issued then
      some (m.handleConnectionStateChange t sid state)
    else none
  | .swapNotified t => (m.callbacks t).map (fun sr => m.swapNotified t sr.1 sr.2)

/-- The guard of the SFU, whatever the callbacks do. -/
def CloseFits (m : Monitored) : Event → Prop
  | .sfu e => SfuMedia.CloseFits m.sfu e
  | _ => True

instance (m : Monitored) (e : Event) : Decidable (m.CloseFits e) := by
  unfold CloseFits
  split <;> infer_instance

end Monitored

/-- A `Leave` took the session out of the router and has returned. -/
def Left (s : State) (x : SessionID) : Prop :=
  x ∈ s.router.issued ∧ x ∉ s.router.peers ∧
    ∀ t p, leaver (s.router.calls t) = some p → p.sessionID ≠ x

/-- `doClose` has started, or is in the queue. -/
def CloseAssured (p : Peer) : Prop := p.stopped = true ∨ .doClose ∈ p.commands

/-- An empty queue has been through `doClose`; once that has returned, closing the
connection last, no subscription is left. -/
structure Drained (p : Peer) : Prop where
  stopped : p.commands = [] → p.stopped = true
  released : p.stopped = true → p.cont = .idle → p.subs = ∅

variable {s s' : State} {e : Event} {sid x : SessionID} {c : Choice} {E : Effect}

/-- What happens to a close while the once-flag stays as it is. -/
structure Carries (w w' : Wiring) : Prop where
  closeOnce : w'.closeOnce = w.closeOnce
  stopped : w.stopped = true → w'.stopped = true
  stops : w'.stopped = true → w.stopped = true ∨ .doClose ∈ w.commands
  queued : .doClose ∈ w'.commands → .doClose ∈ w.commands
  taken : .doClose ∈ w.commands → .doClose ∈ w'.commands ∨ w'.stopped = true

theorem Carries.refl (w : Wiring) : Carries w w := ⟨rfl,id,Or.inl,id,Or.inl⟩

theorem Carries.trans {w₁ w₂ w₃ : Wiring} (h : Carries w₁ w₂) (h' : Carries w₂ w₃) : Carries w₁ w₃ where
  closeOnce := h'.closeOnce.trans h.closeOnce
  stopped hs := h'.stopped (h.stopped hs)
  stops hs := by
    rcases h'.stops hs with hs | hq
    · exact h.stops hs
    · exact Or.inr (h.queued hq)
  queued hq := h.queued (h'.queued hq)
  taken hq := by
    rcases h.taken hq with hq | hs
    · exact h'.taken hq
    · exact Or.inr (h'.stopped hs)

theorem Carries.assured {w w' : Wiring} (h : Carries w w') (hw : w.stopped = true ∨ .doClose ∈ w.commands) :
    w'.stopped = true ∨ .doClose ∈ w'.commands := by
  rcases hw with hs | hq
  · exact Or.inl (h.stopped hs)
  · exact (h.taken hq).symm

theorem assured_close {w : Wiring} (hw : w.stopped = true ∨ .doClose ∈ w.commands) :
    w.close.stopped = true ∨ .doClose ∈ w.close.commands := by
  unfold Wiring.close Wiring.enqueue
  split
  · exact hw
  · split
    · exact Or.inl ‹_›
    · split
      · exact Or.inr (List.mem_append_right _ List.mem_cons_self)
      · exact hw

/-- Nobody but `close` queues a `doClose`. -/
theorem carries_asked {a : Option (SessionID × Task)} {w : Wiring}
    (ha : ∀ y fn, a = some (y,fn) → fn ≠ .doClose) : Carries w (asked a x w) := by
  obtain ⟨l,hl,hm⟩ := asked_eq a x w
  refine ⟨asked_closeOnce a x w,fun hs => by rw [hl]; exact hs,fun hs => ?_,fun hq => ?_,fun hq => ?_⟩
  · rw [hl] at hs
    exact Or.inl hs
  · rcases asked_commands hq with hw | he
    · exact hw
    · exact absurd rfl (ha _ _ he)
  · left
    unfold asked
    split
    · exact hq
    · split
      · unfold Wiring.enqueue
        split
        · exact hq
        · split
          · exact List.mem_append_left _ hq
          · exact hq
      · exact hq

/-- A task taken from the queue is either the close or leaves it there. -/
theorem Section.taken (h : Section s sid c E) (hq : .doClose ∈ (s.wire sid).commands) :
    .doClose ∈ E.wire.commands ∨ E.wire.stopped = true := by
  have htail : ∀ {fn rest}, (s.wire sid).commands = fn :: rest → fn ≠ .doClose →
      Task.doClose ∈ rest := by
    intro fn rest hc hn
    rw [hc] at hq
    exact (List.mem_cons.mp hq).resolve_left (fun he => hn he.symm)
  have hsub : ∀ {u k w}, Subscribes (s.wire sid) u k w → Task.doClose ∈ w.commands := by
    intro u k w hs
    cases hs with
    | task _ hc => exact htail hc (by simp)
    | existing => exact hq
    | video => exact hq
  cases h with
  | take _ hc _ ht =>
    refine Or.inl (htail hc ?_)
    rintro rfl
    cases ht with
    | talk ht => cases ht
  | offered _ hc => exact Or.inl (htail hc (by simp))
  | offerFailed _ hc => exact Or.inl (htail hc (by simp))
  | publish _ hc => exact Or.inl (htail hc (by simp))
  | unsubscribe _ hc => exact Or.inl (htail hc (by simp))
  | resubscribe hs => exact Or.inl (hsub hs)
  | noLocal hs => exact Or.inl (hsub hs)
  | notAdded hs => exact Or.inl (hsub hs)
  | subscribe hs =>
    have hq := hsub hs
    exact Or.inl hq
  | close => exact Or.inr rfl
  | _ => exact Or.inl hq

theorem Section.carries (h : Section s sid c E) : Carries (s.wire sid) E.wire := by
  refine ⟨h.closeOnce,fun hs => ?_,fun hs => ?_,h.commands,h.taken⟩
  · rcases h.stopped with he | ⟨he,-⟩
    · rw [he,hs]
    · exact he
  · rcases h.stopped with he | ⟨-,hq⟩
    · exact Or.inl (he ▸ hs)
    · exact Or.inr hq

/-- A step carries the close of a session on, or is the `close` itself. -/
theorem step_closes (hg : Grounded s) (he : step s e = some s') (x : SessionID) :
    Carries (s.wire x) (s'.wire x) ∨ ∃ t p, e = .router (.peerClose t) ∧
      s.router.calls t = .leaveClose p ∧ p.sessionID = x ∧ s'.wire x = (s.wire x).close := by
  obtain ⟨-,hv⟩ := step_wired he
  cases hv with
  | @run y c E _ hs ha =>
    left
    rw [ha.wire]
    have hasked : ∀ w : Wiring, Carries w (asked E.ask x w) :=
      fun w => carries_asked (fun _ _ h => hs.ask_ne h)
    split
    · rename_i hx
      subst hx
      exact hs.carries.trans (hasked _)
    · exact hasked _
  | @router re r w _ hroutes hw =>
    rw [hw]
    cases hroutes with
    | @join t y u ch _ k hn =>
      left
      by_cases hx : x = y
      · subst hx
        obtain ⟨q,hq⟩ := hg.fresh x hn
        rw [hq,Function.update_self]
        exact ⟨rfl,id,Or.inl,id,Or.inl⟩
      · rw [Function.update_of_ne hx]
        exact Carries.refl _
    | @close t p _ hc =>
      by_cases hx : x = p.sessionID
      · subst hx
        exact Or.inr ⟨t,p,rfl,hc,rfl,Function.update_self _ _ _⟩
      · left
        rw [Function.update_of_ne hx]
        exact Carries.refl _
    | other => exact Or.inl (Carries.refl _)
  | ask ha hw =>
    left
    rw [hw]
    refine carries_asked (fun y fn h => ?_)
    cases h
    exact (ha.ok hg).2.2
  | call => exact Or.inl (Carries.refl _)
  | @publishState t y source active =>
    left
    obtain ⟨m,hm⟩ := wire_publishState s t y source active x
    rw [hm]
    exact ⟨rfl,id,Or.inl,id,Or.inl⟩

/-- The last section of a `Leave` closes the peer that it looked up. -/
theorem peerClose_closes {t : CallID} (he : step s (.router (.peerClose t)) = some s') :
    ∃ p, s.router.calls t = .leaveClose p ∧ s'.wire p.sessionID = (s.wire p.sessionID).close := by
  obtain ⟨-,hv⟩ := step_wired he
  cases hv with
  | @router _ r w _ hroutes hw =>
    cases hroutes with
    | @close _ p _ hc => exact ⟨p,hc,(hw _).trans (Function.update_self _ _ _)⟩
    | other _ hn => exact absurd rfl (hn t)
  | ask h => cases h
  | call h => cases h

/-- Whoever was registered still is, is being left, or was closed. -/
def Accounted (s : State) : Prop := ∀ x ∈ s.router.issued,
  x ∈ s.router.peers ∨ (∃ t p, leaver (s.router.calls t) = some p ∧ p.sessionID = x) ∨
    (s.wire x).closeOnce = true

theorem issued_step (he : step s e = some s') (hx : x ∈ s'.router.issued) :
    x ∈ s.router.issued ∨ x ∈ s'.router.peers := by
  obtain ⟨-,hv⟩ := step_wired he
  cases hv with
  | run _ ha =>
    rw [ha.router] at hx
    exact Or.inl hx
  | @router re r w _ hroutes =>
    rw [(routed_link s re r).2.2.2.1] at hx ⊢
    cases hroutes with
    | join _ hi hp =>
      rw [hi] at hx
      rcases Finset.mem_insert.mp hx with rfl | hx
      · right
        rw [hp]
        exact Finmap.mem_insert.mpr (Or.inl rfl)
      · exact Or.inl hx
    | close _ hr =>
      rw [hr] at hx
      exact Or.inl hx
    | other _ _ hi =>
      rw [hi] at hx
      exact Or.inl hx
  | ask _ _ _ _ _ hrouter =>
    rw [hrouter] at hx
    exact Or.inl hx
  | call => exact Or.inl hx
  | publishState => exact Or.inl hx

theorem closeOnce_step (hg : Grounded s) (he : step s e = some s')
    (hx : (s.wire x).closeOnce = true) : (s'.wire x).closeOnce = true := by
  rcases step_closes hg he x with h | ⟨-,-,-,-,-,hw⟩
  · rw [h.closeOnce,hx]
  · rw [hw,Wiring.close_closeOnce]

theorem step_accounted (hg : Grounded s) (ha : Accounted s) (he : step s e = some s') :
    Accounted s' := by
  intro x hx
  rcases issued_step he hx with hx | hx
  · rcases ha x hx with hp | ⟨t,p,hl,hpx⟩ | hc
    · rcases step_router he with hr | ⟨re,rfl,hr⟩
      · rw [hr]
        exact Or.inl hp
      · obtain ⟨p,hp⟩ := Finmap.mem_iff.mp hp
        have hreg := fun y q h => And.intro (hg.registered y q h).1 (hg.registered y q h).2.1
        rcases router_registered hr hp hreg with hp' | ⟨t,ht⟩
        · exact Or.inl (Finmap.mem_iff.mpr ⟨p,hp'⟩)
        · exact Or.inr (Or.inl ⟨t,p,ht,(hg.registered x p hp).1⟩)
    · rcases step_router he with hr | ⟨re,rfl,hr⟩
      · rw [hr]
        exact Or.inr (Or.inl ⟨t,p,hl,hpx⟩)
      · rcases router_leaver_stays hr hl with hl' | ⟨rfl,hc⟩
        · exact Or.inr (Or.inl ⟨t,p,hl',hpx⟩)
        · right
          right
          obtain ⟨q,hq,hw⟩ := peerClose_closes he
          rw [hc] at hq
          cases hq
          subst hpx
          rw [hw,Wiring.close_closeOnce]
    · exact Or.inr (Or.inr (closeOnce_step hg he hc))
  · exact Or.inl hx

/-- Who has left is who was closed. -/
theorem left_iff (hg : Grounded s) (hl : Lifecycle s) (ha : Accounted s) :
    Left s x ↔ (s.wire x).closeOnce = true := by
  constructor
  · rintro ⟨hi,hp,hn⟩
    rcases ha x hi with h | ⟨t,p,ht,hpx⟩ | h
    · exact absurd h hp
    · exact absurd hpx (hn t p ht)
    · exact h
  · intro hc
    refine ⟨?_,fun hp => ?_,fun t p ht hpx => ?_⟩
    · by_contra hi
      obtain ⟨q,hq⟩ := hg.fresh x hi
      rw [hq] at hc
      cases hc
    · rw [hl.registered x hp] at hc
      cases hc
    · subst hpx
      rw [(hl.leaving t p ht).2] at hc
      cases hc

/-- What `doClose`, where it stands, has yet to unsubscribe. -/
def Tears (subs : GoMap SubKey TrackRef) : Cont → Prop
  | .closeSubs keys => ∀ key ∈ subs.keys, key ∈ keys
  | .closeTracks _ => subs = ∅
  | .closeSubscribers _ _ _ => subs = ∅
  | .idle => subs = ∅
  | _ => False

def Torn (w : Wiring) : Prop := w.stopped = true → Tears w.subs w.cont

theorem empty_of_keys {subs : GoMap SubKey TrackRef} (h : ∀ key ∈ subs.keys, key ∈ ([] : List SubKey)) :
    subs = ∅ := by
  refine Finmap.ext_lookup (fun key => ?_)
  rw [Finmap.lookup_empty,← GoMap.notMem_keys_iff]
  exact fun hk => nomatch h key hk

theorem Moves.tears {k k' : Cont} {new : List Signal} (h : Moves s sid c k k' new)
    (ht : Tears (s.wire sid).subs k) : Tears (s.wire sid).subs k' := by
  cases h with
  | @noSub key rest hn =>
    intro key' hk
    rcases List.mem_cons.mp (ht key' hk) with rfl | hr
    · exact absurd hk ((GoMap.notMem_keys_iff _ _).mpr hn)
    · exact hr
  | subsClosed => exact empty_of_keys ht
  | tracksClosed => exact ht
  | closeTrack => exact ht
  | subscribersClosed => exact ht
  | nobody => exact ht
  | _ => exact ht.elim

/-- A stopped peer stands nowhere else. -/
theorem Torn.running {w : Wiring} (h : Torn w) (hk : ¬ Tears w.subs w.cont) : w.stopped = false := by
  by_contra hs
  exact hk (h (by simpa using hs))

theorem Subscribes.running {w w' : Wiring} {u : UserID} {pub : TrackRef} (h : Subscribes w u pub w')
    (ht : Torn w) : w'.stopped = false := by
  cases h with
  | task _ _ hs => exact hs
  | existing hk => exact ht.running (by rw [hk]; exact id)
  | video hk => exact ht.running (by rw [hk]; exact id)

theorem Section.torn (h : Section s sid c E) (ht : Torn (s.wire sid)) : Torn E.wire := by
  have hrun : E.wire.stopped = false → Torn E.wire := by
    intro hf hs
    rw [hf] at hs
    cases hs
  cases h with
  | move hm => exact fun hs => hm.tears (ht hs)
  | take _ _ hs => exact hrun hs
  | offered _ _ hs => exact hrun hs
  | offerFailed _ _ hs => exact hrun hs
  | publish _ _ hs => exact hrun hs
  | unsubscribe _ _ hs => exact hrun hs
  | resubscribe hs => exact hrun (hs.running ht)
  | noLocal hs => exact hrun (hs.running ht)
  | notAdded hs => exact hrun (hs.running ht)
  | subscribe hs =>
    have hf := hs.running ht
    exact hrun hf
  | close _ _ _ hk =>
    intro _ key hkey
    exact List.mem_toFinset.mp (hk ▸ hkey)
  | @closeSub key rest pub hk hp =>
    intro hs key' hkey
    have ht := ht hs
    rw [hk] at ht
    rw [GoMap.keys_erase] at hkey
    obtain ⟨hne,hkey⟩ := Finset.mem_erase.mp hkey
    exact (List.mem_cons.mp (ht key' hkey)).resolve_left hne
  | subscribeOther hk =>
    have hf := ht.running (by rw [hk]; exact id)
    exact hrun hf
  | closeSubscriber hk =>
    intro hs
    have ht := ht hs
    rw [hk] at ht
    exact ht

theorem step_torn (he : step s e = some s') (ht : ∀ x, Torn (s.wire x)) (x : SessionID) :
    Torn (s'.wire x) := by
  obtain ⟨-,hv⟩ := step_wired he
  have hasked : ∀ (a : Option (SessionID × Task)) {w : Wiring}, Torn w → Torn (asked a x w) := by
    intro a w hw
    obtain ⟨l,hl,-⟩ := asked_eq a x w
    rw [hl]
    exact hw
  cases hv with
  | @run y c E _ hs ha =>
    rw [ha.wire]
    apply hasked
    split
    · exact hs.torn (ht y)
    · exact ht x
  | router _ hroutes hw =>
    rw [hw]
    rcases hroutes.eq_or x with hx | ⟨t,u,ch,k,-,-,hx⟩ | ⟨t,p,-,-,hx⟩
    · rw [hx]
      exact ht x
    · rw [hx]
      exact fun hs => nomatch hs
    · obtain ⟨l,b,hl,-⟩ := (s.wire x).close_eq
      rw [hx,hl]
      exact ht x
  | ask _ hw =>
    rw [hw]
    exact hasked _ (ht x)
  | call => exact ht x
  | @publishState t y source active =>
    obtain ⟨m,hm⟩ := wire_publishState s t y source active x
    rw [hm]
    exact ht x

/-- What holds of every reachable state of the SFU about its closes. -/
structure Closing (s : State) : Prop where
  grounded : Grounded s
  lifecycle : Lifecycle s
  accounted : Accounted s
  torn : ∀ x, Torn (s.wire x)

theorem closing_init : Closing init where
  grounded := grounded_init
  lifecycle := lifecycle_init
  accounted _ hx := absurd hx (Finset.notMem_empty _)
  torn _ hs := nomatch hs

theorem step_closing (h : Closing s) (he : step s e = some s') : Closing s' where
  grounded := step_grounded h.grounded he
  lifecycle := step_lifecycle h.grounded h.lifecycle he
  accounted := step_accounted h.grounded h.accounted he
  torn := step_torn he h.torn

/-- Every close that fired is delivered. -/
def Delivered (s : State) : Prop :=
  ∀ x, (s.wire x).closeOnce = true → CloseAssured (s.peers x)

/-- The first `close` of a running peer is queued if and only if it fits. -/
theorem doClose_mem_close {w : Wiring} (hc : w.closeOnce = false) (hs : w.stopped = false)
    (hn : .doClose ∉ w.commands) :
    w.close.stopped = false ∧ (.doClose ∈ w.close.commands ↔ w.commands.length < commandsCap) := by
  unfold Wiring.close Wiring.enqueue
  rw [hc,hs]
  by_cases hl : w.commands.length < commandsCap
  · simp [hl]
  · simp [hl, hn]

/-- Under the invariant a step meets the guard if and only if it keeps every close. -/
theorem closeFits_iff (h : Closing s) (hd : Delivered s) (he : step s e = some s') :
    CloseFits s e ↔ Delivered s' := by
  have hopen : ∀ {t p}, s.router.calls t = .leaveClose p →
      (s.wire p.sessionID).close.stopped = false ∧
        (.doClose ∈ (s.wire p.sessionID).close.commands ↔
          (s.wire p.sessionID).commands.length < commandsCap) := by
    intro t p hc
    have ho := (h.lifecycle.leaving t p (by rw [hc]; rfl)).2
    obtain ⟨hs,hn⟩ := (h.lifecycle.orderly p.sessionID).open_ ho
    exact doClose_mem_close ho hs hn
  constructor
  · intro hg x hx
    rcases step_closes h.grounded he x with hk | ⟨t,p,rfl,hc,rfl,hw⟩
    · rw [hk.closeOnce] at hx
      exact hk.assured (hd x hx)
    · have hl := hg p (by rw [hc]; rfl)
      have hm := (hopen hc).2.mpr hl
      rw [← hw] at hm
      exact Or.inr hm
  · intro hd'
    unfold CloseFits
    split
    · rename_i t
      intro p hp
      obtain ⟨q,hc,hw⟩ := peerClose_closes he
      rw [hc] at hp
      cases hp
      have hx := hd' p.sessionID (by rw [hw]; exact Wiring.close_closeOnce _)
      change (s'.wire p.sessionID).stopped = true ∨ .doClose ∈ (s'.wire p.sessionID).commands at hx
      rw [hw,(hopen hc).1] at hx
      exact (hopen hc).2.mp (hx.resolve_left (by simp))
    · trivial

/-- A session that was closed without its `doClose`. -/
def Lost (p : Peer) : Prop := p.closeOnce = true ∧ ¬ CloseAssured p

/-- The once-flag is set for good, so nobody queues the close again. -/
theorem step_lost (hg : Grounded s) (he : step s e = some s') (hl : Lost (s.peers x)) :
    Lost (s'.peers x) := by
  obtain ⟨hc,hn⟩ := hl
  change (s.wire x).closeOnce = true at hc
  rcases step_closes hg he x with hk | ⟨-,-,-,-,-,hw⟩
  · refine ⟨hk.closeOnce.trans hc,?_⟩
    rintro (hs | hq)
    · exact hn (hk.stops hs)
    · exact hn (Or.inr (hk.queued hq))
  · have hw' : s'.wire x = s.wire x := by rw [hw,Wiring.close,if_pos hc]
    refine ⟨(congrArg Wiring.closeOnce hw').trans hc,?_⟩
    rintro (hs | hq)
    · exact hn (Or.inl ((congrArg Wiring.stopped hw').symm.trans hs))
    · change .doClose ∈ (s'.wire x).commands at hq
      rw [hw'] at hq
      exact hn (Or.inr hq)

theorem step_assured (hg : Grounded s) (he : step s e = some s') (hl : CloseAssured (s.peers x)) :
    CloseAssured (s'.peers x) := by
  rcases step_closes hg he x with hk | ⟨t,p,-,-,-,hw⟩
  · exact hk.assured hl
  · change (s'.wire x).stopped = true ∨ .doClose ∈ (s'.wire x).commands
    rw [hw]
    exact assured_close hl

theorem drained_of (h : Closing s) (hl : CloseAssured (s.peers x)) : Drained (s.peers x) where
  stopped hq := hl.resolve_right (by rw [hq]; exact List.not_mem_nil)
  released hs hk := by
    have ht := h.torn x hs
    change Tears (s.peers x).subs (s.peers x).cont at ht
    rw [hk] at ht
    exact ht

namespace Monitored
variable {m n : Monitored} {e : Event}

/-- The callbacks of the connections leave the SFU alone. -/
theorem step_sfu (he : m.step e = some n) : n.sfu = m.sfu ∨
    ∃ e', e = .sfu e' ∧ SfuMedia.step m.sfu e' = some n.sfu := by
  cases e with
  | sfu e =>
    obtain ⟨s,hs,rfl⟩ := Option.map_eq_some_iff.mp he
    exact Or.inr ⟨e,rfl,hs⟩
  | stateChange t sid state =>
    left
    unfold step at he
    dsimp only at he
    split at he
    · cases he
      unfold handleConnectionStateChange
      split
      · rfl
      · split <;> rfl
    · cases he
  | swapNotified t =>
    left
    obtain ⟨sr,-,rfl⟩ := Option.map_eq_some_iff.mp he
    unfold swapNotified
    dsimp only
    split <;> rfl

theorem step_keeps {P : State → Prop}
    (hstep : ∀ {s s' : State} {e : SfuMedia.Event}, P s → SfuMedia.step s e = some s' → P s')
    (hP : P m.sfu) (he : m.step e = some n) : P n.sfu := by
  rcases step_sfu he with hs | ⟨e',-,hs⟩
  · rw [hs]
    exact hP
  · exact hstep hP hs

theorem closing_of_runs {es : List Event} (h : Runs step init es m) : Closing m.sfu :=
  h.invariant closing_init (fun hP _ he => step_keeps step_closing hP he)

theorem closeFits_iff (h : Closing m.sfu) (hd : Delivered m.sfu) (he : m.step e = some n) :
    m.CloseFits e ↔ Delivered n.sfu := by
  rcases step_sfu he with hs | ⟨e',rfl,hs⟩
  · rw [hs]
    refine ⟨fun _ => hd,fun _ => ?_⟩
    cases e with
    | sfu e' =>
      obtain ⟨s,hs',rfl⟩ := Option.map_eq_some_iff.mp he
      exact (SfuMedia.closeFits_iff h hd (hs'.trans (congrArg some hs))).mpr hd
    | _ => trivial
  · exact SfuMedia.closeFits_iff h hd hs

end Monitored

/-- The closes are delivered along a run if and only if each of them found room in its
peer's queue. A delivered one is carried out once the queue drains, whatever happens
meanwhile; one that was dropped never is. -/
theorem close_delivered {es : List Monitored.Event} {m : Monitored}
    (h : Runs Monitored.step Monitored.init es m) :
    (RunsWhen Monitored.step Monitored.CloseFits Monitored.init es m ↔
      ∀ fs gs n, es = fs ++ gs → Runs Monitored.step Monitored.init fs n →
        ∀ x, Left n.sfu x → CloseAssured (n.sfu.peers x)) ∧
    ∀ x, Left m.sfu x → ∀ gs n, Runs Monitored.step m gs n →
      (CloseAssured (m.sfu.peers x) → CloseAssured (n.sfu.peers x) ∧ Drained (n.sfu.peers x)) ∧
      (¬ CloseAssured (m.sfu.peers x) → (n.sfu.peers x).stopped = false) := by
  constructor
  · have hiff := RunsWhen.iff_along (I := fun m => Closing m.sfu) (Q := fun m => Delivered m.sfu) h
      closing_init (fun _ hx => nomatch hx) (fun hP he => Monitored.step_keeps step_closing hP he)
      (fun hI hQ he => Monitored.closeFits_iff hI hQ he)
    rw [hiff]
    have hleft : ∀ {fs n}, Runs Monitored.step Monitored.init fs n →
        (Delivered n.sfu ↔ ∀ x, Left n.sfu x → CloseAssured (n.sfu.peers x)) := by
      intro fs n hn
      have hc := Monitored.closing_of_runs hn
      exact forall_congr' (fun x => imp_congr_left
        (left_iff hc.grounded hc.lifecycle hc.accounted).symm)
    exact ⟨fun hd fs gs n hes hn => (hleft hn).mp (hd fs gs n hes hn),
      fun hd fs gs n hes hn => (hleft hn).mpr (hd fs gs n hes hn)⟩
  · intro x hx gs n hn
    have hc := Monitored.closing_of_runs h
    have hinv : ∀ {P : State → Prop}, (∀ {s s' e}, Closing s → P s → step s e = some s' → P s') →
        P m.sfu → Closing n.sfu ∧ P n.sfu := by
      intro P hP h0
      refine hn.invariant (P := fun m => Closing m.sfu ∧ P m.sfu) ⟨hc,h0⟩ (fun hs _ he => ?_)
      exact Monitored.step_keeps (P := fun s => Closing s ∧ P s)
        (fun hs he => ⟨step_closing hs.1 he,hP hs.1 hs.2 he⟩) hs he
    constructor
    · intro ha
      obtain ⟨hc',ha'⟩ := hinv (P := fun s => CloseAssured (s.peers x))
        (fun hc ha he => step_assured hc.grounded he ha) ha
      exact ⟨ha',drained_of hc' ha'⟩
    · intro hn'
      obtain ⟨-,hl⟩ := hinv (P := fun s => Lost (s.peers x))
        (fun hc hl he => step_lost hc.grounded he hl)
        ⟨(left_iff hc.grounded hc.lifecycle hc.accounted).mp hx,hn'⟩
      simpa using fun hs => hl.2 (Or.inl hs)

/-- A session joins, is told that its connection failed, and is left; its queue drains. -/
def failedThenLeft : List Monitored.Event :=
  [.sfu (.router (.join 0 "a" 1 7)),.sfu (.router (.roomAdd 0)),.stateChange 0 "a" .failed,
    .swapNotified 0,.sfu (.router (.leave 1 "a")),.sfu (.router (.roomRemove 1)),
    .sfu (.router (.removeUser 1)),.sfu (.router (.isEmpty 1)),.sfu (.router (.recheck 1)),
    .sfu (.router (.peerClose 1)),.sfu (.run "a" {}),.sfu (.run "a" {}),.sfu (.run "a" {})]

theorem close_delivered_failed : ∃ m, Runs Monitored.step Monitored.init failedThenLeft m ∧
    m.notices = [⟨1,"a",7,.pcFailed⟩] ∧ (m.sfu.peers "a").cont = .idle ∧
    CloseAssured (m.sfu.peers "a") ∧ Drained (m.sfu.peers "a") := by
  have hrun : Runs Monitored.step Monitored.init failedThenLeft
      (after Monitored.step Monitored.init failedThenLeft) := runs_after (by decide +kernel)
  have hc := Monitored.closing_of_runs hrun
  have hleft : Left (after Monitored.step Monitored.init failedThenLeft).sfu "a" :=
    (left_iff hc.grounded hc.lifecycle hc.accounted).mpr (by decide +kernel)
  exact ⟨_,hrun,by decide +kernel,by decide +kernel,
    ((close_delivered hrun).2 "a" hleft [] _ (RunsWhen.refl _)).1 (Or.inl (by decide +kernel))⟩

/-- One ICE candidate of a client, from its message to the peer's queue. -/
def candidate : List Monitored.Event :=
  [.sfu (.request 1 "a" .handleCandidate),.sfu (.proceed 1)]

/-- The queue is full of candidates when the session is left, and drains afterwards. -/
def leftWhileBusy : List Monitored.Event :=
  [.sfu (.router (.join 0 "a" 1 7)),.sfu (.router (.roomAdd 0))] ++
    (List.replicate 32 candidate).flatten ++
    [.sfu (.router (.leave 0 "a")),.sfu (.router (.roomRemove 0)),.sfu (.router (.removeUser 0)),
      .sfu (.router (.isEmpty 0)),.sfu (.router (.recheck 0)),.sfu (.router (.peerClose 0))] ++
    List.replicate 32 (.sfu (.run "a" {}))

theorem close_dropped : ¬ ∀ es m, Runs Monitored.step Monitored.init es m → ∀ x, Left m.sfu x →
    CloseAssured (m.sfu.peers x) := by
  intro h
  obtain ⟨m,hm,hf⟩ := exists_runs_of_exec Monitored.step Monitored.init leftWhileBusy
    (fun m => ((m.sfu.wire "a").closeOnce,(m.sfu.wire "a").stopped,(m.sfu.wire "a").commands))
    (true,false,[]) (by decide +kernel)
  simp only [Prod.mk.injEq] at hf
  obtain ⟨hc,hs,hq⟩ := hf
  have hi := Monitored.closing_of_runs hm
  have hleft := (left_iff hi.grounded hi.lifecycle hi.accounted).mpr hc
  rcases h _ m hm "a" hleft with hst | hmem
  · change (m.sfu.wire "a").stopped = true at hst
    rw [hs] at hst
    cases hst
  · change .doClose ∈ (m.sfu.wire "a").commands at hmem
    rw [hq] at hmem
    cases hmem

end MiniDiscord.SfuMedia
