import MiniDiscord.Sfu.Grounded
import MiniDiscord.Sfu.LeaveIsolation

/-! # From `Join` to `doClose`

A session is registered, then left once, then closed once, and only a closed session
stops. A registered one therefore still takes tasks.
-/
namespace MiniDiscord.SfuMedia
open SfuRoom SfuTrack SfuPeer Transition
open SfuRouter (RoomRef CallID)

/-- Program points inside `doClose`. -/
def closes : Cont → Bool
  | .closeSubs _ => true
  | .closeTracks _ => true
  | .closeSubscribers _ _ _ => true
  | _ => false

/-- Nothing of `doClose` before `close`, and no section of it before the first. -/
structure Wiring.Orderly (w : Wiring) : Prop where
  open_ : w.closeOnce = false → w.stopped = false ∧ .doClose ∉ w.commands
  stopped : closes w.cont = true → w.stopped = true

structure Lifecycle (s : State) : Prop where
  orderly : ∀ x, (s.wire x).Orderly
  registered : ∀ x, x ∈ s.router.peers → (s.wire x).closeOnce = false
  leaving : ∀ t p, leaver (s.router.calls t) = some p →
    p.sessionID ∉ s.router.peers ∧ (s.wire p.sessionID).closeOnce = false
  once : ∀ t t' p p', leaver (s.router.calls t) = some p → leaver (s.router.calls t') = some p' →
    p.sessionID = p'.sessionID → t = t'

variable {s s' : State} {e : Event} {sid x : SessionID} {c : Choice} {E : Effect}

theorem Lifecycle.running (h : Lifecycle s) (hx : x ∈ s.router.peers) :
    (s.wire x).stopped = false ∧ closes (s.wire x).cont = false := by
  have hs := ((h.orderly x).open_ (h.registered x hx)).1
  refine ⟨hs,?_⟩
  by_contra hc
  have hst := (h.orderly x).stopped (by simpa using hc)
  rw [hs] at hst
  cases hst

section Sections
variable (h : Section s sid c E)
include h

theorem Section.closeOnce : E.wire.closeOnce = (s.wire sid).closeOnce := by
  cases h with
  | resubscribe hs | noLocal hs | notAdded hs | subscribe hs => cases hs <;> rfl
  | _ => rfl

theorem Section.stopped : E.wire.stopped = (s.wire sid).stopped ∨
    (E.wire.stopped = true ∧ .doClose ∈ (s.wire sid).commands) := by
  cases h with
  | resubscribe hs | noLocal hs | notAdded hs | subscribe hs => cases hs <;> exact Or.inl rfl
  | close _ hq => exact Or.inr ⟨rfl,by rw [hq]; exact List.mem_cons_self⟩
  | _ => exact Or.inl rfl

theorem Section.closes (hc : closes E.wire.cont = true) : closes (s.wire sid).cont = true ∨
    E.wire.stopped = true := by
  have hsub : ∀ {u k w}, Subscribes (s.wire sid) u k w → SfuMedia.closes w.cont = true →
      SfuMedia.closes (s.wire sid).cont = true := by
    intro u k w hs hw
    cases hs with
    | task => exact hw
    | existing => cases hw
    | video => cases hw
  cases h with
  | move hm =>
    left
    generalize (s.wire sid).cont = k₀ at hm
    cases hm <;> first | rfl | cases hc | skip
    · dsimp only [State.quiet] at hc
      split at hc <;> cases hc
  | take _ _ _ ht => cases ht <;> cases hc
  | resubscribe hs => exact Or.inl (hsub hs hc)
  | noLocal hs => exact Or.inl (hsub hs hc)
  | notAdded hs => exact Or.inl (hsub hs hc)
  | subscribe hs => exact Or.inl (hsub hs hc)
  | close => exact Or.inr rfl
  | closeSub hk => left; rw [hk]; rfl
  | closeSubscriber hk => left; rw [hk]; rfl
  | offered => cases hc
  | publish => cases hc
  | subscribeOther => cases hc
  | offerFailed => exact Or.inl hc
  | unsubscribe => exact Or.inl hc

theorem Section.ask_ne {y : SessionID} {fn : Task} (ha : E.ask = some (y,fn)) : fn ≠ .doClose := by
  cases h with
  | subscribeOther => cases ha; simp
  | closeSubscriber => cases ha; simp
  | _ => cases ha

theorem Section.orderly (ho : (s.wire sid).Orderly) : E.wire.Orderly := by
  constructor
  · intro hc
    rw [h.closeOnce] at hc
    obtain ⟨hs,hn⟩ := ho.open_ hc
    refine ⟨?_,fun hm => hn (h.commands hm)⟩
    rcases h.stopped with he | ⟨-,hm⟩
    · rw [he,hs]
    · exact absurd hm hn
  · intro hc
    rcases h.closes hc with hk | hs
    · rcases h.stopped with he | ⟨hs,-⟩
      · rw [he,ho.stopped hk]
      · exact hs
    · exact hs

end Sections

theorem orderly_asked {a : Option (SessionID × Task)} {w : Wiring}
    (ha : ∀ y fn, a = some (y,fn) → fn ≠ .doClose) (ho : w.Orderly) : (asked a x w).Orderly := by
  obtain ⟨l,hl,hm⟩ := asked_eq a x w
  rw [hl]
  refine ⟨fun hc => ⟨(ho.open_ hc).1,fun hmem => ?_⟩,ho.stopped⟩
  rcases hm _ hmem with hin | he
  · exact (ho.open_ hc).2 hin
  · exact ha _ _ he rfl

theorem asked_closeOnce (a : Option (SessionID × Task)) (x : SessionID) (w : Wiring) :
    (asked a x w).closeOnce = w.closeOnce := by
  obtain ⟨l,hl,-⟩ := asked_eq a x w
  rw [hl]

theorem Wiring.close_closeOnce (w : Wiring) : w.close.closeOnce = true := by
  unfold Wiring.close
  split
  · assumption
  · unfold Wiring.enqueue
    split
    · rfl
    · split <;> rfl

theorem orderly_close {w : Wiring} (ho : w.Orderly) : w.close.Orderly := by
  constructor
  · intro hc
    rw [w.close_closeOnce] at hc
    cases hc
  · intro hc
    obtain ⟨l,b,hl,-⟩ := w.close_eq
    rw [hl] at hc ⊢
    exact ho.stopped hc

theorem orderly_newPeer (q : SfuRouter.Peer) : (wiring (newPeer q)).Orderly :=
  ⟨fun _ => ⟨rfl,fun hm => nomatch hm⟩,fun hc => nomatch hc⟩

/-- A call that leaves a session was leaving it before, or has just looked it up. -/
theorem router_leaver {r r' : SfuRouter.State} {re : SfuRouter.Event}
    (he : SfuRouter.step r re = some r') {t : CallID} {p : SfuRouter.Peer}
    (hp : leaver (r'.calls t) = some p) : leaver (r.calls t) = some p ∨
      ((∃ y, r.peers.lookup y = some p) ∧ r'.peers = r.peers.erase p.sessionID ∧ re.call = some t) := by
  obtain ⟨-,hv⟩ := SfuRouter.step_view he
  have hupd : ∀ {j : CallID} {k : SfuRouter.Call}, Function.update r.calls j k t = r'.calls t →
      (t = j → ∀ q, leaver k = some q → leaver (r.calls j) = some q ∨
        ((∃ y, r.peers.lookup y = some q) ∧ r'.peers = r.peers.erase q.sessionID ∧ re.call = some j)) →
      leaver (r.calls t) = some p ∨
        ((∃ y, r.peers.lookup y = some p) ∧ r'.peers = r.peers.erase p.sessionID ∧ re.call = some t) := by
    intro j k hr hk
    rw [← hr] at hp
    by_cases ht : t = j
    · subst ht
      rw [Function.update_self] at hp
      exact hk rfl p hp
    · rw [Function.update_of_ne ht] at hp
      exact Or.inl hp
  have hkeep : ∀ {j : CallID} {q : SfuRouter.Peer} {k : SfuRouter.Call},
      leaver (r.calls j) = some q → leaver k = some q → Function.update r.calls j k t = r'.calls t →
      leaver (r.calls t) = some p ∨
        ((∃ y, r.peers.lookup y = some p) ∧ r'.peers = r.peers.erase p.sessionID ∧ re.call = some t) := by
    intro j q k hq hk hr
    refine hupd hr (fun _ q' hq' => Or.inl ?_)
    rw [hq,← hk,hq']
  cases hv with
  | @joinOld j sid u c k => exact hupd (j := j) rfl (fun _ q hq => nomatch hq)
  | @joinNew j sid u c => exact hupd (j := j) rfl (fun _ q hq => nomatch hq)
  | @roomAdd j q hc => exact hupd (j := j) rfl (fun _ q hq => nomatch hq)
  | @leaveRoom j sid q k hi hq =>
    refine hupd (j := j) (k := .leaveRemove q k) rfl (fun _ q' hq' => ?_)
    cases hq'
    exact Or.inr ⟨⟨sid,hq⟩,rfl,rfl⟩
  | @leaveNoRoom j sid q hi hq =>
    refine hupd (j := j) (k := .leaveClose q) rfl (fun _ q' hq' => ?_)
    cases hq'
    exact Or.inr ⟨⟨sid,hq⟩,rfl,rfl⟩
  | @roomRemove j q k hc => exact hkeep (k := .leaveRemoveUser q k) (by rw [hc]; rfl) rfl rfl
  | @removeUser j q k hc => exact hkeep (k := .leaveIsEmpty q k) (by rw [hc]; rfl) rfl rfl
  | @isEmpty j q k hc =>
    refine hkeep (q := q) (by rw [hc]; rfl) ?_ rfl
    split <;> rfl
  | @drop j q k hc => exact hkeep (k := .leaveClose q) (by rw [hc]; rfl) rfl rfl
  | @keep j q k hc => exact hkeep (k := .leaveClose q) (by rw [hc]; rfl) rfl rfl
  | @peerClose j q hc => exact hupd (j := j) rfl (fun _ q hq => nomatch hq)
  | _ => exact Or.inl hp

/-- Who is being left stays so until the section that closes it. -/
theorem router_leaver_stays {r r' : SfuRouter.State} {re : SfuRouter.Event}
    (he : SfuRouter.step r re = some r') {t : CallID} {p : SfuRouter.Peer}
    (hp : leaver (r.calls t) = some p) : leaver (r'.calls t) = some p ∨
      (re = .peerClose t ∧ r.calls t = .leaveClose p) := by
  obtain ⟨-,hv⟩ := SfuRouter.step_view he
  have hupd : ∀ {j : CallID} {k : SfuRouter.Call},
      leaver (r.calls j) = none ∨ leaver (r.calls j) = leaver k →
      Function.update r.calls j k = r'.calls → leaver (r'.calls t) = some p := by
    intro j k hj hr
    rw [← hr]
    by_cases ht : t = j
    · subst ht
      rw [Function.update_self]
      rcases hj with hn | he
      · rw [hp] at hn
        cases hn
      · rw [← he,hp]
    · rw [Function.update_of_ne ht]
      exact hp
  cases hv with
  | joinOld hi => exact Or.inl (hupd (Or.inl (by rw [hi]; rfl)) rfl)
  | joinNew hi => exact Or.inl (hupd (Or.inl (by rw [hi]; rfl)) rfl)
  | roomAdd hc => exact Or.inl (hupd (Or.inl (by rw [hc]; rfl)) rfl)
  | leaveRoom hi => exact Or.inl (hupd (Or.inl (by rw [hi]; rfl)) rfl)
  | leaveNoRoom hi => exact Or.inl (hupd (Or.inl (by rw [hi]; rfl)) rfl)
  | roomRemove hc => exact Or.inl (hupd (Or.inr (by rw [hc]; rfl)) rfl)
  | removeUser hc => exact Or.inl (hupd (Or.inr (by rw [hc]; rfl)) rfl)
  | isEmpty hc => exact Or.inl (hupd (Or.inr (by rw [hc]; split <;> rfl)) rfl)
  | drop hc => exact Or.inl (hupd (Or.inr (by rw [hc]; rfl)) rfl)
  | keep hc => exact Or.inl (hupd (Or.inr (by rw [hc]; rfl)) rfl)
  | @peerClose j q hc =>
    by_cases ht : t = j
    · subst ht
      rw [hc] at hp
      cases hp
      exact Or.inr ⟨rfl,hc⟩
    · left
      have hs : (r.setCall j .idle).calls t = r.calls t := Function.update_of_ne ht _ _
      rw [hs]
      exact hp
  | _ => exact Or.inl hp

/-- A registered session stays registered, or its `Leave` begins. -/
theorem router_registered {r r' : SfuRouter.State} {re : SfuRouter.Event}
    (he : SfuRouter.step r re = some r') {p : SfuRouter.Peer} (hp : r.peers.lookup x = some p)
    (hreg : ∀ y q, r.peers.lookup y = some q → q.sessionID = y ∧ y ∈ r.issued) :
    r'.peers.lookup x = some p ∨ ∃ t, leaver (r'.calls t) = some p := by
  obtain ⟨-,hv⟩ := SfuRouter.step_view he
  have herase : ∀ {y : SessionID} {q : SfuRouter.Peer}, r.peers.lookup y = some q →
      (r.peers.erase q.sessionID).lookup x = some p ∨ q = p := by
    intro y q hy
    rw [GoMap.lookup_erase_eq]
    split
    · rename_i hx
      rw [(hreg y q hy).1] at hx
      subst hx
      rw [hy] at hp
      exact Or.inr (Option.some.inj hp)
    · exact Or.inl hp
  have hins : ∀ {q : SfuRouter.Peer}, q.sessionID ∉ r.issued →
      (r.peers.insert q.sessionID q).lookup x = some p := by
    intro q hq
    rw [GoMap.lookup_insert_eq,if_neg]
    · exact hp
    · rintro rfl
      exact hq (hreg _ p hp).2
  cases hv with
  | @joinOld t sid u c k _ hn => exact Or.inl (hins (q := ⟨sid,u,c,k⟩) hn)
  | @joinNew t sid u c _ hn => exact Or.inl (hins (q := ⟨sid,u,c,r.nextRoom⟩) hn)
  | @leaveRoom t sid q k hi hq =>
    rcases herase hq with h | rfl
    · exact Or.inl h
    · exact Or.inr ⟨t,by simp [SfuRouter.State.setCall, leaver]⟩
  | @leaveNoRoom t sid q hi hq =>
    rcases herase hq with h | rfl
    · exact Or.inl h
    · exact Or.inr ⟨t,by simp [SfuRouter.State.setCall, leaver]⟩
  | _ => exact Or.inl hp

theorem carried_of_leaver {k : SfuRouter.Call} {p : SfuRouter.Peer} (h : leaver k = some p) :
    carried k = some p := by
  cases k <;> first | exact h | cases h

/-- A step that closes nobody and leaves the router alone. -/
theorem Lifecycle.keep (hl : Lifecycle s) (hr : s'.router = s.router)
    (hc : ∀ x, (s'.wire x).closeOnce = (s.wire x).closeOnce) (ho : ∀ x, (s'.wire x).Orderly) :
    Lifecycle s' := by
  refine ⟨ho,?_,?_,?_⟩
  · intro x hx
    rw [hr] at hx
    rw [hc]
    exact hl.registered x hx
  · intro t p hp
    rw [hr] at hp ⊢
    rw [hc]
    exact hl.leaving t p hp
  · intro t t' p p' hp hp'
    rw [hr] at hp hp'
    exact hl.once t t' p p' hp hp'

theorem router_lifecycle {re : SfuRouter.Event} {r : SfuRouter.State} {w : SessionID → Wiring}
    (hg : Grounded s) (hl : Lifecycle s) (he : SfuRouter.step s.router re = some r)
    (h : Routes s re r w) (hw : ∀ x, (s.routed re r).wire x = w x) : Lifecycle (s.routed re r) := by
  obtain ⟨-,-,-,hrouter,-⟩ := routed_link s re r
  have horderly : ∀ x, (w x).Orderly := by
    intro x
    rcases h.eq_or x with hx | ⟨t,u,ch,k,-,-,hx⟩ | ⟨t,p,-,-,hx⟩
    · rw [hx]
      exact hl.orderly x
    · rw [hx]
      exact orderly_newPeer _
    · rw [hx]
      exact orderly_close (hl.orderly x)
  -- whoever is not closed by this section is as open as before
  have hopen : ∀ x, (s.wire x).closeOnce = false →
      (∀ t p, s.router.calls t = .leaveClose p → re = .peerClose t → p.sessionID ≠ x) →
      (w x).closeOnce = false := by
    intro x hx hn
    cases h with
    | @join t y u ch r k =>
      by_cases hxy : x = y
      · subst hxy
        rw [Function.update_self]
        rfl
      · rw [Function.update_of_ne hxy]
        exact hx
    | @close t p r hc =>
      rw [Function.update_of_ne (fun he => hn t p hc rfl he.symm)]
      exact hx
    | other => exact hx
  have hfresh : ∀ x, x ∉ s.router.issued → (s.wire x).closeOnce = false := by
    intro x hx
    obtain ⟨q,hq⟩ := hg.fresh x hx
    rw [hq]
    rfl
  have hissued : ∀ t p, leaver (s.router.calls t) = some p → p.sessionID ∈ s.router.issued :=
    fun t p hp => (hg.routing t p (carried_of_leaver hp)).1
  have hunreg : ∀ x, x ∉ s.router.peers → x ∈ s.router.issued → x ∉ r.peers := by
    intro x hx hi hm
    obtain ⟨p,hp⟩ := Finmap.mem_iff.mp hm
    rcases router_peers he hp with ho | ⟨hn,-⟩
    · exact hx (Finmap.mem_iff.mpr ⟨p,ho⟩)
    · exact hn hi
  constructor
  case orderly => intro x; rw [hw]; exact horderly x
  case registered =>
    intro x hx
    rw [hrouter] at hx
    rw [hw]
    obtain ⟨p,hp⟩ := Finmap.mem_iff.mp hx
    rcases router_peers he hp with ho | ⟨hn,-⟩
    · have hm : x ∈ s.router.peers := Finmap.mem_iff.mpr ⟨p,ho⟩
      refine hopen x (hl.registered x hm) (fun t q hq _ hqx => ?_)
      exact (hl.leaving t q (by rw [hq]; rfl)).1 (hqx ▸ hm)
    · refine hopen x (hfresh x hn) (fun t q hq _ hqx => ?_)
      exact hn (hqx ▸ hissued t q (by rw [hq]; rfl))
  case leaving =>
    intro t p hp
    rw [hrouter] at hp ⊢
    rw [hw]
    rcases router_leaver he hp with ho | ⟨⟨y,hy⟩,herase,hcall⟩
    · refine ⟨hunreg _ (hl.leaving t p ho).1 (hissued t p ho),?_⟩
      refine hopen _ (hl.leaving t p ho).2 (fun t' q hq hre hqx => ?_)
      have ht : t' = t := hl.once t' t q p (by rw [hq]; rfl) ho hqx
      subst ht hre
      cases h with
      | close _ hr =>
        rw [hr] at hp
        simp [SfuRouter.State.setCall, leaver] at hp
      | other _ hn => exact hn t' rfl
    · have hsid : p.sessionID = y := (hg.registered y p hy).1
      have hm : p.sessionID ∈ s.router.peers := by
        rw [hsid]
        exact Finmap.mem_iff.mpr ⟨p,hy⟩
      refine ⟨?_,hopen _ (hl.registered _ hm) (fun t' q hq _ hqx => ?_)⟩
      · rw [herase]
        simp
      · exact (hl.leaving t' q (by rw [hq]; rfl)).1 (hqx ▸ hm)
  case once =>
    intro t t' p p' hp hp' hpp
    rw [hrouter] at hp hp'
    have hreg : ∀ {q q' : SfuRouter.Peer} {j y}, s.router.peers.lookup y = some q →
        leaver (s.router.calls j) = some q' → q.sessionID ≠ q'.sessionID := by
      intro q q' j y hy hj hqq
      have hm : q'.sessionID ∈ s.router.peers := by
        rw [← hqq,(hg.registered y q hy).1]
        exact Finmap.mem_iff.mpr ⟨q,hy⟩
      exact (hl.leaving j q' hj).1 hm
    rcases router_leaver he hp with ho | ⟨⟨y,hy⟩,herase,hcall⟩
    · rcases router_leaver he hp' with ho' | ⟨⟨y',hy'⟩,-,hcall'⟩
      · exact hl.once t t' p p' ho ho' hpp
      · exact absurd hpp.symm (hreg hy' ho)
    · rcases router_leaver he hp' with ho' | ⟨⟨y',hy'⟩,-,hcall'⟩
      · exact absurd hpp (hreg hy ho')
      · -- one section looks up one session, for one call
        rw [hcall] at hcall'
        exact Option.some.inj hcall'

theorem step_lifecycle (hg : Grounded s) (hl : Lifecycle s) (he : step s e = some s') :
    Lifecycle s' := by
  obtain ⟨-,hv⟩ := step_wired he
  cases hv with
  | @run sid c E _ hs ha =>
    refine hl.keep ha.router (fun x => ?_) (fun x => ?_)
    · rw [ha.wire,asked_closeOnce]
      split
      · rename_i hx
        rw [hs.closeOnce,hx]
      · rfl
    · rw [ha.wire]
      apply orderly_asked (fun y fn ha => hs.ask_ne ha)
      split
      · exact hs.orderly (hl.orderly sid)
      · exact hl.orderly x
  | router hr hroutes hw => exact router_lifecycle hg hl hr hroutes hw
  | @ask _ sid fn _ h hw _ _ _ hrouter =>
    refine hl.keep hrouter (fun x => ?_) (fun x => ?_)
    · rw [hw,asked_closeOnce]
    · rw [hw]
      refine orderly_asked (fun y fn' ha => ?_) (hl.orderly x)
      cases ha
      exact (h.ok hg).2.2
  | call => exact hl.keep rfl (fun _ => rfl) hl.orderly
  | @publishState t sid source active hc =>
    have hw := wire_publishState s t sid source active
    refine hl.keep rfl (fun x => ?_) (fun x => ?_)
    · obtain ⟨m,hm⟩ := hw x
      rw [hm]
    · obtain ⟨m,hm⟩ := hw x
      rw [hm]
      exact ⟨(hl.orderly x).open_,(hl.orderly x).stopped⟩

theorem lifecycle_init : Lifecycle init where
  orderly _ := ⟨fun _ => ⟨rfl,fun hm => nomatch hm⟩,fun hc => nomatch hc⟩
  registered _ hx := absurd hx (GoMap.notMem_empty _)
  leaving _ _ hp := nomatch hp
  once _ _ _ _ hp := nomatch hp

/-- Only a section of the router touches it. -/
theorem step_router (he : step s e = some s') : s'.router = s.router ∨
    ∃ re, e = .router re ∧ SfuRouter.step s.router re = some s'.router := by
  obtain ⟨-,hv⟩ := step_wired he
  cases hv with
  | run _ ha => exact Or.inl ha.router
  | @router re r w hr =>
    rw [(routed_link s re r).2.2.2.1]
    exact Or.inr ⟨re,rfl,hr⟩
  | ask _ _ _ _ _ hrouter => exact Or.inl hrouter
  | call => exact Or.inl rfl
  | publishState => exact Or.inl rfl

/-- No user has two live sessions. -/
def OneSession (s : State) : Prop := ∀ x y, x ∈ s.router.peers → y ∈ s.router.peers →
  (s.wire x).userID = (s.wire y).userID → x = y

/-- A session is registered for a user without one, as the hub does it. -/
def JoinsAlone (s : State) : Event → Prop
  | .router (.join _ _ u _) => ∀ y ∈ s.router.peers.keys, (s.peers y).userID ≠ u
  | _ => True

theorem Grounded.issued_of_mem (hg : Grounded s) (hx : x ∈ s.router.peers) : x ∈ s.router.issued := by
  obtain ⟨p,hp⟩ := Finmap.mem_iff.mp hx
  exact (hg.registered x p hp).2.1

/-- A registered session was registered before, or has just joined, and is fresh. -/
theorem mem_peers_step (hg : Grounded s) (he : step s e = some s') (hx : x ∈ s'.router.peers) :
    x ∈ s.router.peers ∨ (x ∉ s.router.issued ∧
      ∃ t u c, e = .router (.join t x u c) ∧ (s'.wire x).userID = u) := by
  rcases step_router he with hr | ⟨re,rfl,hr⟩
  · rw [hr] at hx
    exact Or.inl hx
  · obtain ⟨p,hp⟩ := Finmap.mem_iff.mp hx
    rcases router_peers hr hp with ho | ⟨hn,-,-,t,c,rfl⟩
    · exact Or.inl (Finmap.mem_iff.mpr ⟨p,ho⟩)
    · refine Or.inr ⟨hn,t,p.userID,c,rfl,?_⟩
      rw [← ((step_grounded hg he).registered x p hp).2.2]

theorem step_oneSession (hg : Grounded s) (ho : OneSession s) (hj : JoinsAlone s e)
    (he : step s e = some s') : OneSession s' := by
  have hext := step_extends hg he
  have hold : ∀ x ∈ s.router.peers, (s'.wire x).userID = (s.wire x).userID :=
    fun x hx => hext.userID (hg.issued_of_mem hx)
  have hnew : ∀ x y, x ∈ s.router.peers → (∃ t u c, e = .router (.join t y u c) ∧
      (s'.wire y).userID = u) → (s'.wire x).userID ≠ (s'.wire y).userID := by
    rintro x y hx ⟨t,u,c,rfl,hu⟩
    rw [hold x hx,hu]
    exact hj x (Finmap.mem_keys.mpr hx)
  intro x y hx hy hxy
  rcases mem_peers_step hg he hx with hx | ⟨-,hx⟩
  · rcases mem_peers_step hg he hy with hy | ⟨-,hy⟩
    · rw [hold x hx,hold y hy] at hxy
      exact ho x y hx hy hxy
    · exact absurd hxy (hnew x y hx hy)
  · rcases mem_peers_step hg he hy with hy | ⟨-,hy⟩
    · exact absurd hxy.symm (hnew y x hy hx)
    · obtain ⟨t,u,c,rfl,-⟩ := hx
      obtain ⟨t',u',c',he',-⟩ := hy
      cases he'
      rfl

theorem seated_iff : s.seated x = true ↔
    (s.router.heap (s.wire x).room).peerByUserID (s.wire x).userID = some x := decide_eq_true_iff

/-- Whoever else is in the room is found there. -/
theorem mem_others_of {users : List UserID} {os : List SessionID} (ho : s.others sid users = some os)
    (hsid : s.seated sid = true) (hx : s.seated x = true) (hne : x ≠ sid)
    (hroom : (s.wire x).room = (s.wire sid).room) : x ∈ os := by
  rw [seated_iff] at hsid hx
  refine (mem_others ho x).mpr ⟨(s.wire x).userID,?_,hroom ▸ hx⟩
  intro hu
  rw [hroom,hu,hsid] at hx
  exact hne (Option.some.inj hx).symm

/-- No task, program point or call anywhere. -/
structure Quiescent (s : State) : Prop where
  router : ∀ t, s.router.calls t = .idle
  calls : ∀ t, s.calls t = .idle
  idle : ∀ x, (s.peers x).cont = .idle
  commands : ∀ x, (s.peers x).stopped = false → (s.peers x).commands = []

/-- The call an event belongs to. -/
def Event.thread : Event → Option CallID
  | .router re => re.call
  | .request t _ _ => some t
  | .proceed t => some t
  | _ => none

theorem step_thread_of_ne {t : CallID} (he : step s e = some s') (ht : e.thread ≠ some t) :
    s'.router.calls t = s.router.calls t ∧ s'.calls t = s.calls t := by
  have hne : ∀ {j : CallID} {k : Call}, j ≠ t → Function.update s.calls j k t = s.calls t :=
    fun hj => Function.update_of_ne hj.symm _ _
  obtain ⟨-,hv⟩ := step_wired he
  cases hv with
  | run _ ha => exact ⟨by rw [ha.router],by rw [ha.calls]⟩
  | @router re r w hr =>
    obtain ⟨-,-,-,hrouter,hcalls⟩ := routed_link s re r
    rw [hrouter,hcalls]
    exact ⟨SfuRouter.step_calls_of_ne hr ht,rfl⟩
  | ask h _ _ _ _ hrouter hcalls =>
    rcases hcalls t with hc | ⟨he',-⟩
    · exact ⟨by rw [hrouter],hc⟩
    · exact absurd (by rw [he']; rfl) ht
  | call h => cases h <;> exact ⟨rfl,hne (fun h => ht (congrArg some h))⟩
  | publishState hc => exact ⟨rfl,hne (fun h => ht (congrArg some h))⟩

/-- Whatever the schedule names is idle, and so is every session. -/
def State.settled (s : State) (es : List Event) : Bool :=
  decide (∀ e ∈ es, ∀ t ∈ e.thread, s.router.calls t = .idle ∧ s.calls t = .idle) &&
    decide (∀ x ∈ s.router.issued, (s.peers x).cont = .idle ∧
      ((s.peers x).stopped = false → (s.peers x).commands = []))

theorem quiescent_of_settled {es : List Event} (h : Runs step init es s) (hs : s.settled es = true) :
    Quiescent s := by
  have hg : Grounded s := h.invariant grounded_init (fun hg _ he => step_grounded hg he)
  simp only [State.settled, Bool.and_eq_true, decide_eq_true_eq] at hs
  obtain ⟨hcalls,hpeers⟩ := hs
  have hidle : ∀ t, s.router.calls t = .idle ∧ s.calls t = .idle := by
    intro t
    by_cases ht : ∃ e ∈ es, e.thread = some t
    · obtain ⟨e,he,hc⟩ := ht
      exact hcalls e he t hc
    · push Not at ht
      have hframe := h.frame (f := fun s => (s.router.calls t,s.calls t)) (fun he hstep => by
        rw [(step_thread_of_ne hstep (ht _ he)).1,(step_thread_of_ne hstep (ht _ he)).2])
      simp only [Prod.mk.injEq] at hframe
      exact hframe
  have hx : ∀ x, (s.peers x).cont = .idle ∧ ((s.peers x).stopped = false → (s.peers x).commands = []) := by
    intro x
    by_cases hi : x ∈ s.router.issued
    · exact hpeers x hi
    · obtain ⟨q,hq⟩ := hg.fresh x hi
      exact ⟨congrArg Wiring.cont hq,fun _ => congrArg Wiring.commands hq⟩
  exact ⟨fun t => (hidle t).1,fun t => (hidle t).2,fun x => (hx x).1,fun x => (hx x).2⟩

end MiniDiscord.SfuMedia
