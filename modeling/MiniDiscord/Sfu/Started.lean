import MiniDiscord.Sfu.Lifecycle

/-! # A session's beginning

A session answers to its own ID, and nothing but its client's offer makes it begin: slots
come from the offer, tracks from the slots, and the answer from the offer.
-/
namespace MiniDiscord.SfuMedia
open SfuRoom SfuTrack SfuPeer Transition
open SfuRouter (RoomRef CallID)

/-- The session's own offer has begun. -/
def State.started (s : State) (x : SessionID) : Prop :=
  (∃ t slots, s.calls t = .enqueue x (.handleOffer slots)) ∨
  (∃ slots, .handleOffer slots ∈ (s.wire x).commands) ∨
  (∃ source mid, (s.wire x).slotBySource.lookup source = some mid) ∨
  (∃ source k, (s.wire x).published.lookup source = some k) ∨
  ∃ u, .answer u x ∈ s.signals

structure Signed (s : State) : Prop where
  named : ∀ x, (s.wire x).sessionID = x
  answers : ∀ u y, .answer u y ∈ s.signals → y ∈ s.router.issued

variable {s s' : State} {e : Event} {sid x : SessionID} {c : Choice} {E : Effect}

section Sections
variable (h : Section s sid c E)
include h

/-- A track is published in a declared slot, and its first layer is next. -/
theorem Section.publishes {source : Source} {k : TrackRef}
    (hk : E.wire.published.lookup source = some k) :
    (s.wire sid).published.lookup source = some k ∨
      ((∃ rid codec, E.wire.cont = .addLayer k rid codec false) ∧
        ∃ source mid, (s.wire sid).slotBySource.lookup source = some mid) := by
  cases h with
  | resubscribe hs | noLocal hs | notAdded hs | subscribe hs => cases hs <;> exact Or.inl hk
  | publish _ _ _ hslot =>
    rw [GoMap.lookup_insert_eq] at hk
    split at hk
    · cases hk
      exact Or.inr ⟨⟨_,_,rfl⟩,_,_,hslot⟩
    · exact Or.inl hk
  | _ => exact Or.inl hk

/-- A session is answered by its own section, which scans the room next. -/
theorem Section.answers {u : UserID} {y : SessionID} (hm : .answer u y ∈ E.sent) :
    y = (s.wire sid).sessionID ∧ E.wire.cont = .autoSubscribeToExisting ∧
      ∃ slots, .handleOffer slots ∈ (s.wire sid).commands := by
  have hmute : ∀ {new : List Signal} {P : Prop}, (∀ sig ∈ new, muted sig = true) →
      .answer u y ∈ new → P := by
    intro new P hn ha
    cases hn _ ha
  cases h with
  | offered _ hq =>
    cases List.mem_singleton.mp hm
    exact ⟨rfl,rfl,_,by rw [hq]; exact List.mem_cons_self⟩
  | move hmv =>
    generalize (s.wire sid).cont = k₀ at hmv
    cases hmv with
    | snapshotPeer =>
      obtain ⟨i,-,hi⟩ := List.mem_map.mp hm
      cases hi
    | announce => cases List.mem_singleton.mp hm
    | closeTrack => cases List.mem_singleton.mp hm
    | _ => cases hm
  | take _ _ _ ht =>
    cases ht with
    | talk _ hn => exact hmute hn hm
    | noVideo hn => exact hmute hn hm
    | _ => cases hm
  | offerFailed _ _ _ _ hn => exact hmute hn hm
  | subscribe _ _ hn => exact hmute hn hm
  | unsubscribe _ _ _ _ hn => exact hmute hn hm
  | _ => cases hm

/-- Slots come from the client's offer. -/
theorem Section.declares {source : Source} {mid : String}
    (hk : E.wire.slotBySource.lookup source = some mid) :
    (s.wire sid).slotBySource.lookup source = some mid ∨
      ∃ slots, .handleOffer slots ∈ (s.wire sid).commands := by
  cases h with
  | resubscribe hs | noLocal hs | notAdded hs | subscribe hs => cases hs <;> exact Or.inl hk
  | offered _ hq => exact Or.inr ⟨_,by rw [hq]; exact List.mem_cons_self⟩
  | offerFailed _ hq => exact Or.inr ⟨_,by rw [hq]; exact List.mem_cons_self⟩
  | _ => exact Or.inl hk

theorem Section.ask_ne_offer {y : SessionID} {fn : Task} (ha : E.ask = some (y,fn))
    (slots : List SlotDecl) : fn ≠ .handleOffer slots := by
  cases h with
  | subscribeOther => cases ha; simp
  | closeSubscriber => cases ha; simp
  | _ => cases ha

end Sections

theorem Signed.started (hs : Signed s)
    (h : .answer (s.wire x).userID (s.wire x).sessionID ∈ s.signals) : s.started x := by
  rw [hs.named] at h
  exact Or.inr (Or.inr (Or.inr (Or.inr ⟨_,h⟩)))

/-- Only a session that was issued has begun anything. -/
theorem Signed.issued (hg : Grounded s) (hs : Signed s) (h : s.started x) :
    x ∈ s.router.issued := by
  by_contra hn
  obtain ⟨q,hq⟩ := hg.fresh x hn
  rcases h with ⟨t,slots,h1⟩ | ⟨slots,h2⟩ | ⟨source,mid,h3⟩ | ⟨source,k,h4⟩ | ⟨u,h5⟩
  · have hcall := hg.calls t
    rw [h1] at hcall
    exact hn hcall.1
  · rw [hq] at h2
    cases h2
  · rw [hq] at h3
    cases h3
  · rw [hq] at h4
    cases h4
  · exact hn (hs.answers u x h5)

theorem Section.starts (hn : Signed s) (h : Section s sid c E) (ha : Applied s sid E s')
    (hx : s'.started x) : s.started x := by
  obtain ⟨l,hl,hm⟩ := asked_eq E.ask x (if x = sid then E.wire else s.wire x)
  have hw : s'.wire x = _ := (ha.wire x).trans hl
  have hoffer : ∀ {P : Prop}, (s.started sid → P) →
      (∃ slots, .handleOffer slots ∈ (s.wire sid).commands) → P :=
    fun hp hs => hp (Or.inr (Or.inl hs))
  rcases hx with ⟨t,slots,h1⟩ | ⟨slots,h2⟩ | ⟨source,mid,h3⟩ | ⟨source,k,h4⟩ | ⟨u,h5⟩
  · rw [ha.calls] at h1
    exact Or.inl ⟨t,slots,h1⟩
  · rw [hw] at h2
    rcases hm _ h2 with hold | hask
    · split at hold
      · rename_i hxs
        subst hxs
        exact Or.inr (Or.inl ⟨slots,h.commands hold⟩)
      · exact Or.inr (Or.inl ⟨slots,hold⟩)
    · exact absurd rfl (h.ask_ne_offer hask slots)
  · rw [hw] at h3
    dsimp only at h3
    split at h3
    · rename_i hxs
      subst hxs
      rcases h.declares h3 with hold | hs
      · exact Or.inr (Or.inr (Or.inl ⟨source,mid,hold⟩))
      · exact hoffer id hs
    · exact Or.inr (Or.inr (Or.inl ⟨source,mid,h3⟩))
  · rw [hw] at h4
    dsimp only at h4
    split at h4
    · rename_i hxs
      subst hxs
      rcases h.publishes h4 with hold | ⟨-,hslot⟩
      · exact Or.inr (Or.inr (Or.inr (Or.inl ⟨source,k,hold⟩)))
      · exact Or.inr (Or.inr (Or.inl hslot))
    · exact Or.inr (Or.inr (Or.inr (Or.inl ⟨source,k,h4⟩)))
  · rw [ha.signals] at h5
    rcases List.mem_append.mp h5 with hold | hnew
    · exact Or.inr (Or.inr (Or.inr (Or.inr ⟨u,hold⟩)))
    · obtain ⟨hy,-,hs⟩ := h.answers hnew
      rw [hn.named] at hy
      subst hy
      exact hoffer id hs

section Routes
variable {re : SfuRouter.Event} {r : SfuRouter.State} {w : SessionID → Wiring}

theorem Routes.named (hs : Signed s) (h : Routes s re r w) (x : SessionID) :
    (w x).sessionID = x := by
  rcases h.eq_or x with hx | ⟨t,u,ch,k,-,-,hx⟩ | ⟨t,q,-,-,hx⟩
  · rw [hx]
    exact hs.named x
  · rw [hx]
    rfl
  · obtain ⟨l,b,hl,-⟩ := (s.wire x).close_eq
    rw [hx,hl]
    exact hs.named x

theorem Routes.slotBySource (hg : Grounded s) (h : Routes s re r w) (x : SessionID) :
    (w x).slotBySource = (s.wire x).slotBySource := by
  rcases h.eq_or x with hx | ⟨t,u,ch,k,-,hn,hx⟩ | ⟨t,q,-,-,hx⟩
  · rw [hx]
  · obtain ⟨q,hq⟩ := hg.fresh x hn
    rw [hx,hq]
    rfl
  · obtain ⟨l,b,hl,-⟩ := (s.wire x).close_eq
    rw [hx,hl]

theorem Routes.starts (hg : Grounded s) (h : Routes s re r w)
    (hw : ∀ x, (s.routed re r).wire x = w x) (hx : (s.routed re r).started x) : s.started x := by
  obtain ⟨-,-,hsignals,-,hcalls⟩ := routed_link s re r
  rcases hx with ⟨t,slots,h1⟩ | ⟨slots,h2⟩ | ⟨source,mid,h3⟩ | ⟨source,k,h4⟩ | ⟨u,h5⟩
  · rw [hcalls] at h1
    exact Or.inl ⟨t,slots,h1⟩
  · rw [hw] at h2
    rcases (h.keeps hg x).2.2.2.2 _ h2 with hold | hn
    · exact Or.inr (Or.inl ⟨slots,hold⟩)
    · cases hn
  · rw [hw,h.slotBySource hg] at h3
    exact Or.inr (Or.inr (Or.inl ⟨source,mid,h3⟩))
  · rw [hw,(h.keeps hg x).2.2.1] at h4
    exact Or.inr (Or.inr (Or.inr (Or.inl ⟨source,k,h4⟩)))
  · rw [hsignals] at h5
    exact Or.inr (Or.inr (Or.inr (Or.inr ⟨u,h5⟩)))

end Routes

theorem Asks.starts {fn : Task} (h : Asks s e sid fn)
    (hw : ∀ x, s'.wire x = asked (some (sid,fn)) x (s.wire x)) (hsignals : s'.signals = s.signals)
    (hcalls : ∀ t, s'.calls t = s.calls t ∨ (e = .proceed t ∧ s'.calls t = .idle))
    (hx : s'.started x) : s.started x := by
  obtain ⟨l,hl,hm⟩ := asked_eq (some (sid,fn)) x (s.wire x)
  rcases hx with ⟨t,slots,h1⟩ | ⟨slots,h2⟩ | ⟨source,mid,h3⟩ | ⟨source,k,h4⟩ | ⟨u,h5⟩
  · rcases hcalls t with hc | ⟨-,hc⟩
    · rw [hc] at h1
      exact Or.inl ⟨t,slots,h1⟩
    · rw [hc] at h1
      cases h1
  · rw [hw,hl] at h2
    rcases hm _ h2 with hold | hask
    · exact Or.inr (Or.inl ⟨slots,hold⟩)
    · cases hask
      cases h with
      | call hc => exact Or.inl ⟨_,slots,hc⟩
  · rw [hw,hl] at h3
    exact Or.inr (Or.inr (Or.inl ⟨source,mid,h3⟩))
  · rw [hw,hl] at h4
    exact Or.inr (Or.inr (Or.inr (Or.inl ⟨source,k,h4⟩)))
  · rw [hsignals] at h5
    exact Or.inr (Or.inr (Or.inr (Or.inr ⟨u,h5⟩)))

/-- A call that goes on to queue an offer has just been made. -/
theorem Calls.starts {t : CallID} {k : Call} (h : Calls s e t k)
    (hx : (s.setCall t k).started x) :
    s.started x ∨ ∃ t slots, e = .request t x (.handleOffer slots) := by
  rcases hx with ⟨t',slots,h1⟩ | h2
  · by_cases ht : t' = t
    · subst ht
      have h1' : Function.update s.calls t' k t' = .enqueue x (.handleOffer slots) := h1
      rw [Function.update_self] at h1'
      cases h with
      | @request _ y r =>
        cases r with
        | handleOffer slots' =>
          cases h1'
          exact Or.inr ⟨_,_,rfl⟩
        | subscribeVideo target source q =>
          simp only [Request.found] at h1'
          split at h1' <;> cases h1'
        | _ => cases h1'
      | _ => cases h1'
    · have h1' : Function.update s.calls t k t' = .enqueue x (.handleOffer slots) := h1
      rw [Function.update_of_ne ht] at h1'
      exact Or.inl (Or.inl ⟨t',slots,h1'⟩)
  · exact Or.inl (Or.inr h2)

/-- Only a client's offer makes a session begin. -/
theorem step_starts (hg : Grounded s) (hn : Signed s) (he : step s e = some s') (hx : s'.started x) :
    s.started x ∨ ∃ t slots, e = .request t x (.handleOffer slots) := by
  obtain ⟨-,hv⟩ := step_wired he
  cases hv with
  | run hs ha => exact Or.inl (hs.starts hn ha hx)
  | router _ hroutes hw => exact Or.inl (hroutes.starts hg hw hx)
  | ask h hw _ _ hsignals _ hcalls => exact Or.inl (h.starts hw hsignals hcalls hx)
  | call h => exact h.starts hx
  | @publishState t sid source active hc =>
    left
    obtain ⟨m,hm⟩ := wire_publishState s t sid source active x
    unfold State.started at hx
    rw [hm] at hx
    refine hx.imp_left (fun ⟨t',slots,h1⟩ => ⟨t',slots,?_⟩)
    by_cases ht : t' = t
    · subst ht
      have h1' : Function.update s.calls t' Call.idle t' = .enqueue x (.handleOffer slots) := h1
      rw [Function.update_self] at h1'
      cases h1'
    · have h1' : Function.update s.calls t Call.idle t' = .enqueue x (.handleOffer slots) := h1
      rw [Function.update_of_ne ht] at h1'
      exact h1'

theorem Section.signed (hg : Grounded s) (hn : Signed s) (h : Section s sid c E)
    (ha : Applied s sid E s') : Signed s' := by
  constructor
  · intro x
    rw [ha.toPeer h]
    exact hn.named x
  · intro u y hm
    rw [ha.signals] at hm
    rw [ha.router]
    rcases List.mem_append.mp hm with hold | hnew
    · exact hn.answers u y hold
    · obtain ⟨hy,-⟩ := h.answers hnew
      rw [hy,hn.named]
      exact h.issued hg

theorem step_signed (hg : Grounded s) (hn : Signed s) (he : step s e = some s') : Signed s' := by
  obtain ⟨-,hv⟩ := step_wired he
  cases hv with
  | run hs ha => exact hs.signed hg hn ha
  | @router re r w _ hroutes hw =>
    obtain ⟨-,-,hsignals,hrouter,-⟩ := routed_link s re r
    refine ⟨fun x => ?_,fun u y hm => ?_⟩
    · rw [hw]
      exact hroutes.named hn x
    · rw [hsignals] at hm
      rw [hrouter]
      exact hroutes.issued (hn.answers u y hm)
  | ask _ hw _ _ hsignals hrouter =>
    refine ⟨fun x => ?_,fun u y hm => ?_⟩
    · rw [hw,asked_toPeer]
      exact hn.named x
    · rw [hsignals] at hm
      rw [hrouter]
      exact hn.answers u y hm
  | call => exact ⟨hn.named,hn.answers⟩
  | @publishState t sid source active =>
    refine ⟨fun x => ?_,hn.answers⟩
    obtain ⟨m,hm⟩ := wire_publishState s t sid source active x
    rw [hm]
    exact hn.named x

theorem signed_init : Signed init := ⟨fun _ => rfl,fun _ _ hm => (nomatch hm)⟩

end MiniDiscord.SfuMedia
