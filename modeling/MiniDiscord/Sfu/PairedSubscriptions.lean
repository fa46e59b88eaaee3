import MiniDiscord.Sfu.Lifecycle

/-! # No dangling subscription

`Peer.subs` and `publishedTrack.subs` are two sides of one relation, and `doClose` takes
both down: its own side at once, the other side by a task for every subscriber the track
has at that moment. Whoever subscribes after that moment is never told.
-/
namespace MiniDiscord.SfuMedia
open SfuRoom SfuTrack SfuPeer Transition
open SfuRouter (RoomRef CallID)

/-- Every entry of a live peer refers to the current track of a live publisher, and the
track lists exactly the peers whose entry refers to it. -/
structure Paired (s : State) : Prop where
  live : ∀ x key k, x ∈ s.router.peers → (s.peers x).subs.lookup key = some k →
    ∃ p ∈ s.router.peers, (s.peers p).userID = key.publisherUserID ∧
      (s.peers p).published.lookup key.source = some k
  listed : ∀ p source k x, (s.peers p).published.lookup source = some k → x ∈ s.router.peers →
    ((s.peers x).userID ∈ (s.tracks k).subs ↔ ∃ key, (s.peers x).subs.lookup key = some k)

/-- What the next section of `sid` subscribes to. -/
def State.subscribing (s : State) (sid : SessionID) : Option (UserID × TrackRef) :=
  let p := s.peers sid
  match p.cont with
  | .idle =>
    match p.commands with
    | .doSubscribe u pub _ :: _ => some (u,pub)
    | _ => none
  | .autoSubscribeTracks u (pub :: _) _ => some (u,pub)
  | .subscribeVideo u pub _ => some (u,pub)
  | _ => none

/-- `doClose` of the track's owner has already read the track's subscribers. -/
def State.enumerated (s : State) (k : TrackRef) : Bool :=
  let p := s.peers (s.tracks k).owner
  p.stopped && match p.cont with
    | .closeSubs _ => false
    | .closeTracks pubs => decide (((s.tracks k).source,k) ∉ pubs)
    | .closeSubscribers _ _ rest => decide (((s.tracks k).source,k) ∉ rest)
    | _ => true

/-- The user that the next section of a `doClose` looks for, and the source it was
subscribed to. -/
def nextSubscriber : Cont → Option (UserID × Source)
  | .closeSubscribers source (u :: _) _ => some (u,source)
  | _ => none

/-- The task for the former subscriber reaches it: it holds its user's slot in the room,
and its queue has room. -/
def State.reaches (s : State) (sid : SessionID) (u : UserID) (source : Source) : Prop :=
  ∀ x ∈ s.router.peers.keys, (s.peers x).userID = u →
    ⟨(s.peers sid).userID,source⟩ ∈ (s.peers x).subs →
      (s.roomOf sid).peerByUserID u = some x ∧ (s.peers x).commands.length < commandsCap

/-- A user has one live session. `doClose` is not dropped, and neither is what it has its
subscribers do. A subscription is made before `doClose` reads the subscribers, by the only
session of its user that is subscribed. -/
def KeepsPairs (s : State) : Event → Prop
  | .router (.join _ _ u _) => ∀ y ∈ s.router.peers.keys, (s.peers y).userID ≠ u
  | .router (.peerClose t) => ∀ p ∈ leaver (s.router.calls t),
      (s.peers p.sessionID).commands.length < commandsCap
  | .run sid _ =>
    (∀ r ∈ s.subscribing sid, ⟨r.1,(s.tracks r.2).source⟩ ∉ (s.peers sid).subs →
      (s.peers sid).userID ∉ (s.tracks r.2).subs ∧ s.enumerated r.2 = false) ∧
    ∀ r ∈ nextSubscriber (s.peers sid).cont, s.reaches sid r.1 r.2
  | _ => True

instance (s : State) (sid : SessionID) (u : UserID) (source : Source) :
    Decidable (s.reaches sid u source) := by
  unfold State.reaches
  infer_instance

instance (s : State) (e : Event) : Decidable (KeepsPairs s e) :=
  match e with
  | .router (.join ..) | .router (.peerClose _) | .run .. => by
    unfold KeepsPairs
    infer_instance
  | .router (.roomAdd _) | .router (.leave ..) | .router (.roomRemove _) | .router (.removeUser _)
  | .router (.isEmpty _) | .router (.recheck _) | .router (.markLoud ..) | .router (.sweep ..)
  | .request .. | .proceed _ | .onTrack .. | .adminSnapshot _ => instDecidableTrue

theorem KeepsPairs.joinsAlone {s : State} {e : Event} (h : KeepsPairs s e) : JoinsAlone s e := by
  unfold JoinsAlone
  split
  · exact h
  · trivial

/-- Where a stopped peer stands in its `doClose`. -/
def Emptying (w : Wiring) : Prop :=
  match w.cont with
  | .closeSubs keys => ∀ key ∈ w.subs, key ∈ keys
  | .closeTracks _ => w.subs = ∅
  | .closeSubscribers _ _ _ => w.subs = ∅
  | .idle => w.subs = ∅
  | _ => False

/-- The entry will not outlive its track: the subscribers are still to be read, or the
subscriber is among those read, or has been told. -/
def State.due (s : State) (x : SessionID) (key : SubKey) (k : TrackRef) : Prop :=
  s.enumerated k = false ∨ .doUnsubscribe key.publisherUserID key.source ∈ (s.wire x).commands ∨
    ∃ us rest, (s.wire (s.link k).owner).cont = .closeSubscribers key.source us rest ∧
      (s.wire x).userID ∈ us

/-- The part of the invariant that is about the two sides only. -/
structure Sides (s : State) : Prop where
  listed : ∀ x key k, (s.wire x).subs.lookup key = some k → (s.wire x).userID ∈ (s.link k).users
  holder : ∀ k, ∀ u ∈ (s.link k).users, ∃ x key, (s.wire x).userID = u ∧
    (s.wire x).subs.lookup key = some k
  unique : ∀ x y key key' k, (s.wire x).subs.lookup key = some k →
    (s.wire y).subs.lookup key' = some k → (s.wire x).userID = (s.wire y).userID → x = y

structure Pairing (s : State) : Prop where
  one : OneSession s
  sides : Sides s
  emptying : ∀ x, (s.wire x).stopped = true → Emptying (s.wire x)
  departing : ∀ x ∈ s.router.issued, x ∈ s.router.peers ∨
    (∃ t p, leaver (s.router.calls t) = some p ∧ p.sessionID = x) ∨
    (s.wire x).stopped = true ∨ .doClose ∈ (s.wire x).commands
  due : ∀ x key k, x ∈ s.router.peers → (s.wire x).subs.lookup key = some k → s.due x key k

variable {s s' : State} {e : Event} {sid x : SessionID} {c : Choice} {E : Effect}

theorem subs_link {u : UserID} {k : TrackRef} : u ∈ (s.link k).users ↔ u ∈ (s.tracks k).subs :=
  Finmap.mem_keys

/-- What two subscriptions to one track have in common. -/
theorem key_unique (hg : Grounded s) {y : SessionID} {key key' : SubKey} {k : TrackRef}
    (h : (s.wire x).subs.lookup key = some k) (h' : (s.wire y).subs.lookup key' = some k) :
    key = key' := by
  obtain ⟨⟨-,hu⟩,hs⟩ := hg.subs x key k h
  obtain ⟨⟨-,hu'⟩,hs'⟩ := hg.subs y key' k h'
  cases key
  cases key'
  simp only at hu hu' hs hs'
  rw [SubKey.mk.injEq,← hu,← hu',← hs,← hs']
  exact ⟨rfl,rfl⟩

theorem subscribing_eq {u : UserID} {k : TrackRef} {w : Wiring}
    (h : Subscribes (s.wire sid) u k w) : s.subscribing sid = some (u,k) := by
  cases h with
  | task hc hq =>
    have hc' : (s.peers sid).cont = .idle := hc
    have hq' : (s.peers sid).commands = _ := hq
    simp only [State.subscribing, hc', hq']
  | existing hc =>
    have hc' : (s.peers sid).cont = _ := hc
    simp only [State.subscribing, hc']
  | video hc =>
    have hc' : (s.peers sid).cont = _ := hc
    simp only [State.subscribing, hc']

/-- The two sides of the relation move together. -/
inductive PairStep (s : State) (sid : SessionID) (E : Effect) : Prop
  | same : E.wire.subs = (s.wire sid).subs → (∀ k, (E.links k).users = (s.link k).users) →
      PairStep s sid E
  | add {u k} : s.refers u k → s.subscribing sid = some (u,k) → ⟨u,(s.link k).source⟩ ∉ (s.wire sid).subs →
      E.wire.subs = (s.wire sid).subs.insert ⟨u,(s.link k).source⟩ k →
      E.links = Function.update s.link k ((s.link k).add (s.wire sid).userID) → PairStep s sid E
  | drop {key k} : (s.wire sid).subs.lookup key = some k →
      E.wire.subs = (s.wire sid).subs.erase key →
      E.links = Function.update s.link k ((s.link k).remove (s.wire sid).userID) → PairStep s sid E

theorem Section.pairs (hg : Grounded s) (hp : Sides s) (hk : KeepsPairs s (.run sid c))
    (h : Section s sid c E) : PairStep s sid E := by
  cases h with
  | resubscribe hs => exact .same hs.subs (fun _ => rfl)
  | noLocal hs => exact .same hs.subs (fun _ => rfl)
  | @notAdded u pub w hs hn =>
    refine .same hs.subs (fun k => ?_)
    obtain ⟨hu,-⟩ := hk.1 (u,pub) (subscribing_eq hs) hn
    by_cases hkp : k = pub
    · subst hkp
      dsimp only
      rw [Function.update_self]
      exact Finset.erase_eq_of_notMem (fun hm => hu (subs_link.mp hm))
    · dsimp only
      rw [Function.update_of_ne hkp]
  | subscribe hs hn => exact .add (hs.refers hg) (subscribing_eq hs) hn rfl rfl
  | unsubscribe _ _ _ hl => exact .drop hl rfl rfl
  | closeSub _ hl => exact .drop hl rfl rfl
  | publish =>
    refine .same rfl (fun k => ?_)
    by_cases hkn : k = s.nextTrack
    · subst hkn
      dsimp only
      rw [Function.update_self]
      refine (Finset.eq_empty_of_forall_notMem (fun u hu => ?_)).symm
      obtain ⟨x,key,-,hx⟩ := hp.holder _ u hu
      exact Nat.lt_irrefl _ (hg.subs x key _ hx).1.1
    · dsimp only
      rw [Function.update_of_ne hkn]
  | _ => exact .same rfl (fun _ => rfl)

theorem Applied.subs (ha : Applied s sid E s') (x : SessionID) :
    (s'.wire x).subs = if x = sid then E.wire.subs else (s.wire x).subs := by
  rw [ha.wire,asked_subs]
  split <;> rfl

theorem Applied.userID (hs : Section s sid c E) (ha : Applied s sid E s') (x : SessionID) :
    (s'.wire x).userID = (s.wire x).userID := congrArg SfuRouter.Peer.userID (ha.toPeer hs x)

section
variable {key : SubKey} {pub : TrackRef} (hp : Sides s)
  (huser : ∀ x, (s'.wire x).userID = (s.wire x).userID)
include hp huser

theorem Sides.same (hsubs : ∀ x, (s'.wire x).subs = (s.wire x).subs)
    (husers : ∀ k, (s'.link k).users = (s.link k).users) : Sides s' := by
  constructor
  · intro x key k hx
    rw [hsubs] at hx
    rw [huser,husers]
    exact hp.listed x key k hx
  · intro k u hu
    rw [husers] at hu
    obtain ⟨x,key,hx,hkey⟩ := hp.holder k u hu
    exact ⟨x,key,(huser x).trans hx,by rw [hsubs]; exact hkey⟩
  · intro x y key key' k hx hy hxy
    rw [hsubs] at hx hy
    rw [huser,huser] at hxy
    exact hp.unique x y key key' k hx hy hxy

/-- A subscription of a user who had none to the track is added to both sides. -/
theorem Sides.add (hfree : (s.wire sid).userID ∉ (s.link pub).users)
    (hnew : ∀ x key k, (s'.wire x).subs.lookup key = some k →
      (s.wire x).subs.lookup key = some k ∨ (x = sid ∧ k = pub))
    (hkept : ∀ x key k, (s.wire x).subs.lookup key = some k →
      (s'.wire x).subs.lookup key = some k)
    (hself : (s'.wire sid).subs.lookup key = some pub)
    (husers : ∀ k v, v ∈ (s'.link k).users ↔
      v ∈ (s.link k).users ∨ (k = pub ∧ v = (s.wire sid).userID)) : Sides s' := by
  have hother : ∀ x key, (s.wire x).subs.lookup key = some pub →
      (s.wire x).userID ≠ (s.wire sid).userID := by
    intro x key hx he
    have hm := hp.listed x key pub hx
    rw [he] at hm
    exact hfree hm
  constructor
  · intro x key k hx
    rw [huser,husers]
    rcases hnew x key k hx with ho | ⟨rfl,rfl⟩
    · exact Or.inl (hp.listed x key k ho)
    · exact Or.inr ⟨rfl,rfl⟩
  · intro k v hv
    rcases (husers k v).mp hv with ho | ⟨rfl,rfl⟩
    · obtain ⟨x,key,hx,hkey⟩ := hp.holder k v ho
      exact ⟨x,key,(huser x).trans hx,hkept x key k hkey⟩
    · exact ⟨sid,_,huser sid,hself⟩
  · intro x y key key' k hx hy hxy
    rw [huser,huser] at hxy
    rcases hnew x key k hx with hx' | ⟨hxs,hkx⟩
    · rcases hnew y key' k hy with hy' | ⟨hys,hky⟩
      · exact hp.unique x y key key' k hx' hy' hxy
      · subst hys hky
        exact absurd hxy (hother x key hx')
    · rcases hnew y key' k hy with hy' | ⟨hys,hky⟩
      · subst hxs hkx
        exact absurd hxy.symm (hother y key' hy')
      · exact hxs.trans hys.symm

/-- A subscription is taken from both sides. -/
theorem Sides.drop (hg : Grounded s) (hsub : (s.wire sid).subs.lookup key = some pub)
    (hold : ∀ x key' k, (s'.wire x).subs.lookup key' = some k →
      (s.wire x).subs.lookup key' = some k ∧ (x = sid → key' ≠ key))
    (hkept : ∀ x key' k, (s.wire x).subs.lookup key' = some k → (x = sid → key' ≠ key) →
      (s'.wire x).subs.lookup key' = some k)
    (husers : ∀ k v, v ∈ (s'.link k).users ↔
      v ∈ (s.link k).users ∧ ¬ (k = pub ∧ v = (s.wire sid).userID)) : Sides s' := by
  constructor
  · intro x key' k hx
    obtain ⟨ho,hne⟩ := hold x key' k hx
    rw [huser,husers]
    refine ⟨hp.listed x key' k ho,?_⟩
    rintro ⟨rfl,hu⟩
    have hxs : x = sid := hp.unique x sid key' key k ho hsub hu
    exact hne hxs (key_unique hg ho hsub)
  · intro k v hv
    obtain ⟨ho,hn⟩ := (husers k v).mp hv
    obtain ⟨x,key',hx,hkey⟩ := hp.holder k v ho
    refine ⟨x,key',(huser x).trans hx,hkept x key' k hkey ?_⟩
    rintro rfl rfl
    rw [hsub] at hkey
    cases hkey
    exact hn ⟨rfl,hx.symm⟩
  · intro x y key₁ key₂ k hx hy hxy
    rw [huser,huser] at hxy
    exact hp.unique x y key₁ key₂ k (hold x key₁ k hx).1 (hold y key₂ k hy).1 hxy

end

/-- A subscription after a step was there before, or has just been added to both sides. -/
theorem PairStep.sides (hg : Grounded s) (hp : Sides s) (hk : KeepsPairs s (.run sid c))
    (hs : Section s sid c E) (ha : Applied s sid E s') : Sides s' := by
  have huser := ha.userID hs
  have hlink : s'.link = E.links := funext ha.link
  cases hs.pairs hg hp hk with
  | same hsubs hl =>
    refine hp.same huser ?_ fun k => by rw [hlink,hl]
    intro x
    rw [ha.subs]
    split
    · rename_i hx
      rw [hsubs,hx]
    · rfl
  | @add u pub _ hsub hn hsubs hl =>
    obtain ⟨hfree,-⟩ := hk.1 (u,pub) hsub hn
    have hself : (s'.wire sid).subs.lookup ⟨u,(s.link pub).source⟩ = some pub := by
      rw [ha.subs,if_pos rfl,hsubs,Finmap.lookup_insert]
    refine hp.add huser (fun hm => hfree (subs_link.mp hm)) ?_ ?_ hself ?_
    · intro x key k hx
      rw [ha.subs] at hx
      split at hx
      · rename_i hxs
        subst hxs
        rw [hsubs,GoMap.lookup_insert_eq] at hx
        split at hx
        · cases hx
          exact Or.inr ⟨rfl,rfl⟩
        · exact Or.inl hx
      · exact Or.inl hx
    · intro x key k hx
      rw [ha.subs]
      split
      · rename_i hxs
        subst hxs
        rw [hsubs,GoMap.lookup_insert_eq,if_neg]
        · exact hx
        · rintro rfl
          exact hn (Finmap.mem_iff.mpr ⟨k,hx⟩)
      · exact hx
    · intro k v
      rw [hlink,hl]
      by_cases hkp : k = pub
      · subst hkp
        simp [Link.add, or_comm]
      · simp [hkp]
  | @drop key pub hsub hsubs hl =>
    refine hp.drop huser hg hsub ?_ ?_ ?_
    · intro x key' k hx
      rw [ha.subs] at hx
      split at hx
      · rename_i hxs
        subst hxs
        rw [hsubs] at hx
        obtain ⟨hne,hx⟩ := GoMap.lookup_of_erase hx
        exact ⟨hx,fun _ => hne⟩
      · exact ⟨hx,fun h => absurd h ‹_›⟩
    · intro x key' k hx hne
      rw [ha.subs]
      split
      · rename_i hxs
        subst hxs
        rw [hsubs,GoMap.lookup_erase_eq,if_neg (hne rfl)]
        exact hx
      · exact hx
    · intro k v
      rw [hlink,hl]
      by_cases hkp : k = pub
      · subst hkp
        simp [Link.remove, and_comm]
      · simp [hkp]

section Sections
variable (h : Section s sid c E)
include h

theorem Section.emptying (ho : (s.wire sid).stopped = true → Emptying (s.wire sid))
    (hst : E.wire.stopped = true) : Emptying E.wire := by
  have hrun : ∀ {P : Prop}, (s.wire sid).stopped = false → (s.wire sid).stopped = true → P := by
    intro P h0 h1
    rw [h0] at h1
    cases h1
  have hsub : ∀ {u k w}, Subscribes (s.wire sid) u k w → w.stopped = true → False := by
    intro u k w hs hw
    unfold Emptying at ho
    cases hs with
    | task _ _ h0 => exact hrun h0 hw
    | existing hc => rw [hc] at ho; exact ho hw
    | video hc => rw [hc] at ho; exact ho hw
  cases h with
  | move hm =>
    have hold := ho hst
    unfold Emptying at hold ⊢
    generalize (s.wire sid).cont = k₀ at hm hold
    cases hm with
    | noSub hn =>
      intro key hkey
      refine (List.mem_cons.mp (hold key hkey)).resolve_left ?_
      rintro rfl
      exact absurd hn (Finmap.lookup_eq_none.not_left.mpr hkey)
    | subsClosed =>
      refine Finmap.ext_lookup (fun key => ?_)
      rw [Finmap.lookup_empty,Finmap.lookup_eq_none]
      exact fun hm => nomatch hold key hm
    | tracksClosed => exact hold
    | closeTrack => exact hold
    | subscribersClosed => exact hold
    | nobody => exact hold
    | _ => exact absurd hold id
  | take _ _ h0 => exact hrun h0 hst
  | offered _ _ h0 => exact hrun h0 hst
  | offerFailed _ _ h0 => exact hrun h0 hst
  | publish _ _ h0 => exact hrun h0 hst
  | unsubscribe _ _ h0 => exact hrun h0 hst
  | resubscribe hs => exact absurd hst (hsub hs)
  | noLocal hs => exact absurd hst (hsub hs)
  | notAdded hs => exact absurd hst (hsub hs)
  | subscribe hs =>
    have hw := hsub hs
    exact absurd hst hw
  | close _ _ _ hkeys =>
    intro key hkey
    have hm : key ∈ (s.wire sid).subs.keys := Finmap.mem_keys.mpr hkey
    rw [← hkeys] at hm
    exact List.mem_toFinset.mp hm
  | closeSub hc =>
    have hold := ho hst
    unfold Emptying at hold
    rw [hc] at hold
    intro key hkey
    obtain ⟨hne,hm⟩ := Finmap.mem_erase.mp hkey
    exact (List.mem_cons.mp (hold key hm)).resolve_left hne
  | subscribeOther hc =>
    have hold := ho hst
    unfold Emptying at hold
    rw [hc] at hold
    exact absurd hold id
  | closeSubscriber hc =>
    have hold := ho hst
    unfold Emptying at hold
    rw [hc] at hold
    exact hold

/-- A `doClose` is taken off the queue to be run. -/
theorem Section.doClose (hm : .doClose ∈ (s.wire sid).commands) :
    .doClose ∈ E.wire.commands ∨ E.wire.stopped = true := by
  have htail : ∀ {fn : Task} {rest : List Task}, (s.wire sid).commands = fn :: rest → fn ≠ .doClose →
      .doClose ∈ rest := by
    intro fn rest hq hne
    rw [hq] at hm
    exact (List.mem_cons.mp hm).resolve_left (fun he => hne he.symm)
  have hsub : ∀ {u k w}, Subscribes (s.wire sid) u k w → .doClose ∈ w.commands := by
    intro u k w hs
    cases hs with
    | task _ hq => exact htail hq (by simp)
    | existing => exact hm
    | video => exact hm
  cases h with
  | take _ hq _ ht =>
    left
    cases ht with
    | @talk fn _ hf =>
      refine htail hq ?_
      rintro rfl
      cases hf
    | _ => exact htail hq (by simp)
  | offered _ hq => exact Or.inl (htail hq (by simp))
  | offerFailed _ hq => exact Or.inl (htail hq (by simp))
  | publish _ hq => exact Or.inl (htail hq (by simp))
  | unsubscribe _ hq => exact Or.inl (htail hq (by simp))
  | close => exact Or.inr rfl
  | resubscribe hs => exact Or.inl (hsub hs)
  | noLocal hs => exact Or.inl (hsub hs)
  | notAdded hs => exact Or.inl (hsub hs)
  | subscribe hs =>
    have hw := hsub hs
    exact Or.inl hw
  | _ => exact Or.inl hm

/-- A `doUnsubscribe` is taken off the queue to remove the subscription. -/
theorem Section.doUnsubscribe {u : UserID} {source : Source}
    (hm : .doUnsubscribe u source ∈ (s.wire sid).commands) :
    .doUnsubscribe u source ∈ E.wire.commands ∨ E.wire.subs.lookup ⟨u,source⟩ = none := by
  have htail : ∀ {fn : Task} {rest : List Task}, (s.wire sid).commands = fn :: rest →
      fn ≠ .doUnsubscribe u source → .doUnsubscribe u source ∈ rest := by
    intro fn rest hq hne
    rw [hq] at hm
    exact (List.mem_cons.mp hm).resolve_left (fun he => hne he.symm)
  have hsub : ∀ {u' k w}, Subscribes (s.wire sid) u' k w → .doUnsubscribe u source ∈ w.commands := by
    intro u' k w hs
    cases hs with
    | task _ hq => exact htail hq (by simp)
    | existing => exact hm
    | video => exact hm
  cases h with
  | take _ hq _ ht =>
    cases ht with
    | @talk fn _ hf =>
      refine Or.inl (htail hq ?_)
      rintro rfl
      cases hf
    | @noSub u' source' hn =>
      by_cases he : u' = u ∧ source' = source
      · obtain ⟨rfl,rfl⟩ := he
        exact Or.inr hn
      · exact Or.inl (htail hq (by simpa using he))
    | _ => exact Or.inl (htail hq (by simp))
  | offered _ hq => exact Or.inl (htail hq (by simp))
  | offerFailed _ hq => exact Or.inl (htail hq (by simp))
  | publish _ hq => exact Or.inl (htail hq (by simp))
  | close _ hq => exact Or.inl (htail hq (by simp))
  | @unsubscribe u' source' pub rest new _ hq =>
    by_cases he : u' = u ∧ source' = source
    · obtain ⟨rfl,rfl⟩ := he
      exact Or.inr (Finmap.lookup_erase _ _)
    · exact Or.inl (htail hq (by simpa using he))
  | resubscribe hs => exact Or.inl (hsub hs)
  | noLocal hs => exact Or.inl (hsub hs)
  | notAdded hs => exact Or.inl (hsub hs)
  | subscribe hs =>
    have hw := hsub hs
    exact Or.inl hw
  | _ => exact Or.inl hm

end Sections

/-- `doClose` of a peer has already read the subscribers of its track `k`. -/
def passed (w : Wiring) (source : Source) (k : TrackRef) : Bool :=
  w.stopped && match w.cont with
    | .closeSubs _ => false
    | .closeTracks pubs => decide ((source,k) ∉ pubs)
    | .closeSubscribers _ _ rest => decide ((source,k) ∉ rest)
    | _ => true

theorem enumerated_eq (k : TrackRef) :
    s.enumerated k = passed (s.wire (s.link k).owner) (s.link k).source k := rfl

/-- The loop of `doClose` over the subscribers of one track still has the user ahead. -/
def telling (w : Wiring) (source : Source) (u : UserID) : Prop :=
  ∃ us rest, w.cont = .closeSubscribers source us rest ∧ u ∈ us

/-- The section that reads the subscribers of a track goes on to tell them. -/
theorem Section.passed {source : Source} {k : TrackRef} (h : Section s sid c E)
    (hl : (s.wire sid).published.lookup source = some k)
    (hst : (s.wire sid).stopped = true → Emptying (s.wire sid))
    (hold : SfuMedia.passed (s.wire sid) source k = false) :
    SfuMedia.passed E.wire source k = false ∨ ∀ u ∈ (s.link k).users, telling E.wire source u := by
  have hopen : ∀ {w : Wiring}, w.stopped = false → SfuMedia.passed w source k = false := by
    intro w h0
    simp [SfuMedia.passed, h0]
  have hsub : ∀ {u k' w}, Subscribes (s.wire sid) u k' w → w.stopped = false := by
    intro u k' w hs
    by_contra hw
    unfold Emptying at hst
    cases hs with
    | task _ _ h0 => exact hw h0
    | existing hc => rw [hc] at hst; exact hst (by simpa using hw)
    | video hc => rw [hc] at hst; exact hst (by simpa using hw)
  cases h with
  | move hm =>
    cases h0 : (s.wire sid).stopped with
    | false => exact Or.inl (hopen h0)
    | true =>
      have hemp := hst h0
      unfold Emptying at hemp
      unfold SfuMedia.passed at hold ⊢
      rw [h0,Bool.true_and] at hold
      simp only [State.quiet, h0, Bool.true_and, telling]
      generalize (s.wire sid).cont = k₀ at hm hemp hold
      cases hm with
      | noSub => exact Or.inl rfl
      | subsClosed hr =>
        left
        exact decide_eq_false (fun hn => hn (mem_publishedTracks_of hr hl))
      | tracksClosed => cases hold
      | @closeTrack source' pub rest hu =>
        have hm : (source,k) ∈ (source',pub) :: rest := not_not.mp (decide_eq_false_iff_not.mp hold)
        rcases List.mem_cons.mp hm with he | hm
        · cases he
          right
          intro u hu'
          rw [← hu] at hu'
          exact ⟨_,_,rfl,List.mem_toFinset.mp hu'⟩
        · exact Or.inl (by simpa using hm)
      | subscribersClosed => exact Or.inl hold
      | nobody => exact Or.inl hold
      | _ => exact absurd hemp id
  | take _ _ h0 => exact Or.inl (hopen h0)
  | offered _ _ h0 => exact Or.inl (hopen h0)
  | offerFailed _ _ h0 => exact Or.inl (hopen h0)
  | publish _ _ h0 => exact Or.inl (hopen h0)
  | unsubscribe _ _ h0 => exact Or.inl (hopen h0)
  | resubscribe hs => exact Or.inl (hopen (hsub hs))
  | noLocal hs => exact Or.inl (hopen (hsub hs))
  | notAdded hs => exact Or.inl (hopen (hsub hs))
  | subscribe hs =>
    have h0 := hsub hs
    exact Or.inl (hopen h0)
  | close => exact Or.inl (by simp [SfuMedia.passed, State.quiet])
  | closeSub => exact Or.inl (by simp [SfuMedia.passed])
  | subscribeOther hc =>
    cases h0 : (s.wire sid).stopped with
    | false => exact Or.inl (hopen h0)
    | true =>
      have hemp := hst h0
      unfold Emptying at hemp
      rw [hc] at hemp
      exact absurd hemp id
  | closeSubscriber hc =>
    left
    unfold SfuMedia.passed at hold ⊢
    rw [hc] at hold
    exact hold

/-- One more subscriber is told, or looked for in vain. -/
theorem Section.telling {source : Source} {u : UserID} (h : Section s sid c E)
    (hold : telling (s.wire sid) source u) : SfuMedia.telling E.wire source u ∨
      (nextSubscriber (s.peers sid).cont = some (u,source) ∧
        ∀ y, (s.roomOf sid).peerByUserID u = some y →
          E.ask = some (y,.doUnsubscribe (s.wire sid).userID source)) := by
  obtain ⟨us,rest,hk,hu⟩ := hold
  have hk' : (s.peers sid).cont = .closeSubscribers source us rest := hk
  have hno : ∀ {k : Cont}, (s.wire sid).cont = k → SfuMedia.closes k = false → False := by
    intro k hc hcl
    rw [← hc,hk] at hcl
    cases hcl
  have hsub : ∀ {u k w}, ¬ Subscribes (s.wire sid) u k w := by
    intro u k w hs
    cases hs with
    | task hc => exact hno hc rfl
    | existing hc => exact hno hc rfl
    | video hc => exact hno hc rfl
  cases h with
  | move hm =>
    rw [hk] at hm
    cases hm with
    | subscribersClosed => cases hu
    | nobody hn =>
      rcases List.mem_cons.mp hu with rfl | hu
      · refine Or.inr ⟨by rw [hk']; rfl,fun y hy => ?_⟩
        have hn' : (s.roomOf sid).peerByUserID u = none := hn
        rw [hy] at hn'
        cases hn'
      · exact Or.inl ⟨_,_,rfl,hu⟩
  | closeSubscriber hc hy =>
    rw [hk] at hc
    cases hc
    rcases List.mem_cons.mp hu with rfl | hu
    · refine Or.inr ⟨by rw [hk']; rfl,fun y hy' => ?_⟩
      have he : some _ = some y := hy.symm.trans hy'
      cases he
      rfl
    · exact Or.inl ⟨_,_,rfl,hu⟩
  | take hc => exact (hno hc rfl).elim
  | offered hc => exact (hno hc rfl).elim
  | offerFailed hc => exact (hno hc rfl).elim
  | publish hc => exact (hno hc rfl).elim
  | unsubscribe hc => exact (hno hc rfl).elim
  | close hc => exact (hno hc rfl).elim
  | subscribeOther hc => exact (hno hc rfl).elim
  | closeSub hc =>
    rw [hk] at hc
    cases hc
  | resubscribe hs => exact absurd hs hsub
  | noLocal hs => exact absurd hs hsub
  | notAdded hs => exact absurd hs hsub
  | subscribe hs => exact absurd hs hsub

/-- A step that runs no section of a peer: queues may grow, and a new session starts empty. -/
structure Calm (s s' : State) : Prop where
  link : s'.link = s.link
  cont : ∀ x, (s'.wire x).cont = (s.wire x).cont
  subs : ∀ x, (s'.wire x).subs = (s.wire x).subs
  stopped : ∀ x, (s'.wire x).stopped = (s.wire x).stopped
  commands : ∀ x, ∀ fn ∈ (s.wire x).commands, fn ∈ (s'.wire x).commands
  userID : ∀ x, x ∈ s.router.issued → (s'.wire x).userID = (s.wire x).userID

theorem issued_of_sub (hg : Grounded s) {key : SubKey} {k : TrackRef}
    (h : (s.wire x).subs.lookup key = some k) : x ∈ s.router.issued := by
  by_contra hn
  obtain ⟨q,hq⟩ := hg.fresh x hn
  rw [hq] at h
  cases h

section Calm
variable (h : Calm s s')
include h

theorem Calm.sides (hg : Grounded s) (hp : Sides s) : Sides s' := by
  have hold : ∀ {x key k}, (s'.wire x).subs.lookup key = some k →
      (s.wire x).subs.lookup key = some k ∧ (s'.wire x).userID = (s.wire x).userID := by
    intro x key k hx
    rw [h.subs] at hx
    exact ⟨hx,h.userID x (issued_of_sub hg hx)⟩
  constructor
  · intro x key k hx
    obtain ⟨ho,hu⟩ := hold hx
    rw [hu,h.link]
    exact hp.listed x key k ho
  · intro k u hu
    rw [h.link] at hu
    obtain ⟨x,key,hx,hkey⟩ := hp.holder k u hu
    exact ⟨x,key,(h.userID x (issued_of_sub hg hkey)).trans hx,by rw [h.subs]; exact hkey⟩
  · intro x y key key' k hx hy hxy
    obtain ⟨hx',hux⟩ := hold hx
    obtain ⟨hy',huy⟩ := hold hy
    rw [hux,huy] at hxy
    exact hp.unique x y key key' k hx' hy' hxy

theorem Calm.emptying (hst : (s.wire x).stopped = true → Emptying (s.wire x))
    (hx : (s'.wire x).stopped = true) : Emptying (s'.wire x) := by
  rw [h.stopped] at hx
  have hold := hst hx
  unfold Emptying at hold ⊢
  rw [h.cont,h.subs]
  exact hold

theorem Calm.due (hg : Grounded s) {key : SubKey} {k : TrackRef}
    (hx : (s.wire x).subs.lookup key = some k) (hd : s.due x key k) : s'.due x key k := by
  rcases hd with h1 | h2 | ⟨us,rest,h3,hu⟩
  · left
    rw [enumerated_eq] at h1 ⊢
    unfold passed at h1 ⊢
    rw [h.link,h.stopped,h.cont]
    exact h1
  · exact Or.inr (Or.inl (h.commands x _ h2))
  · refine Or.inr (Or.inr ⟨us,rest,?_,?_⟩)
    · rw [h.link,h.cont]
      exact h3
    · rw [h.userID x (issued_of_sub hg hx)]
      exact hu

end Calm

theorem asked_stopped (a : Option (SessionID × Task)) (x : SessionID) (w : Wiring) :
    (asked a x w).stopped = w.stopped := by
  obtain ⟨l,hl,-⟩ := asked_eq a x w
  rw [hl]

theorem asked_self (x : SessionID) (fn : Task) (w : Wiring) :
    asked (some (x,fn)) x w = w.enqueue fn := if_pos rfl

theorem enqueue_commands {w : Wiring} {fn fn' : Task} (h : fn ∈ w.commands) :
    fn ∈ (w.enqueue fn').commands := by
  unfold Wiring.enqueue
  split
  · exact h
  · split
    · exact List.mem_append_left _ h
    · exact h

theorem asked_grows (a : Option (SessionID × Task)) {w : Wiring} {fn : Task} (h : fn ∈ w.commands) :
    fn ∈ (asked a x w).commands := by
  unfold asked
  split
  · exact h
  · split
    · exact enqueue_commands h
    · exact h

theorem calm_asked {a : Option (SessionID × Task)} (hlink : s'.link = s.link)
    (hw : ∀ x, s'.wire x = asked a x (s.wire x)) : Calm s s' where
  link := hlink
  cont x := by rw [hw,asked_cont]
  subs x := by rw [hw,asked_subs]
  stopped x := by rw [hw,asked_stopped]
  commands x fn hfn := by
    rw [hw]
    exact asked_grows _ hfn
  userID x _ := by rw [hw,asked_toPeer]

theorem calm_setCall (s : State) (t : CallID) (k : Call) : Calm s (s.setCall t k) :=
  ⟨rfl,fun _ => rfl,fun _ => rfl,fun _ => rfl,fun _ _ h => h,fun _ _ => rfl⟩

theorem calm_publishState (s : State) (t : CallID) (sid : SessionID) (source : Source)
    (active : Bool) : Calm s ((s.setPeer sid { s.peers sid with
      publishState := (s.peers sid).publishState.insert source active }).setCall t .idle) := by
  have hw := wire_publishState s t sid source active
  refine ⟨rfl,fun x => ?_,fun x => ?_,fun x => ?_,fun x fn' hfn => ?_,fun x _ => ?_⟩ <;>
    obtain ⟨m,hm⟩ := hw x <;> rw [hm]
  exact hfn

/-- A running peer whose queue has room takes the task. -/
theorem mem_enqueue {w : Wiring} {fn : Task} (hs : w.stopped = false)
    (hl : w.commands.length < commandsCap) : fn ∈ (w.enqueue fn).commands := by
  simp [Wiring.enqueue, hs, hl]

theorem mem_close {w : Wiring} (hc : w.closeOnce = false) (hs : w.stopped = false)
    (hl : w.commands.length < commandsCap) : .doClose ∈ w.close.commands := by
  unfold Wiring.close
  rw [if_neg (by rw [hc]; exact Bool.false_ne_true)]
  exact mem_enqueue hs hl

/-- A section leaves the other peers where they are in their programs. -/
theorem Applied.stands (ha : Applied s sid E s') {p : SessionID} (hne : p ≠ sid) :
    (s'.wire p).stopped = (s.wire p).stopped ∧ (s'.wire p).cont = (s.wire p).cont := by
  rw [ha.wire,if_neg hne,asked_stopped,asked_cont]
  exact ⟨rfl,rfl⟩

theorem Applied.enumerated (hs : Section s sid c E) (ha : Applied s sid E s') {k : TrackRef}
    (hlt : k < s.nextTrack) (hne : (s.link k).owner ≠ sid) (hen : s.enumerated k = false) :
    s'.enumerated k = false := by
  obtain ⟨hsource,-,howner⟩ := (ha.extends hs).link k hlt
  obtain ⟨hstopped,hcont⟩ := ha.stands hne
  rw [enumerated_eq] at hen ⊢
  unfold SfuMedia.passed at hen ⊢
  rw [howner,hsource,hstopped,hcont]
  exact hen

/-- What is to end a subscription is still to end it, or has ended it. -/
theorem Section.due_kept (hg : Grounded s) (hl : Lifecycle s) (hp : Pairing s)
    (hk : KeepsPairs s (.run sid c)) (hs : Section s sid c E) (ha : Applied s sid E s')
    {key : SubKey} {k : TrackRef} (hx : x ∈ s.router.peers)
    (hsub : (s'.wire x).subs.lookup key = some k) (ho : (s.wire x).subs.lookup key = some k) :
    s'.due x key k := by
  have huser := ha.userID hs
  obtain ⟨⟨hlt,hpub⟩,hsource⟩ := hg.subs x key k ho
  obtain ⟨hsource',-,howner⟩ := (ha.extends hs).link k hlt
  have hpublished := (hg.owner k hlt).2
  rcases hp.due x key k hx ho with h1 | h2 | h3
  · by_cases hne : (s.link k).owner = sid
    · rw [enumerated_eq,hne] at h1
      rw [hne] at hpublished
      rcases hs.passed hpublished (hp.emptying sid) h1 with hpass | htell
      · left
        rw [enumerated_eq]
        unfold SfuMedia.passed at hpass ⊢
        rw [howner,hsource',hne,ha.wire,asked_stopped,asked_cont,if_pos rfl]
        exact hpass
      · obtain ⟨us,rest,hcont,hu⟩ := htell _ (hp.sides.listed x key k ho)
        refine Or.inr (Or.inr ⟨us,rest,?_,by rw [huser]; exact hu⟩)
        rw [howner,hne,ha.wire,asked_cont,if_pos rfl,← hsource]
        exact hcont
    · exact Or.inl (ha.enumerated hs hlt hne h1)
  · right
    left
    by_cases hxs : x = sid
    · subst hxs
      rcases hs.doUnsubscribe h2 with hm | hn
      · rw [ha.wire,if_pos rfl]
        exact asked_grows _ hm
      · rw [ha.subs,if_pos rfl,hn] at hsub
        cases hsub
    · rw [ha.wire,if_neg hxs]
      exact asked_grows _ h2
  · by_cases hne : (s.link k).owner = sid
    · rw [hne] at h3 hpub
      rcases hs.telling h3 with ⟨us,rest,hcont,hu⟩ | ⟨hnext,hask⟩
      · refine Or.inr (Or.inr ⟨us,rest,?_,by rw [huser]; exact hu⟩)
        rw [howner,hne,ha.wire,asked_cont,if_pos rfl]
        exact hcont
      · have hkey : key = ⟨(s.wire sid).userID,key.source⟩ := by
          rw [hpub]
        have hm : key ∈ (s.peers x).subs := Finmap.mem_iff.mpr ⟨k,ho⟩
        rw [hkey] at hm
        obtain ⟨hseat,hroom⟩ := hk.2 _ hnext x (Finmap.mem_keys.mpr hx) rfl hm
        have hxs : x ≠ sid := by
          rintro rfl
          obtain ⟨us,rest,hcont,-⟩ := h3
          have hcl := (hl.running hx).2
          rw [hcont] at hcl
          cases hcl
        right
        left
        rw [ha.wire,if_neg hxs,hask x hseat,← hpub,asked_self]
        exact mem_enqueue (hl.running hx).1 hroom
    · obtain ⟨us,rest,hcont,hu⟩ := h3
      refine Or.inr (Or.inr ⟨us,rest,?_,by rw [huser]; exact hu⟩)
      rw [howner,(ha.stands hne).2]
      exact hcont

theorem Section.due (hg : Grounded s) (hl : Lifecycle s) (hl' : Lifecycle s') (hp : Pairing s)
    (hk : KeepsPairs s (.run sid c)) (hs : Section s sid c E) (ha : Applied s sid E s')
    {key : SubKey} {k : TrackRef} (hx : x ∈ s.router.peers)
    (hsub : (s'.wire x).subs.lookup key = some k) : s'.due x key k := by
  have hreg' : x ∈ s'.router.peers := by
    rw [ha.router]
    exact hx
  have hold : (s.wire x).subs.lookup key = some k → s'.due x key k :=
    Section.due_kept hg hl hp hk hs ha hx hsub
  have hnow := hsub
  rw [ha.subs] at hnow
  cases hs.pairs hg hp.sides hk with
  | same hsubs =>
    apply hold
    split at hnow
    · rename_i hxs
      rw [hxs,← hsubs]
      exact hnow
    · exact hnow
  | drop _ hsubs =>
    apply hold
    split at hnow
    · rename_i hxs
      rw [hsubs] at hnow
      rw [hxs]
      exact (GoMap.lookup_of_erase hnow).2
    · exact hnow
  | @add u pub href hnew hn hsubs =>
    split at hnow
    · rename_i hxs
      subst hxs
      rw [hsubs,GoMap.lookup_insert_eq] at hnow
      split at hnow
      · -- made before the subscribers of the track are read
        cases hnow
        obtain ⟨-,hen⟩ := hk.1 (u,k) hnew hn
        left
        by_cases hne : (s.link k).owner = x
        · obtain ⟨-,-,howner⟩ := (ha.extends hs).link k href.1
          rw [enumerated_eq,howner,hne]
          simp [SfuMedia.passed, (hl'.running hreg').1]
        · exact ha.enumerated hs href.1 hne hen
      · exact hold hnow
    · exact hold hnow

theorem Section.pairing (hg : Grounded s) (hl : Lifecycle s) (hl' : Lifecycle s') (hp : Pairing s)
    (hk : KeepsPairs s (.run sid c)) (hs : Section s sid c E) (ha : Applied s sid E s')
    (ho : OneSession s') : Pairing s' := by
  constructor
  case one => exact ho
  case sides => exact PairStep.sides hg hp.sides hk hs ha
  case emptying =>
    intro x hx
    have hasked : ∀ w : Wiring, (w.stopped = true → Emptying w) →
        (asked E.ask x w).stopped = true → Emptying (asked E.ask x w) := by
      intro w hw h
      obtain ⟨l,hl,-⟩ := asked_eq E.ask x w
      rw [hl] at h ⊢
      exact hw h
    rw [ha.wire] at hx ⊢
    refine hasked _ ?_ hx
    split
    · exact hs.emptying (hp.emptying sid)
    · exact hp.emptying x
  case departing =>
    intro x hx
    rw [ha.router] at hx ⊢
    rcases hp.departing x hx with h1 | h2 | h3 | h4
    · exact Or.inl h1
    · exact Or.inr (Or.inl h2)
    · right
      right
      left
      rw [ha.wire,asked_stopped]
      split
      · rename_i hxs
        subst hxs
        rcases hs.stopped with h | ⟨h,-⟩
        · rw [h,h3]
        · exact h
      · exact h3
    · right
      right
      rw [ha.wire,asked_stopped]
      split
      · rename_i hxs
        subst hxs
        rcases hs.doClose h4 with h | h
        · exact Or.inr (asked_grows _ h)
        · exact Or.inl h
      · exact Or.inr (asked_grows _ h4)
  case due =>
    intro x key k hx hsub
    rw [ha.router] at hx
    exact hs.due hg hl hl' hp hk ha hx hsub

theorem router_calm {re : SfuRouter.Event} {r : SfuRouter.State} {w : SessionID → Wiring}
    (hg : Grounded s) (h : Routes s re r w) (hw : ∀ x, (s.routed re r).wire x = w x) :
    Calm s (s.routed re r) := by
  have hclose : ∀ v : Wiring, v.close.stopped = v.stopped ∧ ∀ fn ∈ v.commands, fn ∈ v.close.commands := by
    intro v
    unfold Wiring.close
    split
    · exact ⟨rfl,fun _ hfn => hfn⟩
    · refine ⟨?_,fun fn hfn => enqueue_commands hfn⟩
      unfold Wiring.enqueue
      split
      · rfl
      · split <;> rfl
  refine ⟨(routed_link s re r).1,fun x => ?_,fun x => ?_,fun x => ?_,fun x fn hfn => ?_,fun x hx => ?_⟩
  · rw [hw]
    exact (h.keeps hg x).2.2.2.1
  · rw [hw]
    exact (h.keeps hg x).2.1
  · rw [hw]
    rcases h.eq_or x with he | ⟨t,u,ch,k,-,hn,he⟩ | ⟨t,p,-,-,he⟩
    · rw [he]
    · obtain ⟨q,hq⟩ := hg.fresh x hn
      rw [he,hq]
      rfl
    · rw [he]
      exact (hclose _).1
  · rw [hw]
    rcases h.eq_or x with he | ⟨t,u,ch,k,-,hn,he⟩ | ⟨t,p,-,-,he⟩
    · rw [he]
      exact hfn
    · obtain ⟨q,hq⟩ := hg.fresh x hn
      rw [hq] at hfn
      cases hfn
    · rw [he]
      exact (hclose _).2 fn hfn
  · rw [hw]
    exact congrArg SfuRouter.Peer.userID ((h.keeps hg x).1 hx)

theorem router_pairing {re : SfuRouter.Event} {r : SfuRouter.State} {w : SessionID → Wiring}
    (hg : Grounded s) (hl : Lifecycle s) (hp : Pairing s) (hk : KeepsPairs s (.router re))
    (he : SfuRouter.step s.router re = some r) (h : Routes s re r w)
    (hw : ∀ x, (s.routed re r).wire x = w x) (ho : OneSession (s.routed re r)) :
    Pairing (s.routed re r) := by
  have hcalm := router_calm hg h hw
  obtain ⟨-,-,-,hrouter,-⟩ := routed_link s re r
  have hreg := fun y q hy => (⟨(hg.registered y q hy).1,(hg.registered y q hy).2.1⟩ :
    q.sessionID = y ∧ y ∈ s.router.issued)
  constructor
  case one => exact ho
  case sides => exact hcalm.sides hg hp.sides
  case emptying => intro x; exact hcalm.emptying (hp.emptying x)
  case departing =>
    intro x hx
    rw [hrouter] at hx ⊢
    have hold : x ∈ s.router.issued → x ∈ r.peers ∨
        (∃ t p, leaver (r.calls t) = some p ∧ p.sessionID = x) ∨
        ((s.routed re r).wire x).stopped = true ∨
        .doClose ∈ ((s.routed re r).wire x).commands := by
      intro hi
      rcases hp.departing x hi with h1 | ⟨t,p,h2,rfl⟩ | h3 | h4
      · obtain ⟨p,hp'⟩ := Finmap.mem_iff.mp h1
        rcases router_registered he hp' hreg with h | ⟨t,h⟩
        · exact Or.inl (Finmap.mem_iff.mpr ⟨p,h⟩)
        · exact Or.inr (Or.inl ⟨t,p,h,(hreg x p hp').1⟩)
      · rcases router_leaver_stays he h2 with h' | ⟨rfl,hc⟩
        · exact Or.inr (Or.inl ⟨t,p,h',rfl⟩)
        · right
          right
          right
          rw [hw]
          have hopen := (hl.leaving t p h2).2
          have hrun := ((hl.orderly p.sessionID).open_ hopen).1
          cases h with
          | close hc' =>
            rw [hc] at hc'
            cases hc'
            rw [Function.update_self]
            exact mem_close hopen hrun (hk p h2)
          | other _ hn => exact absurd rfl (hn t)
      · exact Or.inr (Or.inr (Or.inl ((hcalm.stopped x).trans h3)))
      · exact Or.inr (Or.inr (Or.inr (hcalm.commands x _ h4)))
    cases h with
    | @join t sid u ch r k hn hi hpeers' =>
      rw [hi] at hx
      rcases Finset.mem_insert.mp hx with rfl | hx
      · left
        rw [hpeers']
        exact Finmap.mem_insert.mpr (Or.inl rfl)
      · exact hold hx
    | close _ hr =>
      rw [hr] at hx
      exact hold hx
    | other _ _ hi =>
      rw [hi] at hx
      exact hold hx
  case due =>
    intro x key k hx hsub
    rw [hrouter] at hx
    rw [hcalm.subs] at hsub
    obtain ⟨p,hp'⟩ := Finmap.mem_iff.mp hx
    rcases router_peers he hp' with hold | ⟨hn,-⟩
    · exact hcalm.due hg hsub (hp.due x key k (Finmap.mem_iff.mpr ⟨p,hold⟩) hsub)
    · exact absurd (issued_of_sub hg hsub) hn

/-- The rest of the steps leave the router alone, and no peer runs. -/
theorem Calm.pairing (hg : Grounded s) (hp : Pairing s) (hcalm : Calm s s')
    (hrouter : s'.router = s.router) (ho : OneSession s') : Pairing s' := by
  constructor
  case one => exact ho
  case sides => exact hcalm.sides hg hp.sides
  case emptying => intro x; exact hcalm.emptying (hp.emptying x)
  case departing =>
    intro x hx
    rw [hrouter] at hx ⊢
    rcases hp.departing x hx with h1 | h2 | h3 | h4
    · exact Or.inl h1
    · exact Or.inr (Or.inl h2)
    · exact Or.inr (Or.inr (Or.inl ((hcalm.stopped x).trans h3)))
    · exact Or.inr (Or.inr (Or.inr (hcalm.commands x _ h4)))
  case due =>
    intro x key k hx hsub
    rw [hrouter] at hx
    rw [hcalm.subs] at hsub
    exact hcalm.due hg hsub (hp.due x key k hx hsub)

theorem step_pairing (hg : Grounded s) (hl : Lifecycle s) (hp : Pairing s) (hk : KeepsPairs s e)
    (he : step s e = some s') : Pairing s' := by
  have hl' := step_lifecycle hg hl he
  have ho := step_oneSession hg hp.one hk.joinsAlone he
  obtain ⟨-,hv⟩ := step_wired he
  cases hv with
  | run hs ha => exact hs.pairing hg hl hl' hp hk ha ho
  | router hr hroutes hw => exact router_pairing hg hl hp hk hr hroutes hw ho
  | ask _ hw hlink _ _ hrouter => exact Calm.pairing hg hp (calm_asked hlink hw) hrouter ho
  | call => exact Calm.pairing hg hp (calm_setCall s _ _) rfl ho
  | publishState => exact Calm.pairing hg hp (calm_publishState s _ _ _ _) rfl ho

theorem pairing_init : Pairing init where
  one _ _ hx := absurd hx (GoMap.notMem_empty _)
  sides := ⟨fun _ _ _ h => (nomatch h),fun _ _ h => (nomatch h),fun _ _ _ _ _ h => (nomatch h)⟩
  emptying _ h := nomatch h
  departing _ h := nomatch h
  due _ _ _ hx := absurd hx (GoMap.notMem_empty _)

/-- Once nothing is left to do, the two sides agree and every publisher lives. -/
theorem Pairing.paired (hg : Grounded s) (hl : Lifecycle s) (hp : Pairing s) (hq : Quiescent s) :
    Paired s := by
  have hstay : ∀ x ∈ s.router.issued, (s.wire x).stopped = false → x ∈ s.router.peers := by
    intro x hx h0
    rcases hp.departing x hx with h1 | ⟨t,p,h2,-⟩ | h3 | h4
    · exact h1
    · rw [hq.router t] at h2
      cases h2
    · rw [h0] at h3
      cases h3
    · have hempty : (s.wire x).commands = [] := hq.commands x h0
      rw [hempty] at h4
      cases h4
  constructor
  case live =>
    intro x key k hx hsub
    obtain ⟨⟨hlt,hu⟩,hsource⟩ := hg.subs x key k hsub
    obtain ⟨hi,hpub⟩ := hg.owner k hlt
    have hidle : (s.wire (s.link k).owner).cont = .idle := hq.idle _
    have h0 : (s.wire (s.link k).owner).stopped = false := by
      rcases hp.due x key k hx hsub with h1 | h2 | ⟨us,rest,h3,-⟩
      · rw [enumerated_eq] at h1
        unfold passed at h1
        rw [hidle] at h1
        simpa using h1
      · have hempty : (s.wire x).commands = [] := hq.commands x (hl.running hx).1
        rw [hempty] at h2
        cases h2
      · rw [hidle] at h3
        cases h3
    refine ⟨(s.link k).owner,hstay _ hi h0,hu,?_⟩
    rw [← hsource]
    exact hpub
  case listed =>
    intro p source k x _ hx
    constructor
    · intro hu
      obtain ⟨y,key,hy,hsub⟩ := hp.sides.holder k _ (subs_link.mpr hu)
      have h0 : (s.wire y).stopped = false := by
        by_contra hst
        have hemp := hp.emptying y (by simpa using hst)
        have hidle : (s.wire y).cont = .idle := hq.idle y
        unfold Emptying at hemp
        rw [hidle] at hemp
        rw [hemp] at hsub
        cases hsub
      have hyx := hp.one y x (hstay y (issued_of_sub hg hsub) h0) hx hy
      rw [hyx] at hsub
      exact ⟨key,hsub⟩
    · rintro ⟨key,hsub⟩
      exact subs_link.mp (hp.sides.listed x key k hsub)

/-- In every run that keeps the pairs, no subscription dangles once nothing is left to do. -/
theorem subscriptions_paired {es : List Event} {s : State} (h : RunsWhen step KeepsPairs init es s)
    (hq : Quiescent s) : Paired s := by
  obtain ⟨⟨hg,hl⟩,hp⟩ := h.invariant (P := fun s => (Grounded s ∧ Lifecycle s) ∧ Pairing s)
    ⟨⟨grounded_init,lifecycle_init⟩,pairing_init⟩
    (fun hs hk he => ⟨⟨step_grounded hs.1.1 he,step_lifecycle hs.1.1 hs.1.2 he⟩,
      step_pairing hs.1.1 hs.1.2 hs.2 hk he⟩)
  exact hp.paired hg hl hq

/-- Users 1 and 2 enter channel 7 and offer, and user 1 publishes its microphone. -/
def micForTwo : List Event :=
  [.router (.join 0 "a" 1 7), .router (.roomAdd 0), .router (.join 1 "b" 2 7), .router (.roomAdd 1),
   .request 0 "a" (.handleOffer [⟨"0",SourceMic⟩]), .proceed 0, .run "a" {},
   .run "a" { users := [2] }, .run "a" {}, .run "a" {}, .run "a" {}, .run "a" { users := [2] },
   .run "a" {}, .run "a" {}, .onTrack "a" "0" .audio "" "opus", .run "a" { source := some SourceMic },
   .run "a" {}, .run "a" {}, .run "a" { users := [2] }, .run "a" {}, .run "a" {}]

/-- User 1 leaves, and its `doClose` runs with the given subscribers. -/
def micLeaves (users : List UserID) : List Event :=
  [.router (.leave 2 "a"), .router (.roomRemove 2), .router (.removeUser 2), .router (.isEmpty 2),
   .router (.peerClose 2), .run "a" {}, .run "a" { sources := [SourceMic] }, .run "a" { users := users }] ++
    users.map (fun _ => .run "a" {}) ++ [.run "a" {}, .run "a" {}]

theorem subscriptions_paired_mic : ∃ s, Runs step init (micForTwo ++ [.run "b" {}]) s ∧
    (s.peers "b").subs.lookup ⟨1,SourceMic⟩ = some 0 ∧ Paired s := by
  obtain ⟨s,hrun,hs⟩ := exists_runsWhen_of_exec step KeepsPairs init (micForTwo ++ [.run "b" {}])
    (fun s : State => (s.settled (micForTwo ++ [.run "b" {}]),
      (s.peers "b").subs.lookup ⟨1,SourceMic⟩)) (true,some 0) (by decide +kernel)
  simp only [Prod.mk.injEq] at hs
  exact ⟨s,hrun.runs,hs.2,subscriptions_paired hrun (quiescent_of_settled hrun.runs hs.1)⟩

/-- The task that subscribes user 2 waits until user 1 is gone. -/
theorem late_subscription_dangles : ¬ ∀ es s, Runs step init es s → Quiescent s → Paired s := by
  intro h
  obtain ⟨s,hrun,hs⟩ := exists_runs_of_exec step init (micForTwo ++ micLeaves [] ++ [.run "b" {}])
    (fun s : State => (s.settled (micForTwo ++ micLeaves [] ++ [.run "b" {}]),
      (s.peers "b").subs.lookup ⟨1,SourceMic⟩,s.router.peers.keys,(s.peers "b").userID))
    (true,some 0,{"b"},2) (by decide +kernel)
  simp only [Prod.mk.injEq] at hs
  obtain ⟨hset,hsub,hkeys,huser⟩ := hs
  have hlive : ∀ p, p ∈ s.router.peers ↔ p = "b" := by
    intro p
    rw [← Finmap.mem_keys,hkeys,Finset.mem_singleton]
  obtain ⟨p,hp,hu,-⟩ := (h _ s hrun (quiescent_of_settled hrun hset)).live "b" _ _
    ((hlive "b").mpr rfl) hsub
  rw [(hlive p).mp hp,huser] at hu
  cases hu

end MiniDiscord.SfuMedia
