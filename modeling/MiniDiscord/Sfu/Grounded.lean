import MiniDiscord.Sfu.Wiring

/-! # What every peer's wiring refers to

Queues, program points, subscriptions and calls mention sessions and tracks. What they
mention exists, and belongs to whom they say: this holds in every run.
-/
namespace MiniDiscord.SfuMedia
open SfuRoom SfuTrack SfuPeer Transition
open SfuRouter (RoomRef CallID)

/-- The track exists, and its owner is a session of the user. -/
def State.refers (s : State) (u : UserID) (k : TrackRef) : Prop :=
  k < s.nextTrack ∧ (s.wire (s.link k).owner).userID = u

def State.owns (s : State) (x : SessionID) (k : TrackRef) : Prop :=
  k < s.nextTrack ∧ (s.link k).owner = x

def State.issuedAll (s : State) (os : List SessionID) : Prop := ∀ o ∈ os, o ∈ s.router.issued

/-- The pairs of a range over the published tracks of a peer. -/
def State.lists (s : State) (x : SessionID) (pubs : List (Source × TrackRef)) : Prop :=
  ∀ sp ∈ pubs, (s.wire x).published.lookup sp.1 = some sp.2

def TaskOk (s : State) : Task → Prop
  | .doSubscribe u k _ => s.refers u k
  | .subscribeVideo publisher u _ _ => publisher ∈ s.router.issued ∧ (s.wire publisher).userID = u
  | _ => True

def ContOk (s : State) (x : SessionID) : Cont → Prop
  | .autoSubscribePeers os => s.issuedAll os
  | .autoSubscribeTracks u pubs os => (∀ k ∈ pubs, s.refers u k) ∧ s.issuedAll os
  | .snapshotPeers os => s.issuedAll os
  | .addLayer k _ _ _ => s.owns x k
  | .announce k => s.owns x k
  | .notifyOthers k => s.owns x k
  | .subscribeOthers k os => s.owns x k ∧ s.issuedAll os
  | .subscribeVideo u k _ => s.refers u k
  | .closeTracks pubs => s.lists x pubs
  | .closeSubscribers _ _ rest => s.lists x rest
  | _ => True

/-- Tasks that a call of the router can queue. -/
def requested : Task → Bool
  | .doSubscribe _ _ _ => false
  | .doClose => false
  | .handleOnTrack _ _ _ _ => false
  | .snapshot => false
  | _ => true

def CallOk (s : State) : Call → Prop
  | .idle => True
  | .enqueue x fn => x ∈ s.router.issued ∧ TaskOk s fn ∧ requested fn = true
  | .roomFor x _ _ _ => x ∈ s.router.issued
  | .peerByUserID x _ _ _ _ => x ∈ s.router.issued
  | .setPublishState x _ _ => x ∈ s.router.issued

/-- The peer that a section of the router is about. -/
def carried : SfuRouter.Call → Option SfuRouter.Peer
  | .idle => none
  | .joinAdd p => some p
  | .leaveRemove p _ => some p
  | .leaveRemoveUser p _ => some p
  | .leaveIsEmpty p _ => some p
  | .leaveRecheck p _ => some p
  | .leaveClose p => some p

structure Grounded (s : State) : Prop where
  fresh : ∀ x, x ∉ s.router.issued → ∃ q, s.wire x = wiring (newPeer q)
  registered : ∀ x p, s.router.peers.lookup x = some p →
    p.sessionID = x ∧ x ∈ s.router.issued ∧ (s.wire x).toPeer = p
  routing : ∀ t p, carried (s.router.calls t) = some p →
    p.sessionID ∈ s.router.issued ∧ (s.wire p.sessionID).toPeer = p
  rooms : ∀ r u x, (s.router.heap r).peerByUserID u = some x →
    x ∈ s.router.issued ∧ (s.wire x).userID = u
  calls : ∀ t, CallOk s (s.calls t)
  commands : ∀ x, ∀ fn ∈ (s.wire x).commands, TaskOk s fn
  cont : ∀ x, ContOk s x (s.wire x).cont
  subs : ∀ x key k, (s.wire x).subs.lookup key = some k →
    s.refers key.publisherUserID k ∧ (s.link k).source = key.source
  published : ∀ x source k, (s.wire x).published.lookup source = some k →
    s.owns x k ∧ (s.link k).source = source
  owner : ∀ k, k < s.nextTrack → (s.link k).owner ∈ s.router.issued ∧
    (s.wire (s.link k).owner).published.lookup (s.link k).source = some k

/-- What was mentioned before can still be mentioned. -/
structure Extends (s s' : State) : Prop where
  issued : s.router.issued ⊆ s'.router.issued
  toPeer : ∀ x, x ∈ s.router.issued → (s'.wire x).toPeer = (s.wire x).toPeer
  published : ∀ x source k, (s.wire x).published.lookup source = some k →
    (s'.wire x).published.lookup source = some k
  nextTrack : s.nextTrack ≤ s'.nextTrack
  link : ∀ k, k < s.nextTrack → (s'.link k).source = (s.link k).source ∧
    (s'.link k).kind = (s.link k).kind ∧ (s'.link k).owner = (s.link k).owner

variable {s s' : State} {e : Event} {sid x : SessionID} {c : Choice} {E : Effect}

section Mono
variable (h : Extends s s')
include h

theorem Extends.userID (hx : x ∈ s.router.issued) : (s'.wire x).userID = (s.wire x).userID :=
  congrArg SfuRouter.Peer.userID (h.toPeer x hx)

theorem Extends.refers (hg : Grounded s) {u : UserID} {k : TrackRef} (hr : s.refers u k) :
    s'.refers u k := by
  obtain ⟨hk,hu⟩ := hr
  refine ⟨Nat.lt_of_lt_of_le hk h.nextTrack,?_⟩
  rw [(h.link k hk).2.2,h.userID (hg.owner k hk).1]
  exact hu

theorem Extends.owns {k : TrackRef} (hr : s.owns x k) : s'.owns x k :=
  ⟨Nat.lt_of_lt_of_le hr.1 h.nextTrack,(h.link k hr.1).2.2.trans hr.2⟩

theorem Extends.issuedAll {os : List SessionID} (hr : s.issuedAll os) : s'.issuedAll os :=
  fun o ho => h.issued (hr o ho)

theorem Extends.lists {pubs : List (Source × TrackRef)} (hr : s.lists x pubs) : s'.lists x pubs :=
  fun sp hsp => h.published x sp.1 sp.2 (hr sp hsp)

theorem Extends.taskOk (hg : Grounded s) {fn : Task} (ht : TaskOk s fn) : TaskOk s' fn := by
  cases fn with
  | doSubscribe u k q => exact h.refers hg ht
  | subscribeVideo publisher u source q =>
    obtain ⟨hi,hu⟩ := ht
    exact ⟨h.issued hi,(h.userID hi).trans hu⟩
  | _ => trivial

theorem Extends.contOk (hg : Grounded s) {k : Cont} (hc : ContOk s x k) : ContOk s' x k := by
  cases k with
  | autoSubscribePeers os => exact h.issuedAll hc
  | autoSubscribeTracks u pubs os => exact ⟨fun k hk => h.refers hg (hc.1 k hk),h.issuedAll hc.2⟩
  | snapshotPeers os => exact h.issuedAll hc
  | addLayer k rid codec existed => exact h.owns hc
  | announce k => exact h.owns hc
  | notifyOthers k => exact h.owns hc
  | subscribeOthers k os => exact ⟨h.owns hc.1,h.issuedAll hc.2⟩
  | subscribeVideo u k q => exact h.refers hg hc
  | closeTracks pubs => exact h.lists hc
  | closeSubscribers source us rest => exact h.lists hc
  | _ => trivial

theorem Extends.callOk (hg : Grounded s) {k : Call} (hc : CallOk s k) : CallOk s' k := by
  cases k with
  | idle => trivial
  | enqueue x fn => exact ⟨h.issued hc.1,h.taskOk hg hc.2.1,hc.2.2⟩
  | roomFor x target source q => exact h.issued hc
  | peerByUserID x room target source q => exact h.issued hc
  | setPublishState x source active => exact h.issued hc

end Mono

/-- A task put on a queue changes that queue only. -/
theorem asked_eq (a : Option (SessionID × Task)) (x : SessionID) (w : Wiring) :
    ∃ l, asked a x w = { w with commands := l } ∧
      ∀ fn ∈ l, fn ∈ w.commands ∨ a = some (x,fn) := by
  unfold asked
  split
  · exact ⟨w.commands,rfl,fun fn hfn => Or.inl hfn⟩
  · rename_i y fn
    split
    · rename_i hx
      subst hx
      unfold Wiring.enqueue
      split
      · exact ⟨w.commands,rfl,fun fn hfn => Or.inl hfn⟩
      · split
        · refine ⟨_,rfl,fun fn' hfn => ?_⟩
          rcases List.mem_append.mp hfn with hm | hm
          · exact Or.inl hm
          · rw [List.mem_singleton.mp hm]
            exact Or.inr rfl
        · exact ⟨w.commands,rfl,fun fn hfn => Or.inl hfn⟩
    · exact ⟨w.commands,rfl,fun fn hfn => Or.inl hfn⟩

/-- The others in a room, as a range over its members lists them. -/
theorem mem_others {users : List UserID} {os : List SessionID} (h : s.others sid users = some os)
    (o : SessionID) : o ∈ os ↔ ∃ u, u ≠ (s.wire sid).userID ∧
      (s.router.heap (s.wire sid).room).peerByUserID u = some o := by
  unfold State.others at h
  dsimp only at h
  split at h
  · rename_i hu
    cases h
    rw [List.mem_filterMap]
    refine exists_congr (fun u => and_congr_left (fun ho => ?_))
    have hmem : u ∈ users ↔ u ∈ users.toFinset := List.mem_toFinset.symm
    rw [hmem,hu.2,Finset.mem_erase,GoMap.mem_keys_iff]
    exact and_iff_left ⟨o,ho⟩
  · cases h

theorem mem_publishedTracks {sources : List Source} {sp : Source × TrackRef}
    (h : sp ∈ s.publishedTracks x sources) : (s.wire x).published.lookup sp.1 = some sp.2 := by
  obtain ⟨source,-,hs⟩ := List.mem_filterMap.mp h
  obtain ⟨k,hk,he⟩ := Option.map_eq_some_iff.mp hs
  rw [← he]
  exact hk

/-- A range over the published tracks comes to every one of them. -/
theorem mem_publishedTracks_of {sources : List Source} {source : Source} {k : TrackRef}
    (hr : s.rangesPublished x sources = true)
    (hk : (s.wire x).published.lookup source = some k) :
    (source,k) ∈ s.publishedTracks x sources := by
  have hr' : sources.Nodup ∧ sources.toFinset = (s.peers x).published.keys := of_decide_eq_true hr
  have hk' : (s.peers x).published.lookup source = some k := hk
  have hsource : source ∈ sources := by
    rw [← List.mem_toFinset,hr'.2,GoMap.mem_keys_iff]
    exact ⟨k,hk'⟩
  refine List.mem_filterMap.mpr ⟨source,hsource,?_⟩
  rw [hk']
  rfl

theorem mem_audioTracks {sources : List Source} {k : TrackRef} (h : k ∈ s.audioTracks x sources) :
    ∃ source, (s.wire x).published.lookup source = some k ∧ (s.link k).kind = .audio := by
  obtain ⟨sp,hsp,hk⟩ := List.mem_map.mp h
  obtain ⟨hm,ha⟩ := List.mem_filter.mp hsp
  subst hk
  exact ⟨sp.1,mem_publishedTracks hm,of_decide_eq_true ha⟩

/-- What a peer is about to subscribe to exists. -/
theorem Subscribes.refers (hg : Grounded s) {u : UserID} {k : TrackRef} {w : Wiring}
    (hs : Subscribes (s.wire sid) u k w) : s.refers u k := by
  have hcont := hg.cont sid
  cases hs with
  | task _ hq =>
    have hm := hg.commands sid
    rw [hq] at hm
    exact hm _ List.mem_cons_self
  | existing hc =>
    rw [hc] at hcont
    exact hcont.1 _ List.mem_cons_self
  | video hc =>
    rw [hc] at hcont
    exact hcont

section Sections
variable (h : Section s sid c E)
include h

/-- Only a session that was issued has anything to run. -/
theorem Section.issued (hg : Grounded s) : sid ∈ s.router.issued := by
  by_contra hn
  obtain ⟨q,hq⟩ := hg.fresh sid hn
  have hcont : (s.wire sid).cont = .idle := congrArg Wiring.cont hq
  have hcommands : (s.wire sid).commands = [] := congrArg Wiring.commands hq
  have hsub : ∀ {u k w}, ¬ Subscribes (s.wire sid) u k w := by
    intro u k w hs
    cases hs <;> simp_all
  cases h with
  | move hm =>
    rw [hcont] at hm
    cases hm
  | resubscribe hs => exact hsub hs
  | noLocal hs => exact hsub hs
  | notAdded hs => exact hsub hs
  | subscribe hs => exact hsub hs
  | closeSub hc | subscribeOther hc | closeSubscriber hc => simp_all
  | take _ hc | offered _ hc | offerFailed _ hc | publish _ hc | unsubscribe _ hc | close _ hc =>
    simp_all

theorem Section.toPeer : E.wire.toPeer = (s.wire sid).toPeer := by
  cases h with
  | resubscribe hs | noLocal hs | notAdded hs | subscribe hs => cases hs <;> rfl
  | _ => rfl

theorem Section.published {source : Source} {k : TrackRef}
    (hk : (s.wire sid).published.lookup source = some k) :
    E.wire.published.lookup source = some k := by
  cases h with
  | resubscribe hs | noLocal hs | notAdded hs | subscribe hs => cases hs <;> exact hk
  | @publish mid kind rid codec source' rest _ _ _ _ hnone =>
    rw [GoMap.lookup_insert_eq]
    split
    · rename_i he
      rw [he,hnone] at hk
      cases hk
    · exact hk
  | _ => exact hk

theorem Section.nextTrack : s.nextTrack ≤ E.nextTrack := by
  cases h with
  | publish => exact Nat.le_succ _
  | _ => exact Nat.le_refl _

theorem Section.link {k : TrackRef} (hk : k < s.nextTrack) : (E.links k).source = (s.link k).source ∧
    (E.links k).kind = (s.link k).kind ∧ (E.links k).owner = (s.link k).owner := by
  have hupd : ∀ (pub : TrackRef) (l : Link), l.source = (s.link pub).source →
      l.kind = (s.link pub).kind → l.owner = (s.link pub).owner →
      (Function.update s.link pub l k).source = (s.link k).source ∧
        (Function.update s.link pub l k).kind = (s.link k).kind ∧
        (Function.update s.link pub l k).owner = (s.link k).owner := by
    intro pub l h1 h2 h3
    by_cases hp : k = pub
    · subst hp
      rw [Function.update_self]
      exact ⟨h1,h2,h3⟩
    · rw [Function.update_of_ne hp]
      exact ⟨rfl,rfl,rfl⟩
  cases h with
  | notAdded | subscribe | unsubscribe | closeSub => exact hupd _ _ rfl rfl rfl
  | publish =>
    dsimp only
    rw [Function.update_of_ne (Nat.ne_of_lt hk)]
    exact ⟨rfl,rfl,rfl⟩
  | _ => exact ⟨rfl,rfl,rfl⟩

theorem Section.commands {fn : Task} (hfn : fn ∈ E.wire.commands) : fn ∈ (s.wire sid).commands := by
  have hsub : ∀ {u k w}, Subscribes (s.wire sid) u k w → fn ∈ w.commands →
      fn ∈ (s.wire sid).commands := by
    intro u k w hs hm
    cases hs with
    | task _ hq => rw [hq]; exact List.mem_cons_of_mem _ hm
    | existing _ => exact hm
    | video _ => exact hm
  cases h with
  | resubscribe hs => exact hsub hs hfn
  | noLocal hs => exact hsub hs hfn
  | notAdded hs => exact hsub hs hfn
  | subscribe hs => exact hsub hs hfn
  | take _ hq => rw [hq]; exact List.mem_cons_of_mem _ hfn
  | offered _ hq => rw [hq]; exact List.mem_cons_of_mem _ hfn
  | offerFailed _ hq => rw [hq]; exact List.mem_cons_of_mem _ hfn
  | publish _ hq => rw [hq]; exact List.mem_cons_of_mem _ hfn
  | unsubscribe _ hq => rw [hq]; exact List.mem_cons_of_mem _ hfn
  | close _ hq => rw [hq]; exact List.mem_cons_of_mem _ hfn
  | _ => exact hfn

theorem Section.ask (hg : Grounded s) {y : SessionID} {fn : Task} (ha : E.ask = some (y,fn)) :
    y ∈ s.router.issued ∧ TaskOk s fn := by
  have hcont := hg.cont sid
  cases h with
  | subscribeOther hc =>
    cases ha
    rw [hc] at hcont
    obtain ⟨⟨hk,ho⟩,hos⟩ := hcont
    refine ⟨hos _ List.mem_cons_self,hk,?_⟩
    rw [ho]
  | closeSubscriber hc hy =>
    cases ha
    exact ⟨(hg.rooms _ _ _ hy).1,trivial⟩
  | _ => cases ha

theorem Section.subs (hg : Grounded s) {key : SubKey} {k : TrackRef}
    (hk : E.wire.subs.lookup key = some k) : (s.wire sid).subs.lookup key = some k ∨
      (s.refers key.publisherUserID k ∧ (s.link k).source = key.source) := by
  have herase : ∀ {key'}, ((s.wire sid).subs.erase key').lookup key = some k →
      (s.wire sid).subs.lookup key = some k := fun he => (GoMap.lookup_of_erase he).2
  cases h with
  | resubscribe hs => left; rw [← hs.subs]; exact hk
  | noLocal hs => left; rw [← hs.subs]; exact hk
  | notAdded hs => left; rw [← hs.subs]; exact hk
  | subscribe hs =>
    rw [GoMap.lookup_insert_eq] at hk
    split at hk
    · rename_i he
      cases hk
      subst he
      exact Or.inr ⟨hs.refers hg,rfl⟩
    · exact Or.inl hk
  | unsubscribe => exact Or.inl (herase hk)
  | closeSub => exact Or.inl (herase hk)
  | _ => exact Or.inl hk

theorem Section.cont (hg : Grounded s) (hx : Extends s s') (ha : Applied s sid E s') :
    ContOk s' sid E.wire.cont := by
  have hcont := hx.contOk hg (hg.cont sid)
  have hothers : ∀ {users os}, s.others sid users = some os → s'.issuedAll os := by
    intro users os ho o hm
    obtain ⟨u,-,hu⟩ := (mem_others ho o).mp hm
    exact hx.issued (hg.rooms _ _ _ hu).1
  have hsub : ∀ {u k w}, Subscribes (s.wire sid) u k w → ContOk s' sid w.cont := by
    intro u k w hs
    cases hs with
    | task hc => rw [hc] at hcont; simp only [hc]; exact hcont
    | existing hc =>
      rw [hc] at hcont
      exact ⟨fun k' hk' => hcont.1 k' (List.mem_cons_of_mem _ hk'),hcont.2⟩
    | video => trivial
  cases h with
  | move hm =>
    generalize (s.wire sid).cont = k₀ at hm hcont
    cases hm with
    | scanRoom ho => exact hothers ho
    | @scanPeer o os =>
      refine ⟨fun k hk => hx.refers hg ?_,fun o' ho' => hcont o' (List.mem_cons_of_mem _ ho')⟩
      obtain ⟨source,hp,-⟩ := mem_audioTracks hk
      obtain ⟨⟨hlt,ho⟩,-⟩ := hg.published _ _ _ hp
      exact ⟨hlt,by rw [ho]; rfl⟩
    | peerScanned => exact hcont.2
    | snapshotRoom ho => exact hothers ho
    | snapshotPeer => exact fun o ho => hcont o (List.mem_cons_of_mem _ ho)
    | trackAdded => exact hcont
    | announce =>
      split
      · exact hcont
      · trivial
    | notifyRoom ho => exact ⟨hcont,hothers ho⟩
    | subsClosed => exact fun sp hsp => hx.published _ _ _ (mem_publishedTracks hsp)
    | closeTrack => exact fun sp hsp => hcont sp (List.mem_cons_of_mem _ hsp)
    | subscribersClosed => exact hcont
    | nobody => exact hcont
    | _ => trivial
  | take hc hq _ ht =>
    have htask := hg.commands sid _ (hq ▸ List.mem_cons_self)
    cases ht with
    | anotherLayer hp => exact hx.owns (hg.published _ _ _ hp).1
    | video hp =>
      obtain ⟨⟨hlt,ho⟩,-⟩ := hg.published _ _ _ hp
      exact hx.refers hg ⟨hlt,by rw [ho]; exact htask.2⟩
    | _ => trivial
  | offered => trivial
  | offerFailed hc => rw [hc] at hcont; simp only [hc]; exact hcont
  | publish =>
    refine ⟨?_,?_⟩
    · rw [ha.nextTrack]
      exact Nat.lt_succ_self _
    · rw [ha.link]
      simp
  | resubscribe hs => exact hsub hs
  | noLocal hs => exact hsub hs
  | notAdded hs => exact hsub hs
  | subscribe hs =>
    have hs' := hsub hs
    exact hs'
  | unsubscribe hc => rw [hc] at hcont; simp only [hc]; exact hcont
  | close => trivial
  | closeSub => trivial
  | subscribeOther hc =>
    rw [hc] at hcont
    exact ⟨hcont.1,fun o ho => hcont.2 o (List.mem_cons_of_mem _ ho)⟩
  | closeSubscriber hc => rw [hc] at hcont; exact hcont

/-- A track that is published for the first time gets the next reference. -/
theorem Section.published_new {source : Source} {k : TrackRef}
    (hk : E.wire.published.lookup source = some k) :
    (s.wire sid).published.lookup source = some k ∨
      (k < E.nextTrack ∧ (E.links k).owner = sid ∧ (E.links k).source = source) := by
  cases h with
  | resubscribe hs | noLocal hs | notAdded hs | subscribe hs => cases hs <;> exact Or.inl hk
  | publish =>
    rw [GoMap.lookup_insert_eq] at hk
    split at hk
    · rename_i he
      cases hk
      dsimp only
      rw [Function.update_self]
      exact Or.inr ⟨Nat.lt_succ_self _,rfl,he.symm⟩
    · exact Or.inl hk
  | _ => exact Or.inl hk

theorem Section.owner {k : TrackRef} (hk : k < E.nextTrack) (hn : ¬ k < s.nextTrack) :
    (E.links k).owner = sid ∧ E.wire.published.lookup (E.links k).source = some k := by
  cases h with
  | publish =>
    have he : k = s.nextTrack := Nat.le_antisymm (Nat.lt_succ_iff.mp hk) (Nat.le_of_not_lt hn)
    subst he
    dsimp only
    rw [Function.update_self]
    exact ⟨rfl,Finmap.lookup_insert _⟩
  | _ => exact absurd hk hn

end Sections

/-- A section about the peer's own wiring alone reads the same in the queue's new owner. -/
theorem asked_toPeer (a : Option (SessionID × Task)) (x : SessionID) (w : Wiring) :
    (asked a x w).toPeer = w.toPeer := by
  obtain ⟨l,hl,-⟩ := asked_eq a x w
  rw [hl]

theorem asked_published (a : Option (SessionID × Task)) (x : SessionID) (w : Wiring) :
    (asked a x w).published = w.published := by
  obtain ⟨l,hl,-⟩ := asked_eq a x w
  rw [hl]

theorem asked_subs (a : Option (SessionID × Task)) (x : SessionID) (w : Wiring) :
    (asked a x w).subs = w.subs := by
  obtain ⟨l,hl,-⟩ := asked_eq a x w
  rw [hl]

theorem asked_cont (a : Option (SessionID × Task)) (x : SessionID) (w : Wiring) :
    (asked a x w).cont = w.cont := by
  obtain ⟨l,hl,-⟩ := asked_eq a x w
  rw [hl]

theorem asked_commands {a : Option (SessionID × Task)} {w : Wiring} {fn : Task}
    (h : fn ∈ (asked a x w).commands) : fn ∈ w.commands ∨ a = some (x,fn) := by
  obtain ⟨l,hl,hm⟩ := asked_eq a x w
  rw [hl] at h
  exact hm fn h

theorem asked_of_ne {y : SessionID} {fn : Task} {w : Wiring} (h : x ≠ y) :
    asked (some (y,fn)) x w = w := if_neg h

/-- Whoever runs, a peer stays who it is and where it belongs. -/
theorem Applied.toPeer (ha : Applied s sid E s') (hs : Section s sid c E) (x : SessionID) :
    (s'.wire x).toPeer = (s.wire x).toPeer := by
  rw [ha.wire,asked_toPeer]
  split
  · rename_i hx
    rw [hs.toPeer,hx]
  · rfl

theorem Applied.extends (hs : Section s sid c E) (ha : Applied s sid E s') : Extends s s' where
  issued := by rw [ha.router]
  toPeer x _ := ha.toPeer hs x
  published x source k hk := by
    rw [ha.wire,asked_published]
    split
    · rename_i hx
      subst hx
      exact hs.published hk
    · exact hk
  nextTrack := by
    rw [ha.nextTrack]
    exact hs.nextTrack
  link k hk := by
    rw [ha.link]
    exact hs.link hk

theorem Section.grounded (hg : Grounded s) (hs : Section s sid c E) (ha : Applied s sid E s') :
    Grounded s' := by
  have hx := ha.extends hs
  have hissued : s'.router.issued = s.router.issued := by rw [ha.router]
  have hask : ∀ {y fn}, E.ask = some (y,fn) → y ∈ s.router.issued ∧ TaskOk s fn := hs.ask hg
  constructor
  case fresh =>
    intro y hy
    rw [hissued] at hy
    obtain ⟨q,hq⟩ := hg.fresh y hy
    refine ⟨q,?_⟩
    have hne : y ≠ sid := by
      rintro rfl
      exact hy (hs.issued hg)
    rw [ha.wire,if_neg hne]
    rcases he : E.ask with _ | ⟨z,fn⟩
    · exact hq
    · rw [asked_of_ne]
      · exact hq
      · rintro rfl
        exact hy (hask he).1
  case registered =>
    intro y p hp
    rw [ha.router] at hp ⊢
    obtain ⟨h1,h2,h3⟩ := hg.registered y p hp
    exact ⟨h1,h2,(hx.toPeer y h2).trans h3⟩
  case routing =>
    intro t p hp
    rw [ha.router] at hp ⊢
    obtain ⟨h1,h2⟩ := hg.routing t p hp
    exact ⟨h1,(hx.toPeer _ h1).trans h2⟩
  case rooms =>
    intro r u y hy
    rw [ha.router] at hy ⊢
    obtain ⟨h1,h2⟩ := hg.rooms r u y hy
    exact ⟨h1,(hx.userID h1).trans h2⟩
  case calls =>
    intro t
    rw [ha.calls]
    exact hx.callOk hg (hg.calls t)
  case commands =>
    intro y fn hfn
    rw [ha.wire] at hfn
    rcases asked_commands hfn with hm | he
    · split at hm
      · rename_i hy
        subst hy
        exact hx.taskOk hg (hg.commands y fn (hs.commands hm))
      · exact hx.taskOk hg (hg.commands y fn hm)
    · exact hx.taskOk hg (hask he).2
  case cont =>
    intro y
    rw [ha.wire,asked_cont]
    split
    · rename_i hy
      subst hy
      exact hs.cont hg hx ha
    · exact hx.contOk hg (hg.cont y)
  case subs =>
    have hold : ∀ {key : SubKey} {k}, s.refers key.publisherUserID k ∧ (s.link k).source = key.source →
        s'.refers key.publisherUserID k ∧ (s'.link k).source = key.source :=
      fun h => ⟨hx.refers hg h.1,(hx.link _ h.1.1).1.trans h.2⟩
    intro y key k hk
    rw [ha.wire,asked_subs] at hk
    split at hk
    · rename_i hy
      subst hy
      rcases hs.subs hg hk with ho | hn
      · exact hold (hg.subs y key k ho)
      · exact hold hn
    · exact hold (hg.subs y key k hk)
  case published =>
    have hold : ∀ {y source k}, s.owns y k ∧ (s.link k).source = source →
        s'.owns y k ∧ (s'.link k).source = source :=
      fun h => ⟨hx.owns h.1,(hx.link _ h.1.1).1.trans h.2⟩
    intro y source k hk
    rw [ha.wire,asked_published] at hk
    split at hk
    · rename_i hy
      subst hy
      rcases hs.published_new hk with ho | ⟨h1,h2,h3⟩
      · exact hold (hg.published y source k ho)
      · rw [← ha.nextTrack] at h1
        rw [← ha.link] at h2 h3
        exact ⟨⟨h1,h2⟩,h3⟩
    · exact hold (hg.published y source k hk)
  case owner =>
    intro k hk
    by_cases hlt : k < s.nextTrack
    · obtain ⟨ho,hp⟩ := hg.owner k hlt
      rw [(hx.link k hlt).1,(hx.link k hlt).2.2]
      exact ⟨hx.issued ho,hx.published _ _ _ hp⟩
    · rw [ha.nextTrack] at hk
      obtain ⟨ho,hp⟩ := hs.owner hk hlt
      rw [ha.link,ho,ha.wire,asked_published,if_pos rfl]
      exact ⟨hx.issued (hs.issued hg),hp⟩

/-- A member of a room after a section of the router was one before, or has just been
added. -/
theorem router_rooms {r r' : SfuRouter.State} {re : SfuRouter.Event} (he : SfuRouter.step r re = some r')
    {k : RoomRef} {u : UserID} {x : SessionID} (hx : (r'.heap k).peerByUserID u = some x) :
    (r.heap k).peerByUserID u = some x ∨
      ∃ t p, r.calls t = .joinAdd p ∧ p.userID = u ∧ p.sessionID = x := by
  obtain ⟨-,hv⟩ := SfuRouter.step_view he
  have hupd : ∀ {m : RoomRef} {room : Room}, Function.update r.heap m room k = r'.heap k →
      (∀ y, room.peerByUserID u = some y → (r.heap m).peerByUserID u = some y) →
      (r.heap k).peerByUserID u = some x := by
    intro m room hr hroom
    rw [← hr] at hx
    by_cases hk : k = m
    · subst hk
      rw [Function.update_self] at hx
      exact hroom x hx
    · rw [Function.update_of_ne hk] at hx
      exact hx
  cases hv with
  | @joinNew t sid u' c =>
    refine Or.inl (hupd (m := r.nextRoom) rfl (fun y hy => ?_))
    cases hy
  | @roomAdd t p hc =>
    by_cases hk : k = p.room
    · subst hk
      simp only [SfuRouter.State.roomAdd, SfuRouter.State.setCall, SfuRouter.State.setRoom,
        Function.update_self, Room.peerByUserID_add] at hx
      split at hx
      · rename_i hu
        cases hx
        exact Or.inr ⟨t,p,hc,hu.symm,rfl⟩
      · exact Or.inl hx
    · simp only [SfuRouter.State.roomAdd, SfuRouter.State.setCall, SfuRouter.State.setRoom,
        Function.update_of_ne hk] at hx
      exact Or.inl hx
  | @roomRemove t p m hc =>
    refine Or.inl (hupd (m := m) rfl (fun y hy => ?_))
    rw [Room.peerByUserID_remove] at hy
    split at hy
    · cases hy
    · exact hy
  | @removeUser t p m hc => exact Or.inl (hupd (m := m) rfl (fun y hy => hy))
  | @drop t p m hc hf => exact Or.inl (hupd (m := m) rfl (fun y hy => hy))
  | @markLoud m u' now hl => exact Or.inl (hupd (m := m) rfl (fun y hy => hy))
  | @sweep m now hl => exact Or.inl (hupd (m := m) rfl (fun y hy => hy))
  | _ => exact Or.inl hx

/-- The peer in a call of the router was there before, or has just been looked up, or has
just been registered. -/
theorem router_carried {r r' : SfuRouter.State} {re : SfuRouter.Event}
    (he : SfuRouter.step r re = some r') {t : CallID} {p : SfuRouter.Peer}
    (hp : carried (r'.calls t) = some p) : (∃ j, carried (r.calls j) = some p) ∨
      (∃ sid, r.peers.lookup sid = some p) ∨ r'.peers.lookup p.sessionID = some p := by
  obtain ⟨-,hv⟩ := SfuRouter.step_view he
  have hupd : ∀ {j : CallID} {k : SfuRouter.Call}, Function.update r.calls j k t = r'.calls t →
      (∀ q, carried k = some q → (∃ j, carried (r.calls j) = some q) ∨
        (∃ sid, r.peers.lookup sid = some q) ∨ r'.peers.lookup q.sessionID = some q) →
      (∃ j, carried (r.calls j) = some p) ∨
        (∃ sid, r.peers.lookup sid = some p) ∨ r'.peers.lookup p.sessionID = some p := by
    intro j k hr hk
    rw [← hr] at hp
    by_cases ht : t = j
    · subst ht
      rw [Function.update_self] at hp
      exact hk p hp
    · rw [Function.update_of_ne ht] at hp
      exact Or.inl ⟨t,hp⟩
  have hkeep : ∀ {j : CallID} {q : SfuRouter.Peer} {k : SfuRouter.Call},
      carried (r.calls j) = some q → carried k = some q → Function.update r.calls j k t = r'.calls t →
      (∃ j, carried (r.calls j) = some p) ∨
        (∃ sid, r.peers.lookup sid = some p) ∨ r'.peers.lookup p.sessionID = some p := by
    intro j q k hq hk hr
    refine hupd hr (fun q' hq' => Or.inl ⟨j,?_⟩)
    rw [hq,← hk,hq']
  cases hv with
  | @joinOld j sid u c k =>
    refine hupd (j := j) (k := .joinAdd ⟨sid,u,c,k⟩) rfl (fun q hq => ?_)
    cases hq
    exact Or.inr (Or.inr (Finmap.lookup_insert _))
  | @joinNew j sid u c =>
    refine hupd (j := j) (k := .joinAdd ⟨sid,u,c,r.nextRoom⟩) rfl (fun q hq => ?_)
    cases hq
    exact Or.inr (Or.inr (Finmap.lookup_insert _))
  | roomAdd hc =>
    refine hupd rfl (fun q hq => ?_)
    cases hq
  | @leaveRoom j sid q k hi hq =>
    refine hupd (j := j) (k := .leaveRemove q k) rfl (fun q' hq' => ?_)
    cases hq'
    exact Or.inr (Or.inl ⟨sid,hq⟩)
  | @leaveNoRoom j sid q hi hq =>
    refine hupd (j := j) (k := .leaveClose q) rfl (fun q' hq' => ?_)
    cases hq'
    exact Or.inr (Or.inl ⟨sid,hq⟩)
  | @roomRemove j q k hc => exact hkeep (k := .leaveRemoveUser q k) (by rw [hc]; rfl) rfl rfl
  | @removeUser j q k hc => exact hkeep (k := .leaveIsEmpty q k) (by rw [hc]; rfl) rfl rfl
  | @isEmpty j q k hc =>
    refine hkeep (q := q) (by rw [hc]; rfl) ?_ rfl
    split <;> rfl
  | @drop j q k hc => exact hkeep (k := .leaveClose q) (by rw [hc]; rfl) rfl rfl
  | @keep j q k hc => exact hkeep (k := .leaveClose q) (by rw [hc]; rfl) rfl rfl
  | @peerClose j q hc =>
    refine hupd (j := j) (k := .idle) rfl (fun q' hq' => ?_)
    cases hq'
  | _ => exact Or.inl ⟨t,hp⟩

/-- The sessions registered after a section of the router. -/
theorem router_peers {r r' : SfuRouter.State} {re : SfuRouter.Event} (he : SfuRouter.step r re = some r')
    {p : SfuRouter.Peer} (hp : r'.peers.lookup x = some p) : r.peers.lookup x = some p ∨
      (x ∉ r.issued ∧ x ∈ r'.issued ∧ p.sessionID = x ∧ ∃ t c, re = .join t x p.userID c) := by
  obtain ⟨-,hv⟩ := SfuRouter.step_view he
  have hins : ∀ {t : CallID} {q : SfuRouter.Peer}, q.sessionID ∉ r.issued →
      re = .join t q.sessionID q.userID q.channelID → r'.peers = r.peers.insert q.sessionID q →
      r'.issued = insert q.sessionID r.issued → r.peers.lookup x = some p ∨
        (x ∉ r.issued ∧ x ∈ r'.issued ∧ p.sessionID = x ∧ ∃ t c, re = .join t x p.userID c) := by
    intro t q hn hre hr hi
    rw [hr,GoMap.lookup_insert_eq] at hp
    split at hp
    · rename_i hx
      cases hp
      rw [hi,hx]
      exact Or.inr ⟨hn,Finset.mem_insert_self _ _,rfl,t,_,hre⟩
    · exact Or.inl hp
  have herase : ∀ {y : SessionID}, r'.peers = r.peers.erase y → r.peers.lookup x = some p := by
    intro y hr
    rw [hr] at hp
    exact (GoMap.lookup_of_erase hp).2
  cases hv with
  | joinOld _ hn => exact hins hn rfl rfl rfl
  | joinNew _ hn => exact hins hn rfl rfl rfl
  | leaveRoom => exact Or.inl (herase rfl)
  | leaveNoRoom => exact Or.inl (herase rfl)
  | _ => exact Or.inl hp

theorem Wiring.close_eq (w : Wiring) : ∃ l b, w.close = { w with commands := l, closeOnce := b } ∧
    ∀ fn ∈ l, fn ∈ w.commands ∨ fn = .doClose := by
  unfold Wiring.close Wiring.enqueue
  split
  · exact ⟨w.commands,w.closeOnce,rfl,fun fn hfn => Or.inl hfn⟩
  · split
    · exact ⟨w.commands,true,rfl,fun fn hfn => Or.inl hfn⟩
    · split
      · refine ⟨_,true,rfl,fun fn hfn => ?_⟩
        rcases List.mem_append.mp hfn with hm | hm
        · exact Or.inl hm
        · exact Or.inr (List.mem_singleton.mp hm)
      · exact ⟨w.commands,true,rfl,fun fn hfn => Or.inl hfn⟩

theorem Routes.eq_or {re : SfuRouter.Event} {r : SfuRouter.State} {w : SessionID → Wiring}
    (h : Routes s re r w) (x : SessionID) : w x = s.wire x ∨
      (∃ t u c k, re = .join t x u c ∧ x ∉ s.router.issued ∧ w x = wiring (newPeer ⟨x,u,c,k⟩)) ∨
      (∃ t p, s.router.calls t = .leaveClose p ∧ p.sessionID = x ∧ w x = (s.wire x).close) := by
  cases h with
  | @join t sid u c r k hn =>
    by_cases hx : x = sid
    · subst hx
      exact Or.inr (Or.inl ⟨t,u,c,k,rfl,hn,Function.update_self _ _ _⟩)
    · exact Or.inl (Function.update_of_ne hx _ _)
  | @close t p r hc =>
    by_cases hx : x = p.sessionID
    · subst hx
      exact Or.inr (Or.inr ⟨t,p,hc,rfl,Function.update_self _ _ _⟩)
    · exact Or.inl (Function.update_of_ne hx _ _)
  | other => exact Or.inl rfl

theorem Routes.issued {re : SfuRouter.Event} {r : SfuRouter.State} {w : SessionID → Wiring}
    (h : Routes s re r w) : s.router.issued ⊆ r.issued := by
  cases h with
  | join _ hi => rw [hi]; exact Finset.subset_insert _ _
  | close _ hr => rw [hr]; exact Finset.Subset.refl _
  | other _ _ hi => rw [hi]

/-- A section of the router leaves every session's subscriptions and tracks alone. -/
theorem Routes.keeps {re : SfuRouter.Event} {r : SfuRouter.State} {w : SessionID → Wiring}
    (hg : Grounded s) (h : Routes s re r w) (x : SessionID) :
    (x ∈ s.router.issued → (w x).toPeer = (s.wire x).toPeer) ∧ (w x).subs = (s.wire x).subs ∧
      (w x).published = (s.wire x).published ∧ (w x).cont = (s.wire x).cont ∧
      ∀ fn ∈ (w x).commands, fn ∈ (s.wire x).commands ∨ fn = .doClose := by
  rcases h.eq_or x with hw | ⟨t,u,c,k,-,hn,hw⟩ | ⟨t,p,-,-,hw⟩
  · rw [hw]
    exact ⟨fun _ => rfl,rfl,rfl,rfl,fun fn hfn => Or.inl hfn⟩
  · obtain ⟨q,hq⟩ := hg.fresh x hn
    rw [hw,hq]
    exact ⟨fun hx => absurd hx hn,rfl,rfl,rfl,fun fn hfn => nomatch hfn⟩
  · obtain ⟨l,b,hl,hm⟩ := (s.wire x).close_eq
    rw [hw,hl]
    exact ⟨fun _ => rfl,rfl,rfl,rfl,hm⟩

theorem router_extends {re : SfuRouter.Event} {r : SfuRouter.State} {w : SessionID → Wiring}
    (hg : Grounded s) (h : Routes s re r w) (hw : ∀ x, (s.routed re r).wire x = w x) :
    Extends s (s.routed re r) := by
  obtain ⟨hlink,hnext,-,hrouter,-⟩ := routed_link s re r
  constructor
  case issued => rw [hrouter]; exact h.issued
  case toPeer => intro x hx; rw [hw]; exact (h.keeps hg x).1 hx
  case published =>
    intro x source k hk
    rw [hw,(h.keeps hg x).2.2.1]
    exact hk
  case nextTrack => rw [hnext]
  case link => intro k _; rw [hlink]; exact ⟨rfl,rfl,rfl⟩

theorem router_grounded {re : SfuRouter.Event} {r : SfuRouter.State} {w : SessionID → Wiring}
    (hg : Grounded s) (he : SfuRouter.step s.router re = some r) (h : Routes s re r w)
    (hw : ∀ x, (s.routed re r).wire x = w x) : Grounded (s.routed re r) := by
  have hx := router_extends hg h hw
  obtain ⟨hlink,hnext,-,hrouter,hcalls⟩ := routed_link s re r
  have hreg : ∀ y p, r.peers.lookup y = some p →
      p.sessionID = y ∧ y ∈ r.issued ∧ ((s.routed re r).wire y).toPeer = p := by
    intro y p hp
    rcases router_peers he hp with ho | ⟨hn,hi,hsid,t,c,hre⟩
    · obtain ⟨h1,h2,h3⟩ := hg.registered y p ho
      exact ⟨h1,h.issued h2,(hx.toPeer y h2).trans h3⟩
    · generalize p.userID = u at hre
      subst hre
      refine ⟨hsid,hi,?_⟩
      rw [hw]
      cases h with
      | join _ _ hpeers =>
        rw [hpeers,Finmap.lookup_insert] at hp
        cases hp
        rw [Function.update_self]
        rfl
      | other hj => exact absurd rfl (hj t y _ c)
  constructor
  case fresh =>
    intro y hy
    rw [hrouter] at hy
    have hn : y ∉ s.router.issued := fun hm => hy (h.issued hm)
    obtain ⟨q,hq⟩ := hg.fresh y hn
    refine ⟨q,?_⟩
    rw [hw]
    rcases h.eq_or y with hy' | ⟨t,u,c,k,hre,-,-⟩ | ⟨t,p,hc,hp,-⟩
    · exact hy'.trans hq
    · subst hre
      cases h with
      | join _ hi => exact absurd (by rw [hi]; exact Finset.mem_insert_self _ _) hy
      | other hj => exact absurd rfl (hj t y u c)
    · have hi := (hg.routing t p (by rw [hc]; rfl)).1
      rw [hp] at hi
      exact absurd hi hn
  case registered =>
    intro y p hp
    rw [hrouter] at hp ⊢
    exact hreg y p hp
  case routing =>
    intro t p hp
    rw [hrouter] at hp ⊢
    rcases router_carried he hp with ⟨t',ho⟩ | ⟨y,ho⟩ | hn
    · obtain ⟨h1,h2⟩ := hg.routing t' p ho
      exact ⟨h.issued h1,(hx.toPeer _ h1).trans h2⟩
    · obtain ⟨h1,h2,h3⟩ := hg.registered y p ho
      rw [h1]
      exact ⟨h.issued h2,(hx.toPeer _ h2).trans h3⟩
    · obtain ⟨-,h2,h3⟩ := hreg _ p hn
      exact ⟨h2,h3⟩
  case rooms =>
    intro m u y hy
    rw [hrouter] at hy ⊢
    have hold : y ∈ s.router.issued → (s.wire y).userID = u →
        y ∈ r.issued ∧ ((s.routed re r).wire y).userID = u :=
      fun h1 h2 => ⟨h.issued h1,(hx.userID h1).trans h2⟩
    rcases router_rooms he hy with ho | ⟨t,p,hc,hu,hp⟩
    · exact hold (hg.rooms m u y ho).1 (hg.rooms m u y ho).2
    · obtain ⟨h1,h2⟩ := hg.routing t p (by rw [hc]; rfl)
      rw [hp] at h1 h2
      refine hold h1 ?_
      rw [← hu,← h2]
  case calls => intro t; rw [hcalls]; exact hx.callOk hg (hg.calls t)
  case commands =>
    intro y fn hfn
    rw [hw] at hfn
    rcases (h.keeps hg y).2.2.2.2 fn hfn with ho | rfl
    · exact hx.taskOk hg (hg.commands y fn ho)
    · trivial
  case cont =>
    intro y
    rw [hw,(h.keeps hg y).2.2.2.1]
    exact hx.contOk hg (hg.cont y)
  case subs =>
    intro y key k hk
    rw [hw,(h.keeps hg y).2.1] at hk
    obtain ⟨h1,h2⟩ := hg.subs y key k hk
    exact ⟨hx.refers hg h1,by rw [hlink]; exact h2⟩
  case published =>
    intro y source k hk
    rw [hw,(h.keeps hg y).2.2.1] at hk
    obtain ⟨h1,h2⟩ := hg.published y source k hk
    exact ⟨hx.owns h1,by rw [hlink]; exact h2⟩
  case owner =>
    intro k hk
    rw [hnext] at hk
    obtain ⟨h1,h2⟩ := hg.owner k hk
    rw [hlink]
    exact ⟨hx.issued h1,hx.published _ _ _ h2⟩

/-- The rest of a peer while only its queue and its announced states change. -/
structure OnlyQueued (s s' : State) : Prop where
  router : s'.router = s.router
  link : s'.link = s.link
  nextTrack : s'.nextTrack = s.nextTrack
  wire : ∀ y, ∃ l m, s'.wire y = { s.wire y with commands := l, publishState := m } ∧
    ∀ fn ∈ l, fn ∈ (s.wire y).commands ∨ TaskOk s fn
  fresh : ∀ y, y ∉ s.router.issued → s'.wire y = s.wire y

theorem OnlyQueued.extends (h : OnlyQueued s s') : Extends s s' where
  issued := by rw [h.router]
  toPeer x _ := by
    obtain ⟨l,m,hw,-⟩ := h.wire x
    rw [hw]
  published x source k hk := by
    obtain ⟨l,m,hw,-⟩ := h.wire x
    rw [hw]
    exact hk
  nextTrack := by rw [h.nextTrack]
  link k _ := by
    rw [h.link]
    exact ⟨rfl,rfl,rfl⟩

theorem OnlyQueued.grounded (hg : Grounded s) (h : OnlyQueued s s')
    (hcalls : ∀ t, CallOk s (s'.calls t)) : Grounded s' := by
  have hx := h.extends
  constructor
  case fresh =>
    intro y hy
    rw [h.router] at hy
    rw [h.fresh y hy]
    exact hg.fresh y hy
  case registered =>
    intro y p hp
    rw [h.router] at hp ⊢
    obtain ⟨h1,h2,h3⟩ := hg.registered y p hp
    exact ⟨h1,h2,(hx.toPeer y h2).trans h3⟩
  case routing =>
    intro t p hp
    rw [h.router] at hp ⊢
    obtain ⟨h1,h2⟩ := hg.routing t p hp
    exact ⟨h1,(hx.toPeer _ h1).trans h2⟩
  case rooms =>
    intro r u y hy
    rw [h.router] at hy ⊢
    obtain ⟨h1,h2⟩ := hg.rooms r u y hy
    exact ⟨h1,(hx.userID h1).trans h2⟩
  case calls => intro t; exact hx.callOk hg (hcalls t)
  case commands =>
    intro y fn hfn
    obtain ⟨l,m,hw,hl⟩ := h.wire y
    rw [hw] at hfn
    rcases hl fn hfn with ho | hn
    · exact hx.taskOk hg (hg.commands y fn ho)
    · exact hx.taskOk hg hn
  case cont =>
    intro y
    obtain ⟨l,m,hw,-⟩ := h.wire y
    rw [hw]
    exact hx.contOk hg (hg.cont y)
  case subs =>
    intro y key k hk
    obtain ⟨l,m,hw,-⟩ := h.wire y
    rw [hw] at hk
    obtain ⟨h1,h2⟩ := hg.subs y key k hk
    exact ⟨hx.refers hg h1,by rw [h.link]; exact h2⟩
  case published =>
    intro y source k hk
    obtain ⟨l,m,hw,-⟩ := h.wire y
    rw [hw] at hk
    obtain ⟨h1,h2⟩ := hg.published y source k hk
    exact ⟨hx.owns h1,by rw [h.link]; exact h2⟩
  case owner =>
    intro k hk
    rw [h.nextTrack] at hk
    obtain ⟨h1,h2⟩ := hg.owner k hk
    rw [h.link]
    exact ⟨hx.issued h1,hx.published _ _ _ h2⟩

theorem OnlyQueued.setCall (s : State) (t : CallID) (k : Call) : OnlyQueued s (s.setCall t k) where
  router := rfl
  link := rfl
  nextTrack := rfl
  wire y := ⟨(s.wire y).commands,(s.wire y).publishState,rfl,fun _ hfn => Or.inl hfn⟩
  fresh _ _ := rfl

theorem CallOk.setCall (hg : Grounded s) {t : CallID} {k : Call} (hk : CallOk s k) (t' : CallID) :
    CallOk s ((s.setCall t k).calls t') := by
  by_cases ht : t' = t
  · subst ht
    simpa [State.setCall] using hk
  · simpa [State.setCall, ht] using hg.calls t'

theorem Asks.ok (hg : Grounded s) {fn : Task} (h : Asks s e sid fn) :
    sid ∈ s.router.issued ∧ TaskOk s fn ∧ fn ≠ .doClose := by
  cases h with
  | @call t _ _ hc =>
    have hk := hg.calls t
    rw [hc] at hk
    refine ⟨hk.1,hk.2.1,?_⟩
    rintro rfl
    cases hk.2.2
  | onTrack hi => exact ⟨hi,trivial,by simp⟩
  | adminSnapshot hi => exact ⟨hi,trivial,by simp⟩

theorem Asks.onlyQueued (hg : Grounded s) {fn : Task} (h : Asks s e sid fn)
    (hw : ∀ x, s'.wire x = asked (some (sid,fn)) x (s.wire x)) (hlink : s'.link = s.link)
    (hnext : s'.nextTrack = s.nextTrack) (hrouter : s'.router = s.router) : OnlyQueued s s' where
  router := hrouter
  link := hlink
  nextTrack := hnext
  wire y := by
    obtain ⟨l,hl,hm⟩ := asked_eq (some (sid,fn)) y (s.wire y)
    refine ⟨l,(s.wire y).publishState,(hw y).trans hl,fun fn' hfn => (hm fn' hfn).imp_right (fun ha => ?_)⟩
    cases ha
    exact (h.ok hg).2.1
  fresh y hy := by
    rw [hw,asked_of_ne]
    rintro rfl
    exact hy (h.ok hg).1

theorem Calls.ok (hg : Grounded s) {t : CallID} {k : Call} (h : Calls s e t k) : CallOk s k := by
  have hk := hg.calls t
  cases h with
  | @request t sid r hidle hp =>
    obtain ⟨p,hp⟩ := Finmap.mem_iff.mp hp
    have hi := (hg.registered sid p hp).2.1
    cases r with
    | subscribeVideo target source q =>
      simp only [Request.found]
      split
      · exact ⟨hi,trivial,rfl⟩
      · exact hi
    | setPublishState source active => exact hi
    | _ => exact ⟨hi,trivial,rfl⟩
  | roomFor hc => rw [hc] at hk; exact hk
  | peerByUserID hc hp =>
    rw [hc] at hk
    exact ⟨hk,hg.rooms _ _ _ hp,rfl⟩
  | _ => trivial

/-- An announced state is all that `setPublishState` changes of a peer. -/
theorem wire_publishState (s : State) (t : CallID) (sid : SessionID) (source : Source)
    (active : Bool) (x : SessionID) : ∃ m, ((s.setPeer sid { s.peers sid with
      publishState := (s.peers sid).publishState.insert source active }).setCall t .idle).wire x =
      { s.wire x with publishState := m } := by
  have hx := wire_setPeer s sid { s.peers sid with
    publishState := (s.peers sid).publishState.insert source active } x
  by_cases h : x = sid
  · subst h
    exact ⟨_,hx.trans (if_pos rfl)⟩
  · exact ⟨_,hx.trans (if_neg h)⟩

theorem OnlyQueued.publishState {source : Source} {active : Bool} {t : CallID} (hg : Grounded s)
    (hc : s.calls t = .setPublishState sid source active) :
    OnlyQueued s ((s.setPeer sid { s.peers sid with
      publishState := (s.peers sid).publishState.insert source active }).setCall t .idle) := by
  have hi := hg.calls t
  rw [hc] at hi
  have hw : ∀ y, ((s.setPeer sid { s.peers sid with
      publishState := (s.peers sid).publishState.insert source active }).setCall t .idle).wire y =
      if y = sid then { s.wire sid with
        publishState := (s.wire sid).publishState.insert source active } else s.wire y :=
    wire_setPeer s sid _
  refine ⟨rfl,rfl,rfl,fun y => ?_,fun y hy => ?_⟩
  · by_cases hy : y = sid
    · subst hy
      exact ⟨_,_,(hw y).trans (if_pos rfl),fun fn hfn => Or.inl hfn⟩
    · exact ⟨_,_,(hw y).trans (if_neg hy),fun fn hfn => Or.inl hfn⟩
  · rw [hw,if_neg]
    rintro rfl
    exact hy hi

/-- One step: what it mentions existed, or has just come into being. -/
theorem step_extends (hg : Grounded s) (he : step s e = some s') : Extends s s' := by
  obtain ⟨-,hv⟩ := step_wired he
  cases hv with
  | run hs ha => exact ha.extends hs
  | router hr hroutes hw => exact router_extends hg hroutes hw
  | ask h hw hlink hnext _ hrouter => exact (h.onlyQueued hg hw hlink hnext hrouter).extends
  | call => exact (OnlyQueued.setCall _ _ _).extends
  | publishState hc => exact (OnlyQueued.publishState hg hc).extends

theorem step_grounded (hg : Grounded s) (he : step s e = some s') : Grounded s' := by
  obtain ⟨-,hv⟩ := step_wired he
  cases hv with
  | run hs ha => exact hs.grounded hg ha
  | router hr hroutes hw => exact router_grounded hg hr hroutes hw
  | ask h hw hlink hnext _ hrouter hcalls =>
    refine (h.onlyQueued hg hw hlink hnext hrouter).grounded hg (fun t => ?_)
    rcases hcalls t with ht | ⟨-,ht⟩
    · rw [ht]
      exact hg.calls t
    · rw [ht]
      trivial
  | call h => exact (OnlyQueued.setCall _ _ _).grounded hg (CallOk.setCall hg (h.ok hg))
  | publishState hc =>
    exact (OnlyQueued.publishState hg hc).grounded hg (CallOk.setCall hg trivial)

theorem grounded_init : Grounded init where
  fresh x _ := ⟨⟨x,0,0,0⟩,rfl⟩
  registered _ _ hp := nomatch hp
  routing _ _ hp := nomatch hp
  rooms _ _ _ hx := nomatch hx
  calls _ := trivial
  commands _ _ hfn := nomatch hfn
  cont _ := trivial
  subs _ _ _ hk := nomatch hk
  published _ _ _ hk := nomatch hk
  owner _ hk := nomatch hk

end MiniDiscord.SfuMedia
