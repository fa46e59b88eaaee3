import MiniDiscord.Sfu.PeerSections

/-! # What a step of the SFU can do to the wiring

The wiring is who has been told to receive whose track: the subscriptions and the
published tracks of every peer, the subscriber set of every track, and the queues and
program points through which they change. `step_wired` says what each step does to it.
-/
namespace MiniDiscord.SfuMedia
open SfuRoom SfuTrack SfuPeer Transition
open SfuRouter (RoomRef CallID)

/-- A peer without its negotiation. -/
structure Wiring extends SfuRouter.Peer where
  slotBySource : GoMap Source String
  subs : GoMap SubKey TrackRef
  published : GoMap Source TrackRef
  publishState : GoMap Source Bool
  stopped : Bool
  closeOnce : Bool
  commands : List Task
  cont : Cont

def wiring (p : Peer) : Wiring :=
  ⟨p.toPeer,p.slotBySource,p.subs,p.published,p.publishState,p.stopped,p.closeOnce,p.commands,p.cont⟩

/-- A published track without its layers; of a subscriber only that it is there. -/
structure Link where
  source : Source
  kind : RTPCodecType
  owner : SessionID
  users : Finset UserID

def link (t : PublishedTrack) : Link := ⟨t.source,t.kind,t.owner,t.subs.keys⟩

def State.wire (s : State) (x : SessionID) : Wiring := wiring (s.peers x)
def State.link (s : State) (k : TrackRef) : Link := SfuMedia.link (s.tracks k)

namespace Wiring

def enqueue (w : Wiring) (fn : Task) : Wiring :=
  if w.stopped = true then w
  else if w.commands.length < commandsCap then { w with commands := w.commands ++ [fn] }
  else w

def close (w : Wiring) : Wiring :=
  if w.closeOnce = true then w else { w with closeOnce := true }.enqueue .doClose

end Wiring

/-- Offers and errors change nobody's wiring. -/
def muted : Signal → Bool
  | .offer _ _ => true
  | .error _ _ _ _ => true
  | _ => false

/-- Tasks that concern the negotiation only. -/
def talks : Task → Bool
  | .handleAnswer => true
  | .handleCandidate => true
  | .markDetached => true
  | .clearDetached => true
  | .snapshot => true
  | _ => false

/-- Sections that move a peer from one program point to another, and what they send. -/
inductive Moves (s : State) (sid : SessionID) (c : Choice) : Cont → Cont → List Signal → Prop
  | scanRoom {os} : s.others sid c.users = some os →
      Moves s sid c .autoSubscribeToExisting (.autoSubscribePeers os) []
  | scanned : Moves s sid c (.autoSubscribePeers []) .sendTrackSnapshot []
  | scanPeer {o os} : s.rangesPublished o c.sources = true →
      Moves s sid c (.autoSubscribePeers (o :: os))
        (.autoSubscribeTracks (s.peers o).userID (s.audioTracks o c.sources) os) []
  | peerScanned {u os} : Moves s sid c (.autoSubscribeTracks u [] os) (.autoSubscribePeers os) []
  | snapshotRoom {os} : s.others sid c.users = some os →
      Moves s sid c .sendTrackSnapshot (.snapshotPeers os) []
  | snapshotSent : Moves s sid c (.snapshotPeers []) .idle []
  | snapshotPeer {o os} : s.rangesPublished o c.sources = true →
      Moves s sid c (.snapshotPeers (o :: os)) (.snapshotPeers os)
        ((s.videoTrackInfos o c.sources).map
          (.trackPublishedTo (s.peers sid).userID (s.peers sid).channelID))
  | layerAdded {pub rid codec} : Moves s sid c (.addLayer pub rid codec true) .idle []
  | trackAdded {pub rid codec} : Moves s sid c (.addLayer pub rid codec false) (.announce pub) []
  | announce {pub} : Moves s sid c (.announce pub)
      (if (s.tracks pub).kind = .audio then .notifyOthers pub else .idle)
      [.trackPublished (s.peers sid).channelID
        (s.trackInfo (s.peers sid).userID (s.tracks pub).source pub)]
  | notifyRoom {pub os} : s.others sid c.users = some os →
      Moves s sid c (.notifyOthers pub) (.subscribeOthers pub os) []
  | notified {pub} : Moves s sid c (.subscribeOthers pub []) .idle []
  | noSub {key rest} : (s.peers sid).subs.lookup key = none →
      Moves s sid c (.closeSubs (key :: rest)) (.closeSubs rest) []
  | subsClosed : s.rangesPublished sid c.sources = true →
      Moves s sid c (.closeSubs []) (.closeTracks (s.publishedTracks sid c.sources)) []
  | tracksClosed : Moves s sid c (.closeTracks []) .idle []
  | closeTrack {source pub rest} : c.users.toFinset = (s.link pub).users →
      Moves s sid c (.closeTracks ((source,pub) :: rest)) (.closeSubscribers source c.users rest)
        [.trackUnpublished (s.peers sid).channelID (s.trackInfo (s.peers sid).userID source pub)]
  | subscribersClosed {source rest} :
      Moves s sid c (.closeSubscribers source [] rest) (.closeTracks rest) []
  | nobody {source u us rest} : (s.router.heap (s.peers sid).room).peerByUserID u = none →
      Moves s sid c (.closeSubscribers source (u :: us) rest) (.closeSubscribers source us rest) []

/-- Tasks that change the program point only. -/
inductive Takes (s : State) (sid : SessionID) (c : Choice) : Task → Cont → List Signal → Prop
  | talk {fn new} : talks fn = true → (∀ sig ∈ new, muted sig = true) → Takes s sid c fn .idle new
  | unknownMID {mid kind rid codec} : c.source = none →
      Takes s sid c (.handleOnTrack mid kind rid codec) .idle []
  | anotherLayer {mid kind rid codec source pub} : (s.peers sid).published.lookup source = some pub →
      Takes s sid c (.handleOnTrack mid kind rid codec) (.addLayer pub rid codec true) []
  | noSub {u source} : (s.peers sid).subs.lookup ⟨u,source⟩ = none →
      Takes s sid c (.doUnsubscribe u source) .idle []
  | noVideo {publisher u source q new} : (∀ sig ∈ new, muted sig = true) →
      (∀ pub, (s.peers publisher).published.lookup source = some pub → (s.tracks pub).kind ≠ .video) →
      Takes s sid c (.subscribeVideo publisher u source q) .idle new
  | video {publisher u source q pub} : (s.peers publisher).published.lookup source = some pub →
      (s.tracks pub).kind = .video →
      Takes s sid c (.subscribeVideo publisher u source q) (.subscribeVideo u pub q) []

/-- The next section of the peer subscribes it to a track; the last argument is the peer
with the task, or the round of the loop, taken off. -/
inductive Subscribes (w : Wiring) : UserID → TrackRef → Wiring → Prop
  | task {u pub q rest} : w.cont = .idle → w.commands = .doSubscribe u pub q :: rest →
      w.stopped = false → Subscribes w u pub { w with commands := rest }
  | existing {u pub pubs os} : w.cont = .autoSubscribeTracks u (pub :: pubs) os →
      Subscribes w u pub { w with cont := .autoSubscribeTracks u pubs os }
  | video {u pub q} : w.cont = .subscribeVideo u pub q → Subscribes w u pub { w with cont := .idle }

/-- What one section leaves: the peer itself, the tracks, one task for another peer, and
what was sent. -/
structure Effect where
  wire : Wiring
  links : TrackRef → Link
  nextTrack : TrackRef
  ask : Option (SessionID × Task)
  sent : List Signal

/-- A section that leaves the tracks and the other peers alone. -/
def State.quiet (s : State) (w : Wiring) (new : List Signal) : Effect := ⟨w,s.link,s.nextTrack,none,new⟩

def Link.add (l : Link) (u : UserID) : Link := { l with users := insert u l.users }
def Link.remove (l : Link) (u : UserID) : Link := { l with users := l.users.erase u }

/-- Everything a section of `run` can do to the wiring. -/
inductive Section (s : State) (sid : SessionID) (c : Choice) : Effect → Prop
  | move {k new} : Moves s sid c (s.wire sid).cont k new →
      Section s sid c (s.quiet { s.wire sid with cont := k } new)
  | take {fn rest k new} : (s.wire sid).cont = .idle → (s.wire sid).commands = fn :: rest →
      (s.wire sid).stopped = false → Takes s sid c fn k new →
      Section s sid c (s.quiet { s.wire sid with commands := rest, cont := k } new)
  | offered {slots rest} : (s.wire sid).cont = .idle →
      (s.wire sid).commands = .handleOffer slots :: rest → (s.wire sid).stopped = false →
      Section s sid c (s.quiet { s.wire sid with
        commands := rest
        slotBySource := GoMap.collect (fun s => (s.source,s.mid)) slots
        cont := .autoSubscribeToExisting } [.answer (s.wire sid).userID (s.wire sid).sessionID])
  | offerFailed {slots rest new} : (s.wire sid).cont = .idle →
      (s.wire sid).commands = .handleOffer slots :: rest → (s.wire sid).stopped = false →
      c.pc ≠ {} → (∀ sig ∈ new, muted sig = true) →
      Section s sid c (s.quiet { s.wire sid with
        commands := rest
        slotBySource := GoMap.collect (fun s => (s.source,s.mid)) slots } new)
  | publish {mid kind rid codec source rest} : (s.wire sid).cont = .idle →
      (s.wire sid).commands = .handleOnTrack mid kind rid codec :: rest →
      (s.wire sid).stopped = false → (s.wire sid).slotBySource.lookup source = some mid →
      (s.wire sid).published.lookup source = none →
      Section s sid c ⟨{ s.wire sid with
          commands := rest
          published := (s.wire sid).published.insert source s.nextTrack
          cont := .addLayer s.nextTrack rid codec false },
        Function.update s.link s.nextTrack ⟨source,kind,sid,∅⟩,s.nextTrack + 1,none,[]⟩
  | resubscribe {u pub w} : Subscribes (s.wire sid) u pub w →
      ⟨u,(s.link pub).source⟩ ∈ (s.wire sid).subs → Section s sid c (s.quiet w [])
  | noLocal {u pub w} : Subscribes (s.wire sid) u pub w →
      ⟨u,(s.link pub).source⟩ ∉ (s.wire sid).subs → c.pc ≠ {} → Section s sid c (s.quiet w [])
  | notAdded {u pub w} : Subscribes (s.wire sid) u pub w →
      ⟨u,(s.link pub).source⟩ ∉ (s.wire sid).subs → c.pc ≠ {} →
      Section s sid c ⟨w,Function.update s.link pub ((s.link pub).remove (s.wire sid).userID),
        s.nextTrack,none,[]⟩
  | subscribe {u pub w new} : Subscribes (s.wire sid) u pub w →
      ⟨u,(s.link pub).source⟩ ∉ (s.wire sid).subs → (∀ sig ∈ new, muted sig = true) →
      Section s sid c ⟨{ w with subs := (s.wire sid).subs.insert ⟨u,(s.link pub).source⟩ pub },
        Function.update s.link pub ((s.link pub).add (s.wire sid).userID),s.nextTrack,none,new⟩
  | unsubscribe {u source pub rest new} : (s.wire sid).cont = .idle →
      (s.wire sid).commands = .doUnsubscribe u source :: rest → (s.wire sid).stopped = false →
      (s.wire sid).subs.lookup ⟨u,source⟩ = some pub → (∀ sig ∈ new, muted sig = true) →
      Section s sid c ⟨{ s.wire sid with
          commands := rest
          subs := (s.wire sid).subs.erase ⟨u,source⟩ },
        Function.update s.link pub ((s.link pub).remove (s.wire sid).userID),s.nextTrack,none,new⟩
  | close {rest} : (s.wire sid).cont = .idle → (s.wire sid).commands = .doClose :: rest →
      (s.wire sid).stopped = false → c.keys.toFinset = (s.wire sid).subs.keys →
      Section s sid c (s.quiet { s.wire sid with
        commands := rest
        stopped := true
        cont := .closeSubs c.keys } [])
  | closeSub {key rest pub} : (s.wire sid).cont = .closeSubs (key :: rest) →
      (s.wire sid).subs.lookup key = some pub →
      Section s sid c ⟨{ s.wire sid with subs := (s.wire sid).subs.erase key, cont := .closeSubs rest },
        Function.update s.link pub ((s.link pub).remove (s.wire sid).userID),s.nextTrack,none,[]⟩
  | subscribeOther {pub o os} : (s.wire sid).cont = .subscribeOthers pub (o :: os) →
      Section s sid c { s.quiet { s.wire sid with cont := .subscribeOthers pub os } [] with
        ask := some (o,.doSubscribe (s.wire sid).userID pub .high) }
  | closeSubscriber {source u us rest y} :
      (s.wire sid).cont = .closeSubscribers source (u :: us) rest →
      (s.router.heap (s.wire sid).room).peerByUserID u = some y →
      Section s sid c { s.quiet { s.wire sid with cont := .closeSubscribers source us rest } [] with
        ask := some (y,.doUnsubscribe (s.wire sid).userID source) }

/-- A peer after somebody may have put a task on its queue. -/
def asked (a : Option (SessionID × Task)) (x : SessionID) (w : Wiring) : Wiring :=
  match a with
  | none => w
  | some (y,fn) => if x = y then w.enqueue fn else w

/-- The state after a section of `sid` with the given effect. -/
structure Applied (s : State) (sid : SessionID) (E : Effect) (s' : State) : Prop where
  wire : ∀ x, s'.wire x = asked E.ask x (if x = sid then E.wire else s.wire x)
  link : ∀ k, s'.link k = E.links k
  nextTrack : s'.nextTrack = E.nextTrack
  signals : s'.signals = s.signals ++ E.sent
  router : s'.router = s.router
  calls : s'.calls = s.calls

/-- The steps outside `run` that put a task on a peer's queue. -/
inductive Asks (s : State) : Event → SessionID → Task → Prop
  | call {t sid fn} : s.calls t = .enqueue sid fn → Asks s (.proceed t) sid fn
  | onTrack {sid mid kind rid codec} : sid ∈ s.router.issued →
      Asks s (.onTrack sid mid kind rid codec) sid (.handleOnTrack mid kind rid codec)
  | adminSnapshot {sid} : sid ∈ s.router.issued → Asks s (.adminSnapshot sid) sid .snapshot

/-- The steps that move a call of the router on to its next section. -/
inductive Calls (s : State) : Event → CallID → Call → Prop
  | request {t sid r} : s.calls t = .idle → sid ∈ s.router.peers →
      Calls s (.request t sid r) t (r.found sid)
  | noRoom {t sid target source q} : s.calls t = .roomFor sid target source q →
      s.router.rooms.lookup (s.peers sid).channelID = none → Calls s (.proceed t) t .idle
  | roomFor {t sid target source q room} : s.calls t = .roomFor sid target source q →
      s.router.rooms.lookup (s.peers sid).channelID = some room →
      Calls s (.proceed t) t (.peerByUserID sid room target source q)
  | notFound {t sid room target source q} : s.calls t = .peerByUserID sid room target source q →
      (s.router.heap room).peerByUserID target = none → Calls s (.proceed t) t .idle
  | ownTrack {t sid room target source q} : s.calls t = .peerByUserID sid room target source q →
      (s.router.heap room).peerByUserID target = some sid → Calls s (.proceed t) t .idle
  | peerByUserID {t sid room target source q publisher} :
      s.calls t = .peerByUserID sid room target source q →
      (s.router.heap room).peerByUserID target = some publisher → publisher ≠ sid →
      Calls s (.proceed t) t (.enqueue sid (.subscribeVideo publisher target source q))

/-- The peers after a section of `Join` or `Leave`. -/
inductive Routes (s : State) : SfuRouter.Event → SfuRouter.State → (SessionID → Wiring) → Prop
  | join {t sid u c r k} : sid ∉ s.router.issued → r.issued = insert sid s.router.issued →
      r.peers = s.router.peers.insert sid ⟨sid,u,c,k⟩ → s.router.calls t = .idle →
      r.calls = Function.update s.router.calls t (.joinAdd ⟨sid,u,c,k⟩) →
      Routes s (.join t sid u c) r (Function.update s.wire sid (wiring (newPeer ⟨sid,u,c,k⟩)))
  | close {t p r} : s.router.calls t = .leaveClose p → r = s.router.setCall t .idle →
      Routes s (.peerClose t) r (Function.update s.wire p.sessionID (s.wire p.sessionID).close)
  | other {re r} : (∀ t sid u c, re ≠ .join t sid u c) → (∀ t, re ≠ .peerClose t) →
      r.issued = s.router.issued → Routes s re r s.wire

/-- Everything a step can do to the wiring. -/
inductive Wired (s : State) : Event → State → Prop
  | run {sid c E s'} : Section s sid c E → Applied s sid E s' → Wired s (.run sid c) s'
  | router {re r w} : SfuRouter.step s.router re = some r → Routes s re r w →
      (∀ x, (s.routed re r).wire x = w x) → Wired s (.router re) (s.routed re r)
  | ask {e sid fn s'} : Asks s e sid fn → (∀ x, s'.wire x = asked (some (sid,fn)) x (s.wire x)) →
      s'.link = s.link → s'.nextTrack = s.nextTrack → s'.signals = s.signals →
      s'.router = s.router →
      (∀ t, s'.calls t = s.calls t ∨ (e = .proceed t ∧ s'.calls t = .idle)) → Wired s e s'
  | call {e t k} : Calls s e t k → Wired s e (s.setCall t k)
  | publishState {t sid source active} : s.calls t = .setPublishState sid source active →
      Wired s (.proceed t) ((s.setPeer sid { s.peers sid with
        publishState := (s.peers sid).publishState.insert source active }).setCall t .idle)

section Operations
variable {p : Peer} {pc : Pion}

@[simp] theorem wiring_enqueue (p : Peer) (fn : Task) :
    wiring (p.enqueue fn) = (wiring p).enqueue fn := by
  by_cases hs : p.stopped = true
  · simp [Peer.enqueue, Wiring.enqueue, wiring, hs]
  · by_cases hl : p.commands.length < commandsCap <;>
      simp [Peer.enqueue, Wiring.enqueue, wiring, hs, hl]

@[simp] theorem wiring_close (p : Peer) : wiring p.close = (wiring p).close := by
  by_cases hc : p.closeOnce = true
  · simp [Peer.close, Wiring.close, wiring, hc]
  · have hw : (wiring p).closeOnce ≠ true := hc
    simp only [Peer.close, Wiring.close, if_neg hc, if_neg hw, wiring_enqueue]
    rfl

/-- An operation of the negotiation: no wiring, only offers and errors. -/
structure Mute (p : Peer) (r : Peer × List Signal) : Prop where
  wiring : wiring r.1 = wiring p
  muted : ∀ sig ∈ r.2, muted sig = true

theorem mute_sendOffer (p : Peer) (pc : Pion) : Mute p (p.sendOffer pc) := by
  unfold Peer.sendOffer
  split
  · exact ⟨rfl,by simp⟩
  · split
    · exact ⟨rfl,by simp [Peer.fail, muted]⟩
    · split
      · exact ⟨rfl,by simp [Peer.fail, muted]⟩
      · exact ⟨rfl,by simp [muted]⟩

theorem mute_scheduleNegotiate (p : Peer) (pc : Pion) : Mute p (p.scheduleNegotiate pc) := by
  unfold Peer.scheduleNegotiate
  split
  · exact ⟨rfl,by simp⟩
  · obtain ⟨hw,hm⟩ := mute_sendOffer { p with negotiating := true } pc
    exact ⟨hw,hm⟩

/-- Adding a subscription, apart from the subscription itself. -/
theorem mute_addSub (p : Peer) (key : SubKey) (pub : TrackRef) (pc : Pion) :
    wiring (p.addSub key pub pc).1 = { wiring p with subs := p.subs.insert key pub } ∧
      ∀ sig ∈ (p.addSub key pub pc).2, muted sig = true := by
  obtain ⟨hw,hm⟩ := mute_scheduleNegotiate { p with subs := p.subs.insert key pub } pc
  exact ⟨hw,hm⟩

theorem mute_dropSub (p : Peer) (key : SubKey) (pc : Pion) :
    wiring (p.dropSub key pc).1 = { wiring p with subs := p.subs.erase key } ∧
      ∀ sig ∈ (p.dropSub key pc).2, muted sig = true := by
  obtain ⟨hw,hm⟩ := mute_scheduleNegotiate { p with subs := p.subs.erase key } pc
  exact ⟨hw,hm⟩

theorem mute_sendPending (p : Peer) (pc : Pion) : Mute p (p.sendPending pc) := by
  unfold Peer.sendPending
  split
  · obtain ⟨hw,hm⟩ := mute_sendOffer { p with renegotiatePending := false, negotiating := true } pc
    exact ⟨hw,hm⟩
  · exact ⟨rfl,by simp⟩

theorem mute_handleAnswer (p : Peer) (pc : Pion) : Mute p (p.handleAnswer pc) := by
  unfold Peer.handleAnswer
  split
  · exact ⟨rfl,by simp [Peer.fail, muted]⟩
  · obtain ⟨hw,hm⟩ := mute_sendPending { p with negotiating := false } pc
    exact ⟨hw,hm⟩

theorem mute_clearDetached (p : Peer) (pc : Pion) : Mute p (p.clearDetached pc) := by
  obtain ⟨hw,hm⟩ := mute_sendPending { p with detached := false } pc
  exact ⟨hw,hm⟩

theorem wiring_markDetached (p : Peer) : wiring p.markDetached = wiring p := by
  unfold Peer.markDetached
  split <;> rfl

/-- The client's offer is answered, or some Pion call failed. -/
theorem handleOffer_wiring (p : Peer) (slots : List SlotDecl) (pc : Pion) :
    (wiring (p.handleOffer slots pc).1 = { wiring p with
        slotBySource := GoMap.collect (fun s => (s.source,s.mid)) slots
        cont := .autoSubscribeToExisting } ∧
      (p.handleOffer slots pc).2 = [.answer p.userID p.sessionID]) ∨
    (wiring (p.handleOffer slots pc).1 = { wiring p with
        slotBySource := GoMap.collect (fun s => (s.source,s.mid)) slots } ∧
      (∀ sig ∈ (p.handleOffer slots pc).2, muted sig = true) ∧ pc ≠ {}) := by
  have hne : ∀ {e : String} (f : Pion → Option String), f pc = some e → f {} = none → pc ≠ {} := by
    intro e f hf h0 hpc
    rw [hpc,h0] at hf
    cases hf
  unfold Peer.handleOffer
  dsimp only
  split
  · rename_i hf
    exact Or.inr ⟨rfl,by simp [Peer.fail, muted],hne Pion.setRemoteDescription hf rfl⟩
  · split
    · rename_i hf
      exact Or.inr ⟨rfl,by simp [Peer.fail, muted],hne Pion.createAnswer hf rfl⟩
    · split
      · rename_i hf
        exact Or.inr ⟨rfl,by simp [Peer.fail, muted],hne Pion.setLocalDescription hf rfl⟩
      · exact Or.inl ⟨rfl,rfl⟩

theorem link_newSubscriber (t : PublishedTrack) (u : UserID) (q : Quality) (first : RID) :
    link (t.newSubscriber u q first) = (link t).add u := by
  simp [link, PublishedTrack.newSubscriber, Link.add, GoMap.keys_insert]

theorem link_removeSubscriber (t : PublishedTrack) (u : UserID) :
    link (t.removeSubscriber u) = (link t).remove u := by
  simp [link, PublishedTrack.removeSubscriber, Link.remove]

/-- A new quality is for somebody who is subscribed already. -/
theorem link_setSubscriberQuality (t : PublishedTrack) (u : UserID) (q : Quality) (first : RID) :
    link (t.setSubscriberQuality u q first) = link t := by
  unfold PublishedTrack.setSubscriberQuality
  split
  · rfl
  · rename_i sub hsub
    have hu : u ∈ t.subs.keys := (GoMap.mem_keys_iff _ _).mpr ⟨sub,hsub⟩
    simp only [link, GoMap.keys_insert, Finset.insert_eq_of_mem hu]

end Operations

variable {s s₁ s' : State} {sid : SessionID} {c : Choice}

theorem Subscribes.userID {w w' : Wiring} {u : UserID} {pub : TrackRef} (h : Subscribes w u pub w') :
    w'.userID = w.userID := by
  cases h <;> rfl

theorem Subscribes.subs {w w' : Wiring} {u : UserID} {pub : TrackRef} (h : Subscribes w u pub w') :
    w'.subs = w.subs := by
  cases h <;> rfl

theorem link_setTrack (s : State) (pub : TrackRef) (t : PublishedTrack) :
    (s.setTrack pub t).link = Function.update s.link pub (link t) := by
  funext k
  by_cases hk : k = pub
  · subst hk
    simp [State.link, State.setTrack]
  · simp [State.link, State.setTrack, hk]

theorem wire_setPeer (s : State) (sid : SessionID) (p : Peer) (x : SessionID) :
    (s.setPeer sid p).wire x = if x = sid then wiring p else s.wire x := by
  by_cases hx : x = sid
  · subst hx
    simp [State.wire]
  · simp [State.wire, State.setPeer_peers_of_ne _ _ hx, hx]

theorem applied_setPeer (s : State) (sid : SessionID) (p : Peer) :
    Applied s sid (s.quiet (wiring p) []) (s.setPeer sid p) :=
  ⟨fun x => wire_setPeer s sid p x,fun _ => rfl,rfl,(List.append_nil _).symm,rfl,rfl⟩

/-- The second of two writes of one peer counts. -/
theorem applied_setPeer_setPeer (s : State) (sid : SessionID) (p q : Peer) :
    Applied s sid (s.quiet (wiring q) []) ((s.setPeer sid p).setPeer sid q) := by
  have hset : (s.setPeer sid p).setPeer sid q = s.setPeer sid q := by simp [State.setPeer]
  rw [hset]
  exact applied_setPeer s sid q

theorem applied_setPeer_setCont (s : State) (sid : SessionID) (p : Peer) (k : Cont) :
    Applied s sid (s.quiet (wiring { p with cont := k }) []) ((s.setPeer sid p).setCont sid k) := by
  have hself : (s.setPeer sid p).peers sid = p := State.setPeer_peers_self s sid p
  rw [State.setCont,hself]
  exact applied_setPeer_setPeer s sid p { p with cont := k }

theorem applied_setCont (s : State) (sid : SessionID) (k : Cont) :
    Applied s sid (s.quiet { s.wire sid with cont := k } []) (s.setCont sid k) :=
  applied_setPeer s sid { s.peers sid with cont := k }

theorem Applied.wire_self {w : Wiring} {new : List Signal} (h : Applied s sid (s.quiet w new) s₁) :
    s₁.wire sid = w := by
  rw [h.wire]
  exact if_pos rfl

/-- After a quiet section the peer may still send something. -/
theorem Applied.send {w : Wiring} (h : Applied s sid (s.quiet w []) s₁) (new : List Signal) :
    Applied s sid (s.quiet w new) (s₁.send new) where
  wire := h.wire
  link := h.link
  nextTrack := h.nextTrack
  signals := by
    have hs : s₁.signals = s.signals := h.signals.trans (List.append_nil _)
    change s₁.signals ++ new = s.signals ++ new
    rw [hs]
  router := h.router
  calls := h.calls

/-- One more write to the peer itself, with what it sends. -/
theorem Applied.emit {w : Wiring} (h : Applied s sid (s.quiet w []) s₁) (r : Peer × List Signal) :
    Applied s sid (s.quiet (wiring r.1) r.2) (s₁.emit sid r) := by
  have hp : Applied s sid (s.quiet (wiring r.1) []) (s₁.setPeer sid r.1) := by
    refine ⟨fun x => ?_,h.link,h.nextTrack,h.signals,h.router,h.calls⟩
    rw [wire_setPeer]
    by_cases hx : x = sid
    · simp [hx, asked, State.quiet]
    · have hw := h.wire x
      simp only [State.quiet, asked, if_neg hx] at hw ⊢
      exact hw
  exact hp.send r.2

/-- One more write to a track. -/
theorem Applied.setTrack {w : Wiring} {new : List Signal} {l : Link}
    (h : Applied s sid (s.quiet w new) s₁) (pub : TrackRef) {t : PublishedTrack}
    (ht : SfuMedia.link t = l) :
    Applied s sid ⟨w,Function.update s.link pub l,s.nextTrack,none,new⟩ (s₁.setTrack pub t) where
  wire := h.wire
  link k := by
    have hl : s₁.link = s.link := funext h.link
    rw [link_setTrack,ht,hl]
  nextTrack := h.nextTrack
  signals := h.signals
  router := h.router
  calls := h.calls

/-- A task for another peer, after a quiet section. -/
theorem Applied.enqueue {w : Wiring} {new : List Signal} (h : Applied s sid (s.quiet w new) s₁)
    (y : SessionID) (fn : Task) :
    Applied s sid { s.quiet w new with ask := some (y,fn) } (s₁.enqueue y fn) where
  wire x := by
    have hx := h.wire x
    rw [State.enqueue, wire_setPeer, wiring_enqueue]
    simp only [State.quiet, asked] at hx ⊢
    by_cases hxy : x = y
    · subst hxy
      rw [if_pos rfl,if_pos rfl,← hx]
      rfl
    · rw [if_neg hxy,if_neg hxy,hx]
  link := h.link
  nextTrack := h.nextTrack
  signals := h.signals
  router := h.router
  calls := h.calls

/-- A write to a track followed by one to the peer. -/
theorem Applied.setTrack_emit {w : Wiring} {l : Link} (h : Applied s sid (s.quiet w []) s₁)
    (pub : TrackRef) {t : PublishedTrack} (ht : SfuMedia.link t = l) (r : Peer × List Signal) :
    Applied s sid ⟨wiring r.1,Function.update s.link pub l,s.nextTrack,none,r.2⟩
      ((s₁.setTrack pub t).emit sid r) :=
  Applied.setTrack (h.emit r) pub ht

theorem doSubscribe_wired {u : UserID} {pub : TrackRef} {q : Quality} {w : Wiring}
    (h : Applied s sid (s.quiet w []) s₁) (hsub : Subscribes (s.wire sid) u pub w) :
    ∃ E, Section s sid c E ∧ Applied s sid E (s₁.doSubscribe sid u pub q c) := by
  have hlink : SfuMedia.link (s₁.tracks pub) = s.link pub := h.link pub
  have hsource : (s₁.tracks pub).source = (s.link pub).source := congrArg Link.source hlink
  have hself : wiring (s₁.peers sid) = w := h.wire_self
  have hsubs : (s₁.peers sid).subs = (s.wire sid).subs :=
    (congrArg Wiring.subs hself).trans hsub.subs
  have huser : (s₁.peers sid).userID = (s.wire sid).userID := by
    rw [← hsub.userID,← hself]
    rfl
  unfold State.doSubscribe
  dsimp only
  rw [hsource,hsubs]
  split
  · rename_i hk
    have ha := h.setTrack pub (link_setSubscriberQuality (s₁.tracks pub) (s₁.peers sid).userID q c.rid)
    rw [hlink,Function.update_eq_self] at ha
    exact ⟨_,.resubscribe hsub hk,ha⟩
  · rename_i hk
    split
    · rename_i hl
      refine ⟨_,.noLocal hsub hk (fun hc => ?_),h⟩
      rw [hc] at hl
      cases hl
    · rename_i ha
      refine ⟨_,.notAdded hsub hk (fun hc => ?_),?_⟩
      · rw [hc] at ha
        cases ha
      · apply h.setTrack pub
        rw [link_removeSubscriber,link_newSubscriber,hlink,huser]
        simp [Link.add, Link.remove]
    · obtain ⟨hw,hm⟩ := mute_addSub (s₁.peers sid) ⟨u,(s.link pub).source⟩ pub c.pc
      have hnew : SfuMedia.link ((s₁.tracks pub).newSubscriber (s₁.peers sid).userID q c.rid) =
          (s.link pub).add (s.wire sid).userID := by
        rw [link_newSubscriber,hlink,huser]
      have ha := h.setTrack_emit pub hnew ((s₁.peers sid).addSub ⟨u,(s.link pub).source⟩ pub c.pc)
      rw [hw,hself,hsubs] at ha
      exact ⟨_,.subscribe hsub hk hm,ha⟩

section Tasks
variable {rest : List Task}

/-- The task is off the queue, and nothing else has happened. -/
theorem applied_taken (hidle : (s.wire sid).cont = .idle) :
    Applied s sid (s.quiet { s.wire sid with commands := rest, cont := .idle } [])
      (s.setPeer sid { s.peers sid with commands := rest }) := by
  have hstay : ({ s.wire sid with commands := rest, cont := .idle } : Wiring) =
      { s.wire sid with commands := rest } := by rw [← hidle]
  rw [hstay]
  exact applied_setPeer s sid { s.peers sid with commands := rest }

theorem handleOnTrack_wired {mid : String} {kind : RTPCodecType} {rid : RID} {codec : String}
    {source : Source} (hidle : (s.wire sid).cont = .idle)
    (hq : (s.wire sid).commands = .handleOnTrack mid kind rid codec :: rest)
    (hs : (s.wire sid).stopped = false)
    (hslot : (s.wire sid).slotBySource.lookup source = some mid) :
    ∃ E, Section s sid c E ∧ Applied s sid E
      ((s.setPeer sid { s.peers sid with commands := rest }).handleOnTrack sid source kind rid codec) := by
  unfold State.handleOnTrack
  dsimp only
  rw [State.setPeer_peers_self]
  split
  · rename_i pub hpub
    have ha := applied_setPeer_setCont s sid { s.peers sid with commands := rest }
      (.addLayer pub rid codec true)
    exact ⟨_,.take hidle hq hs (.anotherLayer hpub),ha⟩
  · rename_i hpub
    refine ⟨_,.publish hidle hq hs hslot hpub,
      fun x => ?_,fun k => ?_,rfl,(List.append_nil _).symm,rfl,rfl⟩
    · rw [wire_setPeer]
      by_cases hx : x = sid
      · rw [if_pos hx]
        simp only [asked, if_pos hx]
        rfl
      · simp only [asked, if_neg hx]
        exact congrArg wiring (State.setPeer_peers_of_ne _ _ hx)
    · exact congrFun (link_setTrack s s.nextTrack (newPublishedTrack _ source kind sid)) k

theorem doUnsubscribe_wired {u : UserID} {source : Source} (hidle : (s.wire sid).cont = .idle)
    (hq : (s.wire sid).commands = .doUnsubscribe u source :: rest)
    (hs : (s.wire sid).stopped = false) :
    ∃ E, Section s sid c E ∧ Applied s sid E
      ((s.setPeer sid { s.peers sid with commands := rest }).doUnsubscribe sid ⟨u,source⟩ c) := by
  unfold State.doUnsubscribe
  dsimp only
  rw [State.setPeer_peers_self]
  split
  · rename_i hpub
    exact ⟨_,.take hidle hq hs (.noSub hpub),applied_taken hidle⟩
  · rename_i pub hpub
    obtain ⟨hw,hm⟩ := mute_dropSub { s.peers sid with commands := rest } ⟨u,source⟩ c.pc
    have ha := (applied_setPeer s sid { s.peers sid with commands := rest }).setTrack_emit pub
      (link_removeSubscriber (s.tracks pub) (s.peers sid).userID)
      (({ s.peers sid with commands := rest } : Peer).dropSub ⟨u,source⟩ c.pc)
    rw [hw] at ha
    exact ⟨_,.unsubscribe hidle hq hs hpub hm,ha⟩

theorem subscribeVideo_wired {publisher : SessionID} {u : UserID} {source : Source} {q : Quality}
    (hidle : (s.wire sid).cont = .idle)
    (hq : (s.wire sid).commands = .subscribeVideo publisher u source q :: rest)
    (hs : (s.wire sid).stopped = false) :
    ∃ E, Section s sid c E ∧ Applied s sid E
      ((s.setPeer sid { s.peers sid with commands := rest }).subscribeVideo sid publisher u source q) := by
  have hpub : ((s.setPeer sid { s.peers sid with commands := rest }).peers publisher).published =
      (s.peers publisher).published := by
    by_cases hx : publisher = sid
    · subst hx
      rw [State.setPeer_peers_self]
    · rw [State.setPeer_peers_of_ne _ _ hx]
  have hfail : ∀ {text : String}, (∀ pub, (s.peers publisher).published.lookup source = some pub →
      (s.tracks pub).kind ≠ .video) → ∃ E, Section s sid c E ∧ Applied s sid E
        ((s.setPeer sid { s.peers sid with commands := rest }).send
          [((s.setPeer sid { s.peers sid with commands := rest }).peers sid).fail "subscribe_failed" text]) := by
    intro text hnone
    exact ⟨_,.take hidle hq hs (.noVideo (by simp [Peer.fail, muted]) hnone),(applied_taken hidle).send _⟩
  unfold State.subscribeVideo
  dsimp only
  rw [hpub]
  split
  · rename_i hnone
    refine hfail (fun k hk => ?_)
    rw [hnone] at hk
    cases hk
  · rename_i k hk
    change ∃ E, _ ∧ Applied s sid E (if (s.tracks k).kind = .video then _ else _)
    split
    · rename_i hv
      have ha := applied_setPeer_setCont s sid { s.peers sid with commands := rest }
        (.subscribeVideo u k q)
      exact ⟨_,.take hidle hq hs (.video hk hv),ha⟩
    · rename_i hv
      refine hfail (fun k' hk' => ?_)
      rw [hk] at hk'
      cases hk'
      exact hv

/-- The first section of a task, from the state with the task taken off the queue. -/
theorem runTask_wired {fn : Task} (hidle : (s.wire sid).cont = .idle)
    (hq : (s.wire sid).commands = fn :: rest) (hs : (s.wire sid).stopped = false)
    (he : (s.setPeer sid { s.peers sid with commands := rest }).runTask sid c fn = some s') :
    ∃ E, Section s sid c E ∧ Applied s sid E s' := by
  have h₁ : Applied s sid (s.quiet { s.wire sid with commands := rest } [])
      (s.setPeer sid { s.peers sid with commands := rest }) :=
    applied_setPeer s sid { s.peers sid with commands := rest }
  have hself := h₁.wire_self
  have hpeer : (s.setPeer sid { s.peers sid with commands := rest }).peers sid =
      { s.peers sid with commands := rest } := State.setPeer_peers_self _ _ _
  have hstay : ({ s.wire sid with commands := rest, cont := .idle } : Wiring) =
      { s.wire sid with commands := rest } := by rw [← hidle]
  have htalk : ∀ {r : Peer × List Signal}, talks fn = true →
      Mute ((s.setPeer sid { s.peers sid with commands := rest }).peers sid) r →
      ∃ E, Section s sid c E ∧
        Applied s sid E ((s.setPeer sid { s.peers sid with commands := rest }).emit sid r) := by
    intro r hf hm
    have ha := h₁.emit r
    have hw : wiring r.1 = { s.wire sid with commands := rest } := hm.wiring.trans hself
    rw [hw,← hstay] at ha
    exact ⟨_,.take hidle hq hs (.talk hf hm.muted),ha⟩
  cases fn with
  | handleOffer slots =>
    simp only [State.runTask, Option.some.injEq] at he
    subst he
    have ha := h₁.emit (((s.setPeer sid { s.peers sid with commands := rest }).peers sid).handleOffer
      slots c.pc)
    rcases handleOffer_wiring ((s.setPeer sid { s.peers sid with commands := rest }).peers sid) slots
      c.pc with ⟨hw,hsent⟩ | ⟨hw,hm,hpc⟩
    · rw [hw,hsent,hpeer] at ha
      rw [hpeer]
      exact ⟨_,.offered hidle hq hs,ha⟩
    · rw [hw,hpeer] at ha
      rw [hpeer] at hm ⊢
      exact ⟨_,.offerFailed hidle hq hs hpc hm,ha⟩
  | handleAnswer =>
    cases he
    exact htalk rfl (mute_handleAnswer _ _)
  | handleCandidate =>
    cases he
    exact ⟨_,.take hidle hq hs (.talk rfl (by simp)),applied_taken hidle⟩
  | snapshot =>
    cases he
    exact ⟨_,.take hidle hq hs (.talk rfl (by simp)),applied_taken hidle⟩
  | markDetached =>
    simp only [State.runTask, Option.some.injEq] at he
    subst he
    have ha := applied_setPeer_setPeer s sid { s.peers sid with commands := rest }
      ({ s.peers sid with commands := rest } : Peer).markDetached
    have hw : wiring ({ s.peers sid with commands := rest } : Peer).markDetached =
        { s.wire sid with commands := rest, cont := .idle } := by
      rw [wiring_markDetached,hstay]
      rfl
    rw [hw] at ha
    rw [hpeer]
    exact ⟨_,.take hidle hq hs (.talk rfl (by simp)),ha⟩
  | clearDetached =>
    cases he
    exact htalk rfl (mute_clearDetached _ _)
  | handleOnTrack mid kind rid codec =>
    simp only [State.runTask] at he
    split at he
    · rename_i hmid
      split at he
      · rename_i hsource
        cases he
        exact ⟨_,.take hidle hq hs (.unknownMID hsource),applied_taken hidle⟩
      · rename_i source hsource
        cases he
        rw [hpeer,hsource] at hmid
        exact handleOnTrack_wired hidle hq hs (of_decide_eq_true hmid)
    · cases he
  | doSubscribe u pub q =>
    simp only [State.runTask] at he
    split at he <;> cases he
    exact doSubscribe_wired h₁ (.task hidle hq hs)
  | doUnsubscribe u source =>
    cases he
    exact doUnsubscribe_wired hidle hq hs
  | subscribeVideo publisher u source q =>
    cases he
    exact subscribeVideo_wired hidle hq hs
  | doClose =>
    simp only [State.runTask] at he
    split at he
    · rename_i hkeys
      cases he
      rw [hpeer] at hkeys ⊢
      have ha := applied_setPeer_setPeer s sid { s.peers sid with commands := rest }
        { s.peers sid with commands := rest, stopped := true, cont := .closeSubs c.keys }
      exact ⟨_,.close hidle hq hs hkeys.2,ha⟩
    · cases he

end Tasks

theorem run_wired (he : s.run sid c = some s') : ∃ E, Section s sid c E ∧ Applied s sid E s' := by
  have hcont : ∀ {k k' : Cont}, (s.peers sid).cont = k → Moves s sid c k k' [] →
      ∃ E, Section s sid c E ∧ Applied s sid E (s.setCont sid k') := by
    intro k k' hk hm
    subst hk
    exact ⟨_,.move hm,applied_setCont s sid k'⟩
  have hsend : ∀ {k k' : Cont} {new : List Signal}, (s.peers sid).cont = k → Moves s sid c k k' new →
      ∃ E, Section s sid c E ∧ Applied s sid E ((s.setCont sid k').send new) := by
    intro k k' new hk hm
    subst hk
    exact ⟨_,.move hm,(applied_setCont s sid k').send new⟩
  have hview := run_view he
  generalize hk : (s.peers sid).cont = k at hview
  cases hview with
  | task hc hs ht => exact runTask_wired hk hc hs ht
  | scanRoom ho => exact hcont hk (.scanRoom ho)
  | scanned => exact hcont hk .scanned
  | scanPeer hr => exact hcont hk (.scanPeer hr)
  | peerScanned => exact hcont hk .peerScanned
  | existing => exact doSubscribe_wired (applied_setCont s sid _) (.existing hk)
  | snapshotRoom ho => exact hcont hk (.snapshotRoom ho)
  | snapshotSent => exact hcont hk .snapshotSent
  | snapshotPeer hr => exact hsend hk (.snapshotPeer hr)
  | @addLayer pub rid codec existed =>
    have hl : (s.setTrack pub ((s.tracks pub).addLayer rid codec)).link = s.link := by
      rw [link_setTrack]
      exact Function.update_eq_self _ _
    have ha : ∀ k, Applied s sid (s.quiet { s.wire sid with cont := k } [])
        ((s.setTrack pub ((s.tracks pub).addLayer rid codec)).setCont sid k) := by
      intro k
      obtain ⟨hw,-,-,-,-,-⟩ := applied_setCont s sid k
      exact ⟨hw,congrFun hl,rfl,(List.append_nil _).symm,rfl,rfl⟩
    cases existed with
    | false => exact ⟨_,.move (by rw [State.wire, wiring, hk]; exact .trackAdded),ha _⟩
    | true => exact ⟨_,.move (by rw [State.wire, wiring, hk]; exact .layerAdded),ha _⟩
  | announce => exact hsend hk .announce
  | notifyRoom ho => exact hcont hk (.notifyRoom ho)
  | notified => exact hcont hk .notified
  | @subscribeOther pub o os => exact ⟨_,.subscribeOther hk,(applied_setCont s sid _).enqueue o _⟩
  | subscribeVideo => exact doSubscribe_wired (applied_setCont s sid _) (.video hk)
  | @closeSub key rest =>
    unfold State.closeSub
    dsimp only
    split
    · exact hcont hk (.noSub ‹_›)
    · rename_i pub hpub
      have ha := (applied_setPeer s sid { s.peers sid with
        subs := (s.peers sid).subs.erase key, cont := .closeSubs rest }).setTrack pub
          (link_removeSubscriber (s.tracks pub) (s.peers sid).userID)
      exact ⟨_,.closeSub hk hpub,ha⟩
  | subsClosed hr => exact hcont hk (.subsClosed hr)
  | tracksClosed => exact hcont hk .tracksClosed
  | closeTrack hu => exact hsend hk (.closeTrack hu)
  | subscribersClosed => exact hcont hk .subscribersClosed
  | @closeSubscriber source u us rest =>
    have hroom : ((s.setCont sid (.closeSubscribers source us rest)).peers sid).room =
        (s.peers sid).room := by rw [State.setCont, State.setPeer_peers_self]
    have huser : ((s.setCont sid (.closeSubscribers source us rest)).peers sid).userID =
        (s.peers sid).userID := by rw [State.setCont, State.setPeer_peers_self]
    unfold State.closeSubscriber
    rw [hroom,huser]
    split
    · rename_i hn
      exact hcont hk (.nobody hn)
    · rename_i y hy
      exact ⟨_,.closeSubscriber hk hy,(applied_setCont s sid _).enqueue y _⟩

theorem wire_enqueue (s : State) (sid : SessionID) (fn : Task) (x : SessionID) :
    (s.enqueue sid fn).wire x = asked (some (sid,fn)) x (s.wire x) := by
  rw [State.enqueue, wire_setPeer, wiring_enqueue]
  by_cases hx : x = sid
  · subst hx
    simp [asked, State.wire]
  · simp [asked, hx]

theorem routed_link (s : State) (re : SfuRouter.Event) (r : SfuRouter.State) :
    (s.routed re r).link = s.link ∧ (s.routed re r).nextTrack = s.nextTrack ∧
      (s.routed re r).signals = s.signals ∧ (s.routed re r).router = r ∧
      (s.routed re r).calls = s.calls := by
  unfold State.routed
  dsimp only
  split
  · split <;> exact ⟨rfl,rfl,rfl,rfl,rfl⟩
  · split <;> exact ⟨rfl,rfl,rfl,rfl,rfl⟩
  · exact ⟨rfl,rfl,rfl,rfl,rfl⟩

theorem wire_update (s₁ : State) (r : SfuRouter.State) (sid : SessionID) (p : Peer) (x : SessionID) :
    ({ s₁ with router := r }.setPeer sid p).wire x = Function.update s₁.wire sid (wiring p) x := by
  rw [wire_setPeer]
  by_cases hx : x = sid
  · subst hx
    simp
  · simp only [if_neg hx, Function.update_of_ne hx]
    rfl

theorem router_wired {re : SfuRouter.Event} {r : SfuRouter.State}
    (he : SfuRouter.step s.router re = some r) : Wired s (.router re) (s.routed re r) := by
  obtain ⟨-,hv⟩ := SfuRouter.step_view he
  have hjoin : ∀ {t x u ch k}, re = .join t x u ch → r.peers.lookup x = some ⟨x,u,ch,k⟩ →
      Routes s re r (Function.update s.wire x (wiring (newPeer ⟨x,u,ch,k⟩))) →
      Wired s (.router re) (s.routed re r) := by
    rintro t x u ch k rfl hp hr
    refine .router he hr (fun y => ?_)
    simp only [State.routed, hp]
    exact wire_update s r x _ y
  cases hv with
  | joinOld hi hn hr =>
    exact hjoin rfl (Finmap.lookup_insert _) (.join hn rfl rfl hi rfl)
  | joinNew hi hn hr =>
    exact hjoin rfl (Finmap.lookup_insert _) (.join hn rfl rfl hi rfl)
  | peerClose hc =>
    refine .router he (.close hc rfl) (fun y => ?_)
    simp only [State.routed, hc]
    rw [wire_update,wiring_close]
    rfl
  | _ =>
    exact .router he (.other (fun _ _ _ _ h => nomatch h) (fun _ h => nomatch h) rfl) (fun _ => rfl)

theorem proceed_wired {t : CallID} (he : s.proceed t = some s') : Wired s (.proceed t) s' := by
  cases hc : s.calls t with
  | idle => simp [State.proceed, hc] at he
  | enqueue x fn =>
    simp only [State.proceed, hc] at he
    cases he
    refine .ask (.call hc) (wire_enqueue s x fn) rfl rfl rfl rfl (fun t' => ?_)
    by_cases ht : t' = t
    · subst ht
      exact Or.inr ⟨rfl,Function.update_self _ _ _⟩
    · exact Or.inl (Function.update_of_ne ht _ _)
  | roomFor x target source q =>
    simp only [State.proceed, hc] at he
    split at he <;> cases he
    · exact .call (.noRoom hc ‹_›)
    · exact .call (.roomFor hc ‹_›)
  | peerByUserID x room target source q =>
    simp only [State.proceed, hc] at he
    split at he
    · cases he
      exact .call (.notFound hc ‹_›)
    · rename_i publisher hp
      split at he <;> cases he
      · rename_i hx
        exact .call (.ownTrack hc (hx ▸ hp))
      · exact .call (.peerByUserID hc hp ‹_›)
  | setPublishState x source active =>
    simp only [State.proceed, hc] at he
    cases he
    exact .publishState hc

/-- The inversion of `step`, as far as the wiring goes. -/
theorem step_wired {e : Event} (he : step s e = some s') :
    s.router.panicked = false ∧ Wired s e s' := by
  unfold step at he
  split at he
  · cases he
  · rename_i hp
    refine ⟨Bool.eq_false_iff.mpr hp,?_⟩
    cases e with
    | router re =>
      obtain ⟨r,hr,hs⟩ := Option.map_eq_some_iff.mp he
      subst hs
      exact router_wired hr
    | request t x r =>
      dsimp only at he
      split at he
      · rename_i h
        cases he
        exact .call (.request h.1 h.2)
      · cases he
    | proceed t => exact proceed_wired he
    | onTrack x mid kind rid codec =>
      dsimp only at he
      split at he
      · cases he
        exact .ask (.onTrack ‹_›) (wire_enqueue s x _) rfl rfl rfl rfl (fun _ => Or.inl rfl)
      · cases he
    | adminSnapshot x =>
      dsimp only at he
      split at he
      · cases he
        exact .ask (.adminSnapshot ‹_›) (wire_enqueue s x _) rfl rfl rfl rfl (fun _ => Or.inl rfl)
      · cases he
    | run x c =>
      obtain ⟨E,hsec,ha⟩ := run_wired he
      exact .run hsec ha

end MiniDiscord.SfuMedia
