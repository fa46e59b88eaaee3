import MiniDiscord.Sfu.Peer

/-! # The router and its peers

The sections of `Join` and `Leave` run beside every peer's own `run` goroutine and
the router's other calls. A task of a peer is split where it reads or writes what
other goroutines share: a room's members, a peer's published tracks, a track's
subscribers, another peer's queue. The order in which a section ranges over a map,
and the outcome of its Pion calls, are part of the event.
-/
namespace MiniDiscord.SfuMedia
open SfuRoom SfuTrack SfuPeer Transition
open SfuRouter (RoomRef CallID)

/-- A router call that ends in a peer's queue, after its `peerBySession`. -/
inductive Request where
  | handleOffer (slots : List SlotDecl)
  | handleAnswer
  | handleCandidate
  | subscribeVideo (targetUserID : UserID) (source : Source) (quality : Quality)
  | setPublishState (source : Source) (active : Bool)
  | detach
  | resume
  deriving DecidableEq

/-- The next section of such a call. -/
inductive Call where
  | idle
  | enqueue (sessionID : SessionID) (fn : Task)
  | roomFor (sessionID : SessionID) (targetUserID : UserID) (source : Source) (quality : Quality)
  | peerByUserID (sessionID : SessionID) (room : RoomRef) (targetUserID : UserID) (source : Source)
      (quality : Quality)
  | setPublishState (sessionID : SessionID) (source : Source) (active : Bool)
  deriving DecidableEq

/-- Where a call stands once it has found the peer; a `Resume` has passed its checks. -/
def Request.found (sessionID : SessionID) : Request → Call
  | .handleOffer slots => .enqueue sessionID (.handleOffer slots)
  | .handleAnswer => .enqueue sessionID .handleAnswer
  | .handleCandidate => .enqueue sessionID .handleCandidate
  | .subscribeVideo target source quality =>
    if quality = .off then .enqueue sessionID (.doUnsubscribe target source)
    else .roomFor sessionID target source quality
  | .setPublishState source active => .setPublishState sessionID source active
  | .detach => .enqueue sessionID .markDetached
  | .resume => .enqueue sessionID .clearDetached

/-- `peers` and `tracks` are heaps; `signals` is what was sent, oldest first. -/
structure State where
  router : SfuRouter.State
  peers : SessionID → Peer
  tracks : TrackRef → PublishedTrack
  nextTrack : TrackRef
  calls : CallID → Call
  signals : List Signal

def init : State where
  router := SfuRouter.init
  peers := fun sid => newPeer ⟨sid,0,0,0⟩
  tracks := fun _ => newPublishedTrack 0 "" .audio ""
  nextTrack := 0
  calls := fun _ => .idle
  signals := []

/-- What one section of a peer's task leaves open: the outcomes of its Pion calls, and
the order of the map it ranges over. -/
structure Choice where
  pc : Pion := {}
  rid : RID := ""
  source : Option Source := none
  sources : List Source := []
  keys : List SubKey := []
  users : List UserID := []
  deriving DecidableEq

namespace State

def setPeer (s : State) (sid : SessionID) (p : Peer) : State :=
  { s with peers := Function.update s.peers sid p }

def setCont (s : State) (sid : SessionID) (k : Cont) : State :=
  s.setPeer sid { s.peers sid with cont := k }

@[simp] theorem setPeer_peers_self (s : State) (sid : SessionID) (p : Peer) :
    (s.setPeer sid p).peers sid = p := Function.update_self _ _ _

theorem setPeer_peers_of_ne (s : State) {sid x : SessionID} (p : Peer) (h : x ≠ sid) :
    (s.setPeer sid p).peers x = s.peers x := Function.update_of_ne h _ _

def setTrack (s : State) (k : TrackRef) (t : PublishedTrack) : State :=
  { s with tracks := Function.update s.tracks k t }

def setCall (s : State) (t : CallID) (c : Call) : State :=
  { s with calls := Function.update s.calls t c }

def send (s : State) (l : List Signal) : State := { s with signals := s.signals ++ l }

def emit (s : State) (sid : SessionID) (r : Peer × List Signal) : State :=
  (s.setPeer sid r.1).send r.2

def enqueue (s : State) (sid : SessionID) (fn : Task) : State :=
  s.setPeer sid ((s.peers sid).enqueue fn)

def trackInfo (s : State) (userID : UserID) (source : Source) (k : TrackRef) : TrackInfo :=
  ⟨userID,source,kindString (s.tracks k).kind⟩

/-- `room.others(p.userID)`, ranging over the members in the given order. -/
def others (s : State) (sid : SessionID) (users : List UserID) : Option (List SessionID) :=
  let room := s.router.heap (s.peers sid).room
  if users.Nodup ∧ users.toFinset = room.peers.keys.erase (s.peers sid).userID then
    some (users.filterMap room.peerByUserID)
  else none

/-- A range over the published tracks of a peer. -/
def rangesPublished (s : State) (sid : SessionID) (sources : List Source) : Bool :=
  decide (sources.Nodup ∧ sources.toFinset = (s.peers sid).published.keys)

def doSubscribe (s : State) (sid : SessionID) (publisherUserID : UserID) (pub : TrackRef)
    (quality : Quality) (c : Choice) : State :=
  let p := s.peers sid
  let t := s.tracks pub
  if ⟨publisherUserID,t.source⟩ ∈ p.subs then
    s.setTrack pub (t.setSubscriberQuality p.userID quality c.rid)
  else
    match c.pc.newTrackLocal,c.pc.addTrack with
    | some _,_ => s
    | none,some _ =>
      s.setTrack pub ((t.newSubscriber p.userID quality c.rid).removeSubscriber p.userID)
    | none,none => (s.setTrack pub (t.newSubscriber p.userID quality c.rid)).emit sid
        (p.addSub ⟨publisherUserID,t.source⟩ pub c.pc)

def doUnsubscribe (s : State) (sid : SessionID) (key : SubKey) (c : Choice) : State :=
  let p := s.peers sid
  match p.subs.lookup key with
  | none => s
  | some pub =>
    (s.setTrack pub ((s.tracks pub).removeSubscriber p.userID)).emit sid (p.dropSub key c.pc)

/-- The section of `handleOnTrack` under `publishedMu`. -/
def handleOnTrack (s : State) (sid : SessionID) (source : Source) (kind : RTPCodecType) (rid : RID)
    (codec : String) : State :=
  let p := s.peers sid
  match p.published.lookup source with
  | some pub => s.setCont sid (.addLayer pub rid codec true)
  | none =>
    let t := newPublishedTrack p.userID source kind sid
    { s.setTrack s.nextTrack t with nextTrack := s.nextTrack + 1 }.setPeer sid { p with
      published := p.published.insert source s.nextTrack
      cont := .addLayer s.nextTrack rid codec false }

/-- The first section of the task that `SubscribeVideo` queues. -/
def subscribeVideo (s : State) (sid publisher : SessionID) (targetUserID : UserID) (source : Source)
    (quality : Quality) : State :=
  let p := s.peers sid
  match (s.peers publisher).published.lookup source with
  | none => s.send [p.fail "subscribe_failed"
      ("user " ++ toString targetUserID ++ " has no published " ++ source ++ " track")]
  | some pub =>
    if (s.tracks pub).kind = .video then s.setCont sid (.subscribeVideo targetUserID pub quality)
    else s.send [p.fail "subscribe_failed" (source ++ " is not a video source")]

/-- The first section of a task taken from the queue of `sid`. -/
def runTask (s : State) (sid : SessionID) (c : Choice) : Task → Option State
  | .handleOffer slots => some (s.emit sid ((s.peers sid).handleOffer slots c.pc))
  | .handleAnswer => some (s.emit sid ((s.peers sid).handleAnswer c.pc))
  | .handleCandidate => some s
  | .handleOnTrack mid kind rid codec =>
    if (s.peers sid).findsMID mid c.source then
      match c.source with
      | none => some s
      | some source => some (s.handleOnTrack sid source kind rid codec)
    else none
  | .doSubscribe publisherUserID pub quality =>
    if (s.tracks pub).yields c.rid then some (s.doSubscribe sid publisherUserID pub quality c)
    else none
  | .doUnsubscribe publisherUserID source => some (s.doUnsubscribe sid ⟨publisherUserID,source⟩ c)
  | .subscribeVideo publisher target source quality =>
    some (s.subscribeVideo sid publisher target source quality)
  | .markDetached => some (s.setPeer sid (s.peers sid).markDetached)
  | .clearDetached => some (s.emit sid ((s.peers sid).clearDetached c.pc))
  | .snapshot => some s
  | .doClose =>
    if c.keys.Nodup ∧ c.keys.toFinset = (s.peers sid).subs.keys then
      some (s.setPeer sid { s.peers sid with stopped := true, cont := .closeSubs c.keys })
    else none

/-- One round of the loop over `p.subs` in `doClose`. -/
def closeSub (s : State) (sid : SessionID) (key : SubKey) (rest : List SubKey) : State :=
  let p := s.peers sid
  match p.subs.lookup key with
  | none => s.setCont sid (.closeSubs rest)
  | some pub => (s.setTrack pub ((s.tracks pub).removeSubscriber p.userID)).setPeer sid { p with
      subs := p.subs.erase key
      cont := .closeSubs rest }

/-- `subscriber.enqueue(... doUnsubscribe ...)` for one former subscriber. -/
def closeSubscriber (s : State) (sid : SessionID) (source : Source) (u : UserID) : State :=
  match (s.router.heap (s.peers sid).room).peerByUserID u with
  | none => s
  | some subscriber => s.enqueue subscriber (.doUnsubscribe (s.peers sid).userID source)

/-- The tracks a range over the published ones yields. -/
def publishedTracks (s : State) (sid : SessionID) (sources : List Source) : List (Source × TrackRef) :=
  sources.filterMap (fun source => ((s.peers sid).published.lookup source).map (fun pub => (source,pub)))

/-- `publishedVideoTrackInfos`. -/
def videoTrackInfos (s : State) (sid : SessionID) (sources : List Source) : List TrackInfo :=
  ((s.publishedTracks sid ((s.peers sid).activeSources sources)).filter
    (fun sp => decide ((s.tracks sp.2).kind = .video))).map
      (fun sp => s.trackInfo (s.peers sid).userID sp.1 sp.2)

/-- `publishedAudioTracks`. -/
def audioTracks (s : State) (sid : SessionID) (sources : List Source) : List TrackRef :=
  ((s.publishedTracks sid sources).filter
    (fun sp => decide ((s.tracks sp.2).kind = .audio))).map Prod.snd

/-- The next section of the task that `run` is in, or of the next task. -/
def run (s : State) (sid : SessionID) (c : Choice) : Option State :=
  let p := s.peers sid
  match p.cont with
  | .idle =>
    match p.commands with
    | [] => none
    | fn :: rest =>
      if p.stopped = true then none
      else (s.setPeer sid { p with commands := rest }).runTask sid c fn
  | .autoSubscribeToExisting =>
    (s.others sid c.users).map (fun os => s.setCont sid (.autoSubscribePeers os))
  | .autoSubscribePeers [] => some (s.setCont sid .sendTrackSnapshot)
  | .autoSubscribePeers (o :: os) =>
    if s.rangesPublished o c.sources then
      some (s.setCont sid (.autoSubscribeTracks (s.peers o).userID (s.audioTracks o c.sources) os))
    else none
  | .autoSubscribeTracks _ [] os => some (s.setCont sid (.autoSubscribePeers os))
  | .autoSubscribeTracks u (pub :: pubs) os =>
    if (s.tracks pub).yields c.rid then
      some ((s.setCont sid (.autoSubscribeTracks u pubs os)).doSubscribe sid u pub .high c)
    else none
  | .sendTrackSnapshot =>
    (s.others sid c.users).map (fun os => s.setCont sid (.snapshotPeers os))
  | .snapshotPeers [] => some (s.setCont sid .idle)
  | .snapshotPeers (o :: os) =>
    if s.rangesPublished o c.sources then
      some ((s.setCont sid (.snapshotPeers os)).send
        ((s.videoTrackInfos o c.sources).map (.trackPublishedTo p.userID p.channelID)))
    else none
  | .addLayer pub rid codec existed =>
    some ((s.setTrack pub ((s.tracks pub).addLayer rid codec)).setCont sid
      (if existed then .idle else .announce pub))
  | .announce pub =>
    some ((s.setCont sid (if (s.tracks pub).kind = .audio then .notifyOthers pub else .idle)).send
      [.trackPublished p.channelID (s.trackInfo p.userID (s.tracks pub).source pub)])
  | .notifyOthers pub =>
    (s.others sid c.users).map (fun os => s.setCont sid (.subscribeOthers pub os))
  | .subscribeOthers _ [] => some (s.setCont sid .idle)
  | .subscribeOthers pub (o :: os) =>
    some ((s.setCont sid (.subscribeOthers pub os)).enqueue o (.doSubscribe p.userID pub .high))
  | .subscribeVideo u pub quality =>
    if (s.tracks pub).yields c.rid then some ((s.setCont sid .idle).doSubscribe sid u pub quality c)
    else none
  | .closeSubs (key :: rest) => some (s.closeSub sid key rest)
  | .closeSubs [] =>
    if s.rangesPublished sid c.sources then
      some (s.setCont sid (.closeTracks (s.publishedTracks sid c.sources)))
    else none
  | .closeTracks [] => some (s.setCont sid .idle)
  | .closeTracks ((source,pub) :: rest) =>
    if c.users.Nodup ∧ c.users.toFinset = (s.tracks pub).subs.keys then
      some ((s.setCont sid (.closeSubscribers source c.users rest)).send
        [.trackUnpublished p.channelID (s.trackInfo p.userID source pub)])
    else none
  | .closeSubscribers _ [] rest => some (s.setCont sid (.closeTracks rest))
  | .closeSubscribers source (u :: us) rest =>
    some ((s.setCont sid (.closeSubscribers source us rest)).closeSubscriber sid source u)

/-- What a section of `Join` or `Leave` does to the peers. -/
def routed (s : State) (e : SfuRouter.Event) (r : SfuRouter.State) : State :=
  let s' := { s with router := r }
  match e with
  | .join _ sid _ _ =>
    match r.peers.lookup sid with
    | none => s'
    | some p => s'.setPeer sid (newPeer p)
  | .peerClose t =>
    match s.router.calls t with
    | .leaveClose p => s'.setPeer p.sessionID (s.peers p.sessionID).close
    | _ => s'
  | _ => s'

/-- The next section of a call that has found its peer. -/
def proceed (s : State) (t : CallID) : Option State :=
  match s.calls t with
  | .idle => none
  | .enqueue sid fn => some ((s.enqueue sid fn).setCall t .idle)
  | .roomFor sid target source quality =>
    match s.router.rooms.lookup (s.peers sid).channelID with
    | none => some (s.setCall t .idle)
    | some room => some (s.setCall t (.peerByUserID sid room target source quality))
  | .peerByUserID sid room target source quality =>
    match (s.router.heap room).peerByUserID target with
    | none => some (s.setCall t .idle)
    | some publisher =>
      if publisher = sid then some (s.setCall t .idle)
      else some (s.setCall t (.enqueue sid (.subscribeVideo publisher target source quality)))
  | .setPublishState sid source active =>
    let p := s.peers sid
    some ((s.setPeer sid { p with publishState := p.publishState.insert source active }).setCall t
      .idle)

end State

inductive Event where
  | router (e : SfuRouter.Event)
  | request (t : CallID) (sessionID : SessionID) (r : Request)
  | proceed (t : CallID)
  | onTrack (sessionID : SessionID) (mid : String) (kind : RTPCodecType) (rid : RID) (codec : String)
  | adminSnapshot (sessionID : SessionID)
  | run (sessionID : SessionID) (c : Choice)
  deriving DecidableEq

/-- After a panic of the router the process is gone. -/
def step (s : State) (e : Event) : Option State :=
  if s.router.panicked = true then none else
  match e with
  | .router e => (SfuRouter.step s.router e).map (s.routed e)
  | .request t sid r =>
    if s.calls t = .idle ∧ sid ∈ s.router.peers then some (s.setCall t (r.found sid)) else none
  | .proceed t => s.proceed t
  | .onTrack sid mid kind rid codec =>
    if sid ∈ s.router.issued then some (s.enqueue sid (.handleOnTrack mid kind rid codec)) else none
  | .adminSnapshot sid =>
    if sid ∈ s.router.issued then some (s.enqueue sid .snapshot) else none
  | .run sid c => s.run sid c

end MiniDiscord.SfuMedia
