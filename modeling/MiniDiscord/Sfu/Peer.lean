import MiniDiscord.Sfu.RouterState
import MiniDiscord.Sfu.Track

/-! # A peer's negotiation

The state that only a peer's own `run` goroutine writes, and what each task of its
queue does to it. Every Pion call may fail; its outcome, like what a signal carries
to the client, is data of the task.
-/
namespace MiniDiscord.SfuPeer
open SfuTrack

structure SubKey where
  publisherUserID : UserID
  source : Source
  deriving DecidableEq

structure SlotDecl where
  mid : String
  source : Source
  deriving DecidableEq

structure TrackInfo where
  userID : UserID
  source : Source
  kind : String
  deriving DecidableEq

/-- The calls of `Signaler` that a peer makes; SDP bodies are Pion's and stay out. -/
inductive Signal where
  | offer (userID : UserID) (sessionID : SessionID)
  | answer (userID : UserID) (sessionID : SessionID)
  | error (userID : UserID) (sessionID : SessionID) (code message : String)
  | trackPublished (channelID : ChannelID) (info : TrackInfo)
  | trackPublishedTo (userID : UserID) (channelID : ChannelID) (info : TrackInfo)
  | trackUnpublished (channelID : ChannelID) (info : TrackInfo)
  deriving DecidableEq

/-- What `enqueue` puts on a peer's command queue. -/
inductive Task where
  | handleOffer (slots : List SlotDecl)
  | handleAnswer
  | handleCandidate
  | handleOnTrack (mid : String) (kind : RTPCodecType) (rid : RID) (codec : String)
  | doSubscribe (publisherUserID : UserID) (pub : TrackRef) (quality : Quality)
  | doUnsubscribe (publisherUserID : UserID) (source : Source)
  | subscribeVideo (publisher : SessionID) (targetUserID : UserID) (source : Source)
      (quality : Quality)
  | markDetached
  | clearDetached
  | snapshot
  | doClose
  deriving DecidableEq

/-- Where `run` stands inside a task that reads what other goroutines write. -/
inductive Cont where
  | idle
  | autoSubscribeToExisting
  | autoSubscribePeers (others : List SessionID)
  | autoSubscribeTracks (publisherUserID : UserID) (pubs : List TrackRef) (others : List SessionID)
  | sendTrackSnapshot
  | snapshotPeers (others : List SessionID)
  | addLayer (pub : TrackRef) (rid : RID) (codec : String) (existed : Bool)
  | announce (pub : TrackRef)
  | notifyOthers (pub : TrackRef)
  | subscribeOthers (pub : TrackRef) (others : List SessionID)
  | subscribeVideo (targetUserID : UserID) (pub : TrackRef) (quality : Quality)
  | closeSubs (keys : List SubKey)
  | closeTracks (pubs : List (Source × TrackRef))
  | closeSubscribers (source : Source) (userIDs : List UserID) (pubs : List (Source × TrackRef))
  deriving DecidableEq

/-- A `Peer` with the fields the router's model already has, and the mutable ones. -/
structure Peer extends SfuRouter.Peer where
  slotBySource : GoMap Source String
  subs : GoMap SubKey TrackRef
  published : GoMap Source TrackRef
  publishState : GoMap Source Bool
  negotiating : Bool
  renegotiatePending : Bool
  detached : Bool
  stopped : Bool
  closeOnce : Bool
  commands : List Task
  cont : Cont

def newPeer (p : SfuRouter.Peer) : Peer where
  toPeer := p
  slotBySource := ∅
  subs := ∅
  published := ∅
  publishState := ∅
  negotiating := false
  renegotiatePending := false
  detached := false
  stopped := false
  closeOnce := false
  commands := []
  cont := .idle

/-- The outcomes of the Pion calls of one section: an error text, or none. -/
structure Pion where
  setRemoteDescription : Option String := none
  createAnswer : Option String := none
  createOffer : Option String := none
  setLocalDescription : Option String := none
  newTrackLocal : Option String := none
  addTrack : Option String := none
  deriving DecidableEq

def commandsCap : ℕ := 32

namespace Peer

/-- A full queue drops the command. -/
def enqueue (p : Peer) (fn : Task) : Peer :=
  if p.stopped = true then p
  else if p.commands.length < commandsCap then { p with commands := p.commands ++ [fn] }
  else p

def close (p : Peer) : Peer :=
  if p.closeOnce = true then p else { p with closeOnce := true }.enqueue .doClose

def fail (p : Peer) (code err : String) : Signal := .error p.userID p.sessionID code err

def sendOffer (p : Peer) (pc : Pion) : Peer × List Signal :=
  if p.detached = true then ({ p with negotiating := false, renegotiatePending := true },[])
  else match pc.createOffer with
  | some err => ({ p with negotiating := false },[p.fail "negotiate_failed" ("create offer: " ++ err)])
  | none =>
    match pc.setLocalDescription with
    | some err =>
      ({ p with negotiating := false },[p.fail "negotiate_failed" ("set local description: " ++ err)])
    | none => (p,[.offer p.userID p.sessionID])

def scheduleNegotiate (p : Peer) (pc : Pion) : Peer × List Signal :=
  if p.negotiating = true then ({ p with renegotiatePending := true },[])
  else { p with negotiating := true }.sendOffer pc

def handleOffer (p : Peer) (slots : List SlotDecl) (pc : Pion) : Peer × List Signal :=
  let p := { p with slotBySource := GoMap.collect (fun s => (s.source,s.mid)) slots }
  match pc.setRemoteDescription with
  | some err => (p,[p.fail "offer_failed" ("set remote description: " ++ err)])
  | none =>
    match pc.createAnswer with
    | some err => (p,[p.fail "offer_failed" ("create answer: " ++ err)])
    | none =>
      match pc.setLocalDescription with
      | some err => (p,[p.fail "offer_failed" ("set local description: " ++ err)])
      | none => ({ p with cont := .autoSubscribeToExisting },[.answer p.userID p.sessionID])

/-- `renegotiatePending.CompareAndSwap(true, false)`, and the offer it lets through. -/
def sendPending (p : Peer) (pc : Pion) : Peer × List Signal :=
  if p.renegotiatePending = true then
    { p with renegotiatePending := false, negotiating := true }.sendOffer pc
  else (p,[])

def handleAnswer (p : Peer) (pc : Pion) : Peer × List Signal :=
  match pc.setRemoteDescription with
  | some err =>
    ({ p with negotiating := false },[p.fail "answer_failed" ("set remote description: " ++ err)])
  | none => { p with negotiating := false }.sendPending pc

def markDetached (p : Peer) : Peer :=
  if p.negotiating = true then
    { p with detached := true, negotiating := false, renegotiatePending := true }
  else { p with detached := true }

def clearDetached (p : Peer) (pc : Pion) : Peer × List Signal :=
  { p with detached := false }.sendPending pc

/-- What `doSubscribe` does to the peer once the track was added to its connection. -/
def addSub (p : Peer) (key : SubKey) (pub : TrackRef) (pc : Pion) : Peer × List Signal :=
  { p with subs := p.subs.insert key pub }.scheduleNegotiate pc

def dropSub (p : Peer) (key : SubKey) (pc : Pion) : Peer × List Signal :=
  { p with subs := p.subs.erase key }.scheduleNegotiate pc

/-- `sourceForMID` may find `source`; several sources can declare one MID. -/
def findsMID (p : Peer) (mid : String) : Option Source → Bool
  | some source => decide (p.slotBySource.lookup source = some mid)
  | none => decide (∀ source ∈ p.slotBySource.keys, p.slotBySource.lookup source ≠ some mid)

/-- The sources a snapshot for a new peer mentions, in the order of the range. -/
def activeSources (p : Peer) (order : List Source) : List Source :=
  order.filter (fun source => decide (p.publishState.lookup source ≠ some false))

end Peer
end MiniDiscord.SfuPeer
