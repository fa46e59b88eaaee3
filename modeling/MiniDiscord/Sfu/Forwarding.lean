import MiniDiscord.Sfu.Track
import MiniDiscord.Transition.LabelledRuns

/-! # One published track at work

The track's layers arrive, other peers subscribe and change their quality, receiver
reports degrade and recover, and every layer's goroutine forwards its packets. A call of
one of the track's methods is cut where it gives a lock back.
-/
namespace MiniDiscord.SfuTrack

/-- What a quality request turns into while the subscriber loses packets. -/
def effectiveQuality (requestedQuality : Quality) (degraded : Bool) : Quality :=
  if degraded = true ∧ requestedQuality = .high then .low else requestedQuality

namespace TrackSubscriber

def effective (sub : TrackSubscriber) : Quality := effectiveQuality sub.requestedQuality sub.degraded

/-- The section of `setSubscriberQuality` under the subscriber's lock. -/
def setQuality (sub : TrackSubscriber) (quality : Quality) (targetRID : RID) : TrackSubscriber :=
  { sub with
    requestedQuality := quality
    degraded := false
    pendingRID :=
      if sub.hasActive = false ∨ sub.activeRID ≠ targetRID then targetRID else sub.pendingRID }

/-- The first section of `setDegraded`, when the flag is not set so already. -/
def setDegraded (sub : TrackSubscriber) (degraded : Bool) : TrackSubscriber :=
  { sub with degraded := degraded }

/-- The second one; the layer of the new effective quality was resolved in between. -/
def retarget (sub : TrackSubscriber) (targetRID : RID) : TrackSubscriber :=
  if sub.pendingRID ≠ targetRID ∧ (sub.hasActive = false ∨ sub.activeRID ≠ targetRID) then
    { sub with pendingRID := targetRID }
  else sub

/-- The switch of `forwardToSubscribers`: nothing for this subscriber, or the subscriber
afterwards and whether its rewriter starts anew. -/
def accept (sub : TrackSubscriber) (rid : RID) (isKeyframe : Bool) : Option (TrackSubscriber × Bool) :=
  if sub.hasActive = true ∧ sub.activeRID = rid then some (sub,false)
  else if sub.pendingRID = rid ∧ isKeyframe = true then
    some ({ sub with hasActive := true, activeRID := rid, pendingRID := "" },true)
  else none

end TrackSubscriber

end MiniDiscord.SfuTrack

namespace MiniDiscord.SfuForwarding
open SfuRoom SfuTrack Transition

abbrev CallID := ℕ

structure Packet where
  sequenceNumber : BitVec 16
  timestamp : BitVec 32
  payload : List (BitVec 8)
  deriving DecidableEq

structure RtpRewriter where
  initialized : Bool := false
  seqOffset : BitVec 16 := 0
  tsOffset : BitVec 32 := 0
  lastOutSeq : BitVec 16 := 0
  lastOutTs : BitVec 32 := 0
  deriving DecidableEq

def simulcastSwitchTimestampStep : BitVec 32 := 90000 / 30

namespace RtpRewriter

def start (rw : RtpRewriter) (firstInSeq : BitVec 16) (firstInTs : BitVec 32) : RtpRewriter :=
  if rw.initialized = false then { rw with seqOffset := 0, tsOffset := 0, initialized := true }
  else { rw with
    seqOffset := rw.lastOutSeq + 1 - firstInSeq
    tsOffset := rw.lastOutTs + simulcastSwitchTimestampStep - firstInTs }

/-- The packet as it goes out, and the rewriter that remembers it. -/
def apply (rw : RtpRewriter) (packet : Packet) : Packet × RtpRewriter :=
  let outSeq := packet.sequenceNumber + rw.seqOffset
  let outTs := packet.timestamp + rw.tsOffset
  ({ packet with sequenceNumber := outSeq, timestamp := outTs },
    { rw with lastOutSeq := outSeq, lastOutTs := outTs })

end RtpRewriter

/-- A call of one of the track's methods, at the section that is next. -/
inductive Call where
  | idle
  | newSubscriber (userID : UserID) (quality : Quality) (targetRID : RID)
  | insertSubscriber (userID : UserID) (quality : Quality) (targetRID : RID) (codec : String)
  | setSubscriberQuality (userID : UserID) (quality : Quality) (targetRID : RID)
  | resolveDegraded (userID : UserID) (effective : Quality)
  | setDegraded (userID : UserID) (targetRID : RID)
  | forwardToSubscribers (rid : RID) (packet : Packet) (isKeyframe : Bool) (subs : List UserID)
  deriving DecidableEq

/-- A packet that went to a subscriber's local track, and where it came from. -/
structure Written where
  rid : RID
  isKeyframe : Bool
  packet : Packet
  deriving DecidableEq

/-- `published` says that the publisher's map has the track, `adding` is the layer that its
`handleOnTrack` has still to add. `rewrites` and `sent` are kept for each subscriber, and
`sent` in the order in which the sequence numbers were given out. -/
structure State where
  track : PublishedTrack
  published : Bool
  adding : Option (RID × String)
  rewrites : UserID → RtpRewriter
  sent : UserID → List Written
  calls : CallID → Call

/-- A track with whatever layers it has, before anybody has subscribed. -/
def start (t : PublishedTrack) : State where
  track := { t with subs := ∅ }
  published := true
  adding := none
  rewrites := fun _ => {}
  sent := fun _ => []
  calls := fun _ => .idle

/-- Before the first packet of the source. -/
def init (userID : UserID) (source : Source) (kind : RTPCodecType) (owner : SessionID) : State :=
  { start (newPublishedTrack userID source kind owner) with published := false }

/-- A source sends one stream without a RID, or streams that are tagged `l`, `m` and `h`. -/
def admits (layers : GoMap RID String) (rid : RID) : Prop :=
  if rid = "" then ∀ r ∈ layers.keys, r = ""
  else rid ∈ [RIDLow,RIDMid,RIDHigh] ∧ "" ∉ layers.keys

instance (layers : GoMap RID String) (rid : RID) : Decidable (admits layers rid) := by
  unfold admits
  infer_instance

inductive Event where
  /-- `handleOnTrack` up to the end of its section under `publishedMu`. -/
  | onTrack (rid : RID) (codec : String)
  | addLayer
  | newSubscriber (t : CallID) (userID : UserID) (quality : Quality) (first : RID)
  | setSubscriberQuality (t : CallID) (userID : UserID) (quality : Quality) (first : RID)
  | setDegraded (t : CallID) (userID : UserID) (degraded : Bool)
  | forwardToSubscribers (t : CallID) (rid : RID) (packet : Packet) (isKeyframe : Bool)
      (subs : List UserID)
  /-- The next section of a call; `first` is what a range over the layers yields. -/
  | proceed (t : CallID) (first : RID)
  deriving DecidableEq

namespace State

def setCall (s : State) (t : CallID) (c : Call) : State :=
  { s with calls := Function.update s.calls t c }

def sub (s : State) (u : UserID) : Option TrackSubscriber := s.track.subs.lookup u

def setSub (s : State) (u : UserID) (sub : TrackSubscriber) : State :=
  { s with track := { s.track with subs := s.track.subs.insert u sub } }

/-- One round of the loop of `forwardToSubscribers`. -/
def forward (s : State) (rid : RID) (packet : Packet) (isKeyframe : Bool) (u : UserID) : State :=
  match (s.sub u).bind (fun sub => sub.accept rid isKeyframe) with
  | none => s
  | some (sub,starts) =>
    let rewrite := s.rewrites u
    let rewrite := if starts then rewrite.start packet.sequenceNumber packet.timestamp else rewrite
    { s.setSub u sub with
      rewrites := Function.update s.rewrites u (rewrite.apply packet).2
      sent := Function.update s.sent u
        (s.sent u ++ [⟨rid,isKeyframe,(rewrite.apply packet).1⟩]) }

/-- The next section of a call. -/
def proceed (s : State) (t : CallID) (first : RID) : Option State :=
  match s.calls t with
  | .idle => none
  | .newSubscriber u quality targetRID =>
    if s.track.yields first then
      some (s.setCall t (.insertSubscriber u quality targetRID (s.track.codecCapability first)))
    else none
  | .insertSubscriber u quality targetRID codec =>
    -- only called for a user who has no subscription to the track
    match s.sub u with
    | some _ => none
    | none => some ((s.setSub u ⟨codec,quality,false,false,"",targetRID⟩).setCall t .idle)
  | .setSubscriberQuality u quality targetRID =>
    match s.sub u with
    | none => some (s.setCall t .idle)
    | some sub => some ((s.setSub u (sub.setQuality quality targetRID)).setCall t .idle)
  | .resolveDegraded u effective =>
    if s.track.yields first then
      some (s.setCall t (.setDegraded u (s.track.resolveRID effective first)))
    else none
  | .setDegraded u targetRID =>
    match s.sub u with
    | none => some (s.setCall t .idle)
    | some sub => some ((s.setSub u (sub.retarget targetRID)).setCall t .idle)
  | .forwardToSubscribers _ _ _ [] => some (s.setCall t .idle)
  | .forwardToSubscribers rid packet isKeyframe (u :: us) =>
    some ((s.forward rid packet isKeyframe u).setCall t
      (.forwardToSubscribers rid packet isKeyframe us))

end State

/-- The router turns the quality `off` into an unsubscription before it gets here. -/
def step (s : State) : Event → Option State
  | .onTrack rid codec =>
    if s.adding = none ∧ admits s.track.layers rid then
      some { s with published := true, adding := some (rid,codec) }
    else none
  | .addLayer =>
    match s.adding with
    | none => none
    | some (rid,codec) => some { s with track := s.track.addLayer rid codec, adding := none }
  | .newSubscriber t u quality first =>
    if s.calls t = .idle ∧ s.published = true ∧ s.sub u = none ∧ quality ≠ .off ∧
        s.track.yields first = true then
      some (s.setCall t (.newSubscriber u quality (s.track.resolveRID quality first)))
    else none
  | .setSubscriberQuality t u quality first =>
    if s.calls t = .idle ∧ quality ≠ .off ∧ s.track.yields first = true then
      some (s.setCall t (.setSubscriberQuality u quality (s.track.resolveRID quality first)))
    else none
  | .setDegraded t u degraded =>
    if s.calls t = .idle then
      match s.sub u with
      | none => some s
      | some sub =>
        if sub.degraded = degraded then some s
        else some ((s.setSub u (sub.setDegraded degraded)).setCall t
          (.resolveDegraded u (sub.setDegraded degraded).effective))
    else none
  | .forwardToSubscribers t rid packet isKeyframe subs =>
    if s.calls t = .idle ∧ rid ∈ s.track.layers ∧ subs.Nodup ∧
        subs.toFinset = s.track.subs.keys then
      some (s.setCall t (.forwardToSubscribers rid packet isKeyframe subs))
    else none
  | .proceed t first => s.proceed t first

end MiniDiscord.SfuForwarding
