import MiniDiscord.Sfu.Room

/-! # Published tracks

A published track owns its simulcast layers and, keyed by user ID, the view each
subscriber has of it. Where the source ranges over the layer map, the layer that
the range would yield first is a parameter.
-/
namespace MiniDiscord.SfuTrack

abbrev Source := String
abbrev RID := String
abbrev TrackRef := ℕ

def SourceMic : Source := "mic"

inductive RTPCodecType where
  | audio
  | video
  deriving DecidableEq

inductive Quality where
  | off
  | low
  | high
  deriving DecidableEq

def kindString : RTPCodecType → String
  | .audio => "audio"
  | .video => "video"

def RIDLow : RID := "l"
def RIDMid : RID := "m"
def RIDHigh : RID := "h"

def preferredRIDOrder : Quality → List RID
  | .high => [RIDHigh,RIDMid,RIDLow]
  | .low => [RIDLow,RIDMid,RIDHigh]
  | .off => []

/-- The rewriter of the forwarding loop is left out: nothing here forwards packets. -/
structure TrackSubscriber where
  codec : String
  requestedQuality : Quality
  degraded : Bool
  hasActive : Bool
  activeRID : RID
  pendingRID : RID

/-- `layers` maps each RID to the codec capability of its remote track. -/
structure PublishedTrack where
  userID : UserID
  source : Source
  kind : RTPCodecType
  owner : SessionID
  layers : GoMap RID String
  subs : GoMap UserID TrackSubscriber

def newPublishedTrack (userID : UserID) (source : Source) (kind : RTPCodecType)
    (owner : SessionID) : PublishedTrack := ⟨userID,source,kind,owner,∅,∅⟩

namespace PublishedTrack

def addLayer (t : PublishedTrack) (rid : RID) (codec : String) : PublishedTrack :=
  { t with layers := t.layers.insert rid codec }

/-- A range over `layers` may yield `first` before the others, or nothing at all. -/
def yields (t : PublishedTrack) (first : RID) : Bool :=
  GoMap.isEmpty t.layers || decide (first ∈ t.layers)

def codecCapability (t : PublishedTrack) (first : RID) : String := (t.layers.lookup first).getD ""

def resolveRID (t : PublishedTrack) (quality : Quality) (first : RID) : RID :=
  if GoMap.isEmpty t.layers then ""
  else if t.layers.keys.card ≤ 1 then first
  else ((preferredRIDOrder quality).find? (fun rid => decide (rid ∈ t.layers))).getD first

/-- The part of `newSubscriber` after its local track was created. -/
def newSubscriber (t : PublishedTrack) (userID : UserID) (quality : Quality) (first : RID) :
    PublishedTrack :=
  let sub : TrackSubscriber :=
    ⟨t.codecCapability first,quality,false,false,"",t.resolveRID quality first⟩
  { t with subs := t.subs.insert userID sub }

def setSubscriberQuality (t : PublishedTrack) (userID : UserID) (quality : Quality) (first : RID) :
    PublishedTrack :=
  match t.subs.lookup userID with
  | none => t
  | some sub =>
    let targetRID := t.resolveRID quality first
    let sub := { sub with
      requestedQuality := quality
      degraded := false
      pendingRID :=
        if sub.hasActive = false ∨ sub.activeRID ≠ targetRID then targetRID else sub.pendingRID }
    { t with subs := t.subs.insert userID sub }

def removeSubscriber (t : PublishedTrack) (userID : UserID) : PublishedTrack :=
  { t with subs := t.subs.erase userID }

end PublishedTrack
end MiniDiscord.SfuTrack
