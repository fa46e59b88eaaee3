import MiniDiscord.Data.GoMap

/-! # Rooms: membership and active speakers

A room is bookkeeping only: which session holds the slot of each user, who was
loud recently, and how often its stop channel was closed. Both maps are keyed by
user ID, as in the source.
-/
namespace MiniDiscord

/-- Go's `int` user IDs. -/
abbrev UserID := Int
/-- Go's `int64` channel IDs. -/
abbrev ChannelID := Int
/-- The `uuid.NewString()` of one `Router.Join`. -/
abbrev SessionID := String
/-- Nanoseconds of the process clock. -/
abbrev Time := Int

namespace SfuRoom

def activeSpeakerHoldDuration : Time := 400000000

structure ActiveSpeakers where
  lastLoudAt : GoMap UserID Time
  current : Finset UserID

def newActiveSpeakers : ActiveSpeakers := ⟨∅,∅⟩

def ActiveSpeakers.markLoud (a : ActiveSpeakers) (userID : UserID) (now : Time) : ActiveSpeakers :=
  { a with lastLoudAt := a.lastLoudAt.insert userID now }

/-- Only `lastLoudAt` is touched: `current` is what the last sweep reported. -/
def ActiveSpeakers.removeUser (a : ActiveSpeakers) (userID : UserID) : ActiveSpeakers :=
  { a with lastLoudAt := a.lastLoudAt.erase userID }

/-- The users whose last loud packet is younger than the hold time. -/
def ActiveSpeakers.loudAt (a : ActiveSpeakers) (now : Time) : Finset UserID :=
  a.lastLoudAt.keys.filter (fun u =>
    ((a.lastLoudAt.lookup u).map (fun at' => decide (now - at' < activeSpeakerHoldDuration))).getD false)

def ActiveSpeakers.sweep (a : ActiveSpeakers) (now : Time) : ActiveSpeakers × Option (Finset UserID) :=
  let next := a.loudAt now
  let changed := decide (next.card ≠ a.current.card ∨ ∃ id ∈ next, id ∉ a.current)
  ({ a with current := next },if changed then some next else none)

/-- `closes` counts the executions of `close(r.stopCh)`; the second one panics. -/
structure Room where
  channelID : ChannelID
  peers : GoMap UserID SessionID
  speakers : ActiveSpeakers
  closes : ℕ

def newRoom (channelID : ChannelID) : Room := ⟨channelID,∅,newActiveSpeakers,0⟩

def Room.add (r : Room) (userID : UserID) (sessionID : SessionID) : Room :=
  { r with peers := r.peers.insert userID sessionID }

def Room.remove (r : Room) (userID : UserID) : Room :=
  { r with peers := r.peers.erase userID }

def Room.peerByUserID (r : Room) (userID : UserID) : Option SessionID := r.peers.lookup userID

def Room.isEmpty (r : Room) : Bool := GoMap.isEmpty r.peers

def Room.close (r : Room) : Room := { r with closes := r.closes + 1 }

@[simp] theorem Room.peerByUserID_add (r : Room) (u v : UserID) (sid : SessionID) :
    (r.add u sid).peerByUserID v = if v = u then some sid else r.peerByUserID v :=
  GoMap.lookup_insert_eq _ _ _ _

@[simp] theorem Room.peerByUserID_remove (r : Room) (u v : UserID) :
    (r.remove u).peerByUserID v = if v = u then none else r.peerByUserID v :=
  GoMap.lookup_erase_eq _ _ _

theorem Room.isEmpty_iff (r : Room) : r.isEmpty = true ↔ ∀ u, r.peerByUserID u = none :=
  GoMap.isEmpty_iff _

@[simp] theorem Room.peerByUserID_close (r : Room) (u : UserID) :
    r.close.peerByUserID u = r.peerByUserID u := rfl
@[simp] theorem Room.closes_close (r : Room) : r.close.closes = r.closes + 1 := rfl
@[simp] theorem Room.closes_add (r : Room) (u : UserID) (sid : SessionID) :
    (r.add u sid).closes = r.closes := rfl
@[simp] theorem Room.closes_remove (r : Room) (u : UserID) : (r.remove u).closes = r.closes := rfl
@[simp] theorem Room.channelID_add (r : Room) (u : UserID) (sid : SessionID) :
    (r.add u sid).channelID = r.channelID := rfl
@[simp] theorem Room.channelID_remove (r : Room) (u : UserID) :
    (r.remove u).channelID = r.channelID := rfl
@[simp] theorem Room.channelID_close (r : Room) : r.close.channelID = r.channelID := rfl
@[simp] theorem newRoom_closes (c : ChannelID) : (newRoom c).closes = 0 := rfl
@[simp] theorem newRoom_channelID (c : ChannelID) : (newRoom c).channelID = c := rfl
@[simp] theorem newRoom_peerByUserID (c : ChannelID) (u : UserID) :
    (newRoom c).peerByUserID u = none := rfl

end SfuRoom
end MiniDiscord
