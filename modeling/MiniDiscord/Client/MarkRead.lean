import MiniDiscord.RateLimit.TokenBucket
import MiniDiscord.Commands.Types
import MiniDiscord.Transition.LabelledRuns

/-! # Read positions

`useUnread` tells the hub how far each channel was read. It sends at most one ID every two
seconds for each channel, keeps what it has sent, and waits for no response. The hub asks the
user's bucket for a token, and the table keeps the greatest ID. Frames under way may be lost
with the connection, and what the hub has got it handles in any order.
-/
namespace MiniDiscord.MarkRead
open SfuTrack ChatHub RateLimit Transition

def MARK_READ_THROTTLE_MS : ℤ := 2000

structure State where
  pendingByChannel : ChannelID → Option MessageID
  lastSentByChannel : ChannelID → Option MessageID
  lastSentAtByChannel : ChannelID → Option ℤ
  timerByChannel : List ChannelID
  isOpen : Bool
  /-- The `mark_read` frames that were sent and not handled. -/
  inFlight : List (ChannelID × MessageID)
  markReadLimiter : TokenBucket
  /-- `last_read_message_id` of the user's row. -/
  channelReads : ChannelID → Option MessageID
  /-- The greatest ID that was passed for the channel; nothing in the program keeps it. -/
  passed : ChannelID → MessageID

def start (channelReads : ChannelID → Option MessageID) : State where
  pendingByChannel _ := none
  lastSentByChannel _ := none
  lastSentAtByChannel _ := none
  timerByChannel := []
  isOpen := false
  inFlight := []
  markReadLimiter := newTokenBucket 2 10
  channelReads := channelReads
  passed _ := 0

namespace State
variable (s : State)

def lastSent (channelID : ChannelID) : MessageID := (s.lastSentByChannel channelID).getD 0
def lastSentAt (channelID : ChannelID) : ℤ := (s.lastSentAtByChannel channelID).getD 0
def lastRead (channelID : ChannelID) : MessageID := (s.channelReads channelID).getD 0

/-! ## The client -/

/-- Nothing is sent while the socket is not open. -/
def sendMarkRead (channelID : ChannelID) (messageID : MessageID) : State :=
  if s.isOpen then { s with inFlight := s.inFlight ++ [(channelID,messageID)] } else s

def sendNow (channelID : ChannelID) (now : ℤ) : State :=
  match s.pendingByChannel channelID with
  | none => s
  | some messageID =>
    if messageID ≤ s.lastSent channelID then
      { s with pendingByChannel := Function.update s.pendingByChannel channelID none }
    else { s.sendMarkRead channelID messageID with
      lastSentByChannel := Function.update s.lastSentByChannel channelID (some messageID)
      lastSentAtByChannel := Function.update s.lastSentAtByChannel channelID (some now)
      pendingByChannel := Function.update s.pendingByChannel channelID none }

def clearTimer (channelID : ChannelID) : State :=
  { s with timerByChannel := s.timerByChannel.filter (· ≠ channelID) }

def flushChannel (channelID : ChannelID) (now : ℤ) : State := (s.clearTimer channelID).sendNow channelID now

def flushAll (now : ℤ) : State := s.timerByChannel.foldl (fun s channelID => s.flushChannel channelID now) s

/-- The ID waits for two seconds since the last one was sent, unless it is forced. -/
def scheduleSend (channelID : ChannelID) (messageID : MessageID) (force : Bool) (now : ℤ) : State :=
  if messageID ≤ s.lastSent channelID then s
  else
    let s := { s with
      pendingByChannel := Function.update s.pendingByChannel channelID (some messageID) }
    if force then s.flushChannel channelID now
    else if MARK_READ_THROTTLE_MS ≤ now - s.lastSentAt channelID then s.sendNow channelID now
    else if channelID ∈ s.timerByChannel then s
    else { s with timerByChannel := s.timerByChannel ++ [channelID] }

def markChannelRead (channelID : ChannelID) (messageID : MessageID) (force : Bool) (now : ℤ) : State :=
  if channelID ≤ 0 ∨ messageID ≤ 0 then s
  else
    let s := { s with
      passed := Function.update s.passed channelID (max (s.passed channelID) messageID) }
    s.scheduleSend channelID messageID force now

/-! ## The hub -/

/-- `MarkChannelRead` of the storage. -/
def storeRead (channelID : ChannelID) (messageID : MessageID) : State :=
  let lastReadMessageID :=
    match s.channelReads channelID with
    | none => messageID
    | some lastReadMessageID => max lastReadMessageID messageID
  { s with channelReads := Function.update s.channelReads channelID (some lastReadMessageID) }

/-- The frame is dropped without a word when there is no token or no access, or the
statement fails. -/
def markRead (userID : UserID) (frame : ChannelID × MessageID) (now : ℚ) (canAccess fails : Bool) : State :=
  if frame.1 ≤ 0 ∨ frame.2 ≤ 0 then s
  else
    let r := s.markReadLimiter.allow now (toString userID)
    let s := { s with markReadLimiter := r.2 }
    if r.1 = false then s
    else if canAccess = false then s
    else if fails then s
    else s.storeRead frame.1 frame.2

end State

inductive Event where
  | markChannelRead (channelID : ChannelID) (messageID : MessageID) (force : Bool) (now : ℤ)
  | timer (channelID : ChannelID) (now : ℤ)
  | flushChannel (channelID : ChannelID) (now : ℤ)
  | flushAll (now : ℤ)
  | connect
  /-- The frames that have not reached the hub are lost. -/
  | disconnect (arrived : ℕ)
  | handle (i : ℕ) (now : ℚ) (canAccess fails : Bool)
  | cleanup (now : ℚ)

def step (userID : UserID) (s : State) : Event → Option State
  | .markChannelRead channelID messageID force now =>
    some (s.markChannelRead channelID messageID force now)
  | .timer channelID now =>
    if channelID ∈ s.timerByChannel then some ((s.clearTimer channelID).sendNow channelID now) else none
  | .flushChannel channelID now => some (s.flushChannel channelID now)
  | .flushAll now => some (s.flushAll now)
  | .connect => some { s with isOpen := true }
  | .disconnect arrived => some { s with isOpen := false, inFlight := s.inFlight.take arrived }
  | .handle i now canAccess fails =>
    match s.inFlight[i]? with
    | none => none
    | some frame =>
      some ({ s with inFlight := s.inFlight.eraseIdx i }.markRead userID frame now canAccess fails)
  | .cleanup now => some { s with markReadLimiter := s.markReadLimiter.cleanup now }

end MiniDiscord.MarkRead
