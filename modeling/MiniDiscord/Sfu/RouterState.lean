import MiniDiscord.Sfu.Room
import MiniDiscord.Transition.LabelledRuns

/-! # The router's critical sections

`Router.Join` and `Router.Leave` are split where they release a mutex. Every
section is one event of a call; any number of calls may be between two sections
at the same time. Rooms live in a heap, because a channel's entry in `rooms` can
be dropped and created again while some call still holds the old object.
-/
namespace MiniDiscord.SfuRouter
open SfuRoom Transition

abbrev RoomRef := ℕ
abbrev CallID := ℕ

/-- The immutable fields of a `Peer`; the session ID identifies the object. -/
structure Peer where
  sessionID : SessionID
  userID : UserID
  channelID : ChannelID
  room : RoomRef
  deriving DecidableEq

/-- Where a call stands: the section it executes next. -/
inductive Call where
  | idle
  | joinAdd (peer : Peer)
  | leaveRemove (peer : Peer) (room : RoomRef)
  | leaveRemoveUser (peer : Peer) (room : RoomRef)
  | leaveIsEmpty (peer : Peer) (room : RoomRef)
  | leaveRecheck (peer : Peer) (room : RoomRef)
  | leaveClose (peer : Peer)
  deriving DecidableEq

/-- `issued` remembers every session ID handed out so far, since
`uuid.NewString()` never repeats one. After a panic the process is gone. -/
structure State where
  rooms : GoMap ChannelID RoomRef
  peers : GoMap SessionID Peer
  heap : RoomRef → Room
  nextRoom : RoomRef
  issued : Finset SessionID
  calls : CallID → Call
  panicked : Bool

def init : State where
  rooms := ∅
  peers := ∅
  heap := fun _ => newRoom 0
  nextRoom := 0
  issued := ∅
  calls := fun _ => .idle
  panicked := false

def State.setCall (s : State) (t : CallID) (c : Call) : State :=
  { s with calls := Function.update s.calls t c }

def State.setRoom (s : State) (r : RoomRef) (room : Room) : State :=
  { s with heap := Function.update s.heap r room }

/-- The tail of `Join`'s locked section, with the room already chosen. -/
def State.register (s : State) (t : CallID) (p : Peer) : State :=
  { s with
    peers := s.peers.insert p.sessionID p
    issued := insert p.sessionID s.issued
    calls := Function.update s.calls t (.joinAdd p) }

/-- `room = newRoom(channelID, r.sig); r.rooms[channelID] = room`. -/
def State.allocate (s : State) (channelID : ChannelID) : State :=
  { s with
    rooms := s.rooms.insert channelID s.nextRoom
    heap := Function.update s.heap s.nextRoom (newRoom channelID)
    nextRoom := s.nextRoom + 1 }

def State.joinLocked (s : State) (t : CallID) (sessionID : SessionID) (userID : UserID)
    (channelID : ChannelID) : State :=
  match s.rooms.lookup channelID with
  | some r => s.register t ⟨sessionID,userID,channelID,r⟩
  | none => (s.allocate channelID).register t ⟨sessionID,userID,channelID,s.nextRoom⟩

/-- `room.add(peer)`, after `r.mu` was released. -/
def State.roomAdd (s : State) (t : CallID) (p : Peer) : State :=
  (s.setRoom p.room ((s.heap p.room).add p.userID p.sessionID)).setCall t .idle

/-- The first locked section of `Leave`; a missing room skips to `peer.close()`. -/
def State.leaveLocked (s : State) (t : CallID) (p : Peer) : State :=
  let s' := { s with peers := s.peers.erase p.sessionID }
  match s.rooms.lookup p.channelID with
  | some r => s'.setCall t (.leaveRemove p r)
  | none => s'.setCall t (.leaveClose p)

def State.roomRemove (s : State) (t : CallID) (p : Peer) (r : RoomRef) : State :=
  (s.setRoom r ((s.heap r).remove p.userID)).setCall t (.leaveRemoveUser p r)

def State.setSpeakers (s : State) (r : RoomRef) (f : ActiveSpeakers → ActiveSpeakers) : State :=
  s.setRoom r { s.heap r with speakers := f (s.heap r).speakers }

def State.removeUser (s : State) (t : CallID) (p : Peer) (r : RoomRef) : State :=
  (s.setSpeakers r (fun a => a.removeUser p.userID)).setCall t (.leaveIsEmpty p r)

/-- The emptiness test outside `r.mu`. -/
def State.isEmpty (s : State) (t : CallID) (p : Peer) (r : RoomRef) : State :=
  s.setCall t (if (s.heap r).isEmpty then .leaveRecheck p r else .leaveClose p)

/-- `delete(r.rooms, peer.channelID); room.close()`. -/
def State.dropRoom (s : State) (p : Peer) (r : RoomRef) : State :=
  { s.setRoom r (s.heap r).close with
    rooms := s.rooms.erase p.channelID
    panicked := decide ((s.heap r).closes ≠ 0) }

/-- The second locked section of `Leave`. -/
def State.recheck (s : State) (t : CallID) (p : Peer) (r : RoomRef) : State :=
  (if (s.heap r).isEmpty then s.dropRoom p r else s).setCall t (.leaveClose p)

/-- One event is one critical section of one call, or one write of the
active-speaker bookkeeping. -/
inductive Event where
  | join (t : CallID) (sessionID : SessionID) (userID : UserID) (channelID : ChannelID)
  | roomAdd (t : CallID)
  | leave (t : CallID) (sessionID : SessionID)
  | roomRemove (t : CallID)
  | removeUser (t : CallID)
  | isEmpty (t : CallID)
  | recheck (t : CallID)
  | peerClose (t : CallID)
  | markLoud (room : RoomRef) (userID : UserID) (now : Time)
  | sweep (room : RoomRef) (now : Time)
  deriving DecidableEq

def step (s : State) (e : Event) : Option State :=
  if s.panicked then none else
  match e with
  | .join t sid u c =>
    if s.calls t = .idle ∧ sid ∉ s.issued then some (s.joinLocked t sid u c) else none
  | .roomAdd t =>
    match s.calls t with
    | .joinAdd p => some (s.roomAdd t p)
    | _ => none
  | .leave t sid =>
    if s.calls t = .idle then
      match s.peers.lookup sid with
      | some p => some (s.leaveLocked t p)
      | none => some s
    else none
  | .roomRemove t =>
    match s.calls t with
    | .leaveRemove p r => some (s.roomRemove t p r)
    | _ => none
  | .removeUser t =>
    match s.calls t with
    | .leaveRemoveUser p r => some (s.removeUser t p r)
    | _ => none
  | .isEmpty t =>
    match s.calls t with
    | .leaveIsEmpty p r => some (s.isEmpty t p r)
    | _ => none
  | .recheck t =>
    match s.calls t with
    | .leaveRecheck p r => some (s.recheck t p r)
    | _ => none
  | .peerClose t =>
    match s.calls t with
    | .leaveClose _ => some (s.setCall t .idle)
    | _ => none
  | .markLoud r u now =>
    if r < s.nextRoom then some (s.setSpeakers r (fun a => a.markLoud u now)) else none
  | .sweep r now =>
    if r < s.nextRoom then some (s.setSpeakers r (fun a => (a.sweep now).1)) else none

/-- Everything an event can do, with the test that let it happen. -/
inductive StepView (s : State) : Event → State → Prop
  | joinOld {t sid u c r} : s.calls t = .idle → sid ∉ s.issued → s.rooms.lookup c = some r →
      StepView s (.join t sid u c) (s.register t ⟨sid,u,c,r⟩)
  | joinNew {t sid u c} : s.calls t = .idle → sid ∉ s.issued → s.rooms.lookup c = none →
      StepView s (.join t sid u c) ((s.allocate c).register t ⟨sid,u,c,s.nextRoom⟩)
  | roomAdd {t p} : s.calls t = .joinAdd p → StepView s (.roomAdd t) (s.roomAdd t p)
  | leaveRoom {t sid p r} : s.calls t = .idle → s.peers.lookup sid = some p →
      s.rooms.lookup p.channelID = some r →
      StepView s (.leave t sid)
        ({ s with peers := s.peers.erase p.sessionID }.setCall t (.leaveRemove p r))
  | leaveNoRoom {t sid p} : s.calls t = .idle → s.peers.lookup sid = some p →
      s.rooms.lookup p.channelID = none →
      StepView s (.leave t sid)
        ({ s with peers := s.peers.erase p.sessionID }.setCall t (.leaveClose p))
  | leaveUnknown {t sid} : s.calls t = .idle → s.peers.lookup sid = none →
      StepView s (.leave t sid) s
  | roomRemove {t p r} : s.calls t = .leaveRemove p r →
      StepView s (.roomRemove t) (s.roomRemove t p r)
  | removeUser {t p r} : s.calls t = .leaveRemoveUser p r →
      StepView s (.removeUser t) (s.removeUser t p r)
  | isEmpty {t p r} : s.calls t = .leaveIsEmpty p r → StepView s (.isEmpty t) (s.isEmpty t p r)
  | drop {t p r} : s.calls t = .leaveRecheck p r → (s.heap r).isEmpty = true →
      StepView s (.recheck t) ((s.dropRoom p r).setCall t (.leaveClose p))
  | keep {t p r} : s.calls t = .leaveRecheck p r → (s.heap r).isEmpty = false →
      StepView s (.recheck t) (s.setCall t (.leaveClose p))
  | peerClose {t p} : s.calls t = .leaveClose p → StepView s (.peerClose t) (s.setCall t .idle)
  | markLoud {r u now} : r < s.nextRoom →
      StepView s (.markLoud r u now) (s.setSpeakers r (fun a => a.markLoud u now))
  | sweep {r now} : r < s.nextRoom →
      StepView s (.sweep r now) (s.setSpeakers r (fun a => (a.sweep now).1))

theorem step_view {s s' : State} {e : Event} (he : step s e = some s') :
    s.panicked = false ∧ StepView s e s' := by
  unfold step at he
  split at he
  · cases he
  · rename_i hp
    refine ⟨by simpa using hp,?_⟩
    cases e with
    | join t sid u c =>
      dsimp only at he
      split at he
      · rename_i h
        cases he
        unfold State.joinLocked
        split
        · exact .joinOld h.1 h.2 ‹_›
        · exact .joinNew h.1 h.2 ‹_›
      · cases he
    | leave t sid =>
      dsimp only at he
      split at he
      · rename_i hi
        split at he
        · rename_i p hs
          cases he
          unfold State.leaveLocked
          dsimp only
          split
          · exact .leaveRoom hi hs ‹_›
          · exact .leaveNoRoom hi hs ‹_›
        · cases he
          exact .leaveUnknown hi ‹_›
      · cases he
    | recheck t =>
      dsimp only at he
      split at he
      · rename_i p r hc
        cases he
        unfold State.recheck
        split
        · exact .drop hc ‹_›
        · exact .keep hc (by simpa using ‹¬ (s.heap r).isEmpty = true›)
      · cases he
    | roomAdd t => dsimp only at he; split at he <;> cases he; exact .roomAdd ‹_›
    | roomRemove t => dsimp only at he; split at he <;> cases he; exact .roomRemove ‹_›
    | removeUser t => dsimp only at he; split at he <;> cases he; exact .removeUser ‹_›
    | isEmpty t => dsimp only at he; split at he <;> cases he; exact .isEmpty ‹_›
    | peerClose t => dsimp only at he; split at he <;> cases he; exact .peerClose ‹_›
    | markLoud r u now => dsimp only at he; split at he <;> cases he; exact .markLoud ‹_›
    | sweep r now => dsimp only at he; split at he <;> cases he; exact .sweep ‹_›

/-- The call an event belongs to. -/
def Event.call : Event → Option CallID
  | .join t _ _ _ => some t
  | .roomAdd t => some t
  | .leave t _ => some t
  | .roomRemove t => some t
  | .removeUser t => some t
  | .isEmpty t => some t
  | .recheck t => some t
  | .peerClose t => some t
  | .markLoud _ _ _ => none
  | .sweep _ _ => none

/-- A section moves only the call it belongs to. -/
theorem step_calls_of_ne {s s' : State} {e : Event} {t : CallID} (he : step s e = some s')
    (ht : e.call ≠ some t) : s'.calls t = s.calls t := by
  obtain ⟨-,hv⟩ := step_view he
  have hne : ∀ {u : CallID} {c : Call}, some u ≠ some t → Function.update s.calls u c t = s.calls t := by
    intro u c hu
    exact Function.update_of_ne (fun h => hu (congrArg some h.symm)) _ _
  cases hv <;> first | exact hne ht | rfl

def Quiescent (s : State) : Prop := ∀ t, s.calls t = .idle

/-- Only the calls that occur in a schedule have to be checked for quiescence. -/
theorem quiescent_of_runs {es : List Event} {s : State} (h : Runs step init es s)
    (hq : ∀ e ∈ es, ∀ t ∈ e.call, s.calls t = .idle) : Quiescent s := by
  intro t
  by_cases ht : ∃ e ∈ es, e.call = some t
  · obtain ⟨e,he,hc⟩ := ht
    exact hq e he t hc
  · push Not at ht
    exact h.frame (f := fun s => s.calls t) (fun he hstep => step_calls_of_ne hstep (ht _ he))

end MiniDiscord.SfuRouter
