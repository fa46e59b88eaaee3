import MiniDiscord.Storage.Cached
import MiniDiscord.Transactions.ReadCommitted

/-! # Opening a conversation

Any number of calls of `OpenDMChannel`, each a transaction, statement by statement. The
insertion of a pair waits for another transaction that has inserted the same pair and is
not finished. Every statement and every commit may fail, and a commit may be done and not
acknowledged; the deferred `Rollback` follows.
-/
namespace MiniDiscord.Storage.OpenDM
open Transition ReadCommitted

abbrev CallID := ℕ

inductive Write where
  | insertChannel (row : Channel)
  | insertDMChannel (row : DMChannel)
  | insertVisibility (row : DMVisibility)
  | deleteChannel (channelID : ChannelID)

def apply (db : Tables) : Write → Tables
  | .insertChannel row => db.insertChannel row
  | .insertDMChannel row => db.insertDMChannel row
  | .insertVisibility row => db.insertVisibility row
  | .deleteChannel channelID => db.deleteChannels (fun c => c.id = channelID)

inductive Failure where
  | noSharedServer
  | database
  deriving DecidableEq

/-- The statement that is next. -/
inductive Phase where
  | lookup
  | sharesServer
  | insertChannel
  | insertDMChannel (channelID : ChannelID)
  | reread (channelID : ChannelID)
  | deleteChannel (channelID winnerChannelID : ChannelID)
  | insertVisibility (channelID : ChannelID)
  | commit (channelID : ChannelID) (created : Bool)
  | done (result : Except Failure (ChannelID × Bool))

structure Call where
  userID : UserID
  peerID : UserID
  phase : Phase

/-- The ordered pair of the call. -/
def Call.a (call : Call) : UserID := (normalizeDMPair call.userID call.peerID).1
def Call.b (call : Call) : UserID := (normalizeDMPair call.userID call.peerID).2

/-- The row that makes the channel the conversation of the call's pair. -/
def Call.row (call : Call) (channelID : ChannelID) : DMChannel := ⟨channelID,call.a,call.b⟩

/-- What a call that has succeeded has returned. -/
def Call.returned (call : Call) : Option (ChannelID × Bool) :=
  match call.phase with
  | .done (.ok result) => some result
  | _ => none

/-- The two calls are for the same two users, in either order. -/
def Call.SameUsers (call call' : Call) : Prop :=
  call.userID = call'.userID ∧ call.peerID = call'.peerID ∨
    call.userID = call'.peerID ∧ call.peerID = call'.userID

theorem normalizeDMPair_comm (u v : UserID) : normalizeDMPair u v = normalizeDMPair v u := by
  unfold normalizeDMPair
  split
  · rename_i h
    rw [if_neg (lt_asymm h)]
  · rename_i h
    split
    · rfl
    · rename_i h'
      rw [le_antisymm (not_lt.mp h') (not_lt.mp h)]

theorem Call.SameUsers.pair {call call' : Call} (h : call.SameUsers call') :
    normalizeDMPair call.userID call.peerID = normalizeDMPair call'.userID call'.peerID := by
  rcases h with ⟨hu,hp⟩ | ⟨hu,hp⟩
  · rw [hu,hp]
  · rw [hu,hp]
    exact normalizeDMPair_comm _ _

/-- `given` are the IDs that the sequence of channels has given, which no rollback takes back. -/
structure State where
  store : Store CallID Tables Write
  given : Finset ChannelID
  calls : GoMap CallID Call

def start (db : Tables) (given : Finset ChannelID) : State := ⟨⟨db,fun _ => []⟩,given,∅⟩

namespace State

def db (s : State) : Tables := s.store.committed

def view (s : State) (i : CallID) : Tables := s.store.view apply i

def setPhase (s : State) (i : CallID) (call : Call) (phase : Phase) : State :=
  { s with calls := s.calls.insert i { call with phase := phase } }

def write (s : State) (i : CallID) (w : Write) : State := { s with store := s.store.write i w }

/-- The error is returned and the transaction rolled back. -/
def fail (s : State) (i : CallID) (call : Call) (failure : Failure) : State :=
  { s with store := s.store.rollback i }.setPhase i call (.done (.error failure))

/-- `tx.Commit()`, and what the call returns. -/
def commit (s : State) (i : CallID) (call : Call) (result : Except Failure (ChannelID × Bool)) : State :=
  { s with store := s.store.commit apply i }.setPhase i call (.done result)

end State

def hasPair (db : Tables) (a b : UserID) : Prop := ∃ d ∈ db.dmChannels, d.userA = a ∧ d.userB = b

instance (db : Tables) (a b : UserID) : Decidable (hasPair db a b) := by
  unfold hasPair
  infer_instance

/-- The pairs that a transaction has inserted. -/
def inserted (ws : List Write) : List (UserID × UserID) :=
  ws.filterMap (fun
    | .insertDMChannel row => some (row.userA,row.userB)
    | _ => none)

inductive Event where
  | openDMChannel (i : CallID) (userID peerID : UserID)
  /-- The next statement or the commit. `value` is the ID that a query finds or a sequence gives. -/
  | statement (i : CallID) (value : ChannelID)
  /-- It fails. -/
  | fail (i : CallID)
  /-- The commit is done, and the error is that nobody says so. -/
  | unacknowledged (i : CallID)

/-- One statement of a call. -/
def statement (s : State) (i : CallID) (call : Call) (value : ChannelID) : Option State :=
  let db := s.view i
  match call.phase with
  | .lookup =>
    if call.row value ∈ db.dmChannels then some (s.setPhase i call (.commit value false))
    else if hasPair db call.a call.b then none
    else some (s.setPhase i call .sharesServer)
  | .sharesServer =>
    if db.sharesServer call.a call.b then some (s.setPhase i call .insertChannel)
    else some (s.fail i call .noSharedServer)
  | .insertChannel =>
    if value ∈ s.given then none
    else some ({ s.write i (.insertChannel ⟨value,none,"",ChannelTypeDM⟩) with
      given := insert value s.given }.setPhase i call (.insertDMChannel value))
  | .insertDMChannel channelID =>
    -- the check comes first, then the unique index, then the references
    if ¬ call.a < call.b then some (s.fail i call .database)
    else if ∃ j ∈ s.calls.keys, j ≠ i ∧ (call.a,call.b) ∈ inserted (s.store.pending j) then none
    else if hasPair db call.a call.b then some (s.setPhase i call (.reread channelID))
    else if ¬ (call.a ∈ db.users ∧ call.b ∈ db.users) then some (s.fail i call .database)
    else some ((s.write i (.insertDMChannel (call.row channelID))).setPhase i call
      (.insertVisibility channelID))
  | .reread channelID =>
    if call.row value ∈ db.dmChannels then some (s.setPhase i call (.deleteChannel channelID value))
    else if hasPair db call.a call.b then none
    else some (s.fail i call .database)
  | .deleteChannel channelID winnerChannelID =>
    some ((s.write i (.deleteChannel channelID)).setPhase i call (.commit winnerChannelID false))
  | .insertVisibility channelID =>
    some ((s.write i (.insertVisibility ⟨channelID,call.userID,false⟩)).setPhase i call
      (.commit channelID true))
  | .commit channelID created => some (s.commit i call (.ok (channelID,created)))
  | .done _ => none

def step (s : State) : Event → Option State
  | .openDMChannel i userID peerID =>
    match s.calls.lookup i with
    | some _ => none
    | none => some { s with calls := s.calls.insert i ⟨userID,peerID,.lookup⟩ }
  | .statement i value => (s.calls.lookup i).bind (fun call => statement s i call value)
  | .fail i => (s.calls.lookup i).bind (fun call =>
    match call.phase with
    | .done _ => none
    | _ => some (s.fail i call .database))
  | .unacknowledged i => (s.calls.lookup i).bind (fun call =>
    match call.phase with
    | .commit _ _ => some (s.commit i call (.error .database))
    | _ => none)

end MiniDiscord.Storage.OpenDM
