import MiniDiscord.Caching.ReadThrough
import MiniDiscord.Data.GoMap
import MiniDiscord.Sfu.Room
import MiniDiscord.Transition.LabelledRuns

/-! # The user cache

`GetUserByID` and the writes of a user's row, step by step: the look into the cache, the
flight that a reader starts or joins, and the flight's own steps. An entry of the cache may
be gone at any moment.
-/
namespace MiniDiscord.Storage.UserCache
open Transition ReadThrough

structure User where
  id : UserID
  firstName : String
  lastName : String
  nickname : String
  email : String
  avatarKey : String
  attachmentFolderKey : String
  password : String
  isDeleted : Bool
  deletedAt : Option ℤ
  emailVerified : Bool
  createdAt : ℤ
  updatedAt : ℤ
  deriving DecidableEq

/-- The statements that change a row. The last takes the random address and password. -/
inductive Write where
  | updateUser (firstName lastName nickname : String)
  | saveUserAvatar (avatarKey : String)
  | deleteUser (email password : String)
  deriving DecidableEq

/-- The row after the statement, at the time of its `NOW()`. -/
def Write.apply (now : ℤ) : Write → User → User
  | .updateUser firstName lastName nickname, u =>
    { u with firstName := firstName, lastName := lastName, nickname := nickname, updatedAt := now }
  | .saveUserAvatar avatarKey, u => { u with avatarKey := avatarKey, updatedAt := now }
  | .deleteUser email password, u =>
    { u with
      firstName := "Deleted", lastName := "User", nickname := "deleted user", email := email,
      password := password, avatarKey := "", attachmentFolderKey := "", isDeleted := true,
      deletedAt := some now, updatedAt := now }

abbrev FlightID := ℕ

inductive FlightPhase where
  | started
  | read
  | closing
  | closed
  | removed
  deriving DecidableEq

/-- A call of the single flight. `seen` is which row of the history it has read. -/
structure Flight where
  userID : UserID
  phase : FlightPhase
  result : Option User
  seen : ℕ

/-- What a reader does next. An error is no user. -/
inductive ReaderPhase where
  | get
  | enter
  | waiting (flight : FlightID)
  | returned (result : Option User)
  deriving DecidableEq

/-- `since` is the newest row whose write had returned when the reader started. -/
structure Reader where
  userID : UserID
  since : ℕ
  phase : ReaderPhase
  deriving DecidableEq

/-- `version` is the number of the row that the statement has written. -/
inductive WriterPhase where
  | update
  | drop (version : ℕ)
  | returned (version : Option ℕ)
  deriving DecidableEq

structure Writer where
  userID : UserID
  write : Write
  phase : WriterPhase
  deriving DecidableEq

/-- `rows` are a user's rows one after the other, none where there is no such user, and
`dropped` is the newest of them whose write has dropped the entry and returned. -/
structure State where
  rows : UserID → List User
  cache : Cache (fun _ : UserID => User)
  calls : GoMap UserID FlightID
  flights : GoMap FlightID Flight
  nextFlight : FlightID
  readers : GoMap ℕ Reader
  writers : GoMap ℕ Writer
  dropped : UserID → ℕ

def start (rows : UserID → List User) : State where
  rows := rows
  cache := ReadThrough.empty
  calls := ∅
  flights := ∅
  nextFlight := 0
  readers := ∅
  writers := ∅
  dropped := fun u => (rows u).length - 1

namespace State

def setReader (s : State) (r : ℕ) (reader : Reader) (phase : ReaderPhase) : State :=
  { s with readers := s.readers.insert r { reader with phase := phase } }

def setFlight (s : State) (f : FlightID) (flight : Flight) : State :=
  { s with flights := s.flights.insert f flight }

def setWriter (s : State) (w : ℕ) (writer : Writer) (phase : WriterPhase) : State :=
  { s with writers := s.writers.insert w { writer with phase := phase } }

/-- The next step of `GetUserByID`. -/
def read (s : State) (r : ℕ) (reader : Reader) : Option State :=
  match reader.phase with
  | .get =>
    match s.cache reader.userID with
    | some u => some (s.setReader r reader (.returned (some u)))
    | none => some (s.setReader r reader .enter)
  | .enter =>
    match s.calls.lookup reader.userID with
    | some f => some (s.setReader r reader (.waiting f))
    | none =>
      some ({ s with
        calls := s.calls.insert reader.userID s.nextFlight
        flights := s.flights.insert s.nextFlight ⟨reader.userID,.started,none,0⟩
        nextFlight := s.nextFlight + 1 }.setReader r reader (.waiting s.nextFlight))
  | .waiting f =>
    match s.flights.lookup f with
    | none => none
    | some flight =>
      if flight.phase = .closed ∨ flight.phase = .removed then
        some (s.setReader r reader (.returned flight.result))
      else none
  | .returned _ => none

/-- The next step of a flight. The query may fail or panic. -/
def fly (s : State) (f : FlightID) (flight : Flight) (ok : Bool) : Option State :=
  match flight.phase with
  | .started =>
    match (s.rows flight.userID).getLast?, ok with
    | some u, true =>
      some (s.setFlight f ⟨flight.userID,.read,some u,(s.rows flight.userID).length - 1⟩)
    | _, _ => some (s.setFlight f { flight with phase := .closing })
  | .read =>
    match flight.result with
    | none => none
    | some u => some ({ s with cache := s.cache.set flight.userID u }.setFlight f
        { flight with phase := .closing })
  | .closing => some (s.setFlight f { flight with phase := .closed })
  | .closed =>
    some ({ s with calls := s.calls.erase flight.userID }.setFlight f { flight with phase := .removed })
  | .removed => none

/-- The next step of a write. A statement that fails changes nothing. -/
def write (s : State) (w : ℕ) (writer : Writer) (ok : Bool) (now : ℤ) : Option State :=
  match writer.phase with
  | .update =>
    if ok = false then some (s.setWriter w writer (.returned none)) else
    match (s.rows writer.userID).getLast? with
    | none => some (s.setWriter w writer (.drop 0))
    | some u =>
      some ({ s with
        rows := Function.update s.rows writer.userID
          (s.rows writer.userID ++ [writer.write.apply now u]) }.setWriter w writer
        (.drop (s.rows writer.userID).length))
  | .drop version =>
    some ({ s with
      cache := s.cache.delete writer.userID
      dropped := Function.update s.dropped writer.userID
        (max (s.dropped writer.userID) version) }.setWriter w writer (.returned (some version)))
  | .returned _ => none

end State

inductive Event where
  | getUserByID (r : ℕ) (userID : UserID)
  | read (r : ℕ)
  /-- The reader's context ends while it waits. -/
  | cancel (r : ℕ)
  | fly (f : FlightID) (ok : Bool)
  | startWrite (w : ℕ) (userID : UserID) (write : Write)
  | write (w : ℕ) (ok : Bool) (now : ℤ)
  | expire (userID : UserID)

def step (s : State) : Event → Option State
  | .getUserByID r userID =>
    match s.readers.lookup r with
    | some _ => none
    | none => some (s.setReader r ⟨userID,s.dropped userID,.get⟩ .get)
  | .read r => (s.readers.lookup r).bind (fun reader => s.read r reader)
  | .cancel r => (s.readers.lookup r).bind (fun reader =>
    match reader.phase with
    | .waiting _ => some (s.setReader r reader (.returned none))
    | _ => none)
  | .fly f ok => (s.flights.lookup f).bind (fun flight => s.fly f flight ok)
  | .startWrite w userID write =>
    match s.writers.lookup w with
    | some _ => none
    | none => some (s.setWriter w ⟨userID,write,.update⟩ .update)
  | .write w ok now => (s.writers.lookup w).bind (fun writer => s.write w writer ok now)
  | .expire userID => some { s with cache := s.cache.delete userID }

end MiniDiscord.Storage.UserCache
