import MiniDiscord.Caching.ExpiringMap
import MiniDiscord.Data.GoMap
import MiniDiscord.Transition.LabelledRuns

/-! # The cache of the storage

Any number of calls of `Set`, `Get`, `Delete` and `DeleteByPrefix` beside the background
eviction, each lock section and each reading of the clock one step. Times are Unix
nanoseconds. The map of the same calls, which never evicts, runs along with the cache.
-/
namespace MiniDiscord.TtlCache
open Transition ExpiringMap

/-- `UnixNano()`. -/
def unixNano (t : ℤ) : Int64 := Int64.ofInt t

/-- An expiration of 0 is never. -/
structure Item (V : Type) where
  value : V
  created : ℤ
  expiration : Int64

variable {V : Type}

def Item.expired (item : Item V) (now : ℤ) : Bool :=
  decide (0 < item.expiration) && decide (item.expiration < unixNano now)

inductive Op (V : Type) where
  | set (key : String) (value : V) (duration : Int64)
  | get (key : String)
  | delete (key : String)
  | deleteByPrefix (start : String)

/-- What a call does next, or what it has returned. -/
inductive Position (V : Type) where
  | reading (key : String)
  | checking (key : String) (item : Item V)
  | removing (key : String) (item : Item V)
  | got (key : String) (result : Option V)
  | timing (key : String) (value : V) (duration : Int64)
  | storing (key : String) (value : V) (expiresAt : Option ℤ)
  | stored
  | deleting (key : String)
  | deleted (found : Bool)
  | deletingByPrefix (start : String)
  | deletedByPrefix (count : ℕ)

def Position.hasReturned : Position V → Bool
  | .got _ _ | .stored | .deleted _ | .deletedByPrefix _ => true
  | _ => false

abbrev CallID := ℕ

/-- `clock` is the last reading of the clock. -/
structure State (V : Type) where
  items : GoMap String (Item V)
  defaultExpiration : Int64
  clock : ℤ
  calls : GoMap CallID (Position V)

def newCache (defaultExpiration : Int64) : State V := ⟨∅,defaultExpiration,0,∅⟩

inductive Event (V : Type) where
  | call (t : CallID) (op : Op V)
  | read (t : CallID)
  | check (t : CallID) (now : ℤ)
  | remove (t : CallID)
  | time (t : CallID) (now : ℤ)
  | store (t : CallID) (now : ℤ)
  | delete (t : CallID)
  | deleteByPrefix (t : CallID)
  | evictExpired (now : ℤ)

namespace State

def setCall (s : State V) (t : CallID) (p : Position V) : State V :=
  { s with calls := s.calls.insert t p }

/-- The clock does not go back, and its time is one that `UnixNano` represents. -/
def readClock (s : State V) (now : ℤ) : Option (State V) :=
  if s.clock ≤ now ∧ now < 2 ^ 63 then some { s with clock := now } else none

/-- `Set` up to its reading of the clock. A duration that is not positive needs none. -/
def startSet (s : State V) (key : String) (value : V) (duration : Int64) : Position V :=
  let duration := if duration = 0 then s.defaultExpiration else duration
  if 0 < duration then .timing key value duration else .storing key value none

def call (s : State V) (t : CallID) (op : Op V) : Option (State V) :=
  match s.calls.lookup t with
  | some _ => none
  | none =>
    match op with
    | .set key value duration => some (s.setCall t (s.startSet key value duration))
    | .get key => some (s.setCall t (.reading key))
    | .delete key => some (s.setCall t (.deleting key))
    | .deleteByPrefix start => some (s.setCall t (.deletingByPrefix start))

/-- The read lock of `Get`. -/
def read (s : State V) (t : CallID) : Position V → Option (State V)
  | .reading key =>
    match s.items.lookup key with
    | none => some (s.setCall t (.got key none))
    | some item =>
      if 0 < item.expiration then some (s.setCall t (.checking key item))
      else some (s.setCall t (.got key (some item.value)))
  | _ => none

def check (s : State V) (t : CallID) (now : ℤ) : Position V → Option (State V)
  | .checking key item =>
    (s.readClock now).map fun s =>
      if item.expiration < unixNano now then s.setCall t (.removing key item)
      else s.setCall t (.got key (some item.value))
  | _ => none

/-- The lock of `Get`, where it has found the item expired. -/
def remove (s : State V) (t : CallID) : Position V → Option (State V)
  | .removing key item =>
    match s.items.lookup key with
    | some current =>
      if current.expiration = item.expiration then
        some ({ s with items := s.items.erase key }.setCall t (.got key none))
      else some (s.setCall t (.got key none))
    | none => some (s.setCall t (.got key none))
  | _ => none

/-- `time.Now().Add(duration)`. -/
def time (s : State V) (t : CallID) (now : ℤ) : Position V → Option (State V)
  | .timing key value duration =>
    (s.readClock now).map (·.setCall t (.storing key value (some (now + duration.toInt))))
  | _ => none

def expiration : Option ℤ → Int64
  | none => 0
  | some t => unixNano t

/-- The lock of `Set`. -/
def store (s : State V) (t : CallID) (now : ℤ) : Position V → Option (State V)
  | .storing key value expiresAt =>
    (s.readClock now).map fun s =>
      { s with items := s.items.insert key ⟨value,now,expiration expiresAt⟩ }.setCall t .stored
  | _ => none

def delete (s : State V) (t : CallID) : Position V → Option (State V)
  | .deleting key =>
    match s.items.lookup key with
    | none => some (s.setCall t (.deleted false))
    | some _ => some ({ s with items := s.items.erase key }.setCall t (.deleted true))
  | _ => none

/-- `strings.HasPrefix`. -/
def hasPrefix (start key : String) : Bool := start.toList.isPrefixOf key.toList

def deleteByPrefix (s : State V) (t : CallID) : Position V → Option (State V)
  | .deletingByPrefix start =>
    some ({ s with items := s.items.filter (fun key _ => !hasPrefix start key) }.setCall t
      (.deletedByPrefix (s.items.keys.filter (fun key => hasPrefix start key = true)).card))
  | _ => none

def evictExpired (s : State V) (now : ℤ) : Option (State V) :=
  (s.readClock now).map fun s =>
    { s with items := s.items.filter (fun _ item => !item.expired now) }

end State

def step (s : State V) : Event V → Option (State V)
  | .call t op => s.call t op
  | .read t => (s.calls.lookup t).bind (s.read t)
  | .check t now => (s.calls.lookup t).bind (s.check t now)
  | .remove t => (s.calls.lookup t).bind (s.remove t)
  | .time t now => (s.calls.lookup t).bind (s.time t now)
  | .store t now => (s.calls.lookup t).bind (s.store t now)
  | .delete t => (s.calls.lookup t).bind (s.delete t)
  | .deleteByPrefix t => (s.calls.lookup t).bind (s.deleteByPrefix t)
  | .evictExpired now => s.evictExpired now

/-- What a lock section writes into the map that never evicts. -/
def written (s : State V) : Event V → Option (Write String V ℤ)
  | .store t _ =>
    match s.calls.lookup t with
    | some (.storing key value expiresAt) => some (.set key ⟨value,expiresAt⟩)
    | _ => none
  | .delete t =>
    match s.calls.lookup t with
    | some (.deleting key) => some (.deleteWhere (fun k => decide (k = key)))
    | _ => none
  | .deleteByPrefix t =>
    match s.calls.lookup t with
    | some (.deletingByPrefix start) => some (.deleteWhere (State.hasPrefix start))
    | _ => none
  | _ => none

/-- The cache beside the map. -/
structure Both (V : Type) where
  cache : State V
  map : Map String V ℤ

def Both.start (defaultExpiration : Int64) : Both V := ⟨newCache defaultExpiration,fun _ => none⟩

def stepBoth (b : Both V) (e : Event V) : Option (Both V) :=
  (step b.cache e).map fun s => ⟨s,(written b.cache e).elim b.map (·.apply b.map)⟩

/-- What the map answers at the last reading of the clock. -/
def Both.answer (b : Both V) (key : String) : Option V := get b.map b.cache.clock key

def InCall (b : Both V) (t : CallID) : Prop :=
  ∃ p, b.cache.calls.lookup t = some p ∧ p.hasReturned = false

/-- At some moment of the call the map has the property. -/
def Moment (d : Int64) (es : List (Event V)) (t : CallID) (P : Both V → Prop) : Prop :=
  ∃ fs gs b, es = fs ++ gs ∧ Runs stepBoth (Both.start d) fs b ∧ InCall b t ∧ P b

/-- While the call lasts, no lock section writes the key. -/
def Unwritten (d : Int64) (es : List (Event V)) (t : CallID) (key : String) : Prop :=
  ∀ fs e gs b w, es = fs ++ e :: gs → Runs stepBoth (Both.start d) fs b → InCall b t →
    written b.cache e = some w → w.touches key = false

/-- The map only looks on. -/
theorem exists_runs_both {s s' : State V} {es : List (Event V)} (h : Runs step s es s')
    (m : Map String V ℤ) : ∃ m', Runs stepBoth ⟨s,m⟩ es ⟨s',m'⟩ := by
  induction h generalizing m with
  | refl => exact ⟨m,.refl _⟩
  | @step s t u e es _ he _ ih =>
    obtain ⟨m',hm⟩ := ih ((written s e).elim m (·.apply m))
    exact ⟨m',Runs.cons (by simp only [stepBoth,he,Option.map_some]) hm⟩

end MiniDiscord.TtlCache
