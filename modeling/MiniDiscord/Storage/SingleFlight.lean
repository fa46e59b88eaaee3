import MiniDiscord.Data.GoMap
import MiniDiscord.Transition.LabelledRuns

/-! # The single flight

Any number of calls of `Do`, each lock section one step. The goroutine of a call runs its
action, closes `done` and removes the entry of its key, in that order and with any steps of
others in between. A context may be done at any moment.
-/
namespace MiniDiscord.Storage.SingleFlight
open Transition

abbrev CallID := ℕ
abbrev CallerID := ℕ

inductive CtxErr where
  | canceled
  | deadlineExceeded
  deriving DecidableEq

/-- An error of the action, or one made by `errors.New`. -/
inductive Failure (E : Type) where
  | ofAction (err : E)
  | new (text : String)
  deriving DecidableEq

/-- How an action ends. -/
inductive Ending (V E : Type) where
  | returns (value : Option V) (err : Option E)
  | panics
  deriving DecidableEq

/-- What the goroutine of a call does next. -/
inductive Phase where
  | launched
  | running
  | ended
  | closed
  | removed
  deriving DecidableEq

def Phase.hasEnded : Phase → Bool
  | .launched | .running => false
  | _ => true

/-- `done` is closed. -/
def Phase.isDone : Phase → Bool
  | .closed | .removed => true
  | _ => false

/-- No value is `nil`. -/
structure Result (V E : Type) where
  value : Option V
  err : Option (Failure E)
  deriving DecidableEq

/-- A call with the key and the phase of its goroutine. -/
structure Call (V E : Type) where
  key : String
  result : Result V E
  phase : Phase
  deriving DecidableEq

/-- Where a caller of `Do` stands. -/
inductive Position (V E : Type) where
  | entering
  | waiting (call : CallID)
  | received (call : CallID) (result : Result V E)
  | gaveUp (err : CtxErr)
  deriving DecidableEq

/-- `ctxErr` is `ctx.Err()`. `stale` is the call that was in the map when the caller called,
if its action had ended by then. -/
structure Caller (V E : Type) where
  key : String
  ctxErr : Option CtxErr
  stale : Option CallID
  position : Position V E
  deriving DecidableEq

structure State (V E : Type) where
  calls : GoMap String CallID
  heap : GoMap CallID (Call V E)
  next : CallID
  callers : GoMap CallerID (Caller V E)

variable {V E : Type}

def start : State V E := ⟨∅,∅,0,∅⟩

inductive Event (V E : Type) where
  | call (t : CallerID) (key : String)
  | ctxDone (t : CallerID) (err : CtxErr)
  | enter (t : CallerID)
  | run (c : CallID)
  | finish (c : CallID) (ending : Ending V E)
  | closeDone (c : CallID)
  | remove (c : CallID)
  | receive (t : CallerID)
  | giveUp (t : CallerID)

namespace State

def setCaller (s : State V E) (t : CallerID) (caller : Caller V E) : State V E :=
  { s with callers := s.callers.insert t caller }

def setCall (s : State V E) (c : CallID) (call : Call V E) : State V E :=
  { s with heap := s.heap.insert c call }

/-- The call under the key, if its action has ended. -/
def staleCall (s : State V E) (key : String) : Option CallID :=
  (s.calls.lookup key).filter
    (fun c => (s.heap.lookup c).any (fun call => call.phase.hasEnded))

def call (s : State V E) (t : CallerID) (key : String) : Option (State V E) :=
  match s.callers.lookup t with
  | some _ => none
  | none => some (s.setCaller t ⟨key,none,s.staleCall key,.entering⟩)

def ctxDone (s : State V E) (t : CallerID) (err : CtxErr) (caller : Caller V E) :
    Option (State V E) :=
  match caller.ctxErr with
  | some _ => none
  | none => some (s.setCaller t { caller with ctxErr := some err })

/-- The first lock section of `Do`, and the start of the goroutine. -/
def enter (s : State V E) (t : CallerID) (caller : Caller V E) : Option (State V E) :=
  match caller.position with
  | .entering =>
    match s.calls.lookup caller.key with
    | some c => some (s.setCaller t { caller with position := .waiting c })
    | none =>
      some ({ s with
        calls := s.calls.insert caller.key s.next
        heap := s.heap.insert s.next ⟨caller.key,⟨none,none⟩,.launched⟩
        next := s.next + 1 }.setCaller t { caller with position := .waiting s.next })
  | _ => none

def run (s : State V E) (c : CallID) (call : Call V E) : Option (State V E) :=
  if call.phase = .launched then some (s.setCall c { call with phase := .running }) else none

/-- What the action returns is assigned; a panic is recovered. -/
def finish (s : State V E) (c : CallID) (ending : Ending V E) (call : Call V E) :
    Option (State V E) :=
  if call.phase = .running then
    match ending with
    | .returns value err =>
      some (s.setCall c { call with result := ⟨value,err.map .ofAction⟩, phase := .ended })
    | .panics =>
      some (s.setCall c
        { call with
          result := { call.result with err := some (.new "error from single flight") }
          phase := .ended })
  else none

def closeDone (s : State V E) (c : CallID) (call : Call V E) : Option (State V E) :=
  if call.phase = .ended then some (s.setCall c { call with phase := .closed }) else none

/-- The second lock section. -/
def remove (s : State V E) (c : CallID) (call : Call V E) : Option (State V E) :=
  if call.phase = .closed then
    some ({ s with calls := s.calls.erase call.key }.setCall c { call with phase := .removed })
  else none

/-- The case `<-call.done` of `wait`. -/
def receive (s : State V E) (t : CallerID) (caller : Caller V E) : Option (State V E) :=
  match caller.position with
  | .waiting c =>
    match s.heap.lookup c with
    | none => none
    | some call =>
      if call.phase.isDone then
        some (s.setCaller t { caller with position := .received c call.result })
      else none
  | _ => none

/-- The case `<-ctx.Done()` of `wait`. -/
def giveUp (s : State V E) (t : CallerID) (caller : Caller V E) : Option (State V E) :=
  match caller.position, caller.ctxErr with
  | .waiting _,some err => some (s.setCaller t { caller with position := .gaveUp err })
  | _,_ => none

end State

def step (s : State V E) : Event V E → Option (State V E)
  | .call t key => s.call t key
  | .ctxDone t err => (s.callers.lookup t).bind (s.ctxDone t err)
  | .enter t => (s.callers.lookup t).bind (s.enter t)
  | .run c => (s.heap.lookup c).bind (s.run c)
  | .finish c ending => (s.heap.lookup c).bind (s.finish c ending)
  | .closeDone c => (s.heap.lookup c).bind (s.closeDone c)
  | .remove c => (s.heap.lookup c).bind (s.remove c)
  | .receive t => (s.callers.lookup t).bind (s.receive t)
  | .giveUp t => (s.callers.lookup t).bind (s.giveUp t)

/-- The caller is inside of `Do`. -/
def InCall (s : State V E) (t : CallerID) : Prop :=
  ∃ caller, s.callers.lookup t = some caller ∧
    (caller.position = .entering ∨ ∃ c, caller.position = .waiting c)

def Running (s : State V E) (c : CallID) : Prop :=
  ∃ call, s.heap.lookup c = some call ∧ call.phase = .running

/-- The action of the call was running at some moment of the caller's `Do`. -/
def RanDuring (es : List (Event V E)) (t : CallerID) (c : CallID) : Prop :=
  ∃ fs gs u, es = fs ++ gs ∧ Runs step start fs u ∧ InCall u t ∧ Running u c

end MiniDiscord.Storage.SingleFlight
