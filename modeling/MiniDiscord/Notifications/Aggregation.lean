import MiniDiscord.Aggregation.Windows
import MiniDiscord.Data.GoMap
import MiniDiscord.Notifications.Payload
import MiniDiscord.Notifications.Sender
import MiniDiscord.Transition.LabelledRuns
import Mathlib.Algebra.GroupWithZero.Nat

/-! # Aggregates of the push sender

The workers, the table of aggregates and the timers. A worker resolves the targets of its
event and goes through them one by one; each aggregate is made and taken away under the
lock. What was folded, and what was flushed, is kept beside.
-/
namespace MiniDiscord.Notifications.Aggregation
open ChatHub Transition Windows

def eventBufferSize : ℕ := 1024
abbrev workerCount : ℕ := 4

instance : NeZero workerCount := ⟨by decide⟩

structure AggKey where
  userID : UserID
  channelID : ChannelID
  deriving DecidableEq

abbrev TimerID := ℕ

structure AggState where
  count : ℕ
  last : PushEvent
  hidePreview : Bool
  timer : TimerID

/-- An event that goes into the aggregate of a recipient, with what was resolved for it. -/
structure Fold where
  event : PushEvent
  hidePreview : Bool

inductive Worker where
  | idle
  | resolving (event : PushEvent)
  | sending (event : PushEvent) (now : Time) (targets : List ResolvedNotificationTarget)

/-- A flush, with what had been folded, the count that was read and the payload. -/
structure Flushed where
  key : AggKey
  folds : List Fold
  count : ℕ
  payload : Payload

def Flushed.closed (f : Flushed) : Closed AggKey Fold := ⟨f.key,f.folds⟩

structure Sender where
  enabled : Bool
  events : List PushEvent
  workers : Fin workerCount → Worker
  agg : GoMap AggKey AggState
  /-- The timers whose function has not run yet. -/
  timers : GoMap TimerID AggKey
  nextTimer : TimerID
  sent : List (UserID × Payload)
  folded : List (AggKey × Fold)
  window : AggKey → List Fold
  flushed : List Flushed

inductive Event where
  | enqueue (event : PushEvent)
  | take (w : Fin workerCount)
  /-- No targets are an error of the storage. -/
  | resolve (w : Fin workerCount) (targets : Option (List ResolvedNotificationTarget)) (now : Time)
  | next (w : Fin workerCount)
  | fire (t : TimerID)

namespace Sender

def setWorker (s : Sender) (w : Fin workerCount) (worker : Worker) : Sender :=
  { s with workers := Function.update s.workers w worker }

/-- A full buffer drops the event. -/
def enqueue (s : Sender) (event : PushEvent) : Sender :=
  if s.enabled = true ∧ s.events.length < eventBufferSize then
    { s with events := s.events ++ [event] }
  else s

def sendNow (s : Sender) (userID : UserID) (event : PushEvent) (hidePreview : Bool) : Sender :=
  { s with sent := s.sent ++ [(userID,buildPayload event .mention 1 hidePreview)] }

/-- The state of a key, made with its timer where there is none. -/
def stateOf (s : Sender) (key : AggKey) (event : PushEvent) : AggState × Sender :=
  match s.agg.lookup key with
  | some state => (state,s)
  | none =>
    (⟨0,event,false,s.nextTimer⟩,
      { s with timers := s.timers.insert s.nextTimer key, nextTimer := s.nextTimer + 1 })

def aggregate (s : Sender) (userID : UserID) (event : PushEvent) (hidePreview : Bool) : Sender :=
  let key : AggKey := ⟨userID,event.channelID⟩
  let (state,s) := s.stateOf key event
  { s with
    agg := s.agg.insert key
      { state with count := state.count + 1, last := event, hidePreview := hidePreview }
    folded := s.folded ++ [(key,⟨event,hidePreview⟩)]
    window := Function.update s.window key (s.window key ++ [⟨event,hidePreview⟩]) }

def deliver (s : Sender) (event : PushEvent) (d : Delivery) : Sender :=
  if d.mention = true then s.sendNow d.userID event d.hidePreview
  else s.aggregate d.userID event d.hidePreview

def flushAggregate (s : Sender) (key : AggKey) : Sender :=
  match s.agg.lookup key with
  | none => s
  | some state =>
    { s with
      agg := s.agg.erase key
      window := Function.update s.window key []
      flushed := s.flushed ++ [⟨key,s.window key,state.count,
        buildPayload state.last .message state.count state.hidePreview⟩] }

end Sender

open Sender

def step (s : Sender) : Event → Option Sender
  | .enqueue event => some (s.enqueue event)
  | .take w =>
    match s.workers w, s.events with
    | .idle, event :: events => some ({ s with events := events }.setWorker w (.resolving event))
    | _, _ => none
  | .resolve w targets now =>
    match s.workers w, targets with
    | .resolving _, none => some (s.setWorker w .idle)
    | .resolving event, some targets => some (s.setWorker w (.sending event now targets))
    | _, _ => none
  | .next w =>
    match s.workers w with
    | .sending _ _ [] => some (s.setWorker w .idle)
    | .sending event now (target :: targets) =>
      let s := s.setWorker w (.sending event now targets)
      match processTarget event now target with
      | none => some s
      | some d => some (s.deliver event d)
    | _ => none
  | .fire t =>
    match s.timers.lookup t with
    | none => none
    | some key => some ({ s with timers := s.timers.erase t }.flushAggregate key)

/-- `NewSender`. -/
def newSender (enabled : Bool) : Sender :=
  ⟨enabled,[],fun _ => .idle,∅,∅,0,[],[],fun _ => [],[]⟩

/-! ## What a step can do -/

namespace Sender

/-- Into an aggregate that there is. -/
def join (s : Sender) (key : AggKey) (state : AggState) (f : Fold) : Sender :=
  { s with
    agg := s.agg.insert key
      { state with count := state.count + 1, last := f.event, hidePreview := f.hidePreview }
    folded := s.folded ++ [(key,f)]
    window := Function.update s.window key (s.window key ++ [f]) }

/-- Into a new one. -/
def start (s : Sender) (key : AggKey) (f : Fold) : Sender :=
  { s with
    agg := s.agg.insert key ⟨1,f.event,f.hidePreview,s.nextTimer⟩
    timers := s.timers.insert s.nextTimer key
    nextTimer := s.nextTimer + 1
    folded := s.folded ++ [(key,f)]
    window := Function.update s.window key (s.window key ++ [f]) }

/-- The aggregate is taken away. -/
def close (s : Sender) (t : TimerID) (key : AggKey) (state : AggState) : Sender :=
  { s with
    agg := s.agg.erase key
    timers := s.timers.erase t
    window := Function.update s.window key []
    flushed := s.flushed ++ [⟨key,s.window key,state.count,
      buildPayload state.last .message state.count state.hidePreview⟩] }

end Sender

/-- What the worker folds next, when its next target is one whose aggregate the event goes into. -/
def Sender.nextFold (s : Sender) (w : Fin workerCount) : Option (AggKey × Fold) :=
  match s.workers w with
  | .sending event now (target :: _) =>
    (processTarget event now target).bind fun d =>
      if d.mention = true then none else some (⟨d.userID,event.channelID⟩,⟨event,d.hidePreview⟩)
  | _ => none

/-- The steps that change an aggregate or a timer, and the others. -/
inductive Does (s : Sender) : Event → Sender → Prop
  | other {e : Event} {s' : Sender} : s'.agg = s.agg → s'.timers = s.timers →
      s'.nextTimer = s.nextTimer → s'.folded = s.folded → s'.window = s.window →
      s'.flushed = s.flushed → Does s e s'
  | join {w : Fin workerCount} {worker : Worker} {key : AggKey} {state : AggState} {f : Fold} :
      s.nextFold w = some (key,f) → s.agg.lookup key = some state →
      Does s (.next w) ((s.setWorker w worker).join key state f)
  | opens {w : Fin workerCount} {worker : Worker} {key : AggKey} {f : Fold} :
      s.nextFold w = some (key,f) → s.agg.lookup key = none →
      Does s (.next w) ((s.setWorker w worker).start key f)
  | close {t : TimerID} {key : AggKey} {state : AggState} :
      s.timers.lookup t = some key → s.agg.lookup key = some state →
      Does s (.fire t) (s.close t key state)
  | idle {t : TimerID} {key : AggKey} :
      s.timers.lookup t = some key → s.agg.lookup key = none →
      Does s (.fire t) { s with timers := s.timers.erase t }

theorem aggregate_some {s : Sender} {userID : UserID} {event : PushEvent} {state : AggState}
    (h : s.agg.lookup ⟨userID,event.channelID⟩ = some state) (hidePreview : Bool) :
    s.aggregate userID event hidePreview = s.join ⟨userID,event.channelID⟩ state ⟨event,hidePreview⟩ := by
  simp only [aggregate,stateOf,h,join]

theorem aggregate_none {s : Sender} {userID : UserID} {event : PushEvent}
    (h : s.agg.lookup ⟨userID,event.channelID⟩ = none) (hidePreview : Bool) :
    s.aggregate userID event hidePreview = s.start ⟨userID,event.channelID⟩ ⟨event,hidePreview⟩ := by
  simp only [aggregate,stateOf,h,start,Nat.zero_add]

theorem does_of_step {s s' : Sender} {e : Event} (h : step s e = some s') : Does s e s' := by
  cases e with
  | enqueue event =>
    obtain rfl := Option.some.inj h
    unfold enqueue
    split
    · exact .other rfl rfl rfl rfl rfl rfl
    · exact .other rfl rfl rfl rfl rfl rfl
  | take w =>
    simp only [step] at h
    split at h
    · obtain rfl := Option.some.inj h
      exact .other rfl rfl rfl rfl rfl rfl
    · cases h
  | resolve w targets now =>
    simp only [step] at h
    split at h
    · obtain rfl := Option.some.inj h
      exact .other rfl rfl rfl rfl rfl rfl
    · obtain rfl := Option.some.inj h
      exact .other rfl rfl rfl rfl rfl rfl
    · cases h
  | next w =>
    simp only [step] at h
    split at h
    · obtain rfl := Option.some.inj h
      exact .other rfl rfl rfl rfl rfl rfl
    · rename_i event now target targets hw
      split at h
      · obtain rfl := Option.some.inj h
        exact .other rfl rfl rfl rfl rfl rfl
      · rename_i d hd
        obtain rfl := Option.some.inj h
        unfold deliver
        split
        · exact .other rfl rfl rfl rfl rfl rfl
        · rename_i hm
          have hf : s.nextFold w = some (⟨d.userID,event.channelID⟩,⟨event,d.hidePreview⟩) := by
            simp only [nextFold,hw,hd,Option.bind_some,if_neg hm]
          cases hk : (s.setWorker w (.sending event now targets)).agg.lookup
              ⟨d.userID,event.channelID⟩ with
          | some state =>
            rw [aggregate_some hk]
            exact .join hf hk
          | none =>
            rw [aggregate_none hk]
            exact .opens hf hk
    · cases h
  | fire t =>
    simp only [step] at h
    split at h
    · cases h
    · rename_i key ht
      obtain rfl := Option.some.inj h
      cases hk : s.agg.lookup key with
      | some state =>
        have he : { s with timers := s.timers.erase t }.flushAggregate key = s.close t key state := by
          simp only [flushAggregate,hk,close]
        rw [he]
        exact .close ht hk
      | none =>
        have he : { s with timers := s.timers.erase t }.flushAggregate key =
            { s with timers := s.timers.erase t } := by
          simp only [flushAggregate,hk]
        rw [he]
        exact .idle ht hk

/-! ## Timers and windows -/

variable {s s' : Sender} {e : Event} {es : List Event} {key : AggKey} {state : AggState} {t : TimerID}

/-- The timers that are still to run are those of the aggregates. -/
structure Timed (s : Sender) : Prop where
  armed : ∀ key state, s.agg.lookup key = some state → s.timers.lookup state.timer = some key
  owned : ∀ t key, s.timers.lookup t = some key →
    ∃ state, s.agg.lookup key = some state ∧ state.timer = t
  bound : ∀ t key, s.timers.lookup t = some key → t < s.nextTimer

/-- An aggregate is what was folded into it, as the last fold left it. -/
structure Windowed (s : Sender) : Prop where
  empty : ∀ key, s.agg.lookup key = none → s.window key = []
  count : ∀ key state, s.agg.lookup key = some state → state.count = (s.window key).length
  last : ∀ key state, s.agg.lookup key = some state →
    (s.window key).getLast? = some ⟨state.last,state.hidePreview⟩
  conserved : Conserved s.folded (s.flushed.map Flushed.closed) s.window

/-- A notification tells of what had been folded, as the last fold left it. -/
def Flushed.Told (n : Flushed) : Prop :=
  n.count = n.folds.length ∧ ∃ f, n.folds.getLast? = some f ∧
    n.payload = buildPayload f.event .message n.count f.hidePreview

def AllTold (s : Sender) : Prop := ∀ n ∈ s.flushed, n.Told

/-- One timer, and no other, is to run for the key. -/
theorem Timed.unique (h : Timed s) (hk : s.agg.lookup key = some state) :
    s.timers.lookup t = some key ↔ t = state.timer := by
  constructor
  · intro ht
    obtain ⟨state',hk',rfl⟩ := h.owned t key ht
    rw [Option.some.inj (hk'.symm.trans hk)]
  · rintro rfl
    exact h.armed key state hk

theorem timed_newSender (enabled : Bool) : Timed (newSender enabled) where
  armed _ _ h := by simp [newSender] at h
  owned _ _ h := by simp [newSender] at h
  bound _ _ h := by simp [newSender] at h

theorem windowed_newSender (enabled : Bool) : Windowed (newSender enabled) where
  empty _ _ := rfl
  count _ _ h := by simp [newSender] at h
  last _ _ h := by simp [newSender] at h
  conserved := conserved_nil

theorem Timed.congr (h : Timed s) (hagg : s'.agg = s.agg) (htimers : s'.timers = s.timers)
    (hnext : s'.nextTimer = s.nextTimer) : Timed s' := by
  constructor
  · rw [hagg,htimers]
    exact h.armed
  · rw [hagg,htimers]
    exact h.owned
  · rw [htimers,hnext]
    exact h.bound

theorem Timed.join (h : Timed s) (hk : s.agg.lookup key = some state) (f : Fold) :
    Timed (s.join key state f) := by
  constructor
  · intro key' state' hk'
    simp only [Sender.join,GoMap.lookup_insert_eq] at hk' ⊢
    split at hk'
    · rename_i he
      cases hk'
      rw [he]
      exact h.armed key state hk
    · exact h.armed key' state' hk'
  · intro t key' ht
    simp only [Sender.join,GoMap.lookup_insert_eq] at ht ⊢
    obtain ⟨state',hk',rfl⟩ := h.owned t key' ht
    split
    · rename_i he
      subst he
      cases hk.symm.trans hk'
      exact ⟨_,rfl,rfl⟩
    · exact ⟨state',hk',rfl⟩
  · exact h.bound

theorem Timed.start (h : Timed s) (hk : s.agg.lookup key = none) (f : Fold) :
    Timed (s.start key f) := by
  constructor
  · intro key' state' hk'
    simp only [Sender.start,GoMap.lookup_insert_eq] at hk' ⊢
    split at hk'
    · rename_i he
      cases hk'
      rw [if_pos rfl,he]
    · have ht := h.armed key' state' hk'
      rwa [if_neg (h.bound _ _ ht).ne]
  · intro t key' ht
    simp only [Sender.start,GoMap.lookup_insert_eq] at ht ⊢
    split at ht
    · rename_i he
      cases ht
      exact ⟨_,if_pos rfl,he.symm⟩
    · obtain ⟨state',hk',ht'⟩ := h.owned t key' ht
      refine ⟨state',?_,ht'⟩
      rw [if_neg]
      · exact hk'
      · rintro rfl
        cases hk.symm.trans hk'
  · intro t key' ht
    simp only [Sender.start,GoMap.lookup_insert_eq] at ht ⊢
    split at ht
    · rename_i he
      rw [he]
      exact Nat.lt_succ_self _
    · exact Nat.lt_succ_of_lt (h.bound t key' ht)

theorem Timed.close (h : Timed s) (ht : s.timers.lookup t = some key)
    (hk : s.agg.lookup key = some state) : Timed (s.close t key state) := by
  have hstate : state.timer = t := ((h.unique hk).mp ht).symm
  constructor
  · intro key' state' hk'
    simp only [Sender.close,GoMap.lookup_erase_eq] at hk' ⊢
    split at hk'
    · cases hk'
    · rename_i hne
      have ht' := h.armed key' state' hk'
      rw [if_neg]
      · exact ht'
      · intro he
        rw [he,ht] at ht'
        exact hne (Option.some.inj ht').symm
  · intro t' key' ht'
    simp only [Sender.close,GoMap.lookup_erase_eq] at ht' ⊢
    split at ht'
    · cases ht'
    · rename_i hne
      obtain ⟨state',hk',rfl⟩ := h.owned t' key' ht'
      refine ⟨state',?_,rfl⟩
      rw [if_neg]
      · exact hk'
      · rintro rfl
        cases hk.symm.trans hk'
        exact hne hstate
  · intro t' key' ht'
    simp only [Sender.close,GoMap.lookup_erase_eq] at ht'
    split at ht'
    · cases ht'
    · exact h.bound t' key' ht'

theorem Timed.step (h : Timed s) (hd : Does s e s') : Timed s' := by
  cases hd with
  | other hagg htimers hnext => exact h.congr hagg htimers hnext
  | @join w worker _ _ f _ hk =>
    have hworker : Timed (s.setWorker w worker) := h.congr rfl rfl rfl
    exact hworker.join hk f
  | @opens w worker _ f _ hk =>
    have hworker : Timed (s.setWorker w worker) := h.congr rfl rfl rfl
    exact hworker.start hk f
  | close ht hk => exact h.close ht hk
  | idle ht hk =>
    -- a timer always finds its aggregate
    obtain ⟨state,hk',-⟩ := h.owned _ _ ht
    cases hk.symm.trans hk'

/-- An aggregate, or none, beside what was folded into it. -/
def Fits (agg : Option AggState) (window : List Fold) : Prop :=
  match agg with
  | none => window = []
  | some state => state.count = window.length ∧
      window.getLast? = some ⟨state.last,state.hidePreview⟩

theorem Windowed.fits (h : Windowed s) (key : AggKey) : Fits (s.agg.lookup key) (s.window key) := by
  cases hk : s.agg.lookup key with
  | none => exact h.empty key hk
  | some state => exact ⟨h.count key state hk,h.last key state hk⟩

theorem windowed_of_fits (h : ∀ key, Fits (s.agg.lookup key) (s.window key))
    (hc : Conserved s.folded (s.flushed.map Flushed.closed) s.window) : Windowed s where
  empty := by
    intro key hk
    have hfits := h key
    rw [hk] at hfits
    exact hfits
  count := by
    intro key state hk
    have hfits := h key
    rw [hk] at hfits
    exact hfits.1
  last := by
    intro key state hk
    have hfits := h key
    rw [hk] at hfits
    exact hfits.2
  conserved := hc

theorem fits_insert {agg : GoMap AggKey AggState} {window : AggKey → List Fold} {folds : List Fold}
    (h : ∀ key, Fits (agg.lookup key) (window key)) (hnew : Fits (some state) folds)
    (key' : AggKey) :
    Fits ((agg.insert key state).lookup key') (Function.update window key folds key') := by
  rw [GoMap.lookup_insert_eq]
  split
  · rename_i he
    rw [he,Function.update_self]
    exact hnew
  · rename_i hne
    rw [Function.update_of_ne hne]
    exact h key'

theorem fits_erase {agg : GoMap AggKey AggState} {window : AggKey → List Fold}
    (h : ∀ key, Fits (agg.lookup key) (window key)) (key' : AggKey) :
    Fits ((agg.erase key).lookup key') (Function.update window key [] key') := by
  rw [GoMap.lookup_erase_eq]
  split
  · rename_i he
    rw [he,Function.update_self]
    rfl
  · rename_i hne
    rw [Function.update_of_ne hne]
    exact h key'

theorem Windowed.step (h : Windowed s) (hd : Does s e s') : Windowed s' := by
  cases hd with
  | other hagg _ _ hfolded hwindow hflushed =>
    constructor
    · rw [hagg,hwindow]
      exact h.empty
    · rw [hagg,hwindow]
      exact h.count
    · rw [hagg,hwindow]
      exact h.last
    · rw [hfolded,hwindow,hflushed]
      exact h.conserved
  | @join w worker key state f _ hk =>
    refine windowed_of_fits (fits_insert h.fits ⟨?_,?_⟩) (h.conserved.add key f)
    · change state.count + 1 = (s.window key ++ [f]).length
      rw [List.length_append,h.count key state hk]
      rfl
    · exact List.getLast?_concat
  | @opens w worker key f _ hk =>
    refine windowed_of_fits (fits_insert h.fits ⟨?_,?_⟩) (h.conserved.add key f)
    · change 1 = (s.window key ++ [f]).length
      rw [h.empty key hk]
      rfl
    · exact List.getLast?_concat
  | @close t key state ht hk =>
    refine windowed_of_fits (fits_erase h.fits) ?_
    have hclose := h.conserved.close key
    simp only [Sender.close,List.map_append]
    exact hclose
  | idle => exact ⟨h.empty,h.count,h.last,h.conserved⟩

theorem AllTold.step (h : AllTold s) (hw : Windowed s) (hd : Does s e s') : AllTold s' := by
  cases hd with
  | other _ _ _ _ _ hflushed =>
    intro n hn
    rw [hflushed] at hn
    exact h n hn
  | join => exact h
  | opens => exact h
  | close _ hk =>
    intro n hn
    rcases List.mem_append.mp hn with hn | hn
    · exact h n hn
    · rw [List.mem_singleton.mp hn]
      exact ⟨hw.count _ _ hk,_,hw.last _ _ hk,rfl⟩
  | idle => exact h

theorem timed_of_runs {enabled : Bool} (h : Runs step (newSender enabled) es s) : Timed s :=
  h.invariant (timed_newSender enabled) (fun hs _ he => hs.step (does_of_step he))

theorem windowed_of_runs {enabled : Bool} (h : Runs step (newSender enabled) es s) : Windowed s :=
  h.invariant (windowed_newSender enabled) (fun hs _ he => hs.step (does_of_step he))

theorem allTold_of_runs {enabled : Bool} (h : Runs step (newSender enabled) es s) : AllTold s :=
  h.invariant_of (windowed_newSender enabled) (fun _ hn => nomatch hn)
    (fun hs _ he => hs.step (does_of_step he)) (fun hw hs _ he => hs.step hw (does_of_step he))

/-! ## Nothing is lost or counted twice -/

/-- What was folded into the aggregates of a key is in its notifications and in its aggregate,
each event once and in order; an aggregate and a notification count what is in them; and the
timers to run are one for each aggregate. -/
theorem push_conserved {enabled : Bool} (h : Runs step (newSender enabled) es s) :
    (∀ key, itemsOf key s.folded =
      closedItems key (s.flushed.map Flushed.closed) ++ s.window key) ∧
    (∀ n ∈ s.flushed, n.count = n.folds.length) ∧
    (∀ key state, s.agg.lookup key = some state → state.count = (s.window key).length ∧
      ∀ t, s.timers.lookup t = some key ↔ t = state.timer) ∧
    (∀ key, s.agg.lookup key = none → s.window key = [] ∧ ∀ t, s.timers.lookup t ≠ some key) := by
  have ht := timed_of_runs h
  have hw := windowed_of_runs h
  refine ⟨hw.conserved,fun n hn => (allTold_of_runs h n hn).1,?_,?_⟩
  · intro key state hk
    exact ⟨hw.count key state hk,fun t => ht.unique hk⟩
  · intro key hk
    refine ⟨hw.empty key hk,?_⟩
    intro t htk
    obtain ⟨state,hk',-⟩ := ht.owned t key htk
    cases hk.symm.trans hk'

/-- A message of one user in a channel. -/
def posted (id : MessageID) (content : String) : PushEvent where
  recipientIDs := [2]
  channelID := 5
  serverID := 1
  channelName := "general"
  message := ⟨id,5,1,"Ann","","","",content,[],none,none,[],false,[],0,none⟩
  isMention _ := false
  onlineIDs := []

def everything : ResolvedNotificationTarget := ⟨2,.all,none,none,false⟩

/-- Two workers go through two messages; the one with the earlier message is overtaken. -/
def overtaken : List Event :=
  [.enqueue (posted 1 "first"),.enqueue (posted 2 "second"),.take 0,.take 1,
    .resolve 0 (some [everything]) 0,.resolve 1 (some [everything]) 0,.next 1,.next 0,.fire 0]

theorem push_conserved_overtaken : ∃ s, Runs step (newSender true) overtaken s ∧
    itemsOf ⟨2,5⟩ s.folded = closedItems ⟨2,5⟩ (s.flushed.map Flushed.closed) ++ s.window ⟨2,5⟩ ∧
    ∀ n ∈ s.flushed, n.count = n.folds.length := by
  have hrun : Runs step (newSender true) overtaken (after step (newSender true) overtaken) :=
    runs_after (by decide +kernel)
  obtain ⟨hitems,hcount,-⟩ := push_conserved hrun
  exact ⟨_,hrun,hitems ⟨2,5⟩,hcount⟩

end MiniDiscord.Notifications.Aggregation
