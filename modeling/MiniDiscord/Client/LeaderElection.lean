import Mathlib.Data.Fintype.Basic
import Mathlib.Data.String.Basic
import MiniDiscord.Transition.LabelledRuns

/-! # The election of the tab that plays sounds

Every open tab of the browser keeps its own copy of the module's variables, and
the tabs talk over one broadcast channel. A message posted by a tab goes to the
queue of every other tab whose channel is open; the queues may be served in any
order. Timers are flags: an armed timer may fire at any moment.
-/
namespace MiniDiscord.LeaderElection
open Transition

/-- `LeaderMessage`. -/
inductive LeaderMessage where
  | heartbeat (id : String)
  | leaving (id : String)
deriving DecidableEq, Repr

/-- The module's variables in one tab. `channel` says whether the channel is open,
`claims` counts the pending timeouts of 300 ms. -/
structure Tab where
  isLeaderFlag : Bool := true
  myId : String := ""
  leaderId : Option String := none
  channel : Bool := false
  heartbeatTimer : Bool := false
  watchdogTimer : Bool := false
  claims : ℕ := 0
deriving DecidableEq, Repr

namespace Tab

/-- What `broadcast` posts. -/
def broadcast (t : Tab) (msg : LeaderMessage) : List LeaderMessage :=
  if t.channel then [msg] else []

def stopHeartbeat (t : Tab) : Tab := { t with heartbeatTimer := false }

def becomeLeader (t : Tab) : Tab × List LeaderMessage :=
  ({ t with isLeaderFlag := true, leaderId := some t.myId, heartbeatTimer := true },
    t.broadcast (.heartbeat t.myId))

def resetWatchdog (t : Tab) : Tab := { t with watchdogTimer := true }

/-- `initLeaderElection`; `id` is what `randomId` returned. -/
def initLeaderElection (t : Tab) (id : String) : Tab :=
  resetWatchdog
    { t with myId := id, isLeaderFlag := false, channel := true, claims := t.claims + 1 }

/-- `channel.onmessage`. -/
def onmessage (t : Tab) : LeaderMessage → Tab × List LeaderMessage
  | .heartbeat id =>
    let heard := { t with leaderId := some id }
    -- of two leaders the one with the smaller id stays
    if t.isLeaderFlag ∧ id ≠ t.myId ∧ id < t.myId then
      (resetWatchdog (stopHeartbeat { heard with isLeaderFlag := false }),[])
    else
      (resetWatchdog heard,[])
  | .leaving id =>
    if t.leaderId = some id then becomeLeader { t with watchdogTimer := false }
    else (t,[])

/-- The callback of the watchdog's timeout. -/
def watchdogExpires (t : Tab) : Tab × List LeaderMessage :=
  becomeLeader { t with watchdogTimer := false }

/-- The callback of the timeout of 300 ms. -/
def claimExpires (t : Tab) : Tab × List LeaderMessage :=
  let t' := { t with claims := t.claims - 1 }
  if t.leaderId = none then becomeLeader t' else (t',[])

def onUnload (t : Tab) : List LeaderMessage :=
  if t.isLeaderFlag then t.broadcast (.leaving t.myId) else []

/-- What the function returned by `initLeaderElection` does. The timeout of 300 ms is not
cleared, nor is the flag. -/
def cleanup (t : Tab) : Tab :=
  { stopHeartbeat t with watchdogTimer := false, channel := false }

end Tab

/-- All tabs and, for each of them, the messages that are posted and not yet handled. -/
structure State (n : ℕ) where
  tabs : Fin n → Tab
  queue : Fin n → List LeaderMessage

inductive Event (n : ℕ) where
  | init (i : Fin n) (id : String)
  | deliver (i : Fin n) (k : ℕ)
  | heartbeat (i : Fin n)
  | watchdog (i : Fin n)
  | claim (i : Fin n)
  | beforeUnload (i : Fin n)
  | cleanup (i : Fin n)
  | close (i : Fin n)
deriving DecidableEq

namespace State
variable {n : ℕ}

def start (n : ℕ) : State n := ⟨fun _ => {},fun _ => []⟩

/-- Tab `i` becomes `t` and posts `msgs`: they reach every other tab with an open channel. -/
def post (s : State n) (i : Fin n) (t : Tab) (msgs : List LeaderMessage) : State n where
  tabs := Function.update s.tabs i t
  queue := fun j => if j ≠ i ∧ (s.tabs j).channel then s.queue j ++ msgs else s.queue j

/-- Tab `i` handles `msg`, the message at `k` in its queue. -/
def handle (s : State n) (i : Fin n) (k : ℕ) (msg : LeaderMessage) : State n :=
  { s with queue := Function.update s.queue i ((s.queue i).eraseIdx k) }.post i
    ((s.tabs i).onmessage msg).1 ((s.tabs i).onmessage msg).2

/-- A channel that was closed gets no more messages. -/
def shut (s : State n) (i : Fin n) (t : Tab) : State n where
  tabs := Function.update s.tabs i t
  queue := Function.update s.queue i []

def step (s : State n) : Event n → Option (State n)
  | .init i id =>
    if (s.tabs i).channel then none else some (s.post i ((s.tabs i).initLeaderElection id) [])
  | .deliver i k =>
    if (s.tabs i).channel then (s.queue i)[k]?.map (s.handle i k) else none
  | .heartbeat i =>
    if (s.tabs i).heartbeatTimer then
      some (s.post i (s.tabs i) ((s.tabs i).broadcast (.heartbeat (s.tabs i).myId)))
    else none
  | .watchdog i =>
    if (s.tabs i).watchdogTimer then
      some (s.post i (s.tabs i).watchdogExpires.1 (s.tabs i).watchdogExpires.2)
    else none
  | .claim i =>
    if (s.tabs i).claims = 0 then none
    else some (s.post i (s.tabs i).claimExpires.1 (s.tabs i).claimExpires.2)
  | .beforeUnload i =>
    if (s.tabs i).channel then some (s.post i (s.tabs i) (s.tabs i).onUnload) else none
  | .cleanup i => if (s.tabs i).channel then some (s.shut i (s.tabs i).cleanup) else none
  -- the page is gone, with its timers
  | .close i => some (s.shut i {})

@[simp] theorem post_tabs (s : State n) (i : Fin n) (t : Tab) (msgs : List LeaderMessage) :
    (s.post i t msgs).tabs = Function.update s.tabs i t := rfl

@[simp] theorem shut_tabs (s : State n) (i : Fin n) (t : Tab) :
    (s.shut i t).tabs = Function.update s.tabs i t := rfl

end State

/-- What one event can make of the variables of its tab. -/
inductive TabStep : Tab → Tab → Prop
  | init {t : Tab} (id : String) : t.channel = false → TabStep t (t.initLeaderElection id)
  | message {t : Tab} (msg : LeaderMessage) :
      t.channel = true → TabStep t (t.onmessage msg).1
  | same (t : Tab) : TabStep t t
  | watchdog {t : Tab} : t.watchdogTimer = true → TabStep t t.watchdogExpires.1
  | claim {t : Tab} : t.claims ≠ 0 → TabStep t t.claimExpires.1
  | cleanup {t : Tab} : t.channel = true → TabStep t t.cleanup
  | close (t : Tab) : TabStep t {}

/-- Each event changes the variables of one tab only. -/
theorem State.step_tabs {n : ℕ} {s s' : State n} {e : Event n} (h : s.step e = some s') :
    ∃ i t, TabStep (s.tabs i) t ∧ s'.tabs = Function.update s.tabs i t := by
  cases e with
  | init i id =>
    rw [step] at h
    split at h
    · cases h
    · cases h
      exact ⟨i,_,.init id (Bool.eq_false_of_not_eq_true ‹_›),rfl⟩
  | deliver i k =>
    obtain ⟨hc,h⟩ := Option.ite_none_right_eq_some.mp h
    obtain ⟨msg,_,rfl⟩ := Option.map_eq_some_iff.mp h
    exact ⟨i,_,.message msg hc,rfl⟩
  | heartbeat i =>
    obtain ⟨_,h⟩ := Option.ite_none_right_eq_some.mp h
    cases h
    exact ⟨i,_,.same _,rfl⟩
  | watchdog i =>
    obtain ⟨hw,h⟩ := Option.ite_none_right_eq_some.mp h
    cases h
    exact ⟨i,_,.watchdog hw,rfl⟩
  | claim i =>
    obtain ⟨hc,h⟩ := Option.ite_none_left_eq_some.mp h
    cases h
    exact ⟨i,_,.claim hc,rfl⟩
  | beforeUnload i =>
    obtain ⟨_,h⟩ := Option.ite_none_right_eq_some.mp h
    cases h
    exact ⟨i,_,.same _,rfl⟩
  | cleanup i =>
    obtain ⟨hc,h⟩ := Option.ite_none_right_eq_some.mp h
    cases h
    exact ⟨i,_,.cleanup hc,rfl⟩
  | close i =>
    cases h
    exact ⟨i,_,.close _,rfl⟩

/-- What holds of every tab before its script runs, and is kept by each step of a tab, holds of
every tab in every state that can be reached. -/
theorem tabs_invariant {n : ℕ} {P : Tab → Prop} {s s' : State n} {es : List (Event n)}
    (hr : Runs State.step s es s') (h0 : ∀ i, P (s.tabs i))
    (hstep : ∀ {t t' : Tab}, P t → TabStep t t' → P t') : ∀ i, P (s'.tabs i) := by
  refine hr.invariant (P := fun s => ∀ i, P (s.tabs i)) h0 ?_
  intro s s' e hs _ he i
  obtain ⟨j,t,ht,hs'⟩ := State.step_tabs he
  rw [hs']
  by_cases hij : i = j
  · subst hij
    rw [Function.update_self]
    exact hstep (hs i) ht
  · rw [Function.update_of_ne hij]
    exact hs i

/-- A tab that takes part leads with its heartbeat going, or waits with its watchdog armed. -/
def Tab.Guarded (t : Tab) : Prop :=
  t.channel = true →
    (t.isLeaderFlag = true ∧ t.heartbeatTimer = true) ∨
      (t.isLeaderFlag = false ∧ t.watchdogTimer = true)

theorem Tab.Guarded.becomeLeader (t : Tab) : t.becomeLeader.1.Guarded := fun _ => .inl ⟨rfl,rfl⟩

theorem Tab.Guarded.step {t t' : Tab} (h : t.Guarded) (ht : TabStep t t') : t'.Guarded := by
  cases ht with
  | init => exact fun _ => .inr ⟨rfl,rfl⟩
  | message msg =>
    cases msg with
    | heartbeat id =>
      simp only [Tab.onmessage]
      split
      · exact fun _ => .inr ⟨rfl,rfl⟩
      · intro hc
        rcases h hc with hl | hw
        · exact .inl hl
        · exact .inr ⟨hw.1,rfl⟩
    | leaving id =>
      simp only [Tab.onmessage]
      split
      · exact .becomeLeader _
      · exact h
  | same => exact h
  | watchdog => exact .becomeLeader _
  | claim =>
    simp only [Tab.claimExpires]
    split
    · exact .becomeLeader _
    · exact h
  | cleanup => exact fun hc => by cases hc
  | close => exact fun hc => by cases hc

/-- In every run, of any number of tabs that start, stop, close, fire their timers and get their
messages in any order: a tab that takes part either leads with its heartbeat going, or it has its
watchdog armed and will lead when it hears of no leader. -/
theorem guarded_of_runs {n : ℕ} {s : State n} {es : List (Event n)}
    (hr : Runs State.step (State.start n) es s) (i : Fin n) : (s.tabs i).Guarded :=
  tabs_invariant hr (fun _ hc => by cases hc) Tab.Guarded.step i

/-- Tab 0 leads and unloads; tab 1, which knew of it, takes the role over. -/
def handedOver : List (Event 3) :=
  [.init 0 "b",.claim 0,.init 1 "a",.heartbeat 0,.deliver 1 0,.beforeUnload 0,.close 0,.deliver 1 0]

theorem guarded_of_runs_handedOver :
    ((after State.step (State.start 3) handedOver).tabs 1).Guarded :=
  guarded_of_runs (runs_after (by decide) : Runs State.step (State.start 3) handedOver _) 1

end MiniDiscord.LeaderElection
