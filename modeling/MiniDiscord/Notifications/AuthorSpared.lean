import MiniDiscord.Notifications.OneDecision
import MiniDiscord.Notifications.Pipeline

/-! # The author of a message

The sender leaves out the users that were registered when the hub handled the message, and
nothing else tells the author from a recipient. A command that is still queued when the
author's connection is unregistered is handled all the same.
-/
namespace MiniDiscord.Notifications
open ChatHub Effects Program Transition

/-- No push for a message went, or was folded into an aggregate, for its author. -/
structure AuthorSpared (s : State) : Prop where
  sent : ∀ p ∈ s.sent, p.userID ≠ p.event.message.authorID
  folded : ∀ f ∈ s.folded, f.1 ≠ f.2.message.authorID

def ListsClients : Entry Call Call.Answer Act → Bool
  | .asked .clientsByUser _ => true
  | _ => false

/-- When `Run` takes a command for whose message `enqueuePush` will list the registered users,
its author is registered. A command that is refused comes to no such list. -/
def AuthorRegistered (s3Host : String) (enabled : Bool) (s : State) : Event → Prop
  | .handle oracle online => enabled = true → ∀ req ∈ s.commands.head?,
      (∃ e ∈ exchange s3Host s req oracle online, ListsClients e = true) →
      (s.clients req.client).userID ∈ s.clientsByUser
  | _ => True

instance (s3Host : String) (enabled : Bool) (s : State) (e : Event) :
    Decidable (AuthorRegistered s3Host enabled s e) := by
  cases e <;> unfold AuthorRegistered <;> infer_instance

/-! ## What a command hands over, and what a worker takes from it -/

/-- The author of an event is among the users that were registered. -/
def FromRegistered (event : PushEvent) : Prop := event.message.authorID ∈ event.onlineIDs

theorem handleCommand_fromRegistered {s3Host : String} {s : State} {req : WsCommandRequest}
    {oracle : Oracle Call Call.Answer} {online : List UserID}
    (h : (∃ e ∈ exchange s3Host s req oracle online, ListsClients e = true) →
      (s.clients req.client).userID ∈ online) :
    ∀ event ∈ handleCommand s3Host s req oracle online, FromRegistered event := by
  intro event hevent
  have hanswer : ∀ answer, Entry.asked .clientsByUser answer ∈ exchange s3Host s req oracle online →
      (s.clients req.client).userID ∈ answer := by
    intro answer hasked
    obtain ⟨k,hk⟩ := asked_run hasked
    obtain rfl : answer = online := hk
    exact h ⟨_,hasked,rfl⟩
  obtain ⟨hhub,honline⟩ := sendMessage_event (path_run _ 0 _) hanswer hevent
  unfold FromRegistered
  rw [hhub.author]
  exact honline

/-- A worker has nothing to do for a user that was registered. -/
theorem processEvent_offline {t : Tables} {event : PushEvent} {now : Time} {d : Delivery}
    (hd : d ∈ processEvent t event now) : d.userID ∉ event.onlineIDs := by
  obtain ⟨target,-,ht⟩ := List.mem_filterMap.mp hd
  rw [processTarget_userID ht]
  intro hon
  rw [processTarget_online now hon] at ht
  cases ht

/-! ## The invariant -/

structure Inv (s : State) : Prop where
  queued : ∀ event ∈ s.events, FromRegistered event
  working : ∀ w event ds, s.workers w = some (event,ds) →
    ∀ d ∈ ds, d.userID ≠ event.message.authorID
  aggregated : ∀ key a, s.agg.lookup key = some a → key.1 ≠ a.last.message.authorID
  spared : AuthorSpared s

theorem inv_init : Inv init := by
  constructor
  · intro event he
    cases he
  · intro w event ds hw
    cases hw
  · intro key a ha
    have hnone : init.agg.lookup key = none := Finmap.lookup_empty key
    rw [hnone] at ha
    cases ha
  · constructor
    · intro p hp
      cases hp
    · intro f hf
      cases hf

/-- A step of the connections and the command queue changes nothing of the sender. -/
theorem Inv.of_eq {s t : State} (h : Inv s) (hevents : t.events = s.events)
    (hworkers : t.workers = s.workers) (hagg : t.agg = s.agg) (hfolded : t.folded = s.folded)
    (hsent : t.sent = s.sent) : Inv t := by
  constructor
  · rw [hevents]
    exact h.queued
  · rw [hworkers]
    exact h.working
  · rw [hagg]
    exact h.aggregated
  · constructor
    · rw [hsent]
      exact h.spared.sent
    · rw [hfolded]
      exact h.spared.folded

theorem Inv.enqueue {s : State} (h : Inv s) {event : PushEvent} (he : FromRegistered event) :
    Inv (s.enqueue event) := by
  unfold State.enqueue
  split
  · refine ⟨?_,h.working,h.aggregated,⟨h.spared.sent,h.spared.folded⟩⟩
    intro event' hevent
    rcases List.mem_append.mp hevent with hold | hnew
    · exact h.queued event' hold
    · rw [List.mem_singleton.mp hnew]
      exact he
  · exact h

theorem Inv.foldl_enqueue {s : State} (h : Inv s) {events : List PushEvent}
    (he : ∀ event ∈ events, FromRegistered event) : Inv (events.foldl State.enqueue s) := by
  induction events generalizing s with
  | nil => exact h
  | cons event events ih =>
    apply ih (h.enqueue (he event List.mem_cons_self))
    intro event' hevent
    exact he event' (List.mem_cons_of_mem _ hevent)

theorem Inv.setWorker {s : State} (h : Inv s) (w : ℕ) {work : Option (PushEvent × List Delivery)}
    (hw : ∀ event ds, work = some (event,ds) → ∀ d ∈ ds, d.userID ≠ event.message.authorID) :
    Inv (s.setWorker w work) := by
  refine ⟨h.queued,?_,h.aggregated,⟨h.spared.sent,h.spared.folded⟩⟩
  intro w' event ds hw'
  by_cases hww : w' = w
  · subst hww
    exact hw event ds (by simpa [State.setWorker] using hw')
  · exact h.working w' event ds (by simpa [State.setWorker,hww] using hw')

theorem Inv.tail {s : State} (h : Inv s) {event : PushEvent} {rest : List PushEvent}
    (hs : s.events = event :: rest) : Inv { s with events := rest } := by
  refine ⟨?_,h.working,h.aggregated,⟨h.spared.sent,h.spared.folded⟩⟩
  intro event' hevent
  exact h.queued event' (by rw [hs]; exact List.mem_cons_of_mem _ hevent)

theorem Inv.deliver {s : State} (h : Inv s) {userID : UserID} {event : PushEvent}
    (hne : userID ≠ event.message.authorID) (subs : List String) (mention : Bool) (count : ℕ)
    (hidePreview : Bool) : Inv (s.deliver userID subs event mention count hidePreview) := by
  refine ⟨h.queued,h.working,h.aggregated,⟨?_,h.spared.folded⟩⟩
  intro p hp
  rcases List.mem_append.mp hp with hold | hnew
  · exact h.spared.sent p hold
  · obtain ⟨endpoint,-,rfl⟩ := List.mem_map.mp hnew
    exact hne

theorem Inv.aggregate {s : State} (h : Inv s) {userID : UserID} {event : PushEvent}
    (hne : userID ≠ event.message.authorID) (hidePreview : Bool) :
    Inv (s.aggregate userID event hidePreview) := by
  refine ⟨h.queued,h.working,?_,⟨h.spared.sent,?_⟩⟩
  · intro key a ha
    dsimp only [State.aggregate] at ha
    rw [GoMap.lookup_insert_eq] at ha
    split at ha
    · rename_i hkey
      rw [hkey,← Option.some.inj ha]
      exact hne
    · exact h.aggregated key a ha
  · intro f hf
    rcases List.mem_append.mp hf with hold | hnew
    · exact h.spared.folded f hold
    · rw [List.mem_singleton.mp hnew]
      exact hne

theorem Inv.erase {s : State} (h : Inv s) (key : AggKey) : Inv { s with agg := s.agg.erase key } := by
  refine ⟨h.queued,h.working,?_,⟨h.spared.sent,h.spared.folded⟩⟩
  intro key' a ha
  exact h.aggregated key' a (GoMap.lookup_of_erase ha).2

variable {s3Host : String} {enabled : Bool}

theorem inv_handle {s t : State} {oracle : Oracle Call Call.Answer} {online : List UserID}
    (h : Inv s) (hg : AuthorRegistered s3Host enabled s (.handle oracle online))
    (hstep : step s3Host enabled s (.handle oracle online) = some t) : Inv t := by
  unfold step at hstep
  cases hc : s.commands with
  | nil =>
    rw [hc] at hstep
    cases hstep
  | cons req rest =>
    rw [hc] at hstep
    dsimp only at hstep
    have hrest : Inv { s with commands := rest } := h.of_eq rfl rfl rfl rfl rfl
    split at hstep
    · rename_i honline
      split at hstep
      · rename_i henabled
        cases hstep
        refine hrest.foldl_enqueue (handleCommand_fromRegistered (fun hlists => ?_))
        have hreg := hg henabled req (by rw [hc]; rfl) hlists
        rw [← List.mem_toFinset,honline]
        exact Finmap.mem_keys.mpr hreg
      · cases hstep
        exact hrest
    · cases hstep

theorem Inv.deliverTarget {s : State} (h : Inv s) {event : PushEvent} {d : Delivery}
    (hd : d.userID ≠ event.message.authorID) (subs : List String) :
    Inv (s.deliverTarget event d subs) := by
  unfold State.deliverTarget
  split
  · exact h.deliver hd subs true 1 d.hidePreview
  · exact h.aggregate hd d.hidePreview

theorem inv_deliver {s t : State} {w : ℕ} {subs : List String} (h : Inv s)
    (hstep : step s3Host enabled s (.deliver w subs) = some t) : Inv t := by
  unfold step at hstep
  dsimp only at hstep
  split at hstep
  · cases hstep
  · obtain rfl := Option.some.inj hstep
    apply h.setWorker w
    intro event ds he
    cases he
  · rename_i event d ds hw
    obtain rfl := Option.some.inj hstep
    have hd := h.working w event (d :: ds) hw
    have hrest : Inv (s.setWorker w (some (event,ds))) := by
      apply h.setWorker w
      intro event' ds' he d' hd'
      cases he
      exact hd d' (List.mem_cons_of_mem _ hd')
    exact hrest.deliverTarget (hd d List.mem_cons_self) subs

theorem inv_flush {s t : State} {key : AggKey} {subs : List String} (h : Inv s)
    (hstep : step s3Host enabled s (.flush key subs) = some t) : Inv t := by
  unfold step at hstep
  dsimp only at hstep
  split at hstep
  · cases hstep
  · rename_i a ha
    obtain rfl := Option.some.inj hstep
    exact (h.erase key).deliver (h.aggregated key a ha) subs false a.count a.hidePreview

theorem inv_step {s t : State} {e : Event} (h : Inv s) (hg : AuthorRegistered s3Host enabled s e)
    (hstep : step s3Host enabled s e = some t) : Inv t := by
  cases e with
  | handle oracle online => exact inv_handle h hg hstep
  | handleSocket userID =>
    unfold step at hstep
    dsimp only at hstep
    split at hstep <;> cases hstep
    exact h.of_eq rfl rfl rfl rfl rfl
  | register cl =>
    unfold step at hstep
    dsimp only at hstep
    split at hstep <;> cases hstep
    exact h.of_eq rfl rfl rfl rfl rfl
  | readMessage cl requestID payload =>
    unfold step at hstep
    dsimp only at hstep
    split at hstep <;> cases hstep
    exact h.of_eq rfl rfl rfl rfl rfl
  | closeConn cl =>
    unfold step at hstep
    dsimp only at hstep
    split at hstep <;> cases hstep
    exact h.of_eq rfl rfl rfl rfl rfl
  | unregister cl =>
    unfold step at hstep
    dsimp only at hstep
    split at hstep <;> cases hstep
    exact h.of_eq rfl rfl rfl rfl rfl
  | resolve w tables now =>
    unfold step at hstep
    cases hev : s.events with
    | nil =>
      rw [hev] at hstep
      cases hstep
    | cons event rest =>
      rw [hev] at hstep
      dsimp only at hstep
      split at hstep <;> cases hstep
      apply (h.tail hev).setWorker
      intro event' ds hw d hd hd'
      cases hw
      apply processEvent_offline hd
      rw [hd']
      exact h.queued event (by rw [hev]; exact List.mem_cons_self)
  | resolveFails w =>
    unfold step at hstep
    cases hev : s.events with
    | nil =>
      rw [hev] at hstep
      cases hstep
    | cons event rest =>
      rw [hev] at hstep
      dsimp only at hstep
      split at hstep <;> cases hstep
      exact h.tail hev
  | deliver w subs => exact inv_deliver h hstep
  | flush key subs => exact inv_flush h hstep

/-! ## Every run -/

/-- While every message is handled before its author's unregistration, no author is
notified of an own message, whatever the settings are. -/
theorem push_spares_author {es : List Event} {s : State}
    (h : RunsWhen (step s3Host enabled) (AuthorRegistered s3Host enabled) init es s) : AuthorSpared s :=
  (h.invariant inv_init inv_step).spared

/-- User 1 connects and says hi in channel 5. -/
def sayHi : List Event :=
  [.handleSocket 1,.register 0,.readMessage 0 "" (some ⟨5,"hi",[],none⟩)]

/-- The reader of the channel is pushed to, its author is not. What the author sends before
leaving is refused, and may be handled later. -/
theorem push_spares_author_present : ∃ s, RunsWhen (step "" true) (AuthorRegistered "" true) init
    (sayHi ++ [.handle (fun _ => answerGreeting []) [1],.resolve 0 noSettings 0,
      .deliver 0 ["phone"],.flush (2,5) ["phone"],.readMessage 0 "" (some ⟨0,"hi",[],none⟩),
      .closeConn 0,.unregister 0,.handle (fun _ => answerGreeting []) []]) s ∧
    s.sent.map Pushed.userID = [2] ∧ AuthorSpared s := by
  obtain ⟨s,hs,hsent⟩ := exists_runsWhen_of_exec (step "" true) (AuthorRegistered "" true) init
    (sayHi ++ [.handle (fun _ => answerGreeting []) [1],.resolve 0 noSettings 0,
      .deliver 0 ["phone"],.flush (2,5) ["phone"],.readMessage 0 "" (some ⟨0,"hi",[],none⟩),
      .closeConn 0,.unregister 0,.handle (fun _ => answerGreeting []) []])
    (fun s => s.sent.map Pushed.userID) [2] (by decide +kernel)
  exact ⟨s,hs,hsent,push_spares_author hs⟩

/-- The author leaves before the message is handled, and is notified of it. -/
theorem push_to_author : ¬ ∀ (s3Host : String) (enabled : Bool) (es : List Event) (s : State),
    Runs (step s3Host enabled) init es s → AuthorSpared s := by
  intro h
  obtain ⟨s,hs,hfolded⟩ := exists_runs_of_exec (step "" true) init
    (sayHi ++ [.closeConn 0,.unregister 0,.handle (fun _ => answerGreeting []) [],
      .resolve 0 noSettings 0,.deliver 0 ["phone"]])
    (fun s => s.folded.map (fun f => (f.1,f.2.message.authorID))) [(1,1)] (by decide +kernel)
  obtain ⟨f,hf,hpair⟩ := List.mem_map.mp (hfolded ▸ List.mem_singleton_self ((1 : UserID),(1 : UserID)))
  have hne := (h "" true _ s hs).folded f hf
  simp only [Prod.mk.injEq] at hpair
  exact hne (hpair.1.trans hpair.2.symm)

end MiniDiscord.Notifications
