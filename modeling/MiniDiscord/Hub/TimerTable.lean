import MiniDiscord.Hub.MapsAgree

/-! # Timers and goroutines of a run

Facts every bookkeeping argument needs: stopping or firing a timer changes its
status only, a timer that is recorded or about to be recorded belongs to the user
it is recorded for, and a goroutine not yet started is idle.
-/
namespace MiniDiscord.VoiceHub
open Transition
variable {cfg : Config}

@[simp] theorem Timer.stop_userID (t : Timer) : t.stop.userID = t.userID := by
  unfold Timer.stop
  split <;> rfl

@[simp] theorem Timer.stop_sessionID (t : Timer) : t.stop.sessionID = t.sessionID := by
  unfold Timer.stop
  split <;> rfl

theorem Timer.stop_armed (t : Timer) : t.stop.status ≠ .armed := by
  unfold Timer.stop
  split
  · exact fun h => by cases h
  · assumption

/-- Two timer tables that differ in the status of timers only. -/
def SameCalls (f g : TimerID → Timer) : Prop :=
  ∀ t, (g t).userID = (f t).userID ∧ (g t).sessionID = (f t).sessionID

theorem SameCalls.refl (f : TimerID → Timer) : SameCalls f f := fun _ => ⟨rfl,rfl⟩

theorem sameCalls_stopTimer (f : TimerID → Timer) (o : Option TimerID) :
    SameCalls f (stopTimer f o) := by
  intro x
  cases o with
  | none => exact ⟨rfl,rfl⟩
  | some t =>
    unfold stopTimer
    by_cases hx : x = t
    · subst hx
      simp
    · simp [hx]

theorem sameCalls_fire (s : State) (t : TimerID) : SameCalls s.timers (s.fire t).timers := by
  intro x
  have hx : (s.fire t).timers = Function.update s.timers t { s.timers t with status := .fired } := rfl
  rw [hx]
  by_cases hxt : x = t
  · subst hxt
    simp
  · simp [hxt]

theorem fire_armed {s : State} {t x : TimerID} :
    ((s.fire t).timers x).status = .armed ↔ (s.timers x).status = .armed ∧ x ≠ t := by
  have hx : (s.fire t).timers = Function.update s.timers t { s.timers t with status := .fired } := rfl
  rw [hx]
  by_cases hxt : x = t
  · subst hxt
    simp
  · simp [hxt]

/-- A timer armed after a stop was armed before it, and is not the one stopped. -/
theorem stopTimer_armed {f : TimerID → Timer} {o : Option TimerID} {x : TimerID} :
    (stopTimer f o x).status = .armed ↔ (f x).status = .armed ∧ o ≠ some x := by
  cases o with
  | none => simp [stopTimer]
  | some t =>
    unfold stopTimer
    by_cases hx : x = t
    · subst hx
      simp [(f x).stop_armed]
    · simp [hx, Ne.symm hx]

/-- The goroutines started so far. -/
def State.goroutines (s : State) : List ThreadID :=
  .run :: .reconcile :: (List.range s.nextGo).map .go

structure TimersOwned (s : State) : Prop where
  unstarted : ∀ n, s.nextGo ≤ n → s.threads (.go n) = .idle
  unarmed : ∀ t, (s.timers t).status = .armed → t < s.nextTimer
  entry : ∀ u t, s.hub.sfuGraceTimers.lookup u = some t → t < s.nextTimer ∧ (s.timers t).userID = u
  pending : ∀ t u timer, s.threads t = .storeTimer u timer →
    timer < s.nextTimer ∧ (s.timers timer).userID = u

theorem TimersOwned.mem_goroutines {s : State} (h : TimersOwned s) {t : ThreadID}
    (ht : s.threads t ≠ .idle) : t ∈ s.goroutines := by
  unfold State.goroutines
  cases t with
  | run => exact List.mem_cons_self
  | reconcile => exact List.mem_cons_of_mem _ List.mem_cons_self
  | go n =>
    refine List.mem_cons_of_mem _ (List.mem_cons_of_mem _ (List.mem_map_of_mem ?_))
    rw [List.mem_range]
    by_contra hn
    exact ht (h.unstarted n (by omega))

theorem LocalMove.not_storeTimer {s : State} {t : ThreadID} {p p' : Proc} (h : LocalMove cfg s t p p')
    (u : UserID) (timer : TimerID) : p' ≠ .storeTimer u timer := by
  intro hp
  cases h with
  | @leaveNone t v k hv => cases k <;> cases hp
  | @routerLeave t v sid k => cases k <;> cases hp
  | _ => cases hp

theorem LocalMove.not_go_idle {s : State} {t : ThreadID} {p p' : Proc} (h : LocalMove cfg s t p p')
    (n : ℕ) (ht : t = .go n) : p ≠ .idle := by
  intro hp
  cases h with
  | joinCommand => cases ht
  | leaveCommand => cases ht
  | liveSessions => cases ht
  | _ => cases hp

/-- A started goroutine goes on; the timers recorded so far keep their calls. -/
theorem TimersOwned.setThread {s s' : State} {t : ThreadID} {p : Proc} (h : TimersOwned s)
    (hthreads : s'.threads = Function.update s.threads t p) (hgo : s'.nextGo = s.nextGo)
    (hstarted : ∀ n, t = .go n → s.threads t ≠ .idle)
    (hlt : s.nextTimer ≤ s'.nextTimer)
    (harmed : ∀ x, (s'.timers x).status = .armed → (s.timers x).status = .armed ∨ x < s'.nextTimer)
    (hcalls : ∀ x, x < s.nextTimer → (s'.timers x).userID = (s.timers x).userID)
    (hentry : ∀ u x, s'.hub.sfuGraceTimers.lookup u = some x → s.hub.sfuGraceTimers.lookup u = some x ∨
      (x < s'.nextTimer ∧ (s'.timers x).userID = u))
    (hp : ∀ u x, p = .storeTimer u x → x < s'.nextTimer ∧ (s'.timers x).userID = u) :
    TimersOwned s' := by
  constructor
  · intro n hn
    rw [hgo] at hn
    rw [hthreads,Function.update_of_ne]
    · exact h.unstarted n hn
    · intro ht
      exact hstarted n ht.symm (ht ▸ h.unstarted n hn)
  · intro x hx
    rcases harmed x hx with hx | hx
    · exact (h.unarmed x hx).trans_le hlt
    · exact hx
  · intro u x hx
    rcases hentry u x hx with hx | hx
    · obtain ⟨hlt',hu⟩ := h.entry u x hx
      exact ⟨hlt'.trans_le hlt,(hcalls x hlt').trans hu⟩
    · exact hx
  · apply forall_threads (P := fun _ p => ∀ u x, p = .storeTimer u x →
      x < s'.nextTimer ∧ (s'.timers x).userID = u) hthreads hp
    intro t' _ u x hx
    obtain ⟨hlt',hu⟩ := h.pending t' u x hx
    exact ⟨hlt'.trans_le hlt,(hcalls x hlt').trans hu⟩

/-- A started goroutine goes on, and no timer is armed or recorded. -/
theorem TimersOwned.other {s s' : State} {t : ThreadID} {p : Proc} (h : TimersOwned s)
    (hthreads : s'.threads = Function.update s.threads t p)
    (hstarted : ∀ n, t = .go n → s.threads t ≠ .idle)
    (harmed : ∀ x, (s'.timers x).status = .armed → (s.timers x).status = .armed)
    (hcalls : SameCalls s.timers s'.timers)
    (hentry : ∀ u x, s'.hub.sfuGraceTimers.lookup u = some x → s.hub.sfuGraceTimers.lookup u = some x)
    (hp : ∀ u x, p ≠ .storeTimer u x) (hgo : s'.nextGo = s.nextGo := by rfl)
    (hnext : s'.nextTimer = s.nextTimer := by rfl) : TimersOwned s' := by
  apply h.setThread hthreads hgo hstarted hnext.ge
  · exact fun x hx => Or.inl (harmed x hx)
  · exact fun x _ => (hcalls x).1
  · exact fun u x hx => Or.inl (hentry u x hx)
  · exact fun u x hx => absurd hx (hp u x)

/-- A goroutine is started, and no timer is armed or recorded. -/
theorem TimersOwned.spawn {s s' : State} {p : Proc} (h : TimersOwned s)
    (hthreads : s'.threads = Function.update s.threads (.go s.nextGo) p)
    (harmed : ∀ x, (s'.timers x).status = .armed → (s.timers x).status = .armed)
    (hcalls : SameCalls s.timers s'.timers) (hp : ∀ u x, p ≠ .storeTimer u x)
    (hgo : s'.nextGo = s.nextGo + 1 := by rfl) (hnext : s'.nextTimer = s.nextTimer := by rfl)
    (hentry : s'.hub.sfuGraceTimers = s.hub.sfuGraceTimers := by rfl) : TimersOwned s' := by
  constructor
  · intro n hn
    rw [hthreads,Function.update_of_ne]
    · exact h.unstarted n (by omega)
    · intro ht
      cases ht
      omega
  · intro x hx
    rw [hnext]
    exact h.unarmed x (harmed x hx)
  · intro u x hx
    rw [hentry] at hx
    rw [hnext,(hcalls x).1]
    exact h.entry u x hx
  · apply forall_threads (P := fun _ p => ∀ u x, p = .storeTimer u x →
      x < s'.nextTimer ∧ (s'.timers x).userID = u) hthreads
    · exact fun u x hx => absurd hx (hp u x)
    · intro t _ u x hx
      rw [hnext,(hcalls x).1]
      exact h.pending t u x hx

theorem Hub.changeVoiceStatus_timers (h : Hub) (u : UserID) (st : VoiceStatus) :
    (h.changeVoiceStatus u st).sfuGraceTimers = h.sfuGraceTimers := by
  rcases h.changeVoiceStatus_eq u st with he | ⟨-,he⟩ <;> rw [he]

theorem Hub.changeVoiceStatus_sessions (h : Hub) (u : UserID) (st : VoiceStatus) :
    (h.changeVoiceStatus u st).sfuSessionByUser = h.sfuSessionByUser := by
  rcases h.changeVoiceStatus_eq u st with he | ⟨-,he⟩ <;> rw [he]

theorem Hub.changeVoiceStatus_clients (h : Hub) (u : UserID) (st : VoiceStatus) :
    (h.changeVoiceStatus u st).clientsByUser = h.clientsByUser := by
  rcases h.changeVoiceStatus_eq u st with he | ⟨-,he⟩ <;> rw [he]

theorem step_timersOwned {s s' : State} {e : Event} (h : TimersOwned s)
    (he : step cfg s e = some s') : TimersOwned s' := by
  have hstarted : ∀ {t : ThreadID} {p : Proc}, s.threads t = p → p ≠ .idle →
      ∀ n, t = .go n → s.threads t ≠ .idle := by
    rintro t p rfl hp n -
    exact hp
  cases step_view he with
  | quiet o => exact ⟨h.unstarted,h.unarmed,h.entry,h.pending⟩
  | @move e t p o hm =>
    exact h.other rfl (fun n ht => hm.not_go_idle n ht) (fun _ hx => hx) (.refl _) (fun _ _ hx => hx)
      hm.not_storeTimer
  | sessionClosed o => exact h.spawn rfl (fun _ hx => hx) (.refl _) (by simp)
  | resumeCommand o => exact h.spawn rfl (fun _ hx => hx) (.refl _) (by simp)
  | changeStatus o =>
    refine ⟨h.unstarted,h.unarmed,fun u t ht => ?_,h.pending⟩
    rw [Hub.changeVoiceStatus_timers] at ht
    exact h.entry u t ht
  | registered o => exact ⟨h.unstarted,h.unarmed,h.entry,h.pending⟩
  | evicted o => exact h.spawn rfl (fun _ hx => hx) (.refl _) (by simp)
  | unregistered o hi =>
    exact h.other rfl (by simp) (fun _ hx => hx) (.refl _) (fun _ _ hx => hx) (by simp)
  | @fire t ht ha =>
    exact h.spawn rfl (fun x hx => (fire_armed.mp hx).1) (sameCalls_fire s t) (by simp)
  | routerJoin o hr hf =>
    exact h.other rfl (by simp) (fun _ hx => hx) (.refl _) (fun _ _ hx => hx) (by simp)
  | leave ht hu =>
    exact h.other rfl (hstarted ht (by simp)) (fun x hx => (stopTimer_armed.mp hx).1)
      (sameCalls_stopTimer _ _) (fun _ _ hx => (GoMap.lookup_of_erase hx).2) (by simp)
  | joinLocked ht =>
    exact h.other rfl (hstarted ht (by simp)) (fun _ hx => hx) (.refl _) (fun _ _ hx => hx) (by simp)
  | @armTimer t u sid ht =>
    refine h.setThread rfl rfl (hstarted ht (by simp)) (Nat.le_succ _) (fun x hx => ?_)
      (fun x hx => ?_) (fun _ _ hx => Or.inl hx) (fun v x hx => ?_)
    · by_cases hxn : x = s.nextTimer
      · exact Or.inr (hxn ▸ Nat.lt_succ_self _)
      · left
        simpa [State.armTimer, State.setThread, hxn] using hx
    · have hne : x ≠ s.nextTimer := hx.ne
      simp [State.armTimer, State.setThread, hne]
    · cases hx
      simp [State.armTimer, State.setThread]
  | @storeTimer t u timer ht =>
    obtain ⟨hlt,hu⟩ := h.pending t u timer ht
    refine h.setThread rfl rfl (hstarted ht (by simp)) le_rfl
      (fun x hx => Or.inl (stopTimer_armed.mp hx).1) (fun x _ => (sameCalls_stopTimer _ _ x).1)
      (fun v x hx => ?_) (fun v x hx => by cases hx)
    have hx' : (s.hub.sfuGraceTimers.insert u timer).lookup v = some x := hx
    rw [GoMap.lookup_insert_eq] at hx'
    split at hx'
    · rename_i hv
      cases hx'
      subst hv
      exact Or.inr ⟨hlt,(sameCalls_stopTimer _ _ timer).1.trans hu⟩
    · exact Or.inl hx'
  | @expire t u sid timer ht =>
    refine h.other rfl (hstarted ht (by simp)) (fun _ hx => hx) (.refl _)
      (fun _ _ hx => (GoMap.lookup_of_erase hx).2) (fun v x hx => ?_)
    split at hx <;> cases hx
  | cancelTimer ht =>
    exact h.other rfl (hstarted ht (by simp)) (fun x hx => (stopTimer_armed.mp hx).1)
      (sameCalls_stopTimer _ _) (fun _ _ hx => (GoMap.lookup_of_erase hx).2) (by simp)

theorem timersOwned_init : TimersOwned init where
  unstarted n _ := rfl
  unarmed t h := by cases h
  entry u t h := by cases h
  pending t u timer h := by cases h

/-- What every run keeps, whatever its guard. -/
structure Consistent (s : State) : Prop where
  timers : TimersOwned s
  joins : JoinsSerial s
  maps : MapsAgree s.hub

theorem consistent_init : Consistent init :=
  ⟨timersOwned_init,joinsSerial_init,mapsAgree_newHub⟩

theorem step_consistent {s s' : State} {e : Event} (h : Consistent s)
    (he : step cfg s e = some s') : Consistent s' :=
  ⟨step_timersOwned h.timers he,step_joinsSerial h.joins he,step_mapsAgree h.joins h.maps he⟩

theorem runs_consistent {guard : State → Event → Prop} {es : List Event} {s : State}
    (h : RunsWhen (step cfg) guard init es s) : Consistent s :=
  h.invariant (P := Consistent) consistent_init (fun hs _ he => step_consistent hs he)

end MiniDiscord.VoiceHub
