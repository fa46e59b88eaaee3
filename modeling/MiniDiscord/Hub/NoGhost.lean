import MiniDiscord.Hub.GraceTimers

/-! # No ghost participant

A user in voice without a registered connection needs something that will remove
it: an armed grace timer of its session, or a goroutine on its way to arm one or to
leave. `Commands` is buffered apart from `Unregister`, so a join can put a user in
voice after its connection was unregistered, and nothing will then remove it.
-/
namespace MiniDiscord.VoiceHub
open Transition
variable {cfg : Config}

/-- The goroutine will take `u` out of voice, or arm a timer for session `sid`. -/
def Proc.reaps (u : UserID) (sid : SessionID) : Proc → Bool
  | .leave v _ => decide (v = u)
  | .disconnect v _ => decide (v = u)
  | .routerDetach v sid' => decide (v = u ∧ sid' = sid)
  | .armTimer v sid' => decide (v = u ∧ sid' = sid)
  | .expire v sid' _ => decide (v = u ∧ sid' = sid)
  | .sessionClosed v sid' => decide (v = u ∧ sid' = sid)
  | _ => false

def State.armedFor (s : State) (u : UserID) (sid : SessionID) (t : TimerID) : Prop :=
  (s.timers t).status = .armed ∧ (s.timers t).userID = u ∧ (s.timers t).sessionID = sid

instance (s : State) (u : UserID) (sid : SessionID) (t : TimerID) : Decidable (s.armedFor u sid t) :=
  inferInstanceAs (Decidable (_ ∧ _ ∧ _))

/-- Apart from goroutine `t` and the recorded timer of `u`, something will remove `u`. -/
def State.reapedBeside (s : State) (t : ThreadID) (u : UserID) (sid : SessionID) : Bool :=
  s.goroutines.any (fun t' => decide (t' ≠ t) && (s.threads t').reaps u sid) ||
    (List.range s.nextTimer).any (fun x =>
      decide (s.armedFor u sid x) && decide (s.hub.sfuGraceTimers.lookup u ≠ some x))

/-- A section may put in voice, or stop the timer of, a user without a registered
connection only if something else is left to remove the user. -/
def KeepsReaper (s : State) : Event → Prop
  | .advance t =>
    match s.threads t with
    | .joinLocked _ u _ sid => u ∈ s.hub.clientsByUser ∨ s.reapedBeside t u sid = true
    | .storeTimer u _ => u ∈ s.hub.clientsByUser ∨
        ∀ sid ∈ s.hub.sfuSessionByUser.lookup u, s.reapedBeside t u sid = true
    | .cancelTimer _ u _ => u ∈ s.hub.clientsByUser ∨
        ∀ sid ∈ s.hub.sfuSessionByUser.lookup u, s.reapedBeside t u sid = true
    | _ => True
  | _ => True

instance (s : State) (e : Event) : Decidable (KeepsReaper s e) :=
  match e with
  | .advance t => by
    unfold KeepsReaper
    dsimp only
    generalize s.threads t = p
    exact match p with
      | .joinLocked .. | .storeTimer .. | .cancelTimer .. => inferInstance
      | .idle | .leave .. | .routerLeave .. | .routerJoin .. | .disconnect .. | .routerDetach ..
      | .armTimer .. | .expire .. | .sessionClosed .. | .ownsSession .. | .routerResume ..
      | .resumeAccess .. | .snapshot _ | .entries _ | .orphans .. => instDecidableTrue
  | .tick _ | .register _ | .send .. | .readError .. | .unregister _ | .command _
  | .connectionState .. | .fire _ | .liveSessions _ | .snapshot .. | .routerJoin _
  | .resumeAccess .. => instDecidableTrue

/-- An absent user in voice will be removed. -/
def Reaped (s : State) : Prop :=
  ∀ u sid, s.hub.sfuSessionByUser.lookup u = some sid → u ∉ s.hub.clientsByUser →
    (∃ t, (s.threads t).reaps u sid = true) ∨ ∃ x, s.armedFor u sid x

theorem State.reapedBeside_cases {s : State} {t : ThreadID} {u : UserID} {sid : SessionID}
    (h : s.reapedBeside t u sid = true) :
    (∃ t', t' ≠ t ∧ (s.threads t').reaps u sid = true) ∨
      ∃ x, s.armedFor u sid x ∧ s.hub.sfuGraceTimers.lookup u ≠ some x := by
  unfold State.reapedBeside at h
  simp only [Bool.or_eq_true, List.any_eq_true, Bool.and_eq_true, decide_eq_true_eq] at h
  rcases h with ⟨t',-,hne,hr⟩ | ⟨x,-,ha,hx⟩
  · exact Or.inl ⟨t',hne,hr⟩
  · exact Or.inr ⟨x,ha,hx⟩

/-- A goroutine that will remove the user does not give up while the user holds the session. -/
theorem LocalMove.reaps {s : State} {t : ThreadID} {p p' : Proc} {u : UserID} {sid : SessionID}
    (h : LocalMove cfg s t p p') (ha : MapsAgree s.hub)
    (hs : s.hub.sfuSessionByUser.lookup u = some sid) (hr : p.reaps u sid = true) :
    p'.reaps u sid = true := by
  cases h with
  | @leaveNone t v k hv =>
    have hvu : v = u := by simpa [Proc.reaps] using hr
    subst hvu
    rw [ha.session_eq_none hv] at hs
    cases hs
  | @disconnectLeave t v g => exact hr
  | @disconnectDetach t v sid' hv =>
    have hvu : v = u := by simpa [Proc.reaps] using hr
    subst hvu
    rw [hv] at hs
    cases hs
    simp [Proc.reaps]
  | routerDetach => exact hr
  | @sessionClosedCurrent t v sid' hv =>
    have hvs : v = u ∧ sid' = sid := by simpa [Proc.reaps] using hr
    simp [Proc.reaps, hvs.1]
  | @sessionClosedStale t v sid' hv =>
    have hvs : v = u ∧ sid' = sid := by simpa [Proc.reaps] using hr
    obtain ⟨rfl,rfl⟩ := hvs
    exact absurd hs hv
  | _ => cases hr

section Keep
variable {s s' : State} {t : ThreadID} {p : Proc} {u : UserID} {sid : SessionID}

/-- Removal by another goroutine, or by a timer that stays armed, is still due. -/
theorem reaped_keep (hthreads : s'.threads = Function.update s.threads t p)
    (hp : (s.threads t).reaps u sid = true →
      p.reaps u sid = true ∨ ∃ x, s'.armedFor u sid x)
    (htimers : ∀ x, s.armedFor u sid x → s'.armedFor u sid x ∨ p.reaps u sid = true)
    (h : (∃ t, (s.threads t).reaps u sid = true) ∨ ∃ x, s.armedFor u sid x) :
    (∃ t, (s'.threads t).reaps u sid = true) ∨ ∃ x, s'.armedFor u sid x := by
  have hself : p.reaps u sid = true → ∃ t, (s'.threads t).reaps u sid = true := by
    intro hr
    exact ⟨t,by rw [hthreads,Function.update_self]; exact hr⟩
  rcases h with ⟨t',hr⟩ | ⟨x,hx⟩
  · by_cases ht : t' = t
    · subst ht
      rcases hp hr with hr | hx
      · exact Or.inl (hself hr)
      · exact Or.inr hx
    · exact Or.inl ⟨t',by rw [hthreads,Function.update_of_ne ht]; exact hr⟩
  · rcases htimers x hx with hx | hr
    · exact Or.inr ⟨x,hx⟩
    · exact Or.inl (hself hr)

/-- What removes `u` beside `t` and the recorded timer survives both. -/
theorem reaped_beside (hthreads : s'.threads = Function.update s.threads t p)
    (htimers : ∀ x, s.armedFor u sid x → s.hub.sfuGraceTimers.lookup u ≠ some x →
      s'.armedFor u sid x)
    (h : s.reapedBeside t u sid = true) :
    (∃ t, (s'.threads t).reaps u sid = true) ∨ ∃ x, s'.armedFor u sid x := by
  rcases State.reapedBeside_cases h with ⟨t',ht,hr⟩ | ⟨x,hx,hne⟩
  · exact Or.inl ⟨t',by rw [hthreads,Function.update_of_ne ht]; exact hr⟩
  · exact Or.inr ⟨x,htimers x hx hne⟩

end Keep

theorem armedFor_stopTimer {s s' : State} {o : Option TimerID} (h : s'.timers = stopTimer s.timers o)
    {u : UserID} {sid : SessionID} {x : TimerID} (hx : s.armedFor u sid x) (hne : o ≠ some x) :
    s'.armedFor u sid x := by
  unfold State.armedFor
  rw [h,stopTimer_armed,(sameCalls_stopTimer s.timers o x).1,(sameCalls_stopTimer s.timers o x).2]
  exact ⟨⟨hx.1,hne⟩,hx.2⟩

/-- The recorded timer of one user is no timer of another. -/
theorem TimersOwned.entry_ne {s : State} (h : TimersOwned s) {u v : UserID} {sid : SessionID}
    {x : TimerID} (hx : s.armedFor v sid x) (hv : v ≠ u) : s.hub.sfuGraceTimers.lookup u ≠ some x := by
  intro hl
  exact hv (hx.2.1.symm.trans (h.entry u x hl).2)

/-- A goroutine is started, and nothing else changes. -/
theorem Reaped.spawn {s s' : State} {p : Proc} (h : Reaped s) (ho : TimersOwned s)
    (hthreads : s'.threads = Function.update s.threads (.go s.nextGo) p)
    (htimers : s'.timers = s.timers) (hsessions : s'.hub.sfuSessionByUser = s.hub.sfuSessionByUser)
    (hclients : ∀ v, v ∉ s'.hub.clientsByUser → v ∉ s.hub.clientsByUser) : Reaped s' := by
  intro v sid hs hv
  rw [hsessions] at hs
  refine reaped_keep hthreads (fun hr => ?_) (fun x hx => Or.inl ?_) (h v sid hs (hclients v hv))
  · rw [ho.unstarted _ le_rfl] at hr
    cases hr
  · unfold State.armedFor
    rw [htimers]
    exact hx

/-- The recorded timer of `u` is stopped, by a goroutine that removes nobody itself. -/
theorem Reaped.stopTimer {s s' : State} {t : ThreadID} {p : Proc} {u : UserID} (h : Reaped s)
    (ho : TimersOwned s) (hthreads : s'.threads = Function.update s.threads t p)
    (htimers : s'.timers = VoiceHub.stopTimer s.timers (s.hub.sfuGraceTimers.lookup u))
    (hsessions : s'.hub.sfuSessionByUser = s.hub.sfuSessionByUser)
    (hclients : s'.hub.clientsByUser = s.hub.clientsByUser)
    (hp : ∀ v sid, (s.threads t).reaps v sid = false)
    (hg : u ∈ s.hub.clientsByUser ∨
      ∀ sid ∈ s.hub.sfuSessionByUser.lookup u, s.reapedBeside t u sid = true) : Reaped s' := by
  intro v sid hs hv
  rw [hsessions] at hs
  rw [hclients] at hv
  by_cases hvu : v = u
  · subst hvu
    rcases hg with hm | hr
    · exact absurd hm hv
    · exact reaped_beside hthreads (fun x hx hne => armedFor_stopTimer htimers hx hne) (hr sid hs)
  · refine reaped_keep hthreads (fun hr => ?_)
      (fun x hx => Or.inl (armedFor_stopTimer htimers hx (ho.entry_ne hx hvu))) (h v sid hs hv)
    rw [hp] at hr
    cases hr

theorem step_reaped {s s' : State} {e : Event} (hc : Consistent s) (h : Reaped s)
    (hg : KeepsReaper s e) (he : step cfg s e = some s') : Reaped s' := by
  have ho := hc.timers
  cases step_view he with
  | quiet o => exact h
  | @move e t p o hm =>
    intro u sid hs hu
    exact reaped_keep (s := s) rfl (fun hr => Or.inl (hm.reaps hc.maps hs hr)) (fun _ hx => Or.inl hx) (h u sid hs hu)
  | sessionClosed o => exact h.spawn ho rfl rfl rfl (fun _ hv => hv)
  | resumeCommand o => exact h.spawn ho rfl rfl rfl (fun _ hv => hv)
  | changeStatus o =>
    intro u sid hs hu
    rw [Hub.changeVoiceStatus_sessions] at hs
    rw [Hub.changeVoiceStatus_clients] at hu
    exact h u sid hs hu
  | registered o =>
    exact fun u sid hs hu => h u sid hs (fun hm => hu (Finmap.mem_insert.mpr (Or.inr hm)))
  | evicted o =>
    exact h.spawn ho rfl rfl rfl (fun v hv hm => hv (Finmap.mem_insert.mpr (Or.inr hm)))
  | @unregistered e u graceful o hi =>
    intro v sid hs hv
    by_cases hvu : v = u
    · apply Or.inl
      exists ThreadID.run
      simp [State.setThread, Proc.reaps, hvu]
    · refine reaped_keep (s := s) rfl (fun hr => ?_) (fun _ hx => Or.inl hx)
        (h v sid hs (fun hm => hv (Finmap.mem_erase.mpr ⟨hvu,hm⟩)))
      have hr' : (s.threads .run).reaps v sid = true := hr
      rw [hi] at hr'
      cases hr'
  | @fire t ht hs' =>
    intro u sid hs hu
    refine reaped_keep (s := s) rfl (fun hr => ?_) (fun x hx => ?_) (h u sid hs hu)
    · rw [ho.unstarted _ le_rfl] at hr
      cases hr
    · by_cases hxt : x = t
      · subst hxt
        exact Or.inr (by simp [Proc.reaps, hx.2.1, hx.2.2])
      · refine Or.inl ⟨fire_armed.mpr ⟨hx.1,hxt⟩,?_⟩
        rw [(sameCalls_fire s t x).1,(sameCalls_fire s t x).2]
        exact hx.2
  | routerJoin o hr hf =>
    intro u sid hs hu
    refine reaped_keep (s := s) rfl (fun hr' => ?_) (fun _ hx => Or.inl hx) (h u sid hs hu)
    rw [hr] at hr'
    cases hr'
  | @leave t u k c ht hu =>
    intro v sid hs hv
    obtain ⟨hvu,hs⟩ := GoMap.lookup_of_erase hs
    refine reaped_keep (s := s) rfl (fun hr => ?_) (fun x hx => Or.inl ?_) (h v sid hs hv)
    · rw [ht] at hr
      exact absurd (by simpa [Proc.reaps] using hr) (Ne.symm hvu)
    · exact armedFor_stopTimer rfl hx (ho.entry_ne hx hvu)
  | @joinLocked t cl u c sid ht =>
    simp only [KeepsReaper, ht] at hg
    intro v sid' hs hv
    have hs' : (s.hub.sfuSessionByUser.insert u sid).lookup v = some sid' := hs
    rw [GoMap.lookup_insert_eq] at hs'
    split at hs'
    · rename_i hvu
      subst hvu
      cases hs'
      rcases hg with hm | hr
      · exact absurd hm hv
      · exact reaped_beside (s := s) rfl (fun _ hx _ => hx) hr
    · refine reaped_keep (s := s) rfl (fun hr => ?_) (fun _ hx => Or.inl hx) (h v sid' hs' hv)
      rw [ht] at hr
      cases hr
  | @armTimer t u sid ht =>
    intro v sid' hs hv
    refine reaped_keep (s := s) rfl (fun hr => Or.inr ?_) (fun x hx => Or.inl ?_) (h v sid' hs hv)
    · rw [ht] at hr
      have hvs : u = v ∧ sid = sid' := by simpa [Proc.reaps] using hr
      exact ⟨s.nextTimer,by simp [State.armedFor, State.armTimer, State.setThread, hvs.1, hvs.2]⟩
    · have hne : x ≠ s.nextTimer := (ho.unarmed x hx.1).ne
      unfold State.armedFor at hx ⊢
      simpa [State.armTimer, State.setThread, hne] using hx
  | @storeTimer t u timer ht =>
    simp only [KeepsReaper, ht] at hg
    exact h.stopTimer ho rfl rfl rfl rfl (fun v sid => by rw [ht]; rfl) hg
  | @expire t u sid timer ht =>
    intro v sid' hs hv
    refine reaped_keep (s := s) rfl (fun hr => Or.inl ?_) (fun _ hx => Or.inl hx) (h v sid' hs hv)
    rw [ht] at hr
    have hvs : u = v ∧ sid = sid' := by simpa [Proc.reaps] using hr
    obtain ⟨rfl,rfl⟩ := hvs
    have hs' : s.hub.sfuSessionByUser.lookup u = some sid := hs
    rw [if_pos hs']
    simp [Proc.reaps]
  | @cancelTimer t cl u sid ht =>
    simp only [KeepsReaper, ht] at hg
    exact h.stopTimer ho rfl rfl rfl rfl (fun v sid => by rw [ht]; rfl) hg

/-- No handler is in flight. -/
def State.Quiescent (s : State) : Prop := ∀ t, s.threads t = .idle

/-- Each user in voice has a registered connection, or a timer that will expire its session. -/
def NoGhost (s : State) : Prop :=
  ∀ u, u ∈ s.hub.userVoiceChannel → u ∈ s.hub.clientsByUser ∨
    ∃ sid t, s.hub.sfuSessionByUser.lookup u = some sid ∧ s.armedFor u sid t

/-- No run that keeps something to remove the absent ends, at rest, with a ghost. -/
theorem no_ghost_participant {es : List Event} {s : State}
    (h : RunsWhen (step cfg) KeepsReaper init es s) (hq : s.Quiescent) : NoGhost s := by
  have hr : Reaped s := by
    apply h.invariant_of (Q := Consistent) (P := Reaped) consistent_init
    · intro u sid hs
      cases hs
    · exact fun hc _ he => step_consistent hc he
    · exact step_reaped
  intro u hu
  obtain ⟨c,hc⟩ := Finmap.mem_iff.mp hu
  obtain ⟨sid,hs⟩ := (runs_consistent h).maps.session_of_channel hc
  by_cases hm : u ∈ s.hub.clientsByUser
  · exact Or.inl hm
  · rcases hr u sid hs hm with ⟨t,ht⟩ | ⟨x,hx⟩
    · rw [hq t] at ht
      cases ht
    · exact Or.inr ⟨sid,x,hs,hx⟩

/-- Goroutines never started are idle, so rest is a matter of those that were. -/
theorem quiescent_of_goroutines {guard : State → Event → Prop} {es : List Event} {s : State}
    (h : RunsWhen (step cfg) guard init es s)
    (hi : (s.goroutines.all (fun t => match s.threads t with | .idle => true | _ => false)) = true) :
    s.Quiescent := by
  intro t
  by_contra ht
  have hall := List.all_eq_true.mp hi t ((runs_consistent h).timers.mem_goroutines ht)
  revert hall ht
  cases s.threads t <;> simp

theorem no_ghost_dropped : ∃ s, Runs (step ⟨30,15⟩) init dropped s ∧
    s.hub.userVoiceChannel.lookup 1 = some 7 ∧ NoGhost s := by
  obtain ⟨s,hrun,hs⟩ := exists_runsWhen_of_exec (step ⟨30,15⟩) KeepsReaper init dropped
    (fun s => (s.hub.userVoiceChannel.lookup 1,
      s.goroutines.all (fun t => match s.threads t with | .idle => true | _ => false)))
    (some 7,true) (by decide)
  simp only [Prod.mk.injEq] at hs
  exact ⟨s,hrun.runs,hs.1,no_ghost_participant hrun (quiescent_of_goroutines hrun hs.2)⟩

/-- The join of user 1 waits in `Commands` while `Run` selects the `Unregister` of the
connection that sent it. -/
def joinedTooLate : List Event :=
  [.register 1, .send 0 (.joinVoiceChannel 7), .readError 0 false, .unregister 0, .advance .run,
   .advance .run, .command true, .advance .run, .routerJoin (some "a"), .advance .run]

theorem ghost_joined : ¬ ∀ cfg es s, Runs (step cfg) init es s → s.Quiescent → NoGhost s := by
  intro h
  obtain ⟨s,hrun,hs⟩ := exists_runs_of_exec (step ⟨30,15⟩) init joinedTooLate
    (fun s => (s.hub.userVoiceChannel.lookup 1,s.hub.clientsByUser.lookup 1,s.nextTimer,
      s.goroutines.all (fun t => match s.threads t with | .idle => true | _ => false)))
    (some 7,none,0,true) (by decide)
  simp only [Prod.mk.injEq] at hs
  obtain ⟨hvoice,hclient,hnext,hidle⟩ := hs
  rcases h _ _ _ hrun (quiescent_of_goroutines hrun hidle) 1
    (Finmap.mem_of_lookup_eq_some hvoice) with hm | ⟨sid,t,-,ht⟩
  · exact Finmap.lookup_eq_none.mp hclient hm
  · have hlt := (runs_consistent hrun).timers.unarmed t ht.1
    rw [hnext] at hlt
    exact Nat.not_lt_zero t hlt

end MiniDiscord.VoiceHub
