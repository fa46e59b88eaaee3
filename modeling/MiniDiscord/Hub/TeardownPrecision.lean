import MiniDiscord.Hub.TimerTable

/-! # Teardown precision

`OnSessionClosed`, `expireVoiceSession` and the sweep compare session IDs in one
section and leave by user ID in a later one. The teardown is precise as long as the
user is not joined again in between: a goroutine that has decided may find its user
gone, but never in another session.
-/
namespace MiniDiscord.VoiceHub
open Transition
variable {cfg : Config}

/-- The session that the caller of `leaveVoiceChannelInternal` found fit to remove. -/
def Caller.decided : Caller → Option SessionID
  | .expireVoiceSession sid _ => some sid
  | .onSessionClosed sid => some sid
  | .reconcileTick sid _ => some sid
  | _ => none

/-- The user and session for which the next section of the goroutine removes something. -/
def Proc.tearsDown : Proc → Option (UserID × SessionID)
  | .leave u k => k.decided.map (fun sid => (u,sid))
  | .routerLeave u _ k => k.decided.map (fun sid => (u,sid))
  | .orphans _ (ls :: _) => some (ls.userID,ls.sessionID)
  | _ => none

/-- What the hub keeps of a user in voice is what it kept before. -/
structure SameVoice (h h' : Hub) (u : UserID) : Prop where
  session : h'.sfuSessionByUser.lookup u = h.sfuSessionByUser.lookup u
  channel : h'.userVoiceChannel.lookup u = h.userVoiceChannel.lookup u
  status : h'.voiceStatusByUser.lookup u = h.voiceStatusByUser.lookup u
  participant : ∀ c, u ∈ h'.participants c ↔ u ∈ h.participants c

/-- Nothing but the voice state of user `u` in session `sid` was removed. -/
structure Spares (s s' : State) (u : UserID) (sid : SessionID) : Prop where
  hub : ∀ v cur, s.hub.sfuSessionByUser.lookup v = some cur → ¬ (v = u ∧ cur = sid) →
    SameVoice s.hub s'.hub v
  router : ∀ x, x ≠ sid → s'.router.lookup x = s.router.lookup x

def TeardownPrecise (cfg : Config) (s : State) : Prop :=
  ∀ t u sid s', (s.threads t).tearsDown = some (u,sid) → step cfg s (.advance t) = some s' →
    Spares s s' u sid

/-- The entries the sweep will remove when it comes to them, age permitting. -/
def Sweep.condemns (w : Sweep) : List (UserID × SessionID) :=
  (w.entries.filter (fun e => e.isStale (liveBySession w.live))).map
    (fun e => (e.userID,e.sessionID))

def Caller.condemns : Caller → List (UserID × SessionID)
  | .reconcileTick _ rest => rest.condemns
  | _ => []

/-- The pairs a goroutine has settled on, and has not yet taken out of the hub's maps. -/
def Proc.condemns : Proc → List (UserID × SessionID)
  | .leave u k => (k.decided.map (fun sid => (u,sid))).toList ++ k.condemns
  | .routerLeave _ _ k => k.condemns
  | .entries w => w.condemns
  | _ => []

/-- A join of a user commits only when no teardown of that user is still to come. -/
def CommitsAlone (s : State) : Event → Prop
  | .advance t =>
    match s.threads t with
    | .joinLocked _ u _ _ => ∀ t' ∈ s.goroutines, ∀ p ∈ (s.threads t').condemns, p.1 ≠ u
    | _ => True
  | _ => True

instance (s : State) (e : Event) : Decidable (CommitsAlone s e) :=
  match e with
  | .advance t => by
    unfold CommitsAlone
    dsimp only
    generalize s.threads t = p
    exact match p with
      | .joinLocked .. => inferInstance
      | .idle | .leave .. | .routerLeave .. | .routerJoin .. | .disconnect .. | .routerDetach ..
      | .armTimer .. | .storeTimer .. | .expire .. | .sessionClosed .. | .ownsSession ..
      | .routerResume .. | .resumeAccess .. | .cancelTimer .. | .snapshot _ | .entries _
      | .orphans .. => instDecidableTrue
  | .tick _ | .register _ | .send .. | .readError .. | .unregister _ | .command _
  | .connectionState .. | .fire _ | .liveSessions _ | .snapshot .. | .routerJoin _
  | .resumeAccess .. => instDecidableTrue

/-- Whom a goroutine has settled on is out of voice, or still in that session. -/
structure CondemnedCurrent (s : State) : Prop where
  hub : ∀ t u sid, (u,sid) ∈ (s.threads t).condemns →
    s.hub.sfuSessionByUser.lookup u = none ∨ s.hub.sfuSessionByUser.lookup u = some sid
  router : ∀ t u x k sid, s.threads t = .routerLeave u (some x) k → k.decided = some sid → x = sid

theorem Caller.returns_condemns (u : UserID) (k : Caller) :
    (k.returns u).condemns = k.condemns := by
  cases k <;> rfl

/-- A goroutine settles on a user only for the session the user has at that moment. -/
theorem LocalMove.condemns {s : State} {t : ThreadID} {p p' : Proc} {u : UserID} {sid : SessionID}
    (h : LocalMove cfg s t p p') (ha : MapsAgree s.hub) (hc : (u,sid) ∈ p'.condemns) :
    (u,sid) ∈ p.condemns ∨ s.hub.sfuSessionByUser.lookup u = some sid := by
  cases h with
  | @leaveNone t v k hv =>
    rw [Caller.returns_condemns] at hc
    exact Or.inl (List.mem_append_right _ hc)
  | @routerLeave t v x k =>
    rw [Caller.returns_condemns] at hc
    exact Or.inl hc
  | @sessionClosedCurrent t v x hv =>
    have hvx : u = v ∧ sid = x := by simpa [Proc.condemns, Caller.decided, Caller.condemns] using hc
    obtain ⟨rfl,rfl⟩ := hvx
    exact Or.inr hv
  | @snapshot t live users owners hu =>
    right
    obtain ⟨e,he,heq⟩ := List.mem_map.mp hc
    obtain ⟨v,-,c,hv,rfl⟩ := mem_voiceEntries.mp (List.mem_filter.mp he).1
    cases heq
    obtain ⟨x,hx⟩ := ha.session_of_channel hv
    simp [hubVoiceEntry, hx]
  | @entryRemoved t w e es hw hr =>
    left
    have hstale : e.isStale (liveBySession w.live) = true := (Bool.and_eq_true_iff.mp hr).2
    have hcond : w.condemns = (e.userID,e.sessionID) :: Sweep.condemns { w with entries := es } := by
      simp [Sweep.condemns, hw, hstale]
    change (u,sid) ∈ w.condemns
    rw [hcond]
    exact hc
  | @entryKept t w e es hw =>
    left
    have hsub : ∀ p ∈ Sweep.condemns { w with entries := es }, p ∈ w.condemns := by
      intro p hp
      unfold Sweep.condemns
      rw [hw,List.filter_cons]
      split
      · exact List.mem_cons_of_mem _ hp
      · exact hp
    exact hsub _ hc
  | _ => cases hc

theorem LocalMove.not_routerLeave {s : State} {t : ThreadID} {p p' : Proc}
    (h : LocalMove cfg s t p p') (u : UserID) (x : Option SessionID) (k : Caller) :
    p' ≠ .routerLeave u x k := by
  intro hp
  cases h with
  | @leaveNone t v k' hv => cases k' <;> cases hp
  | @routerLeave t v sid k' => cases k' <;> cases hp
  | _ => cases hp

/-- One goroutine goes on, and nobody is put in voice. -/
theorem CondemnedCurrent.update {s s' : State} {t : ThreadID} {p : Proc} (h : CondemnedCurrent s)
    (hthreads : s'.threads = Function.update s.threads t p)
    (hsessions : ∀ u, s'.hub.sfuSessionByUser.lookup u = none ∨
      s'.hub.sfuSessionByUser.lookup u = s.hub.sfuSessionByUser.lookup u)
    (hp : ∀ u sid, (u,sid) ∈ p.condemns → s'.hub.sfuSessionByUser.lookup u = none ∨
      s'.hub.sfuSessionByUser.lookup u = some sid)
    (hr : ∀ u x k sid, p = .routerLeave u (some x) k → k.decided = some sid → x = sid) :
    CondemnedCurrent s' := by
  constructor
  · apply forall_threads (P := fun _ p => ∀ u sid, (u,sid) ∈ p.condemns →
      s'.hub.sfuSessionByUser.lookup u = none ∨ s'.hub.sfuSessionByUser.lookup u = some sid)
      hthreads hp
    intro t' _ u sid hc
    rcases hsessions u with hu | hu
    · exact Or.inl hu
    · rw [hu]
      exact h.hub t' u sid hc
  · exact forall_threads (P := fun _ p => ∀ u x k sid, p = .routerLeave u (some x) k →
      k.decided = some sid → x = sid) hthreads hr (fun t' _ => h.router t')

/-- A goroutine that has settled on nobody goes on, and nobody is put in voice. -/
theorem CondemnedCurrent.other {s s' : State} {t : ThreadID} {p : Proc} (h : CondemnedCurrent s)
    (hthreads : s'.threads = Function.update s.threads t p)
    (hsessions : s'.hub.sfuSessionByUser = s.hub.sfuSessionByUser)
    (hp : p.condemns = [] := by rfl) (hr : ∀ u x k, p ≠ .routerLeave u x k := by simp) :
    CondemnedCurrent s' := by
  apply h.update hthreads
  · intro u
    rw [hsessions]
    exact Or.inr rfl
  · intro u sid hc
    rw [hp] at hc
    cases hc
  · intro u x k sid hk
    exact absurd hk (hr u (some x) k)

theorem step_condemnedCurrent {s s' : State} {e : Event} (hcons : Consistent s)
    (h : CondemnedCurrent s) (hg : CommitsAlone s e) (he : step cfg s e = some s') :
    CondemnedCurrent s' := by
  cases step_view he with
  | quiet o => exact ⟨h.hub,h.router⟩
  | @move e t p o hm =>
    refine h.update rfl (fun u => Or.inr rfl) ?_ ?_
    · intro u sid hc
      rcases hm.condemns hcons.maps hc with hc | hu
      · exact h.hub t u sid hc
      · exact Or.inr hu
    · intro u x k sid hk
      exact absurd hk (hm.not_routerLeave u (some x) k)
  | sessionClosed o => exact h.other rfl rfl
  | resumeCommand o => exact h.other rfl rfl
  | changeStatus o =>
    refine ⟨fun t u sid hc => ?_,h.router⟩
    rw [Hub.changeVoiceStatus_sessions]
    exact h.hub t u sid hc
  | registered o => exact ⟨h.hub,h.router⟩
  | evicted o => exact h.other rfl rfl
  | unregistered o hi => exact h.other rfl rfl
  | fire ht hs => exact h.other rfl rfl
  | routerJoin o hr hf => exact h.other rfl rfl
  | @leave t u k c ht hu =>
    have hsessions : ∀ v, (s.hub.leaveLocked u c).sfuSessionByUser.lookup v = none ∨
        (s.hub.leaveLocked u c).sfuSessionByUser.lookup v = s.hub.sfuSessionByUser.lookup v := by
      intro v
      by_cases hv : v = u
      · subst hv
        simp [Hub.leaveLocked]
      · simp [Hub.leaveLocked, hv]
    apply h.update rfl hsessions
    · intro v sid hc
      have hc' : (v,sid) ∈ (s.threads t).condemns := by
        rw [ht]
        exact List.mem_append_right _ hc
      rcases hsessions v with hv | hv
      · exact Or.inl hv
      · exact (h.hub t v sid hc').imp hv.trans hv.trans
    · intro v x k' sid hk hd
      simp only [Proc.routerLeave.injEq] at hk
      obtain ⟨rfl,hx,rfl⟩ := hk
      have hc : (u,sid) ∈ (s.threads t).condemns := by
        rw [ht]
        simp [Proc.condemns, hd]
      rcases h.hub t u sid hc with hn | hs
      · rw [hn] at hx
        cases hx
      · rw [hs] at hx
        exact (Option.some.inj hx).symm
  | @joinLocked t cl u c sid ht =>
    simp only [CommitsAlone, ht] at hg
    -- nobody has settled on `u`, so the sessions of the condemned are as before
    have hne : ∀ t' v x, (v,x) ∈ (s.threads t').condemns → v ≠ u := by
      intro t' v x hc
      refine hg t' (hcons.timers.mem_goroutines ?_) (v,x) hc
      intro hi
      rw [hi] at hc
      cases hc
    constructor
    · apply forall_threads (P := fun _ p => ∀ v x, (v,x) ∈ p.condemns →
        (s.joinLocked t cl u c sid).hub.sfuSessionByUser.lookup v = none ∨
          (s.joinLocked t cl u c sid).hub.sfuSessionByUser.lookup v = some x) rfl
      · intro v x hc
        cases hc
      · intro t' _ v x hc
        have hv : (s.joinLocked t cl u c sid).hub.sfuSessionByUser.lookup v =
            s.hub.sfuSessionByUser.lookup v := (Hub.joinLocked_other c sid s.now (hne t' v x hc)).2
        rw [hv]
        exact h.hub t' v x hc
    · exact forall_threads (P := fun _ p => ∀ v x k sid', p = .routerLeave v (some x) k →
        k.decided = some sid' → x = sid') rfl (fun _ _ _ _ hk => by cases hk) (fun t' _ => h.router t')
  | armTimer ht => exact h.other rfl rfl
  | storeTimer ht => exact h.other rfl rfl
  | @expire t u sid timer ht =>
    refine h.update rfl (fun u => Or.inr rfl) ?_ ?_
    · intro v x hc
      right
      split at hc
      · rename_i hs
        have hvx : v = u ∧ x = sid := by simpa [Proc.condemns, Caller.decided, Caller.condemns] using hc
        obtain ⟨rfl,rfl⟩ := hvx
        exact hs
      · cases hc
    · intro v x k sid' hk
      split at hk <;> cases hk
  | cancelTimer ht => exact h.other rfl rfl

theorem Hub.leaveLocked_sameVoice {h : Hub} {u v : UserID} (c : ChannelID) (hv : v ≠ u) :
    SameVoice h (h.leaveLocked u c) v where
  session := by simp [Hub.leaveLocked, hv]
  channel := by simp [Hub.leaveLocked, hv]
  status := by simp [Hub.leaveLocked, hv]
  participant c' := by simp [hv]

theorem SameVoice.refl (h : Hub) (u : UserID) : SameVoice h h u :=
  ⟨rfl,rfl,rfl,fun _ => Iff.rfl⟩

/-- A teardown of users who are gone or still in the session decided on is precise. -/
theorem CondemnedCurrent.precise {s : State} (h : CondemnedCurrent s) : TeardownPrecise cfg s := by
  intro t u sid s' ht he
  cases hp : s.threads t with
  | leave v k =>
    rw [hp] at ht
    obtain ⟨sid',hk,heq⟩ := Option.map_eq_some_iff.mp ht
    cases heq
    have hc : (u,sid) ∈ (s.threads t).condemns := by
      rw [hp]
      simp [Proc.condemns, hk]
    have hs' : s' = s.leave t u k := by simpa [step, State.advance, hp] using he.symm
    subst hs'
    unfold State.leave
    split
    · exact ⟨fun v _ _ _ => SameVoice.refl _ v,fun _ _ => rfl⟩
    · refine ⟨fun v cur hv hne => ?_,fun _ _ => rfl⟩
      apply Hub.leaveLocked_sameVoice
      rintro rfl
      rcases h.hub t v sid hc with hn | hs
      · rw [hn] at hv
        cases hv
      · rw [hs] at hv
        exact hne ⟨rfl,(Option.some.inj hv).symm⟩
  | routerLeave v x k =>
    rw [hp] at ht
    obtain ⟨sid',hk,heq⟩ := Option.map_eq_some_iff.mp ht
    cases heq
    have hs' : s' = s.routerLeave t u x k := by simpa [step, State.advance, hp] using he.symm
    subst hs'
    refine ⟨fun v _ _ _ => SameVoice.refl _ v,fun y hy => ?_⟩
    cases x with
    | none => rfl
    | some x =>
      have hx := h.router t u x k sid hp hk
      exact (GoMap.lookup_erase_eq _ _ _).trans (if_neg (hx ▸ hy))
  | orphans current live =>
    rw [hp] at ht
    cases live with
    | nil => cases ht
    | cons ls rest =>
      cases ht
      have hs' : s' = s.orphan t cfg.reconcileInterval current ls rest := by
        simpa [step, State.advance, hp] using he.symm
      subst hs'
      refine ⟨fun v _ _ _ => SameVoice.refl _ v,fun y hy => ?_⟩
      simp only [State.orphan, State.setThread]
      split
      · exact (GoMap.lookup_erase_eq _ _ _).trans (if_neg hy)
      · rfl
  | _ =>
    rw [hp] at ht
    cases ht

/-- Every teardown of a run is precise, if joins commit only for users on whom no
goroutine has settled. -/
theorem teardown_precise {es : List Event} {s : State}
    (h : RunsWhen (step cfg) CommitsAlone init es s) : TeardownPrecise cfg s := by
  apply CondemnedCurrent.precise
  apply h.invariant_of (Q := Consistent) (P := CondemnedCurrent) consistent_init
  · constructor
    · intro t u sid hc
      cases hc
    · intro t u x k sid hk
      cases hk
  · exact fun hc _ he => step_consistent hc he
  · exact step_condemnedCurrent

/-- The grace timer of user 1 expires, and its goroutine is about to leave. -/
def expiredTimer : List Event :=
  [.register 1, .send 0 (.joinVoiceChannel 7), .command true, .advance .run,
   .routerJoin (some "a"), .advance .run, .readError 0 false, .unregister 0, .advance .run,
   .advance .run, .advance .run, .advance .run, .tick 30, .fire 0, .advance (.go 0)]

theorem teardown_precise_expired : ∃ s, Runs (step ⟨30,15⟩) init expiredTimer s ∧
    (s.threads (.go 0)).tearsDown = some (1,"a") ∧ TeardownPrecise ⟨30,15⟩ s := by
  obtain ⟨s,hrun,hs⟩ := exists_runsWhen_of_exec (step ⟨30,15⟩) CommitsAlone init expiredTimer
    (fun s => (s.threads (.go 0)).tearsDown) (some (1,"a")) (by decide)
  exact ⟨s,hrun.runs,hs,teardown_precise hrun⟩

/-- The media of session "a" fails, and user 1 joins anew between the two sections of
`OnSessionClosed`. -/
def rejoined : List Event :=
  [.register 1, .send 0 (.joinVoiceChannel 7), .command true, .advance .run,
   .routerJoin (some "a"), .advance .run, .connectionState "a" .failed, .advance (.go 0),
   .send 0 (.joinVoiceChannel 7), .command true, .advance .run, .advance .run,
   .routerJoin (some "b"), .advance .run]

theorem newer_session_removed :
    ¬ ∀ cfg es s, Runs (step cfg) init es s → TeardownPrecise cfg s := by
  intro h
  obtain ⟨s,hrun,hs⟩ := exists_runs_of_exec (step ⟨30,15⟩) init rejoined
    (fun s => (s.hub.sfuSessionByUser.lookup 1,(s.threads (.go 0)).tearsDown,
      (step ⟨30,15⟩ s (.advance (.go 0))).map (fun s => s.hub.sfuSessionByUser.lookup 1)))
    (some "b",some (1,"a"),some none) (by decide)
  simp only [Prod.mk.injEq] at hs
  obtain ⟨hcur,ht,he⟩ := hs
  obtain ⟨s',hs',hnone⟩ := Option.map_eq_some_iff.mp he
  have hspared := ((h _ _ _ hrun _ _ _ _ ht hs').hub 1 "b" hcur (by decide)).session
  rw [hnone,hcur] at hspared
  cases hspared

end MiniDiscord.VoiceHub
