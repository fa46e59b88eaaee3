import MiniDiscord.Hub.JoinedOnce

/-! # A resume is final

A resume keeps the session ID, so the session checks of `handleVoiceDisconnect` and
`expireVoiceSession` cannot tell a call begun for the connection before from one that
is due. What keeps a resumed session safe is that no such call is left when the
resume stops the recorded timer.
-/
namespace MiniDiscord.VoiceHub
open Transition
variable {cfg : Config}

/-- `handleVoiceDisconnect`, or the expiry of a timer it armed. -/
def Caller.isAbsence : Caller → Bool
  | .handleVoiceDisconnect => true
  | .expireVoiceSession _ timer => timer.isSome
  | _ => false

/-- The sections of `handleVoiceDisconnect` for `u`, and of the expiry of its timer. -/
def Proc.isAbsence (u : UserID) : Proc → Bool
  | .disconnect v _ => decide (v = u)
  | .routerDetach v _ => decide (v = u)
  | .armTimer v _ => decide (v = u)
  | .storeTimer v _ => decide (v = u)
  | .expire v _ timer => decide (v = u) && timer.isSome
  | .leave v k => decide (v = u) && k.isAbsence
  | .routerLeave v _ k => decide (v = u) && k.isAbsence
  | _ => false

/-- While the connection that resumed stays registered, every such section was begun
for an earlier one: it neither detaches nor removes the session. At any later time, a
timer armed before the resume expires without removing the entry of a newer one. -/
structure ResumeFinal (cfg : Config) (s : State) : Prop where
  session : ∀ t u m s', s.resumed.lookup u = some m → m.connected = true →
    (s.threads t).isAbsence u = true → step cfg s (.advance t) = some s' →
      s'.router.lookup m.sessionID = s.router.lookup m.sessionID ∧
        (s.hub.sfuSessionByUser.lookup u = some m.sessionID →
          s'.hub.sfuSessionByUser.lookup u = some m.sessionID)
  entry : ∀ t u m sid x y s', s.resumed.lookup u = some m → s.threads t = .expire u sid (some x) →
    x < m.timers → step cfg s (.advance t) = some s' →
      s.hub.sfuGraceTimers.lookup u = some y → x < y → s'.hub.sfuGraceTimers.lookup u = some y

/-- The sections of `handleVoiceDisconnect` and of an expiry that would get at session
`sid` of `u`: `disconnect` and `leave` take whatever session the hub has for the user. -/
def Proc.reaches (h : Hub) (u : UserID) (sid : SessionID) : Proc → Bool
  | .disconnect v _ => decide (v = u) && decide (h.sfuSessionByUser.lookup u = some sid)
  | .leave v k =>
    decide (v = u) && k.isAbsence && decide (h.sfuSessionByUser.lookup u = some sid)
  | .routerDetach v sid' => decide (v = u) && decide (sid' = sid)
  | .armTimer v sid' => decide (v = u) && decide (sid' = sid)
  | .expire v sid' timer => decide (v = u) && decide (sid' = sid) && timer.isSome
  | .routerLeave v sid' k => decide (v = u) && decide (sid' = some sid) && k.isAbsence
  | _ => false

/-- The expiry of a timer of `u`, whatever its session: it drops the entry of the user. -/
def Proc.expires (u : UserID) : Proc → Bool
  | .expire v _ timer => decide (v = u) && timer.isSome
  | _ => false

/-- The registered connection of a user resumes a session only when no section that
would get at it is left, and no timer of the user is due or armed but the recorded one. -/
def ResumesAlone (s : State) : Event → Prop
  | .advance t =>
    match s.threads t with
    | .cancelTimer cl u sid => s.hub.clientsByUser.lookup u = some cl →
        (∀ t' ∈ s.goroutines, (s.threads t').reaches s.hub u sid = false ∧
          (s.threads t').expires u = false) ∧
        ∀ x ∈ List.range s.nextTimer, (s.timers x).status = .armed → (s.timers x).userID = u →
          s.hub.sfuGraceTimers.lookup u = some x
    | _ => True
  | _ => True

instance (s : State) (e : Event) : Decidable (ResumesAlone s e) :=
  match e with
  | .advance t => by
    unfold ResumesAlone
    dsimp only
    generalize s.threads t = p
    exact match p with
      | .cancelTimer .. => inferInstance
      | .idle | .leave .. | .routerLeave .. | .routerJoin .. | .joinLocked .. | .disconnect ..
      | .routerDetach .. | .armTimer .. | .storeTimer .. | .expire .. | .sessionClosed ..
      | .ownsSession .. | .routerResume .. | .resumeAccess .. | .snapshot _ | .entries _
      | .orphans .. => instDecidableTrue
  | .tick _ | .register _ | .send .. | .readError .. | .unregister _ | .command _
  | .connectionState .. | .fire _ | .liveSessions _ | .snapshot .. | .routerJoin _
  | .resumeAccess .. => instDecidableTrue

/-- The session of a resumed user who is still connected is out of the reach of what
was begun before, and what was armed before the resume is gone for good. -/
structure Attended (s : State) : Prop where
  bound : ∀ u m, s.resumed.lookup u = some m → m.timers ≤ s.nextTimer
  joined : ∀ u m, s.resumed.lookup u = some m → s.Joined m.sessionID
  unreached : ∀ t u m, s.resumed.lookup u = some m → m.connected = true →
    (s.threads t).reaches s.hub u m.sessionID = false
  armed : ∀ u m x, s.resumed.lookup u = some m →
    m.connected = true ∧ (s.timers x).sessionID = m.sessionID ∨ x < m.timers →
      (s.timers x).status = .armed → (s.timers x).userID ≠ u
  expired : ∀ t u m sid x, s.resumed.lookup u = some m → x < m.timers →
    s.threads t ≠ .expire u sid (some x)

theorem Caller.returns_reaches (h : Hub) (u v : UserID) (sid : SessionID) (k : Caller) :
    (k.returns u).reaches h v sid = false := by
  cases k <;> rfl

/-- A section reaches no more than before when nobody got a session. -/
theorem Proc.reaches_mono {h h' : Hub} {u : UserID} {sid : SessionID} {p : Proc}
    (hs : h'.sfuSessionByUser.lookup u = some sid → h.sfuSessionByUser.lookup u = some sid)
    (hp : p.reaches h' u sid = true) : p.reaches h u sid = true := by
  cases p with
  | disconnect v graceful =>
    simp only [Proc.reaches, Bool.and_eq_true, decide_eq_true_eq] at hp ⊢
    exact ⟨hp.1,hs hp.2⟩
  | leave v k =>
    simp only [Proc.reaches, Bool.and_eq_true, decide_eq_true_eq] at hp ⊢
    exact ⟨hp.1,hs hp.2⟩
  | _ => exact hp

theorem LocalMove.reaches {s : State} {t : ThreadID} {p p' : Proc} {u : UserID} {sid : SessionID}
    (h : LocalMove cfg s t p p') (hp : p'.reaches s.hub u sid = true) :
    p.reaches s.hub u sid = true := by
  cases h with
  | @leaveNone t v k hv =>
    rw [Caller.returns_reaches] at hp
    cases hp
  | @routerLeave t v sid' k =>
    rw [Caller.returns_reaches] at hp
    cases hp
  | disconnectLeave => simpa [Proc.reaches, Caller.isAbsence] using hp
  | disconnectDetach hs =>
    simp only [Proc.reaches, Bool.and_eq_true, decide_eq_true_eq] at hp ⊢
    obtain ⟨rfl,rfl⟩ := hp
    exact ⟨rfl,hs⟩
  | routerDetach => exact hp
  | _ => simp [Proc.reaches, Caller.isAbsence] at hp

theorem LocalMove.not_expire {s : State} {t : ThreadID} {p p' : Proc} (h : LocalMove cfg s t p p')
    (u : UserID) (sid : SessionID) (x : TimerID) : p' ≠ .expire u sid (some x) := by
  intro hp
  cases h with
  | @leaveNone t v k hv => cases k <;> cases hp
  | @routerLeave t v sid' k => cases k <;> cases hp
  | _ => cases hp

theorem lookup_disconnectResumed {r : GoMap UserID Resumption} {u v : UserID} {m' : Resumption}
    (h : (disconnectResumed r u).lookup v = some m') : ∃ m, r.lookup v = some m ∧
      m'.sessionID = m.sessionID ∧ m'.timers = m.timers ∧
        (m'.connected = true → m.connected = true ∧ v ≠ u) := by
  unfold disconnectResumed at h
  cases hu : r.lookup u with
  | none =>
    rw [hu] at h
    refine ⟨m',h,rfl,rfl,fun hc => ⟨hc,?_⟩⟩
    rintro rfl
    rw [hu] at h
    cases h
  | some m =>
    rw [hu] at h
    dsimp only at h
    rw [GoMap.lookup_insert_eq] at h
    split at h
    · rename_i hv
      subst hv
      cases h
      exact ⟨m,hu,rfl,rfl,fun hc => by cases hc⟩
    · exact ⟨m',h,rfl,rfl,fun hc => ⟨hc,‹_›⟩⟩

/-- One goroutine goes on, and no resume is acknowledged. -/
theorem Attended.update {s s' : State} {t : ThreadID} {p : Proc} (h : Attended s)
    (hthreads : s'.threads = Function.update s.threads t p)
    (hjoined : ∀ sid, s.Joined sid → s'.Joined sid) (hnext : s.nextTimer ≤ s'.nextTimer)
    (hresumed : ∀ u m', s'.resumed.lookup u = some m' → ∃ m, s.resumed.lookup u = some m ∧
      m'.sessionID = m.sessionID ∧ m'.timers = m.timers ∧ (m'.connected = true →
        m.connected = true ∧ p.reaches s'.hub u m.sessionID = false))
    (hmapped : ∀ u m, s.resumed.lookup u = some m →
      s'.hub.sfuSessionByUser.lookup u = some m.sessionID →
      s.hub.sfuSessionByUser.lookup u = some m.sessionID)
    (harmed : ∀ u m x, s.resumed.lookup u = some m →
      m.connected = true ∧ (s'.timers x).sessionID = m.sessionID ∨ x < m.timers →
        (s'.timers x).status = .armed → (s'.timers x).userID ≠ u)
    (hexpired : ∀ u m sid x, s.resumed.lookup u = some m → x < m.timers →
      p ≠ .expire u sid (some x)) : Attended s' := by
  constructor
  · intro u m' hm'
    obtain ⟨m,hm,-,htimers,-⟩ := hresumed u m' hm'
    rw [htimers]
    exact (h.bound u m hm).trans hnext
  · intro u m' hm'
    obtain ⟨m,hm,hsid,-,-⟩ := hresumed u m' hm'
    rw [hsid]
    exact hjoined _ (h.joined u m hm)
  · intro t' u m' hm' hc
    obtain ⟨m,hm,hsid,-,hconn⟩ := hresumed u m' hm'
    obtain ⟨hc,hp⟩ := hconn hc
    rw [hsid]
    apply forall_threads (P := fun _ p => p.reaches s'.hub u m.sessionID = false) hthreads hp
    intro t' _
    rw [← Bool.not_eq_true]
    intro hr
    have hold := Proc.reaches_mono (hmapped u m hm) hr
    rw [h.unreached t' u m hm hc] at hold
    cases hold
  · intro u m' x hm' hx
    obtain ⟨m,hm,hsid,htimers,hconn⟩ := hresumed u m' hm'
    rw [hsid,htimers] at hx
    exact harmed u m x hm (hx.imp_left (fun hc => ⟨(hconn hc.1).1,hc.2⟩))
  · intro t' u m' sid x hm' hx
    obtain ⟨m,hm,-,htimers,-⟩ := hresumed u m' hm'
    rw [htimers] at hx
    exact forall_threads (P := fun _ p => p ≠ .expire u sid (some x)) hthreads
      (hexpired u m sid x hm hx) (fun t' _ => h.expired t' u m sid x hm hx) t'

/-- A goroutine goes on that reaches no resumed session it did not reach before. -/
theorem Attended.other {s s' : State} {t : ThreadID} {p : Proc} (h : Attended s)
    (hthreads : s'.threads = Function.update s.threads t p)
    (hjoined : ∀ sid, s.Joined sid → s'.Joined sid)
    (hmapped : ∀ u m, s.resumed.lookup u = some m →
      s'.hub.sfuSessionByUser.lookup u = some m.sessionID →
      s.hub.sfuSessionByUser.lookup u = some m.sessionID)
    (htimers : ∀ x, (s'.timers x).status = .armed → (s.timers x).status = .armed)
    (hcalls : SameCalls s.timers s'.timers)
    (hp : ∀ u m, s.resumed.lookup u = some m → p.reaches s'.hub u m.sessionID = true →
      (s.threads t).reaches s.hub u m.sessionID = true)
    (hexpired : ∀ u sid x, p ≠ .expire u sid (some x))
    (hresumed : s'.resumed = s.resumed := by rfl) (hnext : s'.nextTimer = s.nextTimer := by rfl) :
    Attended s' := by
  apply h.update hthreads hjoined hnext.ge _ hmapped
  · intro u m x hm hx ha
    rw [(hcalls x).2] at hx
    rw [(hcalls x).1]
    exact h.armed u m x hm hx (htimers x ha)
  · exact fun u m sid x _ _ => hexpired u sid x
  · intro u m hm
    rw [hresumed] at hm
    refine ⟨m,hm,rfl,rfl,fun hc => ⟨hc,?_⟩⟩
    rw [← Bool.not_eq_true]
    intro hr
    have hold := hp u m hm hr
    rw [h.unreached t u m hm hc] at hold
    cases hold

/-- The registered connection of `u` is another one, or none, and `u` has resumed nothing
as far as that one goes. -/
theorem Attended.gone {s s' : State} {t : ThreadID} {p : Proc} {u : UserID} (h : Attended s)
    (hthreads : s'.threads = Function.update s.threads t p)
    (hjoined : ∀ sid, s.Joined sid → s'.Joined sid) (hnext : s'.nextTimer = s.nextTimer)
    (hresumed : s'.resumed = disconnectResumed s.resumed u)
    (hmapped : s'.hub.sfuSessionByUser = s.hub.sfuSessionByUser) (htimers : s'.timers = s.timers)
    (hp : ∀ v m, s.resumed.lookup v = some m → m.connected = true → v ≠ u →
      p.reaches s'.hub v m.sessionID = false)
    (hexpired : ∀ v m sid x, s.resumed.lookup v = some m → x < m.timers →
      p ≠ .expire v sid (some x)) : Attended s' := by
  apply h.update hthreads hjoined hnext.ge
  · intro v m' hm'
    rw [hresumed] at hm'
    obtain ⟨m,hm,hsid,ht,hconn⟩ := lookup_disconnectResumed hm'
    exact ⟨m,hm,hsid,ht,fun hc => ⟨(hconn hc).1,hp v m hm (hconn hc).1 (hconn hc).2⟩⟩
  · intro v m _ hv
    rwa [hmapped] at hv
  · rw [htimers]
    exact h.armed
  · exact hexpired

/-- A resume of the registered connection, with nothing left that would get at it. -/
theorem Attended.resumed {s : State} {t : ThreadID} {cl : ClientID} {u : UserID} {sid : SessionID}
    (h : Attended s) (ho : TimersOwned s) (hj : s.Joined sid)
    (hjoined : ∀ sid', s.Joined sid' → (s.cancelTimer t cl u sid).Joined sid')
    (hcl : s.hub.clientsByUser.lookup u = some cl)
    (hidle : ∀ t' ∈ s.goroutines,
      (s.threads t').reaches s.hub u sid = false ∧ (s.threads t').expires u = false)
    (honly : ∀ x ∈ List.range s.nextTimer, (s.timers x).status = .armed → (s.timers x).userID = u →
      s.hub.sfuGraceTimers.lookup u = some x) : Attended (s.cancelTimer t cl u sid) := by
  have hthreads : (s.cancelTimer t cl u sid).threads = Function.update s.threads t .idle := rfl
  have hresumed : (s.cancelTimer t cl u sid).resumed = s.resumed.insert u ⟨sid,s.nextTimer,true⟩ :=
    if_pos hcl
  have hlookup : ∀ v m, (s.cancelTimer t cl u sid).resumed.lookup v = some m →
      (v = u ∧ m = ⟨sid,s.nextTimer,true⟩) ∨ (v ≠ u ∧ s.resumed.lookup v = some m) := by
    intro v m hm
    rw [hresumed,GoMap.lookup_insert_eq] at hm
    split at hm
    · exact Or.inl ⟨‹_›,(Option.some.inj hm).symm⟩
    · exact Or.inr ⟨‹_›,hm⟩
  have hnone : ∀ t', (s.threads t').reaches s.hub u sid = false ∧ (s.threads t').expires u = false := by
    intro t'
    by_cases hi : s.threads t' = .idle
    · rw [hi]
      exact ⟨rfl,rfl⟩
    · exact hidle t' (ho.mem_goroutines hi)
  constructor
  · intro v m hm
    rcases hlookup v m hm with ⟨-,rfl⟩ | ⟨-,hm⟩
    · exact le_rfl
    · exact h.bound v m hm
  · intro v m hm
    rcases hlookup v m hm with ⟨-,rfl⟩ | ⟨-,hm⟩
    · exact hjoined sid hj
    · exact hjoined _ (h.joined v m hm)
  · intro t' v m hm hc
    apply forall_threads (P := fun _ p => p.reaches s.hub v m.sessionID = false) hthreads rfl
    intro t' _
    rcases hlookup v m hm with ⟨rfl,rfl⟩ | ⟨-,hm⟩
    · exact (hnone t').1
    · exact h.unreached t' v m hm hc
  · intro v m x hm hx ha
    obtain ⟨harmed,hne⟩ := stopTimer_armed.mp ha
    obtain ⟨huser,hsession⟩ := sameCalls_stopTimer s.timers (s.hub.sfuGraceTimers.lookup u) x
    have hcall : ((s.cancelTimer t cl u sid).timers x).userID = (s.timers x).userID := huser
    have hcall' : ((s.cancelTimer t cl u sid).timers x).sessionID = (s.timers x).sessionID := hsession
    rw [hcall]
    rw [hcall'] at hx
    rcases hlookup v m hm with ⟨rfl,-⟩ | ⟨-,hm⟩
    · exact fun hu => hne (honly x (List.mem_range.mpr (ho.unarmed x harmed)) harmed hu)
    · exact h.armed v m x hm hx harmed
  · intro t' v m sid' x hm hx
    apply forall_threads (P := fun _ p => p ≠ .expire v sid' (some x)) hthreads (by simp)
    intro t' _ hp
    rcases hlookup v m hm with ⟨rfl,-⟩ | ⟨-,hm⟩
    · have hf := (hnone t').2
      rw [hp] at hf
      simp [Proc.expires] at hf
    · exact h.expired t' v m sid' x hm hx hp

/-- A timer goes off that was armed: it is not for a session its user has resumed while
still connected, nor was it armed before a resume of its user. -/
theorem Attended.fire {s : State} {x : TimerID} (h : Attended s) (hx : (s.timers x).status = .armed)
    (hjoined : ∀ sid, s.Joined sid → (s.fire x).Joined sid) : Attended (s.fire x) := by
  apply h.update rfl hjoined le_rfl
  · intro u m hm
    refine ⟨m,hm,rfl,rfl,fun hc => ⟨hc,?_⟩⟩
    rw [← Bool.not_eq_true]
    intro hr
    simp only [Proc.reaches, Option.isSome_some, Bool.and_true, Bool.and_eq_true,
      decide_eq_true_eq] at hr
    exact h.armed u m x hm (Or.inl ⟨hc,hr.2⟩) hx hr.1
  · exact fun _ _ _ hu => hu
  · intro u m y hm hy ha
    obtain ⟨ha,-⟩ := fire_armed.mp ha
    rw [(sameCalls_fire s x y).2] at hy
    rw [(sameCalls_fire s x y).1]
    exact h.armed u m y hm hy ha
  · intro u m sid y hm hy hp
    cases hp
    exact h.armed _ m x hm (Or.inr hy) hx rfl

/-- A timer is armed, and not for a session its user has resumed while still connected. -/
theorem Attended.armTimer {s : State} {t : ThreadID} {u : UserID} {sid : SessionID} (h : Attended s)
    (ht : s.threads t = .armTimer u sid)
    (hjoined : ∀ sid', s.Joined sid' → (s.armTimer cfg t u sid).Joined sid') :
    Attended (s.armTimer cfg t u sid) := by
  apply h.update rfl hjoined (Nat.le_succ _)
  · exact fun v m hm => ⟨m,hm,rfl,rfl,fun hc => ⟨hc,rfl⟩⟩
  · exact fun _ _ _ hv => hv
  · intro v m x hm hx ha
    by_cases hxn : x = s.nextTimer
    · subst hxn
      have hnew : (s.armTimer cfg t u sid).timers s.nextTimer =
          ⟨u,sid,s.now + cfg.sessionGracePeriod,.armed⟩ := Function.update_self _ _ _
      rw [hnew] at hx ⊢
      rintro rfl
      rcases hx with ⟨hc,hsid⟩ | hlt
      · have hsid' : sid = m.sessionID := hsid
        have hf := h.unreached t u m hm hc
        simp [ht, Proc.reaches, hsid'] at hf
      · have hle : m.timers ≤ s.nextTimer := h.bound u m hm
        exact absurd (hlt.trans_le hle) (lt_irrefl _)
    · have hold : (s.armTimer cfg t u sid).timers x = s.timers x := Function.update_of_ne hxn _ _
      rw [hold] at hx ha ⊢
      exact h.armed v m x hm hx ha
  · intro v m sid' x _ _ hp
    cases hp

theorem step_attended {s s' : State} {e : Event} (ho : TimersOwned s) (hj : JoinedOnce s)
    (h : Attended s) (hg : ResumesAlone s e) (he : step cfg s e = some s') : Attended s' := by
  have hjoined : ∀ sid, s.Joined sid → s'.Joined sid := fun sid hs => step_joined hs he
  cases step_view he with
  | quiet o => exact ⟨h.bound,fun u m hm => hjoined _ (h.joined u m hm),h.unreached,h.armed,h.expired⟩
  | @move e t p o hm =>
    exact h.other rfl hjoined (fun _ _ _ hu => hu) (fun _ hx => hx) (SameCalls.refl _)
      (fun _ _ _ hr => hm.reaches hr) hm.not_expire
  | sessionClosed o =>
    exact h.other rfl hjoined (fun _ _ _ hu => hu) (fun _ hx => hx) (SameCalls.refl _)
      (fun _ _ _ hr => by cases hr) (fun _ _ _ => by simp)
  | resumeCommand o =>
    exact h.other rfl hjoined (fun _ _ _ hu => hu) (fun _ hx => hx) (SameCalls.refl _)
      (fun _ _ _ hr => by cases hr) (fun _ _ _ => by simp)
  | @changeStatus e u st o =>
    refine ⟨h.bound,fun u m hm => hjoined _ (h.joined u m hm),fun t v m hm hc => ?_,h.armed,h.expired⟩
    rw [← Bool.not_eq_true]
    intro hr
    have hold : (s.threads t).reaches s.hub v m.sessionID = true := by
      refine Proc.reaches_mono (fun hv => ?_) hr
      rwa [Hub.changeVoiceStatus_sessions] at hv
    rw [h.unreached t v m hm hc] at hold
    cases hold
  | @registered e u cl o =>
    exact h.gone (t := .run) (Function.update_eq_self _ _).symm hjoined rfl rfl rfl rfl
      (fun v m hm hc _ => h.unreached .run v m hm hc) (h.expired .run)
  | @evicted e u cl o =>
    exact h.gone rfl hjoined rfl rfl rfl rfl (fun v m hm hc hv => by simp [Proc.reaches, hv.symm])
      (fun _ _ _ _ _ _ => by simp)
  | @unregistered e u graceful o hi =>
    exact h.gone rfl hjoined rfl rfl rfl rfl (fun v m hm hc hv => by simp [Proc.reaches, hv.symm])
      (fun _ _ _ _ _ _ => by simp)
  | fire hx hs => exact h.fire hs hjoined
  | routerJoin o hr hf =>
    exact h.other rfl hjoined (fun _ _ _ hu => hu) (fun _ hx => hx) (SameCalls.refl _)
      (fun _ _ _ hr => by cases hr) (fun _ _ _ => by simp)
  | @leave t u k c ht hu =>
    refine h.other rfl hjoined (fun v m _ hv => (GoMap.lookup_of_erase hv).2)
      (fun x hx => (stopTimer_armed.mp hx).1) (sameCalls_stopTimer _ _) ?_ ?_
    · intro v m _ hr
      simp only [Proc.reaches, Bool.and_eq_true, decide_eq_true_eq] at hr
      obtain ⟨⟨rfl,hsid⟩,hk⟩ := hr
      simp [ht, Proc.reaches, hk, hsid]
    · exact fun _ _ _ => by simp
  | @joinLocked t cl u c sid ht =>
    refine h.other rfl hjoined ?_ (fun _ hx => hx) (SameCalls.refl _)
      (fun _ _ _ hr => by cases hr) (fun _ _ _ => by simp)
    -- a session that was resumed had been joined, and is not joined again
    intro v m hm hv
    have hv' : (s.hub.sfuSessionByUser.insert u sid).lookup v = some m.sessionID := hv
    rw [GoMap.lookup_insert_eq] at hv'
    split at hv'
    · cases hv'
      exact absurd ht ((h.joined v m hm).committed t cl u c)
    · exact hv'
  | armTimer ht => exact h.armTimer ht hjoined
  | @storeTimer t u timer ht =>
    exact h.other rfl hjoined (fun _ _ _ hu => hu) (fun x hx => (stopTimer_armed.mp hx).1)
      (sameCalls_stopTimer _ _) (fun _ _ _ hr => by cases hr) (fun _ _ _ => by simp)
  | @expire t u sid timer ht =>
    refine h.other rfl hjoined (fun _ _ _ hu => hu) (fun _ hx => hx) (SameCalls.refl _) ?_ ?_
    · intro v m _ hr
      split at hr
      · simp only [Proc.reaches, Caller.isAbsence, Bool.and_eq_true, decide_eq_true_eq] at hr
        obtain ⟨⟨rfl,htimer⟩,hs⟩ := hr
        have hsid : some sid = some m.sessionID := Eq.trans (Eq.symm ‹_›) hs
        cases hsid
        simp [ht, Proc.reaches, htimer]
      · cases hr
    · intro v sid' x hp
      split at hp <;> cases hp
  | @cancelTimer t cl u sid ht =>
    by_cases hcl : s.hub.clientsByUser.lookup u = some cl
    · simp only [ResumesAlone, ht] at hg
      exact h.resumed ho (hj.resuming t sid (by rw [ht]; rfl)) hjoined hcl (hg hcl).1 (hg hcl).2
    · have hsame : (s.cancelTimer t cl u sid).resumed = s.resumed := if_neg hcl
      exact h.other rfl hjoined (fun _ _ _ hu => hu) (fun x hx => (stopTimer_armed.mp hx).1)
        (sameCalls_stopTimer _ _) (fun _ _ _ hr => by cases hr) (fun _ _ _ => by simp) hsame

theorem lookup_setDetached_of_ne {r : RouterTable} {sid sid' : SessionID} (h : sid' ≠ sid) (b : Bool) :
    (setDetached r sid b).lookup sid' = r.lookup sid' := by
  unfold setDetached
  split
  · rfl
  · exact Finmap.lookup_insert_of_ne _ h

/-- A section begun in the absence of the user that does not reach the session leaves it. -/
theorem advance_unreached {s s' : State} {t : ThreadID} {u : UserID} {sid : SessionID}
    (ha : (s.threads t).isAbsence u = true) (hr : (s.threads t).reaches s.hub u sid = false)
    (he : s.advance cfg t = some s') : s'.router.lookup sid = s.router.lookup sid ∧
      (s.hub.sfuSessionByUser.lookup u = some sid → s'.hub.sfuSessionByUser.lookup u = some sid) := by
  unfold State.advance at he
  cases hp : s.threads t with
  | disconnect v graceful =>
    simp only [hp] at he
    split at he <;> cases he <;> exact ⟨rfl,fun hs => hs⟩
  | routerDetach v sid' =>
    simp only [hp] at he
    cases he
    have hv : v = u := by simpa [hp, Proc.isAbsence] using ha
    have hne : sid ≠ sid' := by
      rintro rfl
      simp [hp, Proc.reaches, hv] at hr
    exact ⟨lookup_setDetached_of_ne hne true,fun hs => hs⟩
  | armTimer v sid' =>
    simp only [hp] at he
    cases he
    exact ⟨rfl,fun hs => hs⟩
  | storeTimer v x =>
    simp only [hp] at he
    cases he
    exact ⟨rfl,fun hs => hs⟩
  | expire v sid' timer =>
    simp only [hp] at he
    cases he
    exact ⟨rfl,fun hs => hs⟩
  | leave v k =>
    simp only [hp] at he
    cases he
    unfold State.leave
    split
    · exact ⟨rfl,fun hs => hs⟩
    · refine ⟨rfl,fun hs => ?_⟩
      simp only [hp, Proc.isAbsence, Bool.and_eq_true, decide_eq_true_eq] at ha
      simp [hp, Proc.reaches, ha.1, ha.2, hs] at hr
  | routerLeave v sid' k =>
    simp only [hp] at he
    cases he
    refine ⟨?_,fun hs => hs⟩
    cases sid' with
    | none => rfl
    | some sid' =>
      simp only [hp, Proc.isAbsence, Bool.and_eq_true, decide_eq_true_eq] at ha
      have hne : sid ≠ sid' := by
        rintro rfl
        simp [hp, Proc.reaches, ha.1, ha.2] at hr
      exact Finmap.lookup_erase_ne hne
  | _ => simp [hp, Proc.isAbsence] at ha

theorem Attended.final {s : State} (h : Attended s) : ResumeFinal cfg s where
  session t u m _ hm hc ha he := advance_unreached ha (h.unreached t u m hm hc) he
  entry t u m sid x _ _ hm ht hx _ _ _ := absurd ht (h.expired t u m sid x hm hx)

/-- Resumes are final in every run in which nothing is left that would undo them. -/
theorem resume_final {es : List Event} {s : State}
    (h : RunsWhen (step cfg) ResumesAlone init es s) : ResumeFinal cfg s := by
  apply Attended.final
  apply h.invariant_of (Q := fun s => Consistent s ∧ JoinedOnce s) (P := Attended)
    ⟨consistent_init,joinedOnce_init⟩
  · constructor
    · intro u m hm
      cases hm
    · intro u m hm
      cases hm
    · intro t u m hm
      cases hm
    · intro u m x hm
      cases hm
    · intro t u m sid x hm
      cases hm
  · rintro s s' e ⟨hc,hj⟩ _ he
    exact ⟨step_consistent hc he,step_joinedOnce hc.joins hj he⟩
  · rintro s s' e ⟨hc,hj⟩ h hg he
    exact step_attended hc.timers hj h hg he

/-- A second connection of user 1 evicts the first; its `handleVoiceDisconnect` runs to
its end before the new connection resumes. -/
def resumedInTime : List Event :=
  [.register 1, .send 0 (.joinVoiceChannel 7), .command true, .advance .run,
   .routerJoin (some "a"), .advance .run, .register 1, .advance (.go 0), .advance (.go 0),
   .advance (.go 0), .advance (.go 0), .send 1 (.sfuResume "a"), .command true, .advance (.go 1),
   .advance (.go 1), .resumeAccess (.go 1) true, .advance (.go 1)]

theorem resume_final_inTime : ∃ s, Runs (step ⟨30,15⟩) init resumedInTime s ∧
    s.resumed.lookup 1 = some ⟨"a",1,true⟩ ∧ ResumeFinal ⟨30,15⟩ s := by
  obtain ⟨s,hrun,hs⟩ := exists_runsWhen_of_exec (step ⟨30,15⟩) ResumesAlone init resumedInTime
    (fun s => s.resumed.lookup 1) (some ⟨"a",1,true⟩) (by decide)
  exact ⟨s,hrun.runs,hs,resume_final hrun⟩

/-- The new connection resumes while the goroutine of the evicted one has read the
session and not yet called `Detach`. -/
def resumedTooEarly : List Event :=
  [.register 1, .send 0 (.joinVoiceChannel 7), .command true, .advance .run,
   .routerJoin (some "a"), .advance .run, .register 1, .advance (.go 0),
   .send 1 (.sfuResume "a"), .command true, .advance (.go 1), .advance (.go 1),
   .resumeAccess (.go 1) true, .advance (.go 1)]

theorem resumed_then_detached :
    ¬ ∀ cfg es s, Runs (step cfg) init es s → ResumeFinal cfg s := by
  intro h
  obtain ⟨s,hrun,hs⟩ := exists_runs_of_exec (step ⟨30,15⟩) init resumedTooEarly
    (fun s => (s.resumed.lookup 1,(s.threads (.go 0)).isAbsence 1,
      (s.router.lookup "a").map Session.detached,
      (step ⟨30,15⟩ s (.advance (.go 0))).map (fun s => (s.router.lookup "a").map Session.detached)))
    (some ⟨"a",0,true⟩,true,some false,some (some true)) (by decide)
  simp only [Prod.mk.injEq] at hs
  obtain ⟨hm,ha,hbefore,he⟩ := hs
  obtain ⟨s',hs',hafter⟩ := Option.map_eq_some_iff.mp he
  have hkept := ((h _ _ _ hrun).session _ 1 _ s' hm rfl ha hs').1
  rw [hkept,hbefore] at hafter
  cases hafter

end MiniDiscord.VoiceHub
