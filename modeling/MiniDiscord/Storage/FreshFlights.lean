import MiniDiscord.Storage.SingleFlight

/-! # Whose result a caller gets

An entry stays in the map while its action runs, so no two actions of a key run at once.
It also stays from the end of the action until its removal: a caller that arrives then gets
the result of an action that had ended before.
-/
namespace MiniDiscord.Storage.SingleFlight
open Transition

variable {V E : Type} {s s' : State V E} {e : Event V E} {es fs : List (Event V E)}
  {t : CallerID} {c d : CallID} {call call' : Call V E} {caller caller' : Caller V E}
  {r : Result V E}

/-- One step of a goroutine that keeps the entry of its key. -/
inductive Advance : Event V E → CallID → Call V E → Call V E → Prop
  | run {c : CallID} {call : Call V E} : call.phase = .launched →
      Advance (.run c) c call { call with phase := .running }
  | returns {c : CallID} {call : Call V E} {value : Option V} {err : Option E} :
      call.phase = .running → Advance (.finish c (.returns value err)) c call
        { call with result := ⟨value,err.map .ofAction⟩, phase := .ended }
  | panics {c : CallID} {call : Call V E} : call.phase = .running →
      Advance (.finish c .panics) c call
        { call with
          result := { call.result with err := some (.new "error from single flight") }
          phase := .ended }
  | closeDone {c : CallID} {call : Call V E} : call.phase = .ended →
      Advance (.closeDone c) c call { call with phase := .closed }

/-- All that a step can do. -/
inductive Does (s : State V E) : Event V E → State V E → Prop
  | call {t : CallerID} {key : String} : s.callers.lookup t = none →
      Does s (.call t key) (s.setCaller t ⟨key,none,s.staleCall key,.entering⟩)
  | ctxDone {t : CallerID} {err : CtxErr} {caller : Caller V E} :
      s.callers.lookup t = some caller → caller.ctxErr = none →
      Does s (.ctxDone t err) (s.setCaller t { caller with ctxErr := some err })
  | join {t : CallerID} {caller : Caller V E} {c : CallID} :
      s.callers.lookup t = some caller → caller.position = .entering →
      s.calls.lookup caller.key = some c →
      Does s (.enter t) (s.setCaller t { caller with position := .waiting c })
  | launch {t : CallerID} {caller : Caller V E} :
      s.callers.lookup t = some caller → caller.position = .entering →
      s.calls.lookup caller.key = none →
      Does s (.enter t) ({ s with
        calls := s.calls.insert caller.key s.next
        heap := s.heap.insert s.next ⟨caller.key,⟨none,none⟩,.launched⟩
        next := s.next + 1 }.setCaller t { caller with position := .waiting s.next })
  | advance {e : Event V E} {c : CallID} {call call' : Call V E} :
      s.heap.lookup c = some call → Advance e c call call' → Does s e (s.setCall c call')
  | remove {c : CallID} {call : Call V E} : s.heap.lookup c = some call → call.phase = .closed →
      Does s (.remove c)
        ({ s with calls := s.calls.erase call.key }.setCall c { call with phase := .removed })
  | receive {t : CallerID} {caller : Caller V E} {c : CallID} {call : Call V E} :
      s.callers.lookup t = some caller → caller.position = .waiting c →
      s.heap.lookup c = some call → call.phase.isDone = true →
      Does s (.receive t) (s.setCaller t { caller with position := .received c call.result })
  | giveUp {t : CallerID} {caller : Caller V E} {c : CallID} {err : CtxErr} :
      s.callers.lookup t = some caller → caller.position = .waiting c →
      caller.ctxErr = some err →
      Does s (.giveUp t) (s.setCaller t { caller with position := .gaveUp err })

theorem does_of_step (h : step s e = some s') : Does s e s' := by
  cases e with
  | call t key =>
    simp only [step,State.call] at h
    split at h
    · cases h
    · rename_i hn
      cases h
      exact .call hn
  | ctxDone t err =>
    obtain ⟨caller,hc,h⟩ := Option.bind_eq_some_iff.mp h
    simp only [State.ctxDone] at h
    split at h
    · cases h
    · rename_i hn
      cases h
      exact .ctxDone hc hn
  | enter t =>
    obtain ⟨caller,hc,h⟩ := Option.bind_eq_some_iff.mp h
    simp only [State.enter] at h
    split at h
    · rename_i hp
      split at h
      · rename_i c hk
        cases h
        exact .join hc hp hk
      · rename_i hk
        cases h
        exact .launch hc hp hk
    · cases h
  | run c =>
    obtain ⟨call,hc,h⟩ := Option.bind_eq_some_iff.mp h
    simp only [State.run] at h
    split at h
    · rename_i hp
      cases h
      exact .advance hc (.run hp)
    · cases h
  | finish c ending =>
    obtain ⟨call,hc,h⟩ := Option.bind_eq_some_iff.mp h
    simp only [State.finish] at h
    split at h
    · rename_i hp
      split at h
      · cases h
        exact .advance hc (.returns hp)
      · cases h
        exact .advance hc (.panics hp)
    · cases h
  | closeDone c =>
    obtain ⟨call,hc,h⟩ := Option.bind_eq_some_iff.mp h
    simp only [State.closeDone] at h
    split at h
    · rename_i hp
      cases h
      exact .advance hc (.closeDone hp)
    · cases h
  | remove c =>
    obtain ⟨call,hc,h⟩ := Option.bind_eq_some_iff.mp h
    simp only [State.remove] at h
    split at h
    · rename_i hp
      cases h
      exact .remove hc hp
    · cases h
  | receive t =>
    obtain ⟨caller,hc,h⟩ := Option.bind_eq_some_iff.mp h
    simp only [State.receive] at h
    split at h
    · rename_i c hp
      split at h
      · cases h
      · rename_i call hcall
        split at h
        · rename_i hd
          cases h
          exact .receive hc hp hcall hd
        · cases h
    · cases h
  | giveUp t =>
    obtain ⟨caller,hc,h⟩ := Option.bind_eq_some_iff.mp h
    simp only [State.giveUp] at h
    split at h
    · rename_i c err hp he
      cases h
      exact .giveUp hc hp he
    · cases h

/-- A call as it may be found later. -/
structure Later (call call' : Call V E) : Prop where
  key : call'.key = call.key
  ended : call.phase.hasEnded = true → call'.phase.hasEnded = true
  done : call.phase.isDone = true → call'.phase.isDone = true ∧ call'.result = call.result

theorem Later.rfl : Later call call := ⟨Eq.refl _,id,fun h => ⟨h,Eq.refl _⟩⟩

theorem Advance.later (h : Advance e c call call') : Later call call' := by
  cases h with
  | run hp => exact ⟨rfl,fun he => by simp [hp,Phase.hasEnded] at he,
      fun hd => by simp [hp,Phase.isDone] at hd⟩
  | returns hp => exact ⟨rfl,fun _ => rfl,fun hd => by simp [hp,Phase.isDone] at hd⟩
  | panics hp => exact ⟨rfl,fun _ => rfl,fun hd => by simp [hp,Phase.isDone] at hd⟩
  | closeDone hp => exact ⟨rfl,fun _ => rfl,fun hd => by simp [hp,Phase.isDone] at hd⟩

theorem Advance.phase_ne (h : Advance e c call call') :
    call.phase ≠ .removed ∧ call'.phase ≠ .removed := by
  cases h with
  | run hp => exact ⟨by simp [hp],nofun⟩
  | returns hp => exact ⟨by simp [hp],nofun⟩
  | panics hp => exact ⟨by simp [hp],nofun⟩
  | closeDone hp => exact ⟨by simp [hp],nofun⟩

/-- The map holds the call of a key from its launch to its removal. -/
structure Listed (s : State V E) : Prop where
  entry : ∀ key c, s.calls.lookup key = some c →
    ∃ call, s.heap.lookup c = some call ∧ call.key = key ∧ call.phase ≠ .removed
  listed : ∀ c call, s.heap.lookup c = some call → call.phase ≠ .removed →
    s.calls.lookup call.key = some c
  bound : ∀ c call, s.heap.lookup c = some call → c < s.next

theorem listed_start : Listed (start : State V E) where
  entry _ _ h := by simp [start] at h
  listed _ _ h := by simp [start] at h
  bound _ _ h := by simp [start] at h

theorem Listed.bound_setCall (hl : Listed s) (hc : s.heap.lookup c = some call) {d : CallID}
    {call₀ : Call V E} (hd : (s.setCall c call').heap.lookup d = some call₀) : d < s.next := by
  simp only [State.setCall,GoMap.lookup_insert_eq] at hd
  split at hd
  · rename_i hk
    rw [hk]
    exact hl.bound c call hc
  · exact hl.bound d call₀ hd

theorem Listed.launch (hl : Listed s) {key : String} (hn : s.calls.lookup key = none) :
    Listed { s with
      calls := s.calls.insert key s.next
      heap := s.heap.insert s.next ⟨key,⟨none,none⟩,.launched⟩
      next := s.next + 1 } := by
  have hnew : ∀ d call, s.heap.lookup d = some call → d ≠ s.next :=
    fun d call hd => (hl.bound d call hd).ne
  constructor
  · intro key₀ d hd
    simp only [GoMap.lookup_insert_eq] at hd ⊢
    split at hd
    · rename_i hk
      cases hd
      exact ⟨_,if_pos rfl,hk.symm,nofun⟩
    · obtain ⟨call,hcall,hrest⟩ := hl.entry key₀ d hd
      exact ⟨call,by rwa [if_neg (hnew d call hcall)],hrest⟩
  · intro d call hd hp
    simp only [GoMap.lookup_insert_eq] at hd ⊢
    split at hd
    · rename_i hk
      cases hd
      rw [if_pos rfl,hk]
    · have hold := hl.listed d call hd hp
      have hne : call.key ≠ key := by
        intro he
        rw [he,hn] at hold
        cases hold
      rwa [if_neg hne]
  · intro d call hd
    simp only [GoMap.lookup_insert_eq] at hd
    split at hd
    · rename_i hk
      rw [hk]
      exact Nat.lt_succ_self _
    · exact Nat.lt_succ_of_lt (hl.bound d call hd)

theorem Listed.advance (hl : Listed s) (hc : s.heap.lookup c = some call)
    (ha : Advance e c call call') : Listed (s.setCall c call') := by
  constructor
  · intro key d hd
    obtain ⟨call₀,h₀,hrest⟩ := hl.entry key d hd
    simp only [State.setCall,GoMap.lookup_insert_eq]
    split
    · rename_i hk
      subst hk
      cases hc.symm.trans h₀
      exact ⟨call',rfl,ha.later.key.trans hrest.1,ha.phase_ne.2⟩
    · exact ⟨call₀,h₀,hrest⟩
  · intro d call₀ hd hp
    simp only [State.setCall,GoMap.lookup_insert_eq] at hd ⊢
    split at hd
    · rename_i hk
      subst hk
      cases hd
      rw [ha.later.key]
      exact hl.listed d call hc ha.phase_ne.1
    · exact hl.listed d call₀ hd hp
  · intro d call₀ hd
    exact hl.bound_setCall hc hd

theorem Listed.remove (hl : Listed s) (hc : s.heap.lookup c = some call)
    (hp : call.phase = .closed) :
    Listed ({ s with calls := s.calls.erase call.key }.setCall c { call with phase := .removed }) := by
  have hlisted : s.calls.lookup call.key = some c := hl.listed c call hc (by simp [hp])
  constructor
  · intro key d hd
    simp only [State.setCall,GoMap.lookup_insert_eq,GoMap.lookup_erase_eq] at hd ⊢
    split at hd
    · cases hd
    · rename_i hk
      obtain ⟨call₀,h₀,hrest⟩ := hl.entry key d hd
      have hne : d ≠ c := by
        rintro rfl
        cases hc.symm.trans h₀
        exact hk hrest.1.symm
      exact ⟨call₀,by rwa [if_neg hne],hrest⟩
  · intro d call₀ hd hp₀
    simp only [State.setCall,GoMap.lookup_insert_eq,GoMap.lookup_erase_eq] at hd ⊢
    split at hd
    · cases hd
      exact absurd rfl hp₀
    · rename_i hdc
      have hold := hl.listed d call₀ hd hp₀
      have hne : call₀.key ≠ call.key := by
        intro he
        rw [he,hlisted] at hold
        exact hdc (Option.some.inj hold).symm
      rwa [if_neg hne]
  · intro d call₀ hd
    exact hl.bound_setCall hc hd

theorem Listed.step (hl : Listed s) (h : Does s e s') : Listed s' := by
  cases h with
  | call => exact ⟨hl.entry,hl.listed,hl.bound⟩
  | ctxDone => exact ⟨hl.entry,hl.listed,hl.bound⟩
  | join => exact ⟨hl.entry,hl.listed,hl.bound⟩
  | receive => exact ⟨hl.entry,hl.listed,hl.bound⟩
  | giveUp => exact ⟨hl.entry,hl.listed,hl.bound⟩
  | launch _ _ hn =>
    have hlaunch := hl.launch hn
    exact ⟨hlaunch.entry,hlaunch.listed,hlaunch.bound⟩
  | advance hc ha => exact hl.advance hc ha
  | remove hc hp => exact hl.remove hc hp

theorem listed_of_runs (h : Runs step (start : State V E) es s) : Listed s :=
  h.invariant listed_start (fun hl _ he => hl.step (does_of_step he))

/-- Two actions of a key do not run at once. -/
theorem Listed.eq_of_running (hl : Listed s) (hc : s.heap.lookup c = some call)
    (hd : s.heap.lookup d = some call') (hp : call.phase = .running) (hp' : call'.phase = .running)
    (hk : call.key = call'.key) : c = d := by
  have hc' := hl.listed c call hc (by simp [hp])
  have hd' := hl.listed d call' hd (by simp [hp'])
  rw [hk,hd'] at hc'
  exact (Option.some.inj hc').symm

theorem Listed.heap (hl : Listed s) (h : Does s e s') (hc : s.heap.lookup c = some call) :
    ∃ call', s'.heap.lookup c = some call' ∧ Later call call' := by
  cases h with
  | call => exact ⟨call,hc,.rfl⟩
  | ctxDone => exact ⟨call,hc,.rfl⟩
  | join => exact ⟨call,hc,.rfl⟩
  | receive => exact ⟨call,hc,.rfl⟩
  | giveUp => exact ⟨call,hc,.rfl⟩
  | launch =>
    have hne : c ≠ s.next := (hl.bound c call hc).ne
    refine ⟨call,?_,.rfl⟩
    simp only [State.setCaller,GoMap.lookup_insert_eq,if_neg hne,hc]
  | @advance _ d _ call' hd ha =>
    by_cases hk : c = d
    · subst hk
      cases hc.symm.trans hd
      exact ⟨call',by simp only [State.setCall,GoMap.lookup_insert_eq,if_pos],ha.later⟩
    · exact ⟨call,by simp only [State.setCall,GoMap.lookup_insert_eq,if_neg hk,hc],.rfl⟩
  | @remove d call' hd hp =>
    by_cases hk : c = d
    · subst hk
      cases hc.symm.trans hd
      refine ⟨{ call with phase := .removed },?_,rfl,fun _ => rfl,fun _ => ⟨rfl,rfl⟩⟩
      simp only [State.setCall,GoMap.lookup_insert_eq,if_pos]
    · exact ⟨call,by simp only [State.setCall,GoMap.lookup_insert_eq,if_neg hk,hc],.rfl⟩

/-- What is recorded of a caller when it calls stays. -/
theorem Does.keeps (h : Does s e s') (ht : s.callers.lookup t = some caller) :
    ∃ caller', s'.callers.lookup t = some caller' ∧ caller'.key = caller.key ∧
      caller'.stale = caller.stale := by
  have hset : ∀ {s : State V E} {t₀ : CallerID} {old new : Caller V E},
      s.callers.lookup t = some caller → s.callers.lookup t₀ = some old → new.key = old.key →
      new.stale = old.stale → ∃ caller', (s.setCaller t₀ new).callers.lookup t = some caller' ∧
        caller'.key = caller.key ∧ caller'.stale = caller.stale := by
    intro s t₀ old new ht h₀ hk hs
    by_cases he : t = t₀
    · subst he
      cases ht.symm.trans h₀
      exact ⟨new,by simp only [State.setCaller,GoMap.lookup_insert_eq,if_pos],hk,hs⟩
    · exact ⟨caller,by simp only [State.setCaller,GoMap.lookup_insert_eq,if_neg he,ht],rfl,rfl⟩
  cases h with
  | @call t₀ _ hn =>
    have hne : t ≠ t₀ := by
      rintro rfl
      cases ht.symm.trans hn
    exact ⟨caller,by simp only [State.setCaller,GoMap.lookup_insert_eq,if_neg hne,ht],rfl,rfl⟩
  | ctxDone h₀ => exact hset ht h₀ rfl rfl
  | join h₀ => exact hset ht h₀ rfl rfl
  | launch h₀ =>
    exact hset ht h₀ rfl rfl
  | receive h₀ => exact hset ht h₀ rfl rfl
  | giveUp h₀ => exact hset ht h₀ rfl rfl
  | advance => exact ⟨caller,ht,rfl,rfl⟩
  | remove => exact ⟨caller,ht,rfl,rfl⟩

/-- What is known of the call that a caller has met. -/
def CallerOk (s : State V E) (caller : Caller V E) : Prop :=
  (∀ c, caller.stale = some c →
    ∃ call, s.heap.lookup c = some call ∧ call.phase.hasEnded = true) ∧
  match caller.position with
  | .entering => True
  | .waiting c => ∃ call, s.heap.lookup c = some call ∧ call.key = caller.key
  | .received c r => ∃ call, s.heap.lookup c = some call ∧ call.key = caller.key ∧
      call.phase.isDone = true ∧ call.result = r
  | .gaveUp err => caller.ctxErr = some err

def CallersOk (s : State V E) : Prop :=
  ∀ t caller, s.callers.lookup t = some caller → CallerOk s caller

/-- The calls are still there, each as far as before or further. -/
def Continues (s s' : State V E) : Prop :=
  ∀ c call, s.heap.lookup c = some call → ∃ call', s'.heap.lookup c = some call' ∧ Later call call'

theorem Listed.continues (hl : Listed s) (h : Does s e s') : Continues s s' :=
  fun _ _ hc => hl.heap h hc

theorem CallerOk.mono (h : CallerOk s caller) (hs : Continues s s') : CallerOk s' caller := by
  obtain ⟨hstale,hpos⟩ := h
  refine ⟨?_,?_⟩
  · intro c hc
    obtain ⟨call,hcall,he⟩ := hstale c hc
    obtain ⟨call',hcall',hlater⟩ := hs c call hcall
    exact ⟨call',hcall',hlater.ended he⟩
  · cases hp : caller.position with
    | entering => trivial
    | waiting c =>
      rw [hp] at hpos
      obtain ⟨call,hcall,hk⟩ := hpos
      obtain ⟨call',hcall',hlater⟩ := hs c call hcall
      exact ⟨call',hcall',hlater.key.trans hk⟩
    | received c r =>
      rw [hp] at hpos
      obtain ⟨call,hcall,hk,hd,hr⟩ := hpos
      obtain ⟨call',hcall',hlater⟩ := hs c call hcall
      obtain ⟨hd',hr'⟩ := hlater.done hd
      exact ⟨call',hcall',hlater.key.trans hk,hd',hr'.trans hr⟩
    | gaveUp err =>
      rw [hp] at hpos
      exact hpos

theorem exists_of_staleCall {key : String} (h : s.staleCall key = some c) :
    ∃ call, s.heap.lookup c = some call ∧ call.phase.hasEnded = true := by
  obtain ⟨_,h⟩ := Option.filter_eq_some_iff.mp h
  cases hc : s.heap.lookup c with
  | none => simp [hc] at h
  | some call => exact ⟨call,rfl,by simpa [hc] using h⟩

theorem staleCall_eq {key : String} (h : s.calls.lookup key = some c)
    (hc : s.heap.lookup c = some call) (he : call.phase.hasEnded = true) :
    s.staleCall key = some c := by
  simp [State.staleCall,h,hc,he]

theorem callersOk_setCaller {s₁ : State V E} (hcs : CallersOk s) (hs : Continues s s₁)
    (hcallers : s₁.callers = s.callers) (h : CallerOk s₁ caller) :
    CallersOk (s₁.setCaller t caller) := by
  intro t₀ caller₀ h₀
  simp only [State.setCaller,GoMap.lookup_insert_eq,hcallers] at h₀
  split at h₀
  · cases h₀
    exact h
  · exact (hcs t₀ caller₀ h₀).mono hs

theorem CallersOk.step (hcs : CallersOk s) (hl : Listed s) (h : Does s e s') : CallersOk s' := by
  have hsame : Continues s s := fun c call hc => ⟨call,hc,.rfl⟩
  cases h with
  | call =>
    exact callersOk_setCaller hcs hsame rfl ⟨fun c hc => exists_of_staleCall hc,trivial⟩
  | @ctxDone t err caller h₀ hn =>
    apply callersOk_setCaller hcs hsame rfl
    obtain ⟨hstale,hpos⟩ := hcs t caller h₀
    refine ⟨hstale,?_⟩
    cases hp : caller.position with
    | entering => trivial
    | waiting c => rwa [hp] at hpos
    | received c r => rwa [hp] at hpos
    | gaveUp err' =>
      rw [hp] at hpos
      cases hn.symm.trans hpos
  | @join t caller c h₀ _ hk =>
    apply callersOk_setCaller hcs hsame rfl
    obtain ⟨call,hcall,hkey,_⟩ := hl.entry caller.key c hk
    exact ⟨(hcs t caller h₀).1,call,hcall,hkey⟩
  | @launch t caller h₀ hp hk =>
    have hgrow := hl.continues (.launch h₀ hp hk)
    refine callersOk_setCaller hcs hgrow rfl ⟨((hcs t caller h₀).mono hgrow).1,?_⟩
    refine ⟨⟨caller.key,⟨none,none⟩,.launched⟩,?_,rfl⟩
    simp only [GoMap.lookup_insert_eq,if_pos]
  | @receive t caller c call h₀ hp hcall hd =>
    apply callersOk_setCaller hcs hsame rfl
    obtain ⟨hstale,hpos⟩ := hcs t caller h₀
    rw [hp] at hpos
    obtain ⟨call',hcall',hk⟩ := hpos
    cases hcall.symm.trans hcall'
    exact ⟨hstale,call,hcall,hk,hd,rfl⟩
  | @giveUp t caller c err h₀ _ he =>
    exact callersOk_setCaller hcs hsame rfl ⟨(hcs t caller h₀).1,he⟩
  | advance hc ha =>
    intro t caller ht
    exact (hcs t caller ht).mono (hl.continues (.advance hc ha))
  | remove hc hp =>
    intro t caller ht
    exact (hcs t caller ht).mono (hl.continues (.remove hc hp))

theorem callersOk_of_runs (h : Runs step (start : State V E) es s) : CallersOk s :=
  h.invariant_of listed_start (fun _ _ ht => by simp [start] at ht)
    (fun hl _ he => hl.step (does_of_step he))
    (fun hl hcs _ he => hcs.step hl (does_of_step he))

/-- The call that a caller has met or would meet now. -/
def Meets (s : State V E) (caller : Caller V E) (c : CallID) : Prop :=
  match caller.position with
  | .entering => s.calls.lookup caller.key = some c
  | .waiting d => d = c
  | .received d _ => d = c
  | .gaveUp _ => False

/-- Only a caller that has yet to enter looks at the map. -/
theorem Meets.of_calls (h : Meets s' caller c)
    (hcalls : s'.calls.lookup caller.key = some c → s.calls.lookup caller.key = some c) :
    Meets s caller c := by
  unfold Meets at h ⊢
  split at h
  · exact hcalls h
  · exact h
  · exact h
  · exact h

theorem RanDuring.append (h : RanDuring es t c) (fs : List (Event V E)) :
    RanDuring (es ++ fs) t c := by
  obtain ⟨gs,hs,u,rfl,hu,hrest⟩ := h
  exact ⟨gs,hs ++ fs,u,List.append_assoc gs hs fs,hu,hrest⟩

/-- Callers meet calls whose action had ended before they called, or ran while they were in
their own call. -/
def MeetsFresh (es : List (Event V E)) (s : State V E) : Prop :=
  ∀ t caller c call, s.callers.lookup t = some caller → Meets s caller c →
    s.heap.lookup c = some call → call.phase.hasEnded = true →
    caller.stale = some c ∨ RanDuring es t c

/-- A caller that has changed meets what it met, and so do the others. -/
theorem MeetsFresh.setCaller (hm : MeetsFresh es s) (ht : s.callers.lookup t = some caller)
    (hs : caller'.stale = caller.stale) (hmeets : ∀ c, Meets s caller' c → Meets s caller c) :
    MeetsFresh (es ++ [e]) (s.setCaller t caller') := by
  intro t₀ caller₀ c₀ call h₀ hmeet hc he
  simp only [State.setCaller,GoMap.lookup_insert_eq] at h₀
  split at h₀
  · rename_i hk
    subst hk
    cases h₀
    rw [hs]
    exact (hm t₀ caller c₀ call ht (hmeets c₀ hmeet) hc he).imp_right (·.append [e])
  · exact (hm t₀ caller₀ c₀ call h₀ hmeet hc he).imp_right (·.append [e])

theorem Advance.running (h : Advance e c call call') (he : call'.phase.hasEnded = true) :
    call.phase.hasEnded = true ∨ call.phase = .running := by
  cases h with
  | run => cases he
  | returns hp => exact Or.inr hp
  | panics hp => exact Or.inr hp
  | closeDone hp => exact Or.inl (by rw [hp]; rfl)

theorem MeetsFresh.step (hr : Runs step start es s) (hm : MeetsFresh es s)
    (hcs : CallersOk s) (h : Does s e s') : MeetsFresh (es ++ [e]) s' := by
  cases h with
  | @call t key hn =>
    intro t₀ caller₀ c₀ call h₀ hmeet hc he
    simp only [State.setCaller,GoMap.lookup_insert_eq] at h₀
    split at h₀
    · cases h₀
      exact Or.inl (staleCall_eq hmeet hc he)
    · exact (hm t₀ caller₀ c₀ call h₀ hmeet hc he).imp_right (·.append _)
  | ctxDone h₀ => exact hm.setCaller h₀ rfl (fun _ h => h)
  | join h₀ hp hk =>
    refine hm.setCaller h₀ rfl ?_
    rintro c rfl
    simpa only [Meets,hp] using hk
  | receive h₀ hp =>
    refine hm.setCaller h₀ rfl ?_
    rintro c rfl
    simp only [Meets,hp]
  | giveUp h₀ => exact hm.setCaller h₀ rfl (fun _ h => h.elim)
  | @launch t caller h₀ hp hk =>
    intro t₀ caller₀ c₀ call h₁ hmeet hc he
    simp only [State.setCaller,GoMap.lookup_insert_eq] at h₁ hc
    -- the new action has not ended
    have hne : c₀ ≠ s.next := by
      rintro rfl
      rw [if_pos rfl] at hc
      cases hc
      cases he
    rw [if_neg hne] at hc
    split at h₁
    · cases h₁
      exact absurd hmeet.symm hne
    · have hold : Meets s caller₀ c₀ := by
        apply hmeet.of_calls
        intro hcalls
        simp only [State.setCaller,GoMap.lookup_insert_eq] at hcalls
        split at hcalls
        · exact absurd (Option.some.inj hcalls).symm hne
        · exact hcalls
      exact (hm t₀ caller₀ c₀ call h₁ hold hc he).imp_right (·.append _)
  | @advance _ c call call' hc ha =>
    intro t₀ caller₀ c₀ call₀ h₀ hmeet hc₀ he
    simp only [State.setCall,GoMap.lookup_insert_eq] at hc₀
    split at hc₀
    · rename_i hk
      subst hk
      cases hc₀
      rcases ha.running he with hend | hrun
      · exact (hm t₀ caller₀ c₀ call h₀ hmeet hc hend).imp_right (·.append _)
      · -- the action ends while the caller is in its call
        refine Or.inr ⟨es,[_],s,rfl,hr,⟨caller₀,h₀,?_⟩,call,hc,hrun⟩
        have hpos := (hcs t₀ caller₀ h₀).2
        unfold Meets at hmeet
        cases hp : caller₀.position with
        | entering => exact Or.inl rfl
        | waiting d => exact Or.inr ⟨d,rfl⟩
        | received d r =>
          rw [hp] at hpos hmeet
          obtain ⟨call₁,h₁,_,hd,_⟩ := hpos
          obtain rfl : d = c₀ := hmeet
          cases hc.symm.trans h₁
          simp [hrun,Phase.isDone] at hd
        | gaveUp err =>
          rw [hp] at hmeet
          exact hmeet.elim
    · exact (hm t₀ caller₀ c₀ call₀ h₀ hmeet hc₀ he).imp_right (·.append _)
  | @remove c call hc hp =>
    intro t₀ caller₀ c₀ call₀ h₀ hmeet hc₀ he
    have hold : Meets s caller₀ c₀ := by
      apply hmeet.of_calls
      intro hcalls
      simp only [State.setCall,GoMap.lookup_erase_eq] at hcalls
      split at hcalls
      · cases hcalls
      · exact hcalls
    simp only [State.setCall,GoMap.lookup_insert_eq] at hc₀
    split at hc₀
    · rename_i hk
      subst hk
      exact (hm t₀ caller₀ c₀ call h₀ hold hc (by rw [hp]; rfl)).imp_right (·.append _)
    · exact (hm t₀ caller₀ c₀ call₀ h₀ hold hc₀ he).imp_right (·.append _)

theorem meetsFresh_of_runs (h : Runs step (start : State V E) es s) : MeetsFresh es s :=
  RunsWhen.history h (fun _ _ _ _ ht => by simp [start] at ht)
    (fun hr hm _ he => hm.step hr (callersOk_of_runs hr) (does_of_step he))

theorem keeps_of_runs (h : Runs step s es s') (ht : s.callers.lookup t = some caller) :
    ∃ caller', s'.callers.lookup t = some caller' ∧ caller'.key = caller.key ∧
      caller'.stale = caller.stale := by
  refine h.invariant (P := fun s => ∃ caller', s.callers.lookup t = some caller' ∧
    caller'.key = caller.key ∧ caller'.stale = caller.stale) ⟨caller,ht,rfl,rfl⟩ ?_
  rintro s s' e ⟨caller₁,h₁,hk,hs⟩ _ he
  obtain ⟨caller₂,h₂,hk',hs'⟩ := (does_of_step he).keeps h₁
  exact ⟨caller₂,h₂,hk'.trans hk,hs'.trans hs⟩

/-- What had ended before the call was not running during it. -/
theorem stale_ne (h : Runs step start es s) (ht : s.callers.lookup t = some caller)
    (hr : RanDuring es t c) : caller.stale ≠ some c := by
  intro hs
  obtain ⟨fs,gs,u,rfl,hu,⟨caller₀,h₀,_⟩,call,hcall,hrun⟩ := hr
  obtain ⟨u',hu',hrest⟩ := Option.bind_eq_some_iff.mp
    ((exec_append step start fs gs).symm.trans (runs_iff_exec.mp h))
  cases (runs_iff_exec.mp hu).symm.trans hu'
  obtain ⟨caller₁,h₁,_,hs₁⟩ := keeps_of_runs (runs_iff_exec.mpr hrest) h₀
  cases ht.symm.trans h₁
  obtain ⟨call',hcall',he⟩ := (callersOk_of_runs hu t caller₀ h₀).1 c (hs₁.symm.trans hs)
  cases hcall.symm.trans hcall'
  simp [hrun,Phase.hasEnded] at he

theorem Phase.hasEnded_of_isDone {p : Phase} (h : p.isDone = true) : p.hasEnded = true := by
  cases p <;> first | rfl | cases h

/-- What a call's result is where its action ends so. -/
def Ending.result : Ending V E → Result V E
  | .returns value err => ⟨value,err.map .ofAction⟩
  | .panics => ⟨none,some (.new "error from single flight")⟩

/-- The result of a call is what its own action ended with. -/
def ResultOk (es : List (Event V E)) (c : CallID) (call : Call V E) : Prop :=
  if call.phase.hasEnded then ∃ ending, Event.finish c ending ∈ es ∧ call.result = ending.result
  else call.result = ⟨none,none⟩

theorem ResultOk.append (h : ResultOk es c call) (fs : List (Event V E)) :
    ResultOk (es ++ fs) c call := by
  unfold ResultOk at h ⊢
  split
  · rename_i he
    rw [if_pos he] at h
    obtain ⟨ending,hm,hr⟩ := h
    exact ⟨ending,List.mem_append_left fs hm,hr⟩
  · rename_i he
    rwa [if_neg he] at h

theorem Advance.resultOk (h : Advance e c call call') (hr : ResultOk es c call) :
    ResultOk (es ++ [e]) c call' := by
  cases h with
  | run hp => simpa [ResultOk,hp,Phase.hasEnded] using hr
  | returns =>
    exact ⟨.returns _ _,List.mem_append_right es List.mem_cons_self,rfl⟩
  | panics hp =>
    have hnil : call.result = ⟨none,none⟩ := by simpa [ResultOk,hp,Phase.hasEnded] using hr
    exact ⟨.panics,List.mem_append_right es List.mem_cons_self,by rw [hnil]; rfl⟩
  | closeDone hp =>
    have hold := hr.append [.closeDone c]
    simp only [ResultOk,hp] at hold
    exact hold

theorem resultOk_of_runs (h : Runs step (start : State V E) es s) :
    ∀ c call, s.heap.lookup c = some call → ResultOk es c call := by
  refine RunsWhen.history
    (P := fun es s => ∀ c call, s.heap.lookup c = some call → ResultOk es c call)
    h (fun _ _ hc => by simp [start] at hc) ?_
  intro es s s' e _ hold _ he c call hc
  cases does_of_step he with
  | call => exact (hold c call hc).append _
  | ctxDone => exact (hold c call hc).append _
  | join => exact (hold c call hc).append _
  | receive => exact (hold c call hc).append _
  | giveUp => exact (hold c call hc).append _
  | launch =>
    simp only [State.setCaller,GoMap.lookup_insert_eq] at hc
    split at hc
    · cases hc
      rfl
    · exact (hold c call hc).append _
  | advance hd ha =>
    simp only [State.setCall,GoMap.lookup_insert_eq] at hc
    split at hc
    · rename_i hk
      subst hk
      cases hc
      exact ha.resultOk (hold _ _ hd)
    · exact (hold c call hc).append _
  | @remove d call' hd hp =>
    simp only [State.setCall,GoMap.lookup_insert_eq] at hc
    split at hc
    · rename_i hk
      subst hk
      cases hc
      have hprev := (hold _ _ hd).append [.remove c]
      simp only [ResultOk,hp] at hprev
      exact hprev
    · exact (hold c call hc).append _

/-- The entry that a caller finds is not of an action that had ended before it called. -/
def entersInTime (s : State V E) : Event V E → Prop
  | .enter t => ∀ caller ∈ s.callers.lookup t, ∀ c ∈ s.calls.lookup caller.key,
      caller.stale ≠ some c
  | _ => True

instance (s : State V E) (e : Event V E) : Decidable (entersInTime s e) :=
  match e with
  | .enter t => inferInstanceAs (Decidable (∀ caller ∈ s.callers.lookup t,
      ∀ c ∈ s.calls.lookup caller.key, caller.stale ≠ some c))
  | .call _ _ | .ctxDone _ _ | .run _ | .finish _ _ | .closeDone _ | .remove _ | .receive _
  | .giveUp _ => isTrue trivial

/-- No caller has met a call whose action had ended before it called. -/
def InTime (s : State V E) : Prop :=
  ∀ t caller c, s.callers.lookup t = some caller →
    (caller.position = .waiting c ∨ ∃ r, caller.position = .received c r) → caller.stale ≠ some c

theorem InTime.setCaller (hi : InTime s)
    (h : ∀ c, (caller.position = .waiting c ∨ ∃ r, caller.position = .received c r) →
      caller.stale ≠ some c) : InTime (s.setCaller t caller) := by
  intro t₀ caller₀ c h₀ hp
  simp only [State.setCaller,GoMap.lookup_insert_eq] at h₀
  split at h₀
  · cases h₀
    exact h c hp
  · exact hi t₀ caller₀ c h₀ hp

theorem InTime.step (hi : InTime s) (hl : Listed s) (hcs : CallersOk s) (hg : entersInTime s e)
    (h : Does s e s') : InTime s' := by
  cases h with
  | call =>
    refine hi.setCaller ?_
    rintro c (hp | ⟨r,hp⟩) <;> cases hp
  | @ctxDone t _ caller h₀ => exact hi.setCaller (fun c hp => hi t caller c h₀ hp)
  | @join t caller c h₀ _ hk =>
    refine hi.setCaller ?_
    rintro d (hp | ⟨r,hp⟩)
    · cases hp
      exact hg caller h₀ c hk
    · cases hp
  | @launch t caller h₀ =>
    refine InTime.setCaller (s := { s with calls := _, heap := _, next := _ }) hi ?_
    rintro d (hp | ⟨r,hp⟩)
    · cases hp
      intro hs
      obtain ⟨call,hcall,_⟩ := (hcs t caller h₀).1 s.next hs
      exact absurd (hl.bound s.next call hcall) (lt_irrefl _)
    · cases hp
  | @receive t caller c call h₀ hp₀ =>
    refine hi.setCaller ?_
    rintro d (hp | ⟨r,hp⟩)
    · cases hp
    · cases hp
      exact hi t caller c h₀ (Or.inl hp₀)
  | giveUp =>
    refine hi.setCaller ?_
    rintro c (hp | ⟨r,hp⟩) <;> cases hp
  | advance => exact hi
  | remove => exact hi

theorem inTime_of_runs (h : RunsWhen step entersInTime (start : State V E) es s) : InTime s :=
  h.invariant_of (Q := fun s => Listed s ∧ CallersOk s)
    ⟨listed_start,fun _ _ ht => by simp [start] at ht⟩ (fun _ _ _ ht => by simp [start] at ht)
    (fun hq _ he => ⟨hq.1.step (does_of_step he),hq.2.step hq.1 (does_of_step he)⟩)
    (fun hq hi hg he => hi.step hq.1 hq.2 hg (does_of_step he))

/-- At most one action of a key is running. -/
def OneRunning (s : State V E) : Prop :=
  ∀ c d call call', s.heap.lookup c = some call → s.heap.lookup d = some call' →
    call.phase = .running → call'.phase = .running → call.key = call'.key → c = d

/-- Where the caller got a result, it is of a call of its own key, as its action ended. -/
def GotOwn (es : List (Event V E)) (s : State V E) (caller : Caller V E) : Prop :=
  ∀ c r, caller.position = .received c r →
    (∃ call, s.heap.lookup c = some call ∧ call.key = caller.key) ∧
    ∃ ending, Event.finish c ending ∈ es ∧ r = ending.result

/-- Steps of its call alone, whose action ends as given, bring the caller the result. -/
def Served (s : State V E) (t : CallerID) (c : CallID) (ending : Ending V E) : Prop :=
  ∃ es s' caller r, (∀ e ∈ es, e = .run c ∨ e = .finish c ending ∨ e = .closeDone c ∨
      e = .receive t) ∧
    Runs step s es s' ∧ s'.callers.lookup t = some caller ∧ caller.position = .received c r

variable {ending : Ending V E}

theorem Served.cons (he : e = .run c ∨ e = .finish c ending ∨ e = .closeDone c)
    (h : step s e = some s') (hs : Served s' t c ending) : Served s t c ending := by
  obtain ⟨es,u,caller,r,hes,hr,ht,hp⟩ := hs
  refine ⟨e :: es,u,caller,r,?_,Runs.cons h hr,ht,hp⟩
  intro e' hm
  rcases List.mem_cons.mp hm with rfl | hm
  · rcases he with he | he | he
    · exact Or.inl he
    · exact Or.inr (Or.inl he)
    · exact Or.inr (Or.inr (Or.inl he))
  · exact hes e' hm

theorem served_of_done (ht : s.callers.lookup t = some caller) (hp : caller.position = .waiting c)
    (hc : s.heap.lookup c = some call) (hd : call.phase.isDone = true) : Served s t c ending := by
  have hstep : step s (.receive t) =
      some (s.setCaller t { caller with position := .received c call.result }) := by
    simp only [step,ht,Option.bind_some,State.receive,hp,hc,hd,if_pos]
  refine ⟨[.receive t],_,{ caller with position := .received c call.result },call.result,?_,
    Runs.single hstep,?_,rfl⟩
  · intro e he
    exact Or.inr (Or.inr (Or.inr (List.mem_singleton.mp he)))
  · simp only [State.setCaller,GoMap.lookup_insert_eq,if_pos]

theorem lookup_setCall : (s.setCall c call).heap.lookup c = some call := by
  simp only [State.setCall,GoMap.lookup_insert_eq,if_pos]

theorem served_of_ended (ht : s.callers.lookup t = some caller) (hp : caller.position = .waiting c)
    (hc : s.heap.lookup c = some call) (he : call.phase = .ended) : Served s t c ending := by
  have hstep : step s (.closeDone c) = some (s.setCall c { call with phase := .closed }) := by
    simp only [step,hc,Option.bind_some,State.closeDone,he,if_pos]
  exact .cons (.inr (.inr rfl)) hstep (served_of_done ht hp lookup_setCall rfl)

theorem served_of_running (ht : s.callers.lookup t = some caller)
    (hp : caller.position = .waiting c) (hc : s.heap.lookup c = some call)
    (hr : call.phase = .running) : Served s t c ending := by
  cases ending with
  | returns value err =>
    have hstep : step s (.finish c (.returns value err)) =
        some (s.setCall c { call with result := ⟨value,err.map .ofAction⟩, phase := .ended }) := by
      simp only [step,hc,Option.bind_some,State.finish,hr,if_pos]
    exact .cons (.inr (.inl rfl)) hstep (served_of_ended ht hp lookup_setCall rfl)
  | panics =>
    have hstep : step s (.finish c .panics) = some (s.setCall c
        { call with
          result := { call.result with err := some (.new "error from single flight") }
          phase := .ended }) := by
      simp only [step,hc,Option.bind_some,State.finish,hr,if_pos]
    exact .cons (.inr (.inl rfl)) hstep (served_of_ended ht hp lookup_setCall rfl)

/-- Whatever the others do, a caller that waits can be served. -/
theorem served (hcs : CallersOk s) (ht : s.callers.lookup t = some caller)
    (hp : caller.position = .waiting c) : Served s t c ending := by
  have hpos := (hcs t caller ht).2
  rw [hp] at hpos
  obtain ⟨call,hc,_⟩ := hpos
  cases hphase : call.phase with
  | launched =>
    have hstep : step s (.run c) = some (s.setCall c { call with phase := .running }) := by
      simp only [step,hc,Option.bind_some,State.run,hphase,if_pos]
    exact .cons (.inl rfl) hstep (served_of_running ht hp lookup_setCall rfl)
  | running => exact served_of_running ht hp hc hphase
  | ended => exact served_of_ended ht hp hc hphase
  | closed => exact served_of_done ht hp hc (by rw [hphase]; rfl)
  | removed => exact served_of_done ht hp hc (by rw [hphase]; rfl)

theorem gotOwn_of_runs (h : Runs step (start : State V E) es s)
    (ht : s.callers.lookup t = some caller) : GotOwn es s caller := by
  intro c r hp
  have hpos := (callersOk_of_runs h t caller ht).2
  rw [hp] at hpos
  obtain ⟨call,hc,hk,hd,rfl⟩ := hpos
  have hres := resultOk_of_runs h c call hc
  rw [ResultOk,if_pos (Phase.hasEnded_of_isDone hd)] at hres
  exact ⟨⟨call,hc,hk⟩,hres⟩

/-- A result is of an action that ran during the call, unless the call was stale. -/
theorem ranDuring_iff (h : Runs step (start : State V E) es s)
    (ht : s.callers.lookup t = some caller) (hp : caller.position = .received c r) :
    RanDuring es t c ↔ caller.stale ≠ some c := by
  constructor
  · exact stale_ne h ht
  · intro hs
    have hpos := (callersOk_of_runs h t caller ht).2
    rw [hp] at hpos
    obtain ⟨call,hc,_,hd,_⟩ := hpos
    have hmeet : Meets s caller c := by rw [Meets,hp]
    exact (meetsFresh_of_runs h t caller c call ht hmeet hc
      (Phase.hasEnded_of_isDone hd)).resolve_left hs

/-- In every run, one action of a key is running at most, only callers whose context is done
give up, the others can always be served, and a result is of an own action. It is of one that
ran during the call where callers enter in time, and exactly where the call was not stale. -/
theorem do_result (h : Runs step (start : State V E) es s) :
    OneRunning s ∧
    (∀ t caller, s.callers.lookup t = some caller →
      (∀ err, caller.position = .gaveUp err → caller.ctxErr = some err) ∧
      (∀ c, caller.position = .waiting c → ∀ ending, Served s t c ending) ∧
      GotOwn es s caller ∧
      ∀ c r, caller.position = .received c r → (RanDuring es t c ↔ caller.stale ≠ some c)) ∧
    (RunsWhen step entersInTime start es s → ∀ t caller c r,
      s.callers.lookup t = some caller → caller.position = .received c r → RanDuring es t c) := by
  refine ⟨?_,?_,?_⟩
  · intro c d call call' hc hd hp hp' hk
    exact (listed_of_runs h).eq_of_running hc hd hp hp' hk
  · intro t caller ht
    refine ⟨?_,?_,gotOwn_of_runs h ht,fun c r hp => ranDuring_iff h ht hp⟩
    · intro err hp
      have hpos := (callersOk_of_runs h t caller ht).2
      rwa [hp] at hpos
    · intro c hp ending
      exact served (callersOk_of_runs h) ht hp
  · intro hg t caller c r ht hp
    exact (ranDuring_iff h ht hp).mpr (inTime_of_runs hg t caller c ht (Or.inr ⟨r,hp⟩))

/-- Two callers share an action that panics, a third gives up, and the first calls again. -/
def sharedPanic : List (Event ℕ String) :=
  [.call 1 "user:7",.enter 1,.call 2 "user:7",.run 0,.call 3 "user:7",.enter 2,.enter 3,
    .ctxDone 3 .canceled,.giveUp 3,.finish 0 .panics,.closeDone 0,.receive 2,.remove 0,.receive 1,
    .call 4 "user:7",.enter 4,.run 1]

theorem do_result_panic : ∃ s, Runs step start sharedPanic s ∧
    RanDuring sharedPanic 2 0 ∧ OneRunning s ∧
    ∀ t caller, s.callers.lookup t = some caller → GotOwn sharedPanic s caller := by
  have hrun : Runs step start sharedPanic (after step start sharedPanic) :=
    runs_after (by decide +kernel)
  have hwhen : RunsWhen step entersInTime start sharedPanic (after step start sharedPanic) :=
    runsWhen_after (by decide +kernel)
  obtain ⟨hone,hcallers,hfresh⟩ := do_result hrun
  have hreceived : (after step start sharedPanic).callers.lookup 2 = some ⟨"user:7",none,none,
      .received 0 ⟨none,some (.new "error from single flight")⟩⟩ := by decide +kernel
  exact ⟨_,hrun,hfresh hwhen 2 _ 0 _ hreceived rfl,hone,fun t caller ht => (hcallers t caller ht).2.2.1⟩

/-- The second caller calls when the action has ended, and joins it before it is removed. -/
def lateCaller : List (Event ℕ String) :=
  [.call 1 "user:7",.enter 1,.run 0,.finish 0 (.returns (some 5) none),.call 2 "user:7",.enter 2,
    .closeDone 0,.receive 2]

theorem late_caller_stale : ¬ ∀ (es : List (Event ℕ String)) s, Runs step start es s →
    ∀ t caller c r, s.callers.lookup t = some caller → caller.position = .received c r →
      RanDuring es t c := by
  intro h
  obtain ⟨s,hs,ht⟩ := exists_runs_of_exec step start lateCaller (fun s => s.callers.lookup 2)
    (some ⟨"user:7",none,some 0,.received 0 ⟨some 5,none⟩⟩) (by decide +kernel)
  have hr := h lateCaller s hs 2 _ 0 _ ht rfl
  exact (ranDuring_iff hs ht rfl).mp hr rfl

end MiniDiscord.Storage.SingleFlight
