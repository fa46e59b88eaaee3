import Mathlib.Data.Finset.Max
import MiniDiscord.Client.LeaderElection

/-! # Two leaders do not last

Tabs that start together may all claim the role. While the heartbeats go and are
delivered, in whatever order, all of them but the one with the smallest id step
down, and that one stays.
-/
namespace MiniDiscord.LeaderElection
open Transition
variable {n : ℕ}

/-- Tab `i` takes part and holds itself for the leader. -/
def State.Leads (s : State n) (i : Fin n) : Prop :=
  (s.tabs i).channel = true ∧ (s.tabs i).isLeaderFlag = true

instance (s : State n) (i : Fin n) : Decidable (s.Leads i) :=
  inferInstanceAs (Decidable (_ ∧ _))

/-- Only heartbeats and deliveries: no tab starts or stops, no other timer fires. -/
def Event.quiet : Event n → Bool
  | .deliver _ _ => true
  | .heartbeat _ => true
  | _ => false

/-- The heartbeat of tab `i`. -/
def State.beat (s : State n) (i : Fin n) : LeaderMessage := .heartbeat (s.tabs i).myId

/-- A tab that hears the heartbeat `id`. -/
def Tab.hears (t : Tab) (id : String) : Tab := (t.onmessage (.heartbeat id)).1

@[simp] theorem Tab.hears_channel (t : Tab) (id : String) : (t.hears id).channel = t.channel := by
  simp only [Tab.hears,Tab.onmessage]
  split <;> rfl

@[simp] theorem Tab.hears_myId (t : Tab) (id : String) : (t.hears id).myId = t.myId := by
  simp only [Tab.hears,Tab.onmessage]
  split <;> rfl

/-- A heartbeat makes no leader, and deposes one only if it comes from a smaller id. -/
theorem Tab.hears_isLeaderFlag (t : Tab) (id : String) :
    (t.hears id).isLeaderFlag = true ↔ t.isLeaderFlag = true ∧ t.myId ≤ id := by
  simp only [Tab.hears,Tab.onmessage]
  split
  · rename_i h
    constructor
    · intro h'
      cases h'
    · intro h'
      exact absurd h.2.2 (not_lt.mpr h'.2)
  · rename_i h
    refine ⟨fun hl => ⟨hl,?_⟩,fun h' => h'.1⟩
    by_contra hlt
    exact h ⟨hl,(lt_of_not_ge hlt).ne,lt_of_not_ge hlt⟩

theorem Tab.hears_heartbeatTimer {t : Tab} {id : String}
    (h : (t.hears id).heartbeatTimer = true) :
    t.heartbeatTimer = true ∧ (t.isLeaderFlag = true → t.myId ≤ id) := by
  simp only [Tab.hears,Tab.onmessage] at h
  split at h
  · cases h
  · rename_i hn
    refine ⟨h,fun hl => ?_⟩
    by_contra hlt
    exact hn ⟨hl,(lt_of_not_ge hlt).ne,lt_of_not_ge hlt⟩

/-- What a quiet event does where the messages on their way are heartbeats: a tab handles one
of them, or a tab posts its own. -/
theorem State.step_quiet {s s' : State n} {e : Event n} (h : s.step e = some s')
    (hq : e.quiet = true) (hf : ∀ i, ∀ msg ∈ s.queue i, ∃ id, msg = .heartbeat id) :
    (∃ i k id, e = .deliver i k ∧ (s.queue i)[k]? = some (.heartbeat id) ∧
      s'.tabs = Function.update s.tabs i ((s.tabs i).hears id) ∧
      s'.queue = Function.update s.queue i ((s.queue i).eraseIdx k)) ∨
    (∃ i, e = .heartbeat i ∧ (s.tabs i).heartbeatTimer = true ∧ s'.tabs = s.tabs ∧
      ∀ j, s'.queue j = if j ≠ i ∧ (s.tabs j).channel = true
        then s.queue j ++ (s.tabs i).broadcast (s.beat i) else s.queue j) := by
  cases e with
  | deliver i k =>
    obtain ⟨_,h⟩ := Option.ite_none_right_eq_some.mp h
    obtain ⟨msg,hk,rfl⟩ := Option.map_eq_some_iff.mp h
    obtain ⟨id,rfl⟩ := hf i msg (List.mem_of_getElem? hk)
    refine .inl ⟨i,k,id,rfl,hk,rfl,?_⟩
    funext j
    have hnone : ((s.tabs i).onmessage (.heartbeat id)).2 = [] := by
      simp only [Tab.onmessage]
      split <;> rfl
    simp only [State.handle,State.post,hnone,List.append_nil,ite_self]
  | heartbeat i =>
    obtain ⟨hb,h⟩ := Option.ite_none_right_eq_some.mp h
    cases h
    exact .inr ⟨i,rfl,hb,Function.update_eq_self _ _,fun j => rfl⟩
  | _ => cases hq

/-- How things stand with the tabs since `σ`, whose leader with the smallest id is `m`. -/
structure Settling (σ : State n) (m : Fin n) (s : State n) : Prop where
  channel : ∀ i, (s.tabs i).channel = (σ.tabs i).channel
  ids : ∀ i, (s.tabs i).myId = (σ.tabs i).myId
  leaders : ∀ i, s.Leads i → σ.Leads i
  beats : ∀ i, (s.tabs i).heartbeatTimer = true → s.Leads i
  flight : ∀ i, ∀ msg ∈ s.queue i, ∃ j, σ.Leads j ∧ msg = σ.beat j
  least : s.Leads m

theorem Settling.beat_eq {σ s : State n} {m : Fin n} (h : Settling σ m s) (i : Fin n) :
    s.beat i = σ.beat i := by
  rw [State.beat,h.ids,State.beat]

theorem Settling.heartbeats {σ s : State n} {m : Fin n} (h : Settling σ m s) (i : Fin n) :
    ∀ msg ∈ s.queue i, ∃ id, msg = .heartbeat id := by
  intro msg hm
  obtain ⟨j,_,rfl⟩ := h.flight i msg hm
  exact ⟨_,rfl⟩

/-- A tab that handled a heartbeat of a leader of `σ`. -/
theorem Settling.hears {σ s s' : State n} {m i : Fin n} {k : ℕ} {id : String}
    (h : Settling σ m s) (hm : ∀ j, σ.Leads j → (σ.tabs m).myId ≤ (σ.tabs j).myId)
    (hk : (s.queue i)[k]? = some (.heartbeat id))
    (ht : s'.tabs = Function.update s.tabs i ((s.tabs i).hears id))
    (hqu : s'.queue = Function.update s.queue i ((s.queue i).eraseIdx k)) : Settling σ m s' := by
  have hid : (σ.tabs m).myId ≤ id := by
    obtain ⟨j,hj,he⟩ := h.flight i _ (List.mem_of_getElem? hk)
    rw [State.beat,LeaderMessage.heartbeat.injEq] at he
    exact he ▸ hm j hj
  have htab : ∀ j, s'.tabs j = if j = i then (s.tabs i).hears id else s.tabs j := by
    intro j
    rw [ht,Function.update_apply]
  have hleads : ∀ j, s'.Leads j ↔ s.Leads j ∧ (j = i → (s.tabs j).myId ≤ id) := by
    intro j
    rw [State.Leads,State.Leads,htab]
    by_cases hj : j = i
    · subst hj
      rw [if_pos rfl,Tab.hears_channel,Tab.hears_isLeaderFlag]
      tauto
    · rw [if_neg hj]
      exact ⟨fun h' => ⟨h',fun he => absurd he hj⟩,fun h' => h'.1⟩
  refine ⟨fun j => ?_,fun j => ?_,fun j hj => h.leaders j ((hleads j).mp hj).1,fun j hb => ?_,
    fun j msg hmsg => ?_,?_⟩
  · rw [htab]
    split
    · rename_i hj
      rw [Tab.hears_channel,hj]
      exact h.channel i
    · exact h.channel j
  · rw [htab]
    split
    · rename_i hj
      rw [Tab.hears_myId,hj]
      exact h.ids i
    · exact h.ids j
  · rw [htab] at hb
    split at hb
    · rename_i hj
      subst hj
      obtain ⟨hb,hle⟩ := Tab.hears_heartbeatTimer hb
      exact (hleads j).mpr ⟨h.beats j hb,fun _ => hle (h.beats j hb).2⟩
    · rename_i hj
      exact (hleads j).mpr ⟨h.beats j hb,fun he => absurd he hj⟩
  · rw [hqu,Function.update_apply] at hmsg
    split at hmsg
    · rename_i hj
      subst hj
      exact h.flight j msg (List.mem_of_mem_eraseIdx hmsg)
    · exact h.flight j msg hmsg
  · refine (hleads m).mpr ⟨h.least,fun _ => ?_⟩
    rw [h.ids m]
    exact hid

/-- A tab that posted its heartbeat: it leads. -/
theorem Settling.posts {σ s s' : State n} {m i : Fin n} (h : Settling σ m s)
    (hb : (s.tabs i).heartbeatTimer = true) (ht : s'.tabs = s.tabs)
    (hqu : ∀ j, s'.queue j = if j ≠ i ∧ (s.tabs j).channel = true
      then s.queue j ++ (s.tabs i).broadcast (s.beat i) else s.queue j) : Settling σ m s' := by
  refine ⟨fun j => ht ▸ h.channel j,fun j => ht ▸ h.ids j,fun j hj => ?_,fun j hj => ?_,
    fun j msg hmsg => ?_,?_⟩
  · rw [State.Leads,ht] at hj
    exact h.leaders j hj
  · rw [ht] at hj
    rw [State.Leads,ht]
    exact h.beats j hj
  · rw [hqu] at hmsg
    split at hmsg
    · rcases List.mem_append.mp hmsg with hold | hnew
      · exact h.flight j msg hold
      · refine ⟨i,h.leaders i (h.beats i hb),?_⟩
        rw [Tab.broadcast,if_pos (h.beats i hb).1,List.mem_singleton] at hnew
        rw [hnew]
        exact h.beat_eq i
    · exact h.flight j msg hmsg
  · rw [State.Leads,ht]
    exact h.least

theorem Settling.step {σ s s' : State n} {m : Fin n} {e : Event n} (h : Settling σ m s)
    (hm : ∀ j, σ.Leads j → (σ.tabs m).myId ≤ (σ.tabs j).myId) (hq : e.quiet = true)
    (hs : s.step e = some s') : Settling σ m s' := by
  obtain ⟨i,k,id,_,hk,ht,hqu⟩ | ⟨i,_,hb,ht,hqu⟩ := State.step_quiet hs hq h.heartbeats
  · exact h.hears hm hk ht hqu
  · exact h.posts hb ht hqu

/-- Every other leader still has the heartbeat of `m` before it. -/
def Warned (σ : State n) (m : Fin n) (s : State n) : Prop :=
  ∀ j, j ≠ m → s.Leads j → σ.beat m ∈ s.queue j

/-- Once `m` has posted a heartbeat, the other leaders are warned. -/
theorem Warned.posted {σ s s' : State n} {m : Fin n} (h : Settling σ m s)
    (ht : s'.tabs = s.tabs)
    (hqu : ∀ j, s'.queue j = if j ≠ m ∧ (s.tabs j).channel = true
      then s.queue j ++ (s.tabs m).broadcast (s.beat m) else s.queue j) : Warned σ m s' := by
  intro j hj hl
  rw [State.Leads,ht] at hl
  rw [hqu,if_pos ⟨hj,hl.1⟩,Tab.broadcast,if_pos h.least.1,h.beat_eq]
  exact List.mem_append_right _ List.mem_cons_self

/-- A warned leader stays warned until it steps down. -/
theorem Warned.step {σ s s' : State n} {m : Fin n} {e : Event n} (hw : Warned σ m s)
    (h : Settling σ m s) (hm : ∀ j, σ.Leads j → j ≠ m → (σ.tabs m).myId < (σ.tabs j).myId)
    (hq : e.quiet = true) (hs : s.step e = some s') : Warned σ m s' := by
  intro j hj hl
  obtain ⟨i,k,id,_,hk,ht,hqu⟩ | ⟨i,_,_,ht,hqu⟩ := State.step_quiet hs hq h.heartbeats
  · rw [State.Leads,ht] at hl
    rw [hqu]
    by_cases hji : j = i
    · subst hji
      rw [Function.update_self] at hl ⊢
      rw [Tab.hears_channel,Tab.hears_isLeaderFlag] at hl
      have hlj : s.Leads j := ⟨hl.1,hl.2.1⟩
      -- the message that was handled is not the warning: `j` still leads
      have hne : (s.queue j)[k]? ≠ some (σ.beat m) := by
        intro he
        rw [hk,Option.some.injEq,State.beat,LeaderMessage.heartbeat.injEq] at he
        have hle := hl.2.2
        rw [he,h.ids j] at hle
        exact absurd (hm j (h.leaders j hlj) hj) (not_lt.mpr hle)
      obtain ⟨l,he⟩ := List.mem_iff_getElem?.mp (hw j hj hlj)
      refine List.mem_eraseIdx_iff_getElem?.mpr ⟨l,fun hlk => ?_,he⟩
      subst hlk
      exact hne he
    · rw [Function.update_of_ne hji] at hl ⊢
      exact hw j hj hl
  · rw [State.Leads,ht] at hl
    rw [hqu]
    split
    · exact List.mem_append_left _ (hw j hj hl)
    · exact hw j hj hl

/-- Every quiet run keeps the smallest leader, and has warned the others once it has beaten. -/
theorem settling_of_runs {σ s : State n} {m : Fin n} {es : List (Event n)}
    (hr : RunsWhen State.step (fun _ e => e.quiet = true) σ es s) (h : Settling σ m σ)
    (hm : ∀ j, σ.Leads j → j ≠ m → (σ.tabs m).myId < (σ.tabs j).myId) :
    Settling σ m s ∧ (Event.heartbeat m ∈ es → Warned σ m s) := by
  have hle : ∀ j, σ.Leads j → (σ.tabs m).myId ≤ (σ.tabs j).myId := by
    intro j hj
    by_cases hjm : j = m
    · rw [hjm]
    · exact (hm j hj hjm).le
  refine hr.history (P := fun es s => Settling σ m s ∧ (Event.heartbeat m ∈ es → Warned σ m s))
    ⟨h,fun hf => by cases hf⟩ ?_
  intro fs t u e _ ⟨ht,hw⟩ hq he
  refine ⟨ht.step hle hq he,fun hmem => ?_⟩
  by_cases hf : Event.heartbeat m ∈ fs
  · exact (hw hf).step ht hm hq he
  · have heq : e = .heartbeat m := by
      rcases List.mem_append.mp hmem with h' | h'
      · exact absurd h' hf
      · exact (List.mem_singleton.mp h').symm
    subst heq
    obtain ⟨i,k,id,he',_⟩ | ⟨i,he',_,htabs,hqu⟩ := State.step_quiet he hq ht.heartbeats
    · cases he'
    · cases he'
      exact Warned.posted ht htabs hqu

open Classical in
/-- Of several leaders, one has the smallest id. -/
theorem exists_least {σ : State n} (hlead : ∃ i, σ.Leads i) :
    ∃ m, σ.Leads m ∧ ∀ j, σ.Leads j → (σ.tabs m).myId ≤ (σ.tabs j).myId := by
  obtain ⟨i,hi⟩ := hlead
  obtain ⟨m,hm,hle⟩ := Finset.exists_min_image (Finset.univ.filter σ.Leads)
    (fun j => (σ.tabs j).myId) ⟨i,by simpa using hi⟩
  exact ⟨m,by simpa using hm,fun j hj => hle j (by simpa using hj)⟩

/-- The tabs come to one leader. From any state in which the leaders have different ids, no tab
beats without leading and the messages on their way are heartbeats of leaders: after any run of
heartbeats and deliveries in which whoever still leads has beaten and all messages are handled,
the leader with the smallest id leads, and no other tab does. -/
theorem one_leader {σ s : State n} {es : List (Event n)}
    (hr : Runs State.step σ es s) (hq : ∀ e ∈ es, e.quiet = true)
    (hid : ∀ i j, σ.Leads i → σ.Leads j → (σ.tabs i).myId = (σ.tabs j).myId → i = j)
    (hb : ∀ i, (σ.tabs i).heartbeatTimer = true → σ.Leads i)
    (hf : ∀ i, ∀ msg ∈ σ.queue i, ∃ j, σ.Leads j ∧ msg = .heartbeat (σ.tabs j).myId)
    (hlead : ∃ i, σ.Leads i) (hbeat : ∀ i, s.Leads i → Event.heartbeat i ∈ es)
    (hdone : ∀ i, s.queue i = []) :
    ∃ m, (σ.Leads m ∧ ∀ j, σ.Leads j → (σ.tabs m).myId ≤ (σ.tabs j).myId) ∧
      ∀ j, s.Leads j ↔ j = m := by
  obtain ⟨m,hm,hle⟩ := exists_least hlead
  have hlt : ∀ j, σ.Leads j → j ≠ m → (σ.tabs m).myId < (σ.tabs j).myId := fun j hj hjm =>
    lt_of_le_of_ne (hle j hj) (fun he => hjm (hid m j hm hj he).symm)
  have hσ : Settling σ m σ := ⟨fun _ => rfl,fun _ => rfl,fun _ h => h,hb,hf,hm⟩
  obtain ⟨hs,hw⟩ := settling_of_runs (RunsWhen.guarded hr (fun e he _ => hq e he)) hσ hlt
  refine ⟨m,⟨hm,hle⟩,fun j => ⟨fun hj => ?_,fun hj => hj ▸ hs.least⟩⟩
  by_contra hjm
  have hmem := hw (hbeat m hs.least) j hjm hj
  rw [hdone j] at hmem
  cases hmem

/-- Two tabs claim the role before they hear of each other. -/
def claimedTwice : State 2 :=
  after State.step (State.start 2) [.init 0 "b",.init 1 "a",.claim 0,.claim 1]

/-- The first tab steps down at once; the second hears a late heartbeat of it and stays. -/
def settling : List (Event 2) := [.deliver 0 0,.heartbeat 1,.deliver 1 0,.deliver 0 0]

theorem one_leader_two_tabs :
    ∃ m, (claimedTwice.Leads m ∧
        ∀ j, claimedTwice.Leads j → (claimedTwice.tabs m).myId ≤ (claimedTwice.tabs j).myId) ∧
      ∀ j, (after State.step claimedTwice settling).Leads j ↔ j = m :=
  one_leader (runs_after (by decide) : Runs State.step claimedTwice settling _) (by decide)
    (by decide) (by decide) (by decide) (by decide) (by decide) (by decide)

end MiniDiscord.LeaderElection
