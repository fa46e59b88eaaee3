import MiniDiscord.Client.ChatSocket

/-! # Events of superseded sockets

What an event of a socket that is no longer the current one does to the connection. The
handlers do not ask whose they are, so such an event leaves the connection alone only if
there is nothing for it to change.
-/
namespace MiniDiscord.ChatSocket
open ChatHub Transition

/-- What a socket's events may change for the whole client. -/
structure Connection where
  pending : Option (ℕ × PendingCommand)
  queue : List Command
  connectionPromise : Option ConnectionPromise
  reconnectAttempt : ℕ
  reconnectTimer : Option ℕ
  isOpen : Bool
  phases : List ReconnectPhase

def State.connection (s : State) : Connection :=
  ⟨s.pending,s.queue,s.connectionPromise,s.reconnectAttempt,s.reconnectTimer,s.isOpen,s.phases⟩

/-- There is nothing the event could change. -/
def Inert (s : State) : Event → Prop
  | .onopen n => s.connectionPromise = none ∧ s.waiting n = 0
  | .onerror n => s.connectionPromise = none ∧
      (s.waiting n = 0 ∨ s.closedByUser = true ∨ s.reconnectTimer ≠ none)
  | .onclose _ => s.closedByUser = true
  | .onmessage _ r => ∀ p ∈ s.pending, r.settles p.2 = false
  | _ => True

namespace State
variable {s t : State} {n m : SocketID}

/-! ## What the operations do -/

theorem flushQueue_cases (s : State) : s.flushQueue = s ∧
      (s.isOpen = true → s.pending = none → s.queue = []) ∨
    ∃ cmd rest, s.pending = none ∧ s.queue = cmd :: rest ∧ s.isOpen = true ∧ s.flushQueue = { s with
      pending := some (s.nextRequestId,pendingCommand (requestId s.nextRequestId) cmd)
      queue := rest
      nextRequestId := s.nextRequestId + 1 } := by
  unfold flushQueue
  split
  · rename_i cmd rest hp hq
    split
    · rename_i ho
      exact Or.inr ⟨cmd,rest,hp,hq,ho,rfl⟩
    · rename_i ho
      exact Or.inl ⟨rfl,fun h => absurd h ho⟩
  · rename_i hno
    refine Or.inl ⟨rfl,fun _ hp => ?_⟩
    cases hq : s.queue with
    | nil => rfl
    | cons cmd rest => exact (hno cmd rest hp hq).elim

theorem flushQueue_of_flushed (h : s.isOpen = true → s.pending = none → s.queue = []) :
    s.flushQueue = s := by
  rcases flushQueue_cases s with ⟨heq,-⟩ | ⟨cmd,rest,hp,hq,ho,-⟩
  · exact heq
  · rw [h ho hp] at hq
    cases hq

theorem isOpen_congr (hs : t.socket = s.socket)
    (hr : ∀ m, s.socket = some m → t.readyState m = s.readyState m) : t.isOpen = s.isOpen := by
  unfold isOpen
  rw [hs]
  cases hk : s.socket with
  | none => rfl
  | some m => simp only [hr m hk]

/-- The state of another socket is not the state of the connection. -/
theorem isOpen_setReadyState (r : ReadyState) (h : s.socket ≠ some n) :
    (s.setReadyState n r).isOpen = s.isOpen := by
  refine isOpen_congr rfl (fun m hm => ?_)
  have hne : n ≠ m := fun heq => h (by rw [hm,heq])
  simp only [readyState, setReadyState, List.getElem?_modify, if_neg hne, id_map']

theorem isOpen_of_setReadyState {r : ReadyState} (hr : r ≠ .open)
    (h : (s.setReadyState n r).isOpen = true) : s.isOpen = true := by
  by_cases hn : s.socket = some n
  · unfold isOpen at h
    have hsocket : (s.setReadyState n r).socket = some n := hn
    rw [hsocket] at h
    simp only [readyState, setReadyState, List.getElem?_modify_eq, decide_eq_true_eq,
      Option.map_eq_some_iff] at h
    obtain ⟨k,hk,heq⟩ := h
    cases hn' : s.sockets[n]? with
    | none => simp [hn'] at hk
    | some k' =>
      simp only [hn', Option.map_eq_map, Option.map_some, Option.some.injEq] at hk
      rw [← hk] at heq
      exact absurd heq hr
  · rwa [isOpen_setReadyState r hn] at h

theorem readyState_modify_waiting (f : ℕ → ℕ) : State.readyState { s with
      sockets := s.sockets.modify n (fun k => { k with waiting := f k.waiting }) } m =
    s.readyState m := by
  simp only [readyState, List.getElem?_modify]
  cases s.sockets[m]? with
  | none => rfl
  | some k => by_cases h : n = m <;> simp [h]

theorem isOpen_modify_waiting (f : ℕ → ℕ) : State.isOpen { s with
      sockets := s.sockets.modify n (fun k => { k with waiting := f k.waiting }) } = s.isOpen :=
  isOpen_congr rfl (fun _ _ => readyState_modify_waiting f)

theorem isOpen_settle : (s.settle n).isOpen = s.isOpen := isOpen_modify_waiting (fun _ => 0)

theorem connection_settle : (s.settle n).connection = s.connection := by
  unfold connection
  rw [isOpen_settle]
  rfl

theorem waiting_setReadyState (r : ReadyState) : (s.setReadyState n r).waiting m = s.waiting m := by
  simp only [waiting, setReadyState, List.getElem?_modify]
  cases s.sockets[m]? with
  | none => rfl
  | some k => by_cases h : n = m <;> simp [h]

theorem phases_reconnected (k : ℕ) :
    (reconnected^[k] s).phases = s.phases ++ List.replicate k .restored := by
  induction k with
  | zero => exact (List.append_nil _).symm
  | succ k ih =>
    rw [Function.iterate_succ_apply',List.replicate_succ',← List.append_assoc,← ih]
    rfl

theorem scheduleReconnect_of_set (h : s.closedByUser = true ∨ s.reconnectTimer ≠ none) :
    s.scheduleReconnect = s := if_pos h

/-- However many call it, one timer is started. -/
theorem scheduleReconnect_iterate (k : ℕ) :
    scheduleReconnect^[k] s.scheduleReconnect = s.scheduleReconnect := by
  refine Function.iterate_fixed ?_ k
  by_cases h : s.closedByUser = true ∨ s.reconnectTimer ≠ none
  · rw [scheduleReconnect_of_set h,scheduleReconnect_of_set h]
  · refine scheduleReconnect_of_set (Or.inr ?_)
    rw [scheduleReconnect,if_neg h]
    exact Option.some_ne_none _

theorem connection_scheduleReconnect : s.scheduleReconnect.connection = s.connection ↔
    s.closedByUser = true ∨ s.reconnectTimer ≠ none := by
  constructor
  · intro h
    by_contra hno
    have htimer := congrArg Connection.reconnectTimer h
    rw [scheduleReconnect,if_neg hno] at htimer
    have hnone : s.reconnectTimer = none := not_not.mp (fun hne => hno (Or.inr hne))
    exact Option.some_ne_none _ (htimer.trans hnone)
  · intro h
    rw [scheduleReconnect_of_set h]

@[simp] theorem scheduleReconnect_connectionPromise :
    s.scheduleReconnect.connectionPromise = s.connectionPromise := by
  unfold scheduleReconnect
  split <;> rfl

@[simp] theorem scheduleReconnect_phases : s.scheduleReconnect.phases = s.phases := by
  unfold scheduleReconnect
  split <;> rfl

end State

/-! ## What holds in every state -/

/-- After `close` there is nothing left, until the next `connect`. -/
def Silent (s : State) : Prop := s.closedByUser = true →
  s.socket = none ∧ s.pending = none ∧ s.queue = [] ∧ s.connectionPromise = none ∧
    s.reconnectTimer = none

structure Inv (s : State) : Prop where
  flushed : s.isOpen = true → s.pending = none → s.queue = []
  numbered : ∀ p ∈ s.pending, p.1 < s.nextRequestId
  silent : Silent s

variable {s s' : State} {e : Event} {n : SocketID} {hasToken : Bool}

theorem inv_start : Inv start where
  flushed _ _ := rfl
  numbered _ h := by cases h
  silent h := by cases h

theorem inv_flushQueue (hn : ∀ p ∈ s.pending, p.1 < s.nextRequestId) (hs : Silent s) :
    Inv s.flushQueue := by
  rcases State.flushQueue_cases s with ⟨heq,hf⟩ | ⟨cmd,rest,hp,hq,ho,heq⟩
  · rw [heq]
    exact ⟨hf,hn,hs⟩
  · rw [heq]
    refine ⟨(fun _ h => by cases h),fun p hp => ?_,fun hc => ?_⟩
    · cases hp
      exact Nat.lt_succ_self _
    · obtain ⟨hnone,-⟩ := hs hc
      simp only [State.isOpen, hnone] at ho
      cases ho

theorem Inv.settle (h : Inv s) : Inv (s.settle n) where
  flushed ho := h.flushed (by rwa [State.isOpen_settle] at ho)
  numbered := h.numbered
  silent := h.silent

theorem Inv.reconnected (h : Inv s) : Inv s.reconnected := ⟨h.flushed,h.numbered,h.silent⟩

theorem Inv.scheduleReconnect (h : Inv s) : Inv s.scheduleReconnect := by
  by_cases hc : s.closedByUser = true ∨ s.reconnectTimer ≠ none
  · rwa [State.scheduleReconnect_of_set hc]
  · rw [State.scheduleReconnect,if_neg hc]
    exact ⟨h.flushed,h.numbered,fun hclosed => absurd (Or.inl hclosed) hc⟩

theorem Inv.iterate {f : State → State} (hf : ∀ {s}, Inv s → Inv (f s)) (h : Inv s) (k : ℕ) :
    Inv (f^[k] s) := by
  induction k with
  | zero => exact h
  | succ k ih =>
    rw [Function.iterate_succ_apply']
    exact hf ih

/-- A socket that does not open leaves less to flush. -/
theorem Inv.setReadyState (h : Inv s) {r : ReadyState} (hr : r ≠ .open) : Inv (s.setReadyState n r) where
  flushed ho := h.flushed (State.isOpen_of_setReadyState hr ho)
  numbered := h.numbered
  silent := h.silent

theorem Inv.connect (h : Inv s) : Inv (s.connect hasToken).1 := by
  unfold State.connect
  split
  · exact h
  · split
    · exact h
    · split
      · refine ⟨fun ho => ?_,h.numbered,fun hc => by cases hc⟩
        simp [State.isOpen, State.readyState] at ho
      · exact ⟨h.flushed,h.numbered,fun hc => by cases hc⟩

theorem Inv.reconnect (h : Inv s) : Inv (s.reconnect hasToken) := by
  have h' : Inv { s with reconnectTimer := none } :=
    ⟨h.flushed,h.numbered,fun hc => ⟨(h.silent hc).1,(h.silent hc).2.1,(h.silent hc).2.2.1,
      (h.silent hc).2.2.2.1,rfl⟩⟩
  have hconn : Inv (State.connect { s with reconnectTimer := none } hasToken).1 := h'.connect
  unfold State.reconnect
  split
  · rename_i t heq
    rw [heq] at hconn
    exact hconn.reconnected
  · rename_i t n heq
    rw [heq] at hconn
    exact ⟨fun ho => hconn.flushed ((State.isOpen_modify_waiting (· + 1)).symm.trans ho),
      hconn.numbered,hconn.silent⟩
  · rename_i t heq
    rw [heq] at hconn
    exact hconn.scheduleReconnect

theorem inv_close (s : State) : Inv s.close := by
  unfold State.close
  dsimp only
  split
  · rename_i hnone
    exact ⟨fun _ _ => rfl,(fun _ h => by cases h),fun _ => ⟨hnone,rfl,rfl,rfl,rfl⟩⟩
  · split <;> exact ⟨fun _ _ => rfl,(fun _ h => by cases h),fun _ => ⟨rfl,rfl,rfl,rfl,rfl⟩⟩

theorem Inv.receive (h : Inv s) (r : Received) : Inv (s.receive r) := by
  unfold State.receive
  split
  · exact h
  · split
    · exact inv_flushQueue (fun _ hp => by cases hp)
        (fun hc => ⟨(h.silent hc).1,rfl,(h.silent hc).2.2⟩)
    · exact h

theorem Silent.promise (h : Silent s) : Silent { s with connectionPromise := none } := fun hc =>
  ⟨(h hc).1,(h hc).2.1,(h hc).2.2.1,rfl,(h hc).2.2.2.2⟩

theorem step_inv (h : Inv s) (he : step s e = some s') : Inv s' := by
  cases e with
  | connect hasToken =>
    obtain rfl := Option.some.inj he
    exact h.connect
  | close =>
    obtain rfl := Option.some.inj he
    exact inv_close s
  | sendCommand cmd =>
    simp only [step] at he
    split at he <;> obtain rfl := Option.some.inj he
    · rename_i ho
      refine inv_flushQueue h.numbered (fun hc => ?_)
      simp only [State.isOpen, (h.silent hc).1] at ho
      cases ho
    · exact h
  | timeout =>
    simp only [step] at he
    split at he
    · cases he
    · obtain rfl := Option.some.inj he
      exact inv_flushQueue (fun _ hp => by cases hp)
        (fun hc => ⟨(h.silent hc).1,rfl,(h.silent hc).2.2⟩)
  | reconnectTimer hasToken =>
    simp only [step] at he
    split at he
    · cases he
    · obtain rfl := Option.some.inj he
      exact h.reconnect
  | closing n =>
    simp only [step] at he
    split at he
    · obtain rfl := Option.some.inj he
      exact h.setReadyState (by simp)
    · cases he
  | onopen n =>
    simp only [step] at he
    split at he
    · obtain rfl := Option.some.inj he
      have hflush : Inv { s.setReadyState n .open with connectionPromise := none }.flushQueue :=
        inv_flushQueue h.numbered (Silent.promise h.silent)
      exact hflush.settle.iterate (fun h => h.reconnected) _
    · cases he
  | onerror n =>
    simp only [step] at he
    split at he
    · cases he
    · cases he
    · cases he
    · obtain rfl := Option.some.inj he
      have hset : Inv (s.setReadyState n .failed) := h.setReadyState (by simp)
      have hprom : Inv { s.setReadyState n .failed with connectionPromise := none } :=
        ⟨hset.flushed,hset.numbered,hset.silent.promise⟩
      exact hprom.settle.iterate (fun h => h.scheduleReconnect) _
  | onclose n =>
    simp only [step] at he
    have hrej : Inv { s.setReadyState n .closed with connectionPromise := none }.rejectAllPending :=
      ⟨fun _ _ => rfl,(fun _ h => by cases h),
        fun hc => ⟨(h.silent hc).1,rfl,rfl,rfl,(h.silent hc).2.2.2.2⟩⟩
    split at he
    · cases he
    · cases he
    · split at he <;> obtain rfl := Option.some.inj he
      · exact hrej
      · exact Inv.scheduleReconnect ⟨hrej.flushed,hrej.numbered,hrej.silent⟩
  | onmessage n r =>
    simp only [step] at he
    split at he
    · obtain rfl := Option.some.inj he
      exact h.receive r
    · cases he

/-! ## Events of superseded sockets -/

section Superseded

theorem connection_of_setReadyState (r : ReadyState) (h : s.socket ≠ some n) :
    (s.setReadyState n r).connection = s.connection := by
  unfold State.connection
  rw [State.isOpen_setReadyState r h]
  rfl

/-- The promise is given up. -/
theorem connection_promise : State.connection { s with connectionPromise := none } = s.connection ↔
    s.connectionPromise = none := by
  constructor
  · intro h
    exact (congrArg Connection.connectionPromise h).symm
  · intro h
    change Connection.mk s.pending s.queue none _ _ s.isOpen _ = _
    rw [State.connection,h]

theorem connection_resolve : (s.resolve n).connection = s.connection ↔ s.waiting n = 0 := by
  unfold State.resolve
  constructor
  · intro h
    have hphases := congrArg (fun c => c.phases.length) h
    simp only [State.connection, State.phases_reconnected, List.length_append,
      List.length_replicate] at hphases
    change s.phases.length + s.waiting n = s.phases.length at hphases
    omega
  · intro h
    rw [h]
    exact State.connection_settle

theorem connection_reject : (s.reject n).connection = s.connection ↔
    s.waiting n = 0 ∨ s.closedByUser = true ∨ s.reconnectTimer ≠ none := by
  unfold State.reject
  cases hw : s.waiting n with
  | zero => simp only [Function.iterate_zero, id_eq, State.connection_settle, true_or]
  | succ k =>
    rw [Function.iterate_succ_apply,State.scheduleReconnect_iterate,
      ← State.connection_settle (s := s) (n := n),State.connection_scheduleReconnect]
    simp only [Nat.succ_ne_zero, false_or]
    rfl

theorem connection_receive (h : Inv s) (r : Received) :
    (s.receive r).connection = s.connection ↔ ∀ p ∈ s.pending, r.settles p.2 = false := by
  unfold State.receive
  cases hp : s.pending with
  | none => simp
  | some p =>
    obtain ⟨k,p⟩ := p
    dsimp only
    by_cases hset : r.settles p = true
    · have hne : ¬ (State.flushQueue { s with pending := none }).connection = s.connection := by
        intro heq
        have hpend := congrArg Connection.pending heq
        change (State.flushQueue { s with pending := none }).pending = s.pending at hpend
        rcases State.flushQueue_cases { s with pending := none } with ⟨hf,-⟩ | ⟨cmd,rest,-,-,-,hf⟩
        · rw [hf,hp] at hpend
          cases hpend
        · rw [hf,hp] at hpend
          -- the command sent next has a higher number
          have hk : s.nextRequestId = k := congrArg Prod.fst (Option.some.inj hpend)
          have hlt := h.numbered (k,p) hp
          omega
      simp [hset, hne]
    · simp [hset]

/-- Giving the promise up and then settling another one. -/
theorem connection_both {t : State} {f : State → State} {P : Prop}
    (hf : (f { t with connectionPromise := none }).connectionPromise = none)
    (hiff : (f { t with connectionPromise := none }).connection =
      State.connection { t with connectionPromise := none } ↔ P) :
    (f { t with connectionPromise := none }).connection = t.connection ↔
      t.connectionPromise = none ∧ P := by
  constructor
  · intro h
    have hnone : t.connectionPromise = none := (congrArg Connection.connectionPromise h).symm.trans hf
    exact ⟨hnone,hiff.mp (h.trans (connection_promise.mpr hnone).symm)⟩
  · rintro ⟨hnone,hp⟩
    exact (hiff.mpr hp).trans (connection_promise.mpr hnone)

theorem connectionPromise_resolve : (s.resolve n).connectionPromise = s.connectionPromise := by
  unfold State.resolve
  induction s.waiting n with
  | zero => rfl
  | succ k ih =>
    rw [Function.iterate_succ_apply']
    exact ih

theorem connectionPromise_reject : (s.reject n).connectionPromise = s.connectionPromise := by
  unfold State.reject
  induction s.waiting n with
  | zero => rfl
  | succ k ih =>
    rw [Function.iterate_succ_apply',State.scheduleReconnect_connectionPromise]
    exact ih

theorem superseded_onopen (h : Inv s) (hs : s.socket ≠ some n) :
    ({ s.setReadyState n .open with connectionPromise := none }.flushQueue.resolve n).connection =
      s.connection ↔ Inert s (.onopen n) := by
  have hflush : State.flushQueue { s.setReadyState n .open with connectionPromise := none } =
      { s.setReadyState n .open with connectionPromise := none } := by
    refine State.flushQueue_of_flushed (fun ho => h.flushed ?_)
    rw [← State.isOpen_setReadyState .open hs]
    exact ho
  rw [hflush,← connection_of_setReadyState .open hs]
  refine (connection_both (f := fun s => s.resolve n) connectionPromise_resolve connection_resolve).trans ?_
  change _ ∧ (s.setReadyState n .open).waiting n = 0 ↔ _
  rw [State.waiting_setReadyState]
  exact Iff.rfl

theorem superseded_onerror (hs : s.socket ≠ some n) :
    (State.reject { s.setReadyState n .failed with connectionPromise := none } n).connection =
      s.connection ↔ Inert s (.onerror n) := by
  rw [← connection_of_setReadyState .failed hs]
  refine (connection_both (f := fun s => s.reject n) connectionPromise_reject connection_reject).trans ?_
  change _ ∧ ((s.setReadyState n .failed).waiting n = 0 ∨ _) ↔ _
  rw [State.waiting_setReadyState]
  exact Iff.rfl

/-- Only after `close` a close event has nothing to reject and reports nothing. -/
theorem superseded_onclose (h : Inv s) (hs : s.socket ≠ some n)
    (he : step s (.onclose n) = some s') : s'.connection = s.connection ↔ s.closedByUser = true := by
  simp only [step] at he
  split at he
  · cases he
  · cases he
  split at he <;> rename_i hc <;> obtain rfl := Option.some.inj he
  · obtain ⟨-,hp,hq,hprom,-⟩ := h.silent hc
    refine iff_of_true ?_ hc
    rw [← connection_of_setReadyState .closed hs]
    simp only [State.connection, State.rejectAllPending]
    change Connection.mk none [] none _ _ _ _ = ⟨s.pending,s.queue,s.connectionPromise,_,_,_,_⟩
    rw [hp,hq,hprom]
    rfl
  · refine iff_of_false (fun heq => ?_) hc
    have hphases := congrArg (fun c => c.phases.length) heq
    change (State.scheduleReconnect _).phases.length = _ at hphases
    rw [State.scheduleReconnect_phases] at hphases
    change (s.phases ++ [_]).length = s.phases.length at hphases
    rw [List.length_append,List.length_singleton] at hphases
    omega

/-- In every state that any events lead to, an event of a socket that is not the current one
leaves the connection as it is if and only if there is nothing it could change. -/
theorem superseded_inert {es : List Event} (h : Runs step start es s) (hn : e.socket = some n)
    (hs : s.socket ≠ some n) (he : step s e = some s') :
    s'.connection = s.connection ↔ Inert s e := by
  have hinv : Inv s := h.invariant inv_start (fun hs _ he => step_inv hs he)
  cases e with
  | closing m =>
    obtain rfl := Option.some.inj hn
    simp only [step] at he
    split at he
    · obtain rfl := Option.some.inj he
      exact iff_of_true (connection_of_setReadyState .closing hs) trivial
    · cases he
  | onopen m =>
    obtain rfl := Option.some.inj hn
    simp only [step] at he
    split at he
    · obtain rfl := Option.some.inj he
      exact superseded_onopen hinv hs
    · cases he
  | onerror m =>
    obtain rfl := Option.some.inj hn
    simp only [step] at he
    split at he
    · cases he
    · cases he
    · cases he
    · obtain rfl := Option.some.inj he
      exact superseded_onerror hs
  | onclose m =>
    obtain rfl := Option.some.inj hn
    exact superseded_onclose hinv hs he
  | onmessage m r =>
    simp only [step] at he
    split at he
    · obtain rfl := Option.some.inj he
      exact connection_receive hinv r
    · cases he
  | _ => cases hn

/-- A socket that was open is closed; its close event comes while there is no other. -/
theorem superseded_inert_closed :
    let s := after step start [.connect true, .onopen 0, .close]
    (after step s [.onclose 0]).connection = s.connection :=
  (superseded_inert (n := 0) (runs_after (by decide +kernel)) rfl (by decide +kernel)
    (step_after (by decide +kernel))).mpr
    (show (after step start [.connect true, .onopen 0, .close]).closedByUser = true by decide +kernel)

/-- It comes when the next socket is open and a command is under way. -/
def closedLate : List Event :=
  [.connect true, .onopen 0, .close, .connect true, .onopen 1, .sendCommand .getServers]

theorem superseded_rejects : ∃ s s', Runs step start closedLate s ∧ s.socket = some 1 ∧
    step s (.onclose 0) = some s' ∧ s.pending.isSome = true ∧ s'.pending = none ∧
    s'.socket = some 1 ∧ s'.isOpen = true ∧ s.reconnectTimer = none ∧ s'.reconnectTimer = some 500 ∧
    s'.phases = s.phases ++ [.lost] :=
  ⟨after step start closedLate,after step (after step start closedLate) [.onclose 0],
    runs_after (by decide +kernel),by decide +kernel,step_after (by decide +kernel),
    by decide +kernel⟩

end Superseded

end MiniDiscord.ChatSocket
