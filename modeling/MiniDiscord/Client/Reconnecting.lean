import MiniDiscord.Client.SupersededSockets

/-! # Reconnecting

From a `connect` with a token to `close` the client is never left without a connection and
without an attempt to come: the close of the current socket starts the timer, and each failed
attempt starts it again.
-/
namespace MiniDiscord.ChatSocket
open ChatHub Transition

variable {s s' t : State} {e : Event} {es fs : List Event} {n m : SocketID} {hasToken : Bool}

namespace State

/-! ## What the operations leave alone -/

/-- All but the commands. -/
structure Wire where
  sockets : List Socket
  socket : Option SocketID
  connectionPromise : Option ConnectionPromise
  reconnectTimer : Option ℕ
  closedByUser : Bool
  phases : List ReconnectPhase

def wire (s : State) : Wire :=
  ⟨s.sockets,s.socket,s.connectionPromise,s.reconnectTimer,s.closedByUser,s.phases⟩

@[simp] theorem wire_flushQueue : s.flushQueue.wire = s.wire := by
  rcases flushQueue_cases s with ⟨heq,-⟩ | ⟨cmd,rest,-,-,-,heq⟩ <;> rw [heq]
  rfl

@[simp] theorem wire_receive (r : Received) : (s.receive r).wire = s.wire := by
  unfold receive
  split
  · rfl
  · split
    · exact wire_flushQueue
    · rfl

theorem readyState_wire (h : t.wire = s.wire) (n : SocketID) : t.readyState n = s.readyState n := by
  have hsockets : t.sockets = s.sockets := congrArg Wire.sockets h
  unfold readyState
  rw [hsockets]

/-! ## The states of the sockets -/

theorem readyState_eq_none : s.readyState n = none ↔ s.sockets.length ≤ n := by
  rw [readyState,Option.map_eq_none_iff,List.getElem?_eq_none_iff]

theorem readyState_setReadyState (r : ReadyState) (n m : SocketID) :
    (s.setReadyState n r).readyState m =
      if n = m then (s.readyState m).map (fun _ => r) else s.readyState m := by
  simp only [readyState, setReadyState, List.getElem?_modify]
  by_cases h : n = m
  · simp only [if_pos h]
    cases s.sockets[m]? <;> rfl
  · simp only [if_neg h, id_map']

theorem readyState_set {r r' : ReadyState} (h : s.readyState n = some r') :
    (s.setReadyState n r).readyState n = some r := by
  rw [readyState_setReadyState,if_pos rfl,h]
  rfl

theorem readyState_set_of_ne {r : ReadyState} (h : n ≠ m) :
    (s.setReadyState n r).readyState m = s.readyState m := by
  rw [readyState_setReadyState,if_neg h]

theorem isOpen_iff : s.isOpen = true ↔ ∃ n, s.socket = some n ∧ s.readyState n = some .open := by
  unfold isOpen
  cases s.socket with
  | none => simp
  | some n => simp

/-! ## Settling a promise -/

theorem reconnected_iterate (k : ℕ) : reconnected^[k] s = { s with
      reconnectAttempt := if k = 0 then s.reconnectAttempt else 0
      phases := s.phases ++ List.replicate k .restored } := by
  induction k with
  | zero => simp
  | succ k ih =>
    rw [Function.iterate_succ_apply',ih]
    simp [reconnected, notify, List.replicate_succ']

theorem resolve_eq : s.resolve n = { s.settle n with
      reconnectAttempt := if s.waiting n = 0 then s.reconnectAttempt else 0
      phases := s.phases ++ List.replicate (s.waiting n) .restored } := reconnected_iterate _

theorem scheduleReconnect_cases (s : State) :
    (s.scheduleReconnect = s ∧ (s.closedByUser = true ∨ s.reconnectTimer ≠ none)) ∨
    (s.scheduleReconnect = { s with
        reconnectAttempt := s.reconnectAttempt + 1
        reconnectTimer := some (delay (s.reconnectAttempt + 1)) } ∧
      s.closedByUser = false ∧ s.reconnectTimer = none) := by
  by_cases h : s.closedByUser = true ∨ s.reconnectTimer ≠ none
  · exact Or.inl ⟨scheduleReconnect_of_set h,h⟩
  · refine Or.inr ⟨if_neg h,?_,?_⟩
    · exact Bool.eq_false_iff.mpr (fun hc => h (Or.inl hc))
    · exact not_not.mp (fun hne => h (Or.inr hne))

theorem reject_cases (s : State) (n : SocketID) : (s.reject n = s.settle n ∧ s.waiting n = 0) ∨
    s.reject n = (s.settle n).scheduleReconnect := by
  unfold reject
  cases s.waiting n with
  | zero => exact Or.inl ⟨rfl,rfl⟩
  | succ k => exact Or.inr (by rw [Function.iterate_succ_apply,scheduleReconnect_iterate])

theorem readyState_settle : (s.settle n).readyState m = s.readyState m :=
  readyState_modify_waiting (fun _ => 0)

/-- It is at least half a second and at most fifteen. -/
theorem delay_bounds (attempt : ℕ) : 500 ≤ delay attempt ∧ delay attempt ≤ 15000 := by
  have hpow : 1 ≤ 2 ^ (attempt - 1) := Nat.one_le_two_pow
  unfold delay
  omega

end State

/-! ## From `connect` to `close` -/

/-- The current socket has not been reported closed. -/
def Live (s : State) : Prop :=
  ∃ n r, s.socket = some n ∧ s.readyState n = some r ∧ r ≠ .closed

/-- The promise is about the current socket, and the timer keeps to its bounds. -/
structure Sustained (s : State) : Prop where
  promised : ∀ n, s.connectionPromise = some (.opening n) →
    s.socket = some n ∧ s.readyState n = some .connecting
  paced : ∀ d, s.reconnectTimer = some d → 500 ≤ d ∧ d ≤ 15000

theorem sustained_start : Sustained start where
  promised _ h := by cases h
  paced _ h := by cases h

theorem Sustained.congr (h : Sustained s) (hw : t.wire = s.wire) : Sustained t where
  promised n hn := by
    have hpromise : t.connectionPromise = s.connectionPromise := congrArg State.Wire.connectionPromise hw
    have hsocket : t.socket = s.socket := congrArg State.Wire.socket hw
    rw [hsocket,State.readyState_wire hw]
    exact h.promised n (hpromise ▸ hn)
  paced d hd := by
    have htimer : t.reconnectTimer = s.reconnectTimer := congrArg State.Wire.reconnectTimer hw
    exact h.paced d (htimer ▸ hd)

theorem Sustained.scheduleReconnect (h : Sustained s) : Sustained s.scheduleReconnect := by
  rcases State.scheduleReconnect_cases s with ⟨heq,-⟩ | ⟨heq,-⟩ <;> rw [heq]
  · exact h
  · refine ⟨h.promised,fun d hd => ?_⟩
    obtain rfl := Option.some.inj hd
    exact State.delay_bounds _

theorem Sustained.settle (h : Sustained s) : Sustained (s.settle n) where
  promised k hk := by
    rw [State.readyState_settle]
    exact h.promised k hk
  paced := h.paced

theorem Sustained.connect (h : Sustained s) : Sustained (s.connect hasToken).1 := by
  unfold State.connect
  split
  · exact h
  · split
    · exact h
    · split
      · refine ⟨fun n hn => ?_,h.paced⟩
        cases hn
        exact ⟨rfl,by simp [State.readyState]⟩
      · refine ⟨fun n hn => ?_,h.paced⟩
        cases hn

theorem Sustained.reconnect (h : Sustained s) : Sustained (s.reconnect hasToken) := by
  have htimer : Sustained { s with reconnectTimer := none } := ⟨h.promised,nofun⟩
  have hconn : Sustained (State.connect { s with reconnectTimer := none } hasToken).1 :=
    htimer.connect
  unfold State.reconnect
  split
  · rename_i t heq
    rw [heq] at hconn
    exact ⟨hconn.promised,hconn.paced⟩
  · rename_i t n heq
    rw [heq] at hconn
    refine ⟨fun m hm => ?_,hconn.paced⟩
    rw [State.readyState_modify_waiting (· + 1)]
    exact hconn.promised m hm
  · rename_i t heq
    rw [heq] at hconn
    exact hconn.scheduleReconnect

theorem sustained_close (s : State) : Sustained s.close := by
  unfold State.close
  dsimp only
  split
  · exact ⟨nofun,nofun⟩
  · split <;> exact ⟨nofun,nofun⟩

/-- A step of a socket's events gives the promise up. -/
theorem Sustained.giveUp (h : Sustained s) (hp : t.connectionPromise = none)
    (ht : t.reconnectTimer = s.reconnectTimer) : Sustained t where
  promised n hn := by
    rw [hp] at hn
    cases hn
  paced := by
    rw [ht]
    exact h.paced

theorem step_sustained (h : Sustained s) (he : step s e = some s') : Sustained s' := by
  cases e with
  | connect hasToken =>
    obtain rfl := Option.some.inj he
    exact h.connect
  | close =>
    obtain rfl := Option.some.inj he
    exact sustained_close s
  | sendCommand cmd =>
    simp only [step] at he
    split at he <;> obtain rfl := Option.some.inj he
    · exact h.congr State.wire_flushQueue
    · exact h
  | timeout =>
    simp only [step] at he
    split at he
    · cases he
    · obtain rfl := Option.some.inj he
      exact h.congr State.wire_flushQueue
  | reconnectTimer hasToken =>
    simp only [step] at he
    split at he
    · cases he
    · obtain rfl := Option.some.inj he
      exact h.reconnect
  | closing n =>
    simp only [step] at he
    split at he
    · rename_i hopen
      obtain rfl := Option.some.inj he
      refine ⟨fun m hm => ?_,h.paced⟩
      -- the promise is about a socket that has not opened
      obtain ⟨hsocket,hconn⟩ := h.promised m hm
      have hne : n ≠ m := by
        rintro rfl
        rw [hopen] at hconn
        cases hconn
      exact ⟨hsocket,(State.readyState_set_of_ne hne).trans hconn⟩
    · cases he
  | onopen n =>
    simp only [step] at he
    split at he
    · obtain rfl := Option.some.inj he
      have hset : Sustained { s.setReadyState n .open with connectionPromise := none } :=
        h.giveUp rfl rfl
      have hflush := (hset.congr State.wire_flushQueue).settle (n := n)
      rw [State.resolve_eq]
      exact ⟨hflush.promised,hflush.paced⟩
    · cases he
  | onerror n =>
    simp only [step] at he
    split at he
    · cases he
    · cases he
    · cases he
    · obtain rfl := Option.some.inj he
      have hset : Sustained { s.setReadyState n .failed with connectionPromise := none } :=
        h.giveUp rfl rfl
      rcases State.reject_cases { s.setReadyState n .failed with connectionPromise := none } n
        with ⟨heq,-⟩ | heq <;> rw [heq]
      · exact hset.settle
      · exact hset.settle.scheduleReconnect
  | onclose n =>
    simp only [step] at he
    split at he
    · cases he
    · cases he
    · split at he <;> obtain rfl := Option.some.inj he
      · exact h.giveUp rfl rfl
      · refine Sustained.scheduleReconnect ?_
        exact h.giveUp rfl rfl
  | onmessage n r =>
    simp only [step] at he
    split at he
    · obtain rfl := Option.some.inj he
      exact h.congr (State.wire_receive r)
    · cases he

/-- A socket was created, `close` was not called since, and there is a socket or an attempt to
come. -/
def Opened (s : State) : Prop := s.closedByUser = false ∧ (Live s ∨ s.reconnectTimer ≠ none)

theorem Opened.congr (h : Opened s) (hw : t.wire = s.wire) : Opened t := by
  have hclosed : t.closedByUser = s.closedByUser := congrArg State.Wire.closedByUser hw
  have hsocket : t.socket = s.socket := congrArg State.Wire.socket hw
  have htimer : t.reconnectTimer = s.reconnectTimer := congrArg State.Wire.reconnectTimer hw
  unfold Opened Live
  simp only [hclosed, hsocket, htimer, State.readyState_wire hw]
  exact h

theorem Opened.settle (h : Opened s) : Opened (s.settle n) := by
  refine ⟨h.1,h.2.imp ?_ id⟩
  rintro ⟨k,r,hk,hr,hopen⟩
  exact ⟨k,r,hk,State.readyState_settle.trans hr,hopen⟩

/-- A socket may go on to another state. -/
theorem Opened.setReadyState (h : Opened s) {r r' : ReadyState} (hn : s.readyState n = some r')
    (hr : r ≠ .closed) : Opened (s.setReadyState n r) := by
  refine ⟨h.1,h.2.imp ?_ id⟩
  rintro ⟨k,q,hk,hq,hopen⟩
  by_cases heq : n = k
  · subst heq
    exact ⟨n,r,hk,State.readyState_set hn,hr⟩
  · exact ⟨k,q,hk,(State.readyState_set_of_ne heq).trans hq,hopen⟩

/-- Whatever the client had, it has an attempt to come now. -/
theorem opened_scheduleReconnect (hc : s.closedByUser = false) : Opened s.scheduleReconnect := by
  rcases State.scheduleReconnect_cases s with ⟨heq,hset⟩ | ⟨heq,-⟩ <;> rw [heq]
  · exact ⟨hc,Or.inr (hset.resolve_left (by simp [hc]))⟩
  · exact ⟨hc,Or.inr (Option.some_ne_none _)⟩

theorem live_of_open (h : s.isOpen = true) : Live s := by
  obtain ⟨n,hn,hopen⟩ := State.isOpen_iff.mp h
  exact ⟨n,.open,hn,hopen,by simp⟩

theorem live_created (s : State) : Live { s with
    closedByUser := false
    sockets := s.sockets ++ [⟨.connecting,0⟩]
    socket := some s.sockets.length
    connectionPromise := some (.opening s.sockets.length) } :=
  ⟨s.sockets.length,.connecting,rfl,by simp [State.readyState],by simp⟩

theorem Opened.connect (h : Opened s) : Opened (s.connect hasToken).1 := by
  unfold State.connect
  split
  · exact h
  · split
    · exact h
    · split
      · exact ⟨rfl,Or.inl (live_created s)⟩
      · exact ⟨rfl,h.2⟩

/-- The attempt finds a socket or creates one, or starts the timer again. -/
theorem Opened.reconnect (h : Opened s) (hs : Sustained s) : Opened (s.reconnect hasToken) := by
  have hlive : ∀ t : State, ∀ n, State.connect { s with reconnectTimer := none } hasToken =
      (t,some (.opening n)) → t.closedByUser = false ∧ Live t := by
    intro t n heq
    unfold State.connect at heq
    split at heq
    · cases heq
    · split at heq
      · rename_i promise hp
        cases heq
        obtain ⟨hsocket,hconn⟩ := hs.promised n hp
        exact ⟨h.1,n,.connecting,hsocket,hconn,by simp⟩
      · split at heq
        · cases heq
          exact ⟨rfl,live_created { s with reconnectTimer := none }⟩
        · cases heq
  unfold State.reconnect
  split
  · rename_i t heq
    unfold State.connect at heq
    split at heq
    · rename_i ho
      cases heq
      exact ⟨h.1,Or.inl (live_of_open ho)⟩
    · split at heq
      · cases heq
      · split at heq <;> cases heq
  · rename_i t n heq
    obtain ⟨hc,k,r,hk,hr,hopen⟩ := hlive t n heq
    exact ⟨hc,Or.inl ⟨k,r,hk,(State.readyState_modify_waiting (· + 1)).trans hr,hopen⟩⟩
  · rename_i t heq
    refine opened_scheduleReconnect ?_
    unfold State.connect at heq
    split at heq
    · cases heq
    · split at heq
      · cases heq
        exact h.1
      · split at heq <;> cases heq
        rfl

theorem step_opened (h : Opened s) (hs : Sustained s) (hne : e ≠ .close) (he : step s e = some s') :
    Opened s' := by
  cases e with
  | connect hasToken =>
    obtain rfl := Option.some.inj he
    exact h.connect
  | close => exact absurd rfl hne
  | sendCommand cmd =>
    simp only [step] at he
    split at he <;> obtain rfl := Option.some.inj he
    · exact h.congr State.wire_flushQueue
    · exact h
  | timeout =>
    simp only [step] at he
    split at he
    · cases he
    · obtain rfl := Option.some.inj he
      exact h.congr State.wire_flushQueue
  | reconnectTimer hasToken =>
    simp only [step] at he
    split at he
    · cases he
    · obtain rfl := Option.some.inj he
      exact h.reconnect hs
  | closing n =>
    simp only [step] at he
    split at he
    · rename_i hopen
      obtain rfl := Option.some.inj he
      exact h.setReadyState hopen (by simp)
    · cases he
  | onopen n =>
    simp only [step] at he
    split at he
    · rename_i hconn
      obtain rfl := Option.some.inj he
      have hset : Opened { s.setReadyState n .open with connectionPromise := none } :=
        h.setReadyState hconn (by simp)
      have hflush := (hset.congr State.wire_flushQueue).settle (n := n)
      rw [State.resolve_eq]
      exact hflush
    · cases he
  | onerror n =>
    simp only [step] at he
    split at he
    · cases he
    · cases he
    · cases he
    · rename_i r _ _ hr
      obtain rfl := Option.some.inj he
      have hset : Opened { s.setReadyState n .failed with connectionPromise := none } :=
        h.setReadyState hr (by simp)
      rcases State.reject_cases { s.setReadyState n .failed with connectionPromise := none } n
        with ⟨heq,-⟩ | heq <;> rw [heq]
      · exact hset.settle
      · exact opened_scheduleReconnect hset.1
  | onclose n =>
    simp only [step] at he
    split at he
    · cases he
    · cases he
    · split at he <;> obtain rfl := Option.some.inj he
      · rename_i hclosed
        exact absurd (hclosed.symm.trans h.1) (by simp)
      · exact opened_scheduleReconnect h.1
  | onmessage n r =>
    simp only [step] at he
    split at he
    · obtain rfl := Option.some.inj he
      exact h.congr (State.wire_receive r)
    · cases he

/-- A call with a token opens the client, unless it is handed a promise that was rejected. -/
theorem opened_connect (h : Silent s) (hs : Sustained s)
    (hp : s.connectionPromise ≠ some .rejected) : Opened (s.connect true).1 := by
  have hopened : s.socket ≠ none → s.closedByUser = false := by
    intro hsocket
    exact Bool.eq_false_iff.mpr (fun hc => hsocket (h hc).1)
  unfold State.connect
  split
  · rename_i ho
    obtain ⟨n,hn,-⟩ := State.isOpen_iff.mp ho
    exact ⟨hopened (by rw [hn]; exact Option.some_ne_none _),Or.inl (live_of_open ho)⟩
  · split
    · rename_i promise hpromise
      cases promise with
      | opening n =>
        obtain ⟨hsocket,hconn⟩ := hs.promised n hpromise
        exact ⟨hopened (by rw [hsocket]; exact Option.some_ne_none _),
          Or.inl ⟨n,.connecting,hsocket,hconn,by simp⟩⟩
      | rejected => exact absurd hpromise hp
    · exact ⟨rfl,Or.inl (live_created s)⟩

/-- Once the page has connected with a token, and no rejected promise was left for it, there is a
socket whose close is still to come, or the timer of the next attempt runs, for fifteen seconds at
most: whatever the sockets and the tokens do, as long as `close` is not called. -/
theorem never_stranded (h : Runs step start es t) (hp : t.connectionPromise ≠ some .rejected)
    (hr : Runs step t (.connect true :: fs) s) (hclose : .close ∉ fs) :
    Live s ∨ ∃ d, s.reconnectTimer = some d ∧ 500 ≤ d ∧ d ≤ 15000 := by
  have hinv : Inv t ∧ Sustained t := h.invariant (P := fun s => Inv s ∧ Sustained s)
    ⟨inv_start,sustained_start⟩ (fun hs _ he => ⟨step_inv hs.1 he,step_sustained hs.2 he⟩)
  have hrun : Runs step (t.connect true).1 fs s := by
    cases hr with
    | step _ he hrest =>
      obtain rfl := Option.some.inj he
      exact hrest
  have hguarded : RunsWhen step (fun _ e => e ≠ .close) (t.connect true).1 fs s :=
    RunsWhen.guarded hrun (fun e he _ heq => hclose (heq ▸ he))
  have hend : Opened s ∧ Sustained s := hguarded.invariant (P := fun s => Opened s ∧ Sustained s)
    ⟨opened_connect hinv.1.silent hinv.2 hp,hinv.2.connect⟩
    (fun hs hne he => ⟨step_opened hs.1 hs.2 hne he,step_sustained hs.2 he⟩)
  rcases hend.1.2 with hlive | htimer
  · exact Or.inl hlive
  · obtain ⟨d,hd⟩ := Option.ne_none_iff_exists'.mp htimer
    exact Or.inr ⟨d,hd,hend.2.paced d hd⟩

/-- The token has expired when the first attempt is made, and the client is never given one
again before an old socket has closed. -/
def stranding : List Event :=
  [.onopen 0, .closing 0, .onerror 0, .onclose 0, .reconnectTimer false, .reconnectTimer true]

theorem never_stranded_after :
    let s := after step start (.connect true :: stranding)
    Live s ∨ ∃ d, s.reconnectTimer = some d ∧ 500 ≤ d ∧ d ≤ 15000 := by
  have hrun : Runs step start (.connect true :: stranding)
      (after step start (.connect true :: stranding)) := runs_after (by decide +kernel)
  exact never_stranded (RunsWhen.refl start) (by decide) hrun (by simp [stranding])

end MiniDiscord.ChatSocket
