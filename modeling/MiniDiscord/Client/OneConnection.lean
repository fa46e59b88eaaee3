import MiniDiscord.Client.Reconnecting

/-! # One connection

A page that connects once has one socket at a time, and what the reconnect listeners were told
last is how the connection is.
-/
namespace MiniDiscord.ChatSocket
open ChatHub Transition

variable {s s' t : State} {e : Event} {es : List Event} {n m : SocketID} {hasToken : Bool}

/-- The page connects when it has created the client, and never again. A browser reports that a
socket has failed and that it is closed in one task. -/
def PageUse (s : State) : Event → Prop
  | .connect _ => s.sockets = []
  | .reconnectTimer _ => s.socket.bind s.readyState ≠ some .failed
  | _ => True

instance (s : State) (e : Event) : Decidable (PageUse s e) := by
  cases e <;> unfold PageUse <;> infer_instance

/-- What holds of the current socket. -/
structure Told (s : State) (n : SocketID) : Prop where
  timed : s.reconnectTimer ≠ none → s.readyState n = some .failed ∨ s.readyState n = some .closed
  waiting : s.readyState n = some .connecting → s.waiting n = 1 ∨ s.waiting n = 0 ∧ s.phases = []
  lost : s.readyState n = some .open → s.phases.getLast? ≠ some .lost
  restored : s.phases.getLast? = some .restored →
    s.readyState n ≠ some .connecting ∧ s.readyState n ≠ some .closed

/-- All sockets but the last are closed. -/
structure OneSocket (s : State) : Prop where
  last : ∀ n, s.socket = some n → n + 1 = s.sockets.length
  held : s.closedByUser = false → s.sockets ≠ [] → s.socket ≠ none
  earlier : ∀ n, n + 1 < s.sockets.length → s.readyState n = some .closed
  told : ∀ n, s.socket = some n → Told s n
  fresh : s.sockets = [] → s.phases = [] ∧ s.reconnectTimer = none

theorem oneSocket_start : OneSocket start where
  last _ h := by cases h
  held _ h := absurd rfl h
  earlier _ h := absurd h (Nat.not_lt_zero _)
  told _ h := by cases h
  fresh _ := ⟨rfl,rfl⟩

theorem State.waiting_wire (h : t.wire = s.wire) (n : SocketID) : t.waiting n = s.waiting n := by
  have hsockets : t.sockets = s.sockets := congrArg State.Wire.sockets h
  unfold State.waiting
  rw [hsockets]

theorem Told.congr (h : Told s n) (hw : t.wire = s.wire) : Told t n := by
  have htimer : t.reconnectTimer = s.reconnectTimer := congrArg State.Wire.reconnectTimer hw
  have hphases : t.phases = s.phases := congrArg State.Wire.phases hw
  constructor <;> rw [State.readyState_wire hw]
  · rw [htimer]
    exact h.timed
  · rw [State.waiting_wire hw,hphases]
    exact h.waiting
  · rw [hphases]
    exact h.lost
  · rw [hphases]
    exact h.restored

theorem OneSocket.congr (h : OneSocket s) (hw : t.wire = s.wire) : OneSocket t := by
  have hsockets : t.sockets = s.sockets := congrArg State.Wire.sockets hw
  have hsocket : t.socket = s.socket := congrArg State.Wire.socket hw
  have htimer : t.reconnectTimer = s.reconnectTimer := congrArg State.Wire.reconnectTimer hw
  have hclosed : t.closedByUser = s.closedByUser := congrArg State.Wire.closedByUser hw
  have hphases : t.phases = s.phases := congrArg State.Wire.phases hw
  constructor
  · rw [hsockets,hsocket]
    exact h.last
  · rw [hclosed,hsockets,hsocket]
    exact h.held
  · simp only [hsockets, State.readyState_wire hw]
    exact h.earlier
  · rw [hsocket]
    exact fun n hn => (h.told n hn).congr hw
  · rw [hsockets,hphases,htimer]
    exact h.fresh

/-- A socket that is not closed is the last one. -/
theorem OneSocket.length_eq (h : OneSocket s) {r : ReadyState} (hn : s.readyState n = some r)
    (hr : r ≠ .closed) : n + 1 = s.sockets.length := by
  have hlt : n < s.sockets.length := by
    by_contra hge
    rw [State.readyState_eq_none.mpr (Nat.le_of_not_lt hge)] at hn
    cases hn
  by_contra hne
  rw [h.earlier n (Nat.lt_of_le_of_ne hlt hne)] at hn
  exact hr (Option.some.inj hn).symm

/-- While the client is not closed, it is the current one. -/
theorem OneSocket.current (h : OneSocket s) {r : ReadyState} (hn : s.readyState n = some r)
    (hr : r ≠ .closed) (hc : s.closedByUser = false) : s.socket = some n := by
  have hlen := h.length_eq hn hr
  have hne : s.sockets ≠ [] := by
    intro hnil
    rw [hnil] at hlen
    cases hlen
  obtain ⟨m,hm⟩ := Option.ne_none_iff_exists'.mp (h.held hc hne)
  rw [hm,Nat.succ.inj ((h.last m hm).trans hlen.symm)]

/-- Only the last socket goes on to another state. -/
theorem OneSocket.change (h : OneSocket s) (hlen : n + 1 = s.sockets.length)
    (hl : t.sockets.length = s.sockets.length) (hs : t.socket = s.socket)
    (hc : t.closedByUser = s.closedByUser)
    (hr : ∀ m, n ≠ m → t.readyState m = s.readyState m) (ht : s.socket = some n → Told t n) :
    OneSocket t where
  last m hm := by
    rw [hl]
    exact h.last m (hs ▸ hm)
  held hclosed hne := by
    rw [hs]
    refine h.held (hc ▸ hclosed) (fun hnil => ?_)
    rw [hnil] at hlen
    cases hlen
  earlier m hm := by
    rw [hl] at hm
    rw [hr m (by rintro rfl; exact absurd hlen (Nat.ne_of_lt hm))]
    exact h.earlier m hm
  told m hm := by
    rw [hs] at hm
    obtain rfl : m = n := Nat.succ.inj ((h.last m hm).trans hlen.symm)
    exact ht hm
  fresh hnil := by
    rw [hnil] at hl
    rw [← hl] at hlen
    cases hlen

/-! ## The handlers -/

theorem length_setReadyState (r : ReadyState) :
    (s.setReadyState n r).sockets.length = s.sockets.length := List.length_modify ..

theorem length_settle : (s.settle n).sockets.length = s.sockets.length := List.length_modify ..

theorem OneSocket.closing (h : OneSocket s) (hn : s.readyState n = some .open) :
    OneSocket (s.setReadyState n .closing) := by
  refine h.change (h.length_eq hn (by simp)) (length_setReadyState _) rfl rfl
    (fun m hm => State.readyState_set_of_ne hm) (fun hs => ?_)
  have htold := h.told n hs
  constructor <;> rw [State.readyState_set hn]
  · intro htimer
    rcases htold.timed htimer with hr | hr <;> rw [hn] at hr <;> cases hr
  · intro hr
    cases hr
  · intro hr
    cases hr
  · simp

/-- The scheduled reconnect tells that the connection is restored; at first nobody waits. -/
theorem OneSocket.onopen (h : OneSocket s) (hn : s.readyState n = some .connecting) :
    OneSocket (({ s.setReadyState n .open with connectionPromise := none } : State).resolve n) := by
  have hopen : ∀ m, (({ s.setReadyState n .open with
      connectionPromise := none } : State).resolve n).readyState m =
        (s.setReadyState n .open).readyState m := by
    intro m
    rw [State.resolve_eq]
    exact State.readyState_settle (s := { s.setReadyState n .open with connectionPromise := none })
  have hphases : (({ s.setReadyState n .open with connectionPromise := none } : State).resolve n).phases =
      s.phases ++ List.replicate (s.waiting n) .restored := by
    rw [State.resolve_eq]
    change s.phases ++ List.replicate ((s.setReadyState n .open).waiting n) _ = _
    rw [State.waiting_setReadyState]
  refine h.change (h.length_eq hn (by simp)) ?_ ?_ ?_ (fun m hm => ?_) (fun hs => ?_)
  · rw [State.resolve_eq]
    exact length_settle.trans (length_setReadyState _)
  · rw [State.resolve_eq]
    rfl
  · rw [State.resolve_eq]
    rfl
  · rw [hopen,State.readyState_set_of_ne hm]
  have htold := h.told n hs
  constructor <;> rw [hopen,State.readyState_set hn]
  · intro htimer
    rw [State.resolve_eq] at htimer
    rcases htold.timed htimer with hr | hr <;> rw [hn] at hr <;> cases hr
  · intro hr
    cases hr
  · intro _
    rw [hphases]
    rcases htold.waiting hn with hw | ⟨hw,hnil⟩
    · rw [hw]
      simp
    · rw [hw,hnil]
      simp
  · simp

theorem OneSocket.scheduleReconnect (h : OneSocket s) (hne : s.sockets ≠ [])
    (hr : ∀ n, s.socket = some n → s.readyState n = some .failed ∨ s.readyState n = some .closed) :
    OneSocket s.scheduleReconnect := by
  rcases State.scheduleReconnect_cases s with ⟨heq,-⟩ | ⟨heq,-⟩ <;> rw [heq]
  · exact h
  · refine ⟨h.last,h.held,h.earlier,fun n hn => ?_,fun hnil => absurd hnil hne⟩
    have htold := h.told n hn
    exact ⟨fun _ => hr n hn,htold.waiting,htold.lost,htold.restored⟩

/-- A socket that has failed is not open, and its close is still to come. -/
theorem OneSocket.onerror (h : OneSocket s) {r : ReadyState} (hn : s.readyState n = some r)
    (hr : r ≠ .closed) :
    OneSocket (({ s.setReadyState n .failed with connectionPromise := none } : State).reject n) := by
  have hlen := h.length_eq hn hr
  have hfailed : ∀ m, (({ s.setReadyState n .failed with
      connectionPromise := none } : State).settle n).readyState m =
        (s.setReadyState n .failed).readyState m := fun m =>
    State.readyState_settle (s := { s.setReadyState n .failed with connectionPromise := none })
  have hlength : (({ s.setReadyState n .failed with
      connectionPromise := none } : State).settle n).sockets.length = s.sockets.length :=
    length_settle.trans (length_setReadyState _)
  have hset : OneSocket (({ s.setReadyState n .failed with
      connectionPromise := none } : State).settle n) := by
    refine h.change hlen hlength rfl rfl (fun m hm => ?_) (fun hs => ?_)
    · rw [hfailed,State.readyState_set_of_ne hm]
    constructor <;> rw [hfailed,State.readyState_set hn] <;> simp
  rcases State.reject_cases { s.setReadyState n .failed with connectionPromise := none } n
    with ⟨heq,-⟩ | heq <;> rw [heq]
  · exact hset
  · refine hset.scheduleReconnect (fun hnil => ?_) (fun m hm => Or.inl ?_)
    · rw [hnil] at hlength
      rw [← hlength] at hlen
      cases hlen
    · obtain rfl : m = n := Nat.succ.inj ((h.last m hm).trans hlen.symm)
      rw [hfailed,State.readyState_set hn]

/-- The loss is told, and the timer runs. -/
theorem OneSocket.onclose (h : OneSocket s) (hs : Silent s) {r : ReadyState}
    (hn : s.readyState n = some r) (hr : r ≠ .closed) (he : step s (.onclose n) = some s') :
    OneSocket s' := by
  have hlen := h.length_eq hn hr
  have hclosed : (s.setReadyState n .closed).readyState n = some .closed := State.readyState_set hn
  have hne : (s.setReadyState n .closed).sockets ≠ [] := by
    intro hnil
    have hlength := length_setReadyState (s := s) (n := n) .closed
    rw [hnil] at hlength
    rw [← hlength] at hlen
    cases hlen
  simp only [step] at he
  split at he
  · cases he
  · cases he
  split at he <;> rename_i hc <;> obtain rfl := Option.some.inj he
  · refine h.change hlen (length_setReadyState _) rfl rfl
      (fun m hm => State.readyState_set_of_ne hm) (fun hs' => ?_)
    rw [(hs hc).1] at hs'
    cases hs'
  · refine OneSocket.scheduleReconnect (h.change hlen (length_setReadyState _) rfl rfl
      (fun m hm => State.readyState_set_of_ne hm) (fun _ => ?_)) hne (fun m hm => Or.inr ?_)
    · constructor
      · exact fun _ => Or.inr hclosed
      · intro hconn
        cases hclosed.symm.trans hconn
      · intro hopen
        cases hclosed.symm.trans hopen
      · intro hlast
        change (s.phases ++ [ReconnectPhase.lost]).getLast? = _ at hlast
        simp at hlast
    · obtain rfl : m = n := Nat.succ.inj ((h.last m hm).trans hlen.symm)
      exact hclosed

/-! ## Creating and closing a socket -/

/-- The next socket is created when all of them are closed. -/
theorem OneSocket.create (h : OneSocket s) {k : ℕ}
    (hclosed : ∀ n, s.socket = some n → s.readyState n = some .closed)
    (hcurrent : s.sockets ≠ [] → s.socket ≠ none) (hk : k = 1 ∨ k = 0 ∧ s.phases = [])
    (hlast : s.phases.getLast? ≠ some .restored)
    (hsockets : t.sockets = s.sockets ++ [⟨.connecting,k⟩]) (hsocket : t.socket = some s.sockets.length)
    (htimer : t.reconnectTimer = none) (hphases : t.phases = s.phases) : OneSocket t := by
  have hlen : t.sockets.length = s.sockets.length + 1 := by
    rw [hsockets,List.length_append]
    rfl
  have hnew : t.readyState s.sockets.length = some .connecting := by
    simp [State.readyState, hsockets]
  have hold : ∀ n, n < s.sockets.length → t.readyState n = s.readyState n := by
    intro n hn
    simp [State.readyState, hsockets, List.getElem?_append_left hn]
  constructor
  · intro n hn
    rw [hsocket] at hn
    obtain rfl := Option.some.inj hn
    exact hlen.symm
  · intro _ _
    rw [hsocket]
    exact Option.some_ne_none _
  · intro n hn
    rw [hlen] at hn
    have hlt : n < s.sockets.length := Nat.lt_of_succ_lt_succ hn
    rw [hold n hlt]
    by_cases heq : n + 1 = s.sockets.length
    · obtain ⟨m,hm⟩ := Option.ne_none_iff_exists'.mp
        (hcurrent (List.ne_nil_of_length_pos (Nat.lt_of_le_of_lt (Nat.zero_le _) hlt)))
      obtain rfl : m = n := Nat.succ.inj ((h.last m hm).trans heq.symm)
      exact hclosed m hm
    · exact h.earlier n (Nat.lt_of_le_of_ne hlt heq)
  · intro n hn
    rw [hsocket] at hn
    obtain rfl := Option.some.inj hn
    constructor
    · exact fun hne => absurd htimer hne
    · intro _
      have hwaiting : t.waiting s.sockets.length = k := by simp [State.waiting, hsockets]
      rw [hwaiting,hphases]
      exact hk
    · intro hopen
      rw [hnew] at hopen
      cases hopen
    · intro hrestored
      rw [hphases] at hrestored
      exact absurd hrestored hlast
  · intro hnil
    rw [hnil] at hlen
    cases hlen

theorem isOpen_of_closed (h : ∀ n, s.socket = some n → s.readyState n = some .closed) :
    s.isOpen = false := by
  refine Bool.eq_false_iff.mpr (fun ho => ?_)
  obtain ⟨n,hn,hopen⟩ := State.isOpen_iff.mp ho
  cases (h n hn).symm.trans hopen

theorem promise_of_closed (hs : Sustained s)
    (h : ∀ n, s.socket = some n → s.readyState n = some .closed) :
    s.connectionPromise = none ∨ s.connectionPromise = some .rejected := by
  rcases hp : s.connectionPromise with _ | (n | _)
  · exact Or.inl rfl
  · obtain ⟨hn,hconn⟩ := hs.promised n hp
    cases (h n hn).symm.trans hconn
  · exact Or.inr rfl

/-- A call that finds all sockets closed creates one, or has its promise rejected. -/
theorem connect_of_closed (hs : Sustained s)
    (h : ∀ n, s.socket = some n → s.readyState n = some .closed) :
    s.connect hasToken = ({ s with
        closedByUser := false
        sockets := s.sockets ++ [⟨.connecting,0⟩]
        socket := some s.sockets.length
        connectionPromise := some (.opening s.sockets.length) },some (.opening s.sockets.length)) ∨
      ∃ t, s.connect hasToken = (t,some .rejected) ∧ t.sockets = s.sockets ∧ t.socket = s.socket ∧
        t.reconnectTimer = s.reconnectTimer ∧ t.phases = s.phases ∧
        (s.closedByUser = false → t.closedByUser = false) := by
  unfold State.connect
  rw [if_neg (by rw [isOpen_of_closed h]; exact Bool.false_ne_true)]
  rcases promise_of_closed hs h with hp | hp <;> rw [hp]
  · cases hasToken with
    | false => exact Or.inr ⟨_,rfl,rfl,rfl,rfl,rfl,fun _ => rfl⟩
    | true => exact Or.inl rfl
  · exact Or.inr ⟨s,rfl,rfl,rfl,rfl,rfl,id⟩

/-- The sockets and what was told are as they were. -/
theorem OneSocket.same (h : OneSocket s) (hsockets : t.sockets = s.sockets)
    (hsocket : t.socket = s.socket) (htimer : t.reconnectTimer = s.reconnectTimer)
    (hphases : t.phases = s.phases)
    (hc : t.closedByUser = false → s.sockets ≠ [] → s.closedByUser = false) : OneSocket t := by
  have hready : ∀ n, t.readyState n = s.readyState n := by
    intro n
    unfold State.readyState
    rw [hsockets]
  have hwaiting : ∀ n, t.waiting n = s.waiting n := by
    intro n
    unfold State.waiting
    rw [hsockets]
  constructor
  · rw [hsockets,hsocket]
    exact h.last
  · rw [hsockets,hsocket]
    exact fun hclosed hne => h.held (hc hclosed hne) hne
  · simp only [hsockets, hready]
    exact h.earlier
  · intro n hn
    have htold := h.told n (hsocket ▸ hn)
    constructor
    · rw [htimer,hready]
      exact htold.timed
    · rw [hready,hwaiting,hphases]
      exact htold.waiting
    · rw [hready,hphases]
      exact htold.lost
    · rw [hready,hphases]
      exact htold.restored
  · rw [hsockets,hphases,htimer]
    exact h.fresh

theorem OneSocket.connect (h : OneSocket s) (hs : Sustained s) (hnil : s.sockets = []) :
    OneSocket (s.connect hasToken).1 := by
  have hnone : ∀ n, s.socket = some n → s.readyState n = some .closed := by
    intro n hn
    have hlen := h.last n hn
    rw [hnil] at hlen
    cases hlen
  obtain ⟨hphases,htimer⟩ := h.fresh hnil
  rcases @connect_of_closed s hasToken hs hnone with
    heq | ⟨t,heq,hsockets,hsocket,htimer',hphases',-⟩ <;> rw [heq]
  · exact h.create hnone (fun hne => absurd hnil hne) (Or.inr ⟨rfl,hphases⟩) (by rw [hphases]; simp)
      rfl rfl htimer rfl
  · exact h.same hsockets hsocket htimer' hphases' (fun _ hne => absurd hnil hne)

/-- By then the last socket is closed. -/
theorem OneSocket.reconnect (h : OneSocket s) (hs : Silent s) (hsus : Sustained s)
    (htimer : s.reconnectTimer ≠ none) (hfailed : s.socket.bind s.readyState ≠ some .failed) :
    OneSocket (s.reconnect hasToken) := by
  have hopened : s.closedByUser = false := by
    refine Bool.eq_false_iff.mpr (fun hc => htimer ?_)
    exact (hs hc).2.2.2.2
  have hne : s.sockets ≠ [] := fun hnil => htimer (h.fresh hnil).2
  have hclosed : ∀ n, s.socket = some n → s.readyState n = some .closed := by
    intro n hn
    refine ((h.told n hn).timed htimer).resolve_left (fun hf => hfailed ?_)
    rw [hn]
    exact hf
  have hlast : s.phases.getLast? ≠ some .restored := by
    intro hrestored
    obtain ⟨n,hn⟩ := Option.ne_none_iff_exists'.mp (h.held hopened hne)
    exact ((h.told n hn).restored hrestored).2 (hclosed n hn)
  have hstopped : OneSocket { s with reconnectTimer := none } :=
    ⟨h.last,h.held,h.earlier,fun n hn => ⟨fun hno => absurd rfl hno,(h.told n hn).waiting,
      (h.told n hn).lost,(h.told n hn).restored⟩,fun hnil => absurd hnil hne⟩
  have hsustained : Sustained { s with reconnectTimer := none } := ⟨hsus.promised,nofun⟩
  unfold State.reconnect
  rcases @connect_of_closed { s with reconnectTimer := none } hasToken hsustained hclosed with
    heq | ⟨t,heq,hsockets,hsocket,htimer',hphases,hc⟩ <;> rw [heq]
  · refine h.create hclosed (fun _ => h.held hopened hne) (Or.inl rfl) hlast ?_ rfl rfl rfl
    dsimp only
    rw [List.modify_eq_take_cons_drop (by simp)]
    simp
  · have hsame : OneSocket t := hstopped.same hsockets hsocket htimer' hphases (fun _ _ => hopened)
    refine hsame.scheduleReconnect (by rw [hsockets]; exact hne) (fun n hn => Or.inr ?_)
    unfold State.readyState
    rw [hsockets]
    exact hclosed n (hsocket ▸ hn)

theorem OneSocket.close (h : OneSocket s) : OneSocket s.close := by
  unfold State.close
  dsimp only
  split
  · rename_i hnone
    have hnone' : s.socket = none := hnone
    exact ⟨fun n hn => absurd (hnone'.symm.trans hn) (by simp),(fun hc => by cases hc),h.earlier,
      fun n hn => absurd (hnone'.symm.trans hn) (by simp),fun hnil => ⟨(h.fresh hnil).1,rfl⟩⟩
  · rename_i n hn
    have hlen : n + 1 = s.sockets.length := h.last n hn
    split
    · refine ⟨(fun _ hm => by cases hm),(fun hc => by cases hc),fun m hm => ?_,
        (fun _ hm => by cases hm),fun hnil => ⟨(h.fresh ?_).1,rfl⟩⟩
      · have hlt : m + 1 < s.sockets.length := hm.trans_eq (length_setReadyState _)
        exact (State.readyState_set_of_ne (by rintro rfl; exact absurd hlen (Nat.ne_of_lt hlt))).trans
          (h.earlier m hlt)
      · simpa [State.setReadyState, State.rejectAllPending] using hnil
    · exact ⟨(fun _ hm => by cases hm),(fun hc => by cases hc),h.earlier,(fun _ hm => by cases hm),
        fun hnil => ⟨(h.fresh hnil).1,rfl⟩⟩

theorem State.wire_resolve (h : t.wire = s.wire) : (t.resolve n).wire = (s.resolve n).wire := by
  rw [State.resolve_eq,State.resolve_eq,State.waiting_wire h]
  have hsockets : t.sockets = s.sockets := congrArg State.Wire.sockets h
  have hsocket : t.socket = s.socket := congrArg State.Wire.socket h
  have hpromise : t.connectionPromise = s.connectionPromise := congrArg State.Wire.connectionPromise h
  have htimer : t.reconnectTimer = s.reconnectTimer := congrArg State.Wire.reconnectTimer h
  have hclosed : t.closedByUser = s.closedByUser := congrArg State.Wire.closedByUser h
  have hphases : t.phases = s.phases := congrArg State.Wire.phases h
  simp only [State.wire, State.settle, hsockets, hsocket, hpromise, htimer, hclosed, hphases]

/-! ## Every run -/

theorem step_oneSocket (h : OneSocket s) (hinv : Inv s) (hsus : Sustained s) (hu : PageUse s e)
    (he : step s e = some s') : OneSocket s' := by
  cases e with
  | connect hasToken =>
    obtain rfl := Option.some.inj he
    exact h.connect hsus hu
  | close =>
    obtain rfl := Option.some.inj he
    exact h.close
  | sendCommand cmd =>
    simp only [step] at he
    split at he <;> obtain rfl := Option.some.inj he
    · exact h.congr State.wire_flushQueue
    · exact h
  | timeout =>
    simp only [step] at he
    split at he
    · cases he
    · obtain rfl := Option.some.inj he
      exact h.congr State.wire_flushQueue
  | reconnectTimer hasToken =>
    simp only [step] at he
    split at he
    · cases he
    · rename_i d hd
      obtain rfl := Option.some.inj he
      exact h.reconnect hinv.silent hsus (by rw [hd]; exact Option.some_ne_none _) hu
  | closing n =>
    simp only [step] at he
    split at he
    · rename_i hopen
      obtain rfl := Option.some.inj he
      exact h.closing hopen
    · cases he
  | onopen n =>
    simp only [step] at he
    split at he
    · rename_i hconn
      obtain rfl := Option.some.inj he
      exact (h.onopen hconn).congr (State.wire_resolve State.wire_flushQueue)
    · cases he
  | onerror n =>
    simp only [step] at he
    split at he
    · cases he
    · cases he
    · cases he
    · rename_i r _ hclosed hr
      obtain rfl := Option.some.inj he
      exact h.onerror hr (fun heq => hclosed heq)
  | onclose n =>
    have hsome : ∃ r, s.readyState n = some r ∧ r ≠ .closed := by
      simp only [step] at he
      split at he
      · cases he
      · cases he
      · rename_i r hclosed hr
        exact ⟨r,hr,fun heq => hclosed heq⟩
    obtain ⟨r,hr,hne⟩ := hsome
    exact h.onclose hinv.silent hr hne he
  | onmessage n r =>
    simp only [step] at he
    split at he
    · obtain rfl := Option.some.inj he
      exact h.congr (State.wire_receive r)
    · cases he

/-- In the page's use all sockets but the last are closed, an open connection was never told to
be lost, and one told to be restored is still there. -/
theorem told_as_it_is (h : RunsWhen step PageUse start es s) :
    (∀ n, n + 1 < s.sockets.length → s.readyState n = some .closed) ∧
      (s.isOpen = true → s.phases.getLast? ≠ some .lost) ∧
      (s.phases.getLast? = some .restored → s.closedByUser = false → ∃ n, s.socket = some n ∧
        s.readyState n ≠ some .connecting ∧ s.readyState n ≠ some .closed) := by
  have hinv : OneSocket s ∧ Inv s ∧ Sustained s :=
    h.invariant (P := fun s => OneSocket s ∧ Inv s ∧ Sustained s)
      ⟨oneSocket_start,inv_start,sustained_start⟩ (fun hs hu he =>
        ⟨step_oneSocket hs.1 hs.2.1 hs.2.2 hu he,step_inv hs.2.1 he,step_sustained hs.2.2 he⟩)
  refine ⟨hinv.1.earlier,fun ho => ?_,fun hlast hc => ?_⟩
  · obtain ⟨n,hn,hopen⟩ := State.isOpen_iff.mp ho
    exact (hinv.1.told n hn).lost hopen
  · have hne : s.sockets ≠ [] := by
      intro hnil
      rw [(hinv.1.fresh hnil).1] at hlast
      cases hlast
    obtain ⟨n,hn⟩ := Option.ne_none_iff_exists'.mp (hinv.1.held hc hne)
    exact ⟨n,hn,(hinv.1.told n hn).restored hlast⟩

/-- The connection is lost, the first attempt fails, and the second one succeeds. -/
def restored : List Event :=
  [.connect true, .onopen 0, .onclose 0, .reconnectTimer true, .onerror 1, .onclose 1,
    .reconnectTimer true, .onopen 2]

theorem told_as_it_is_restored : let s := after step start restored
    (∀ n, n + 1 < s.sockets.length → s.readyState n = some .closed) ∧
      (s.isOpen = true → s.phases.getLast? ≠ some .lost) ∧
      (s.phases.getLast? = some .restored → s.closedByUser = false → ∃ n, s.socket = some n ∧
        s.readyState n ≠ some .connecting ∧ s.readyState n ≠ some .closed) := by
  have hrun : RunsWhen step PageUse start restored (after step start restored) :=
    runsWhen_after (by decide +kernel)
  exact told_as_it_is hrun

end MiniDiscord.ChatSocket
