import MiniDiscord.Sfu.RouterRoomLifetime

/-! # Live sessions and the room of their channel

`Join` registers the peer under `r.mu` and puts it into the room afterwards. A
live session is therefore in its room, or its `Join` is still between the two
sections; the invariant says so, under a condition on the three sections that
write a room's member map or drop the room.
-/
namespace MiniDiscord.SfuRouter
open SfuRoom Transition

/-- Every live session is the peer found under its user in the one room that
`rooms` holds for its channel. -/
def SharedRooms (s : State) : Prop :=
  ∀ sid p, s.peers.lookup sid = some p →
    s.rooms.lookup p.channelID = some p.room ∧ (s.heap p.room).peerByUserID p.userID = some sid

/-- The slot of a user in a room is not the slot of a live session. -/
def SlotFree (s : State) (r : RoomRef) (u : UserID) : Prop :=
  ∀ sid, (s.heap r).peerByUserID u = some sid → s.peers.lookup sid = none

/-- `Room.add` and `Room.remove` overwrite no live session's slot, and a room is
dropped only when no `Join` of a live session is still on its way into it. -/
def KeepsMembers (s : State) : Event → Prop
  | .roomAdd t => ∀ p, s.calls t = .joinAdd p → SlotFree s p.room p.userID
  | .roomRemove t => ∀ p r, s.calls t = .leaveRemove p r → SlotFree s r p.userID
  | .recheck t => ∀ p r, s.calls t = .leaveRecheck p r → (s.heap r).isEmpty = true →
      ∀ t' p', s.calls t' = .joinAdd p' → p'.room = r → s.peers.lookup p'.sessionID = none
  | _ => True

/-- A live session sits in the registered room of its channel, or its `Join` has
yet to put it there. -/
structure Seated (s : State) (sid : SessionID) (p : Peer) : Prop where
  sessionID_eq : p.sessionID = sid
  issued : sid ∈ s.issued
  registered : s.rooms.lookup p.channelID = some p.room
  seated : (s.heap p.room).peerByUserID p.userID = some sid ∨ ∃ t, s.calls t = .joinAdd p

def AllSeated (s : State) : Prop := ∀ sid p, s.peers.lookup sid = some p → Seated s sid p

theorem sharedRooms_of_quiescent {s : State} (h : AllSeated s) (hq : Quiescent s) :
    SharedRooms s := by
  intro sid p hp
  have hs := h sid p hp
  refine ⟨hs.registered,?_⟩
  rcases hs.seated with hr | ⟨t,ht⟩
  · exact hr
  · rw [hq t] at ht
    cases ht

/-- A session stays seated when its room entry, its slot and its own `Join` are
left alone. -/
theorem Seated.keep {s s' : State} {sid : SessionID} {p : Peer} (h : Seated s sid p)
    (hi : s.issued ⊆ s'.issued) (hr : s'.rooms.lookup p.channelID = some p.room)
    (hp : (s.heap p.room).peerByUserID p.userID = some sid →
      (s'.heap p.room).peerByUserID p.userID = some sid)
    (hc : ∀ t, s.calls t = .joinAdd p →
      (s'.heap p.room).peerByUserID p.userID = some sid ∨ ∃ t, s'.calls t = .joinAdd p) :
    Seated s' sid p := by
  refine ⟨h.sessionID_eq,hi h.issued,hr,?_⟩
  rcases h.seated with hs | ⟨t,ht⟩
  · exact Or.inl (hp hs)
  · exact hc t ht

/-- Moving a call that is not adding a peer keeps every pending `Join`. -/
theorem joining_setCall {s : State} {t : CallID} {c : Call} {p : Peer}
    (hn : ∀ q, s.calls t ≠ .joinAdd q) {t' : CallID} (ht : s.calls t' = .joinAdd p) :
    Function.update s.calls t c t' = .joinAdd p := by
  have hne : t' ≠ t := by
    rintro rfl
    exact hn p ht
  rw [Function.update_of_ne hne]
  exact ht

theorem AllSeated.setCall {s : State} (h : AllSeated s) {t : CallID} {c : Call}
    (hn : ∀ q, s.calls t ≠ .joinAdd q) : AllSeated (s.setCall t c) := by
  intro sid p hp
  have hs := h sid p hp
  exact hs.keep (Finset.Subset.refl _) hs.registered id
    (fun t' ht => Or.inr ⟨t',joining_setCall hn ht⟩)

theorem AllSeated.setSpeakers {s : State} (h : AllSeated s) (r : RoomRef)
    (f : ActiveSpeakers → ActiveSpeakers) : AllSeated (s.setSpeakers r f) := by
  have hpeer : ∀ x u, ((s.setSpeakers r f).heap x).peerByUserID u = (s.heap x).peerByUserID u := by
    intro x u
    by_cases hx : x = r
    · subst hx
      simp [State.setSpeakers,State.setRoom,Room.peerByUserID]
    · simp [State.setSpeakers,State.setRoom,hx]
  intro sid p hp
  have hs := h sid p hp
  refine hs.keep (Finset.Subset.refl _) hs.registered ?_ (fun t ht => Or.inr ⟨t,ht⟩)
  intro hr
  rw [hpeer]
  exact hr

/-- A new session is seated because its own `Join` is pending. -/
theorem AllSeated.register {s : State} (h : AllSeated s) {t : CallID} {p : Peer}
    (hi : s.calls t = .idle)
    (hr : s.rooms.lookup p.channelID = some p.room) : AllSeated (s.register t p) := by
  intro sid q hq
  simp only [State.register,GoMap.lookup_insert_eq] at hq
  split at hq
  · rename_i he
    cases hq
    refine ⟨he.symm,?_,hr,Or.inr ⟨t,?_⟩⟩
    · simp [State.register,he]
    · simp [State.register]
  · have hs := h sid q hq
    refine hs.keep (Finset.subset_insert _ _) hs.registered id (fun t' ht => Or.inr ⟨t',?_⟩)
    exact joining_setCall (fun q' hc => by rw [hi] at hc; cases hc) ht

/-- A room created for a channel without one disturbs nobody. -/
theorem AllSeated.allocate {s : State} (h : AllSeated s) (hr : RoomsTracked s) {c : ChannelID}
    (hc : s.rooms.lookup c = none) : AllSeated (s.allocate c) := by
  intro sid p hp
  have hs := h sid p hp
  have hne : p.channelID ≠ c := by
    rintro rfl
    rw [hs.registered] at hc
    cases hc
  have hheap : (s.allocate c).heap p.room = s.heap p.room := by
    simp [State.allocate,Function.update_of_ne (Nat.ne_of_lt (hr.registered hs.registered).1)]
  refine hs.keep (Finset.Subset.refl _) ?_ ?_ (fun t ht => Or.inr ⟨t,ht⟩)
  · simpa [State.allocate,GoMap.lookup_insert_eq,hne] using hs.registered
  · intro hpeer
    rw [hheap]
    exact hpeer

theorem peerByUserID_roomAdd (s : State) (t : CallID) (p : Peer) (r : RoomRef) (u : UserID) :
    ((s.roomAdd t p).heap r).peerByUserID u =
      if r = p.room ∧ u = p.userID then some p.sessionID else (s.heap r).peerByUserID u := by
  by_cases hr : r = p.room
  · subst hr
    simp [State.roomAdd,State.setCall,State.setRoom]
  · simp [State.roomAdd,State.setCall,State.setRoom,hr]

theorem peerByUserID_roomRemove (s : State) (t : CallID) (p : Peer) (r x : RoomRef) (u : UserID) :
    ((s.roomRemove t p r).heap x).peerByUserID u =
      if x = r ∧ u = p.userID then none else (s.heap x).peerByUserID u := by
  by_cases hx : x = r
  · subst hx
    simp [State.roomRemove,State.setCall,State.setRoom]
  · simp [State.roomRemove,State.setCall,State.setRoom,hx]

theorem AllSeated.roomAdd {s : State} (h : AllSeated s) {t : CallID} {p : Peer}
    (ht : s.calls t = .joinAdd p) (hf : SlotFree s p.room p.userID) : AllSeated (s.roomAdd t p) := by
  have hslot := peerByUserID_roomAdd s t p
  intro sid q hq
  have hs := h sid q hq
  refine hs.keep (Finset.Subset.refl _) hs.registered ?_ ?_
  · intro hpeer
    rw [hslot]
    split
    · -- the slot would be the one of a live session
      rename_i he
      rw [he.1,he.2] at hpeer
      have hlive : s.peers.lookup sid = some q := hq
      rw [hf sid hpeer] at hlive
      cases hlive
    · exact hpeer
  · intro t' ht'
    by_cases htt : t' = t
    · subst htt
      have hpq : p = q := by simpa [ht] using ht'
      subst hpq
      left
      rw [hslot,if_pos ⟨rfl,rfl⟩,hs.sessionID_eq]
    · right
      exact ⟨t',by simpa [State.roomAdd,State.setCall,State.setRoom,htt] using ht'⟩

theorem AllSeated.roomRemove {s : State} (h : AllSeated s) {t : CallID} {p : Peer} {r : RoomRef}
    (ht : s.calls t = .leaveRemove p r) (hf : SlotFree s r p.userID) :
    AllSeated (s.roomRemove t p r) := by
  have hslot := peerByUserID_roomRemove s t p r
  intro sid q hq
  have hs := h sid q hq
  refine hs.keep (Finset.Subset.refl _) hs.registered ?_ ?_
  · intro hpeer
    rw [hslot]
    split
    · rename_i he
      rw [he.1,he.2] at hpeer
      have hlive : s.peers.lookup sid = some q := hq
      rw [hf sid hpeer] at hlive
      cases hlive
    · exact hpeer
  · intro t' ht'
    exact Or.inr ⟨t',joining_setCall (s := s.setRoom r ((s.heap r).remove p.userID))
      (fun q' hc => by rw [show (s.setRoom r _).calls t = _ from ht] at hc; cases hc) ht'⟩

/-- Dropping an empty registered room unseats nobody: its members are gone, and no
live `Join` is heading for it. -/
theorem AllSeated.dropRoom {s : State} (h : AllSeated s) {p : Peer} {r : RoomRef}
    (hreg : s.rooms.lookup p.channelID = some r) (hempty : (s.heap r).isEmpty = true)
    (hj : ∀ t' p', s.calls t' = .joinAdd p' → p'.room = r → s.peers.lookup p'.sessionID = none) :
    AllSeated (s.dropRoom p r) := by
  intro sid q hq
  have hlive : s.peers.lookup sid = some q := hq
  have hs := h sid q hlive
  have hqr : q.room ≠ r := by
    rintro rfl
    rcases hs.seated with hpeer | ⟨t,ht⟩
    · rw [(Room.isEmpty_iff _).mp hempty] at hpeer
      cases hpeer
    · have hn := hj t q ht rfl
      rw [hs.sessionID_eq,hlive] at hn
      cases hn
  have hne : q.channelID ≠ p.channelID := by
    intro he
    have hq' := hs.registered
    rw [he,hreg] at hq'
    exact hqr (Option.some.inj hq').symm
  refine hs.keep (Finset.Subset.refl _) ?_ ?_ (fun t ht => Or.inr ⟨t,ht⟩)
  · simpa [State.dropRoom,GoMap.lookup_erase_eq,hne] using hs.registered
  · intro hpeer
    simpa [State.dropRoom,State.setRoom,hqr] using hpeer

theorem AllSeated.erasePeer {s : State} (h : AllSeated s) (sid : SessionID) :
    AllSeated { s with peers := s.peers.erase sid } := by
  intro sid' p hp
  have hp' : s.peers.lookup sid' = some p := by
    simp only [GoMap.lookup_erase_eq] at hp
    split at hp
    · cases hp
    · exact hp
  have hs := h sid' p hp'
  exact hs.keep (Finset.Subset.refl _) hs.registered id (fun t ht => Or.inr ⟨t,ht⟩)

theorem step_allSeated {s s' : State} {e : Event} (hr : RoomsTracked s) (hc : CallsTracked s)
    (hs : AllSeated s) (hg : KeepsMembers s e) (he : step s e = some s')
    (hp : s'.panicked = false) : AllSeated s' := by
  obtain ⟨-,hv⟩ := step_view he
  have hother : ∀ {t : CallID} {c : Call}, s.calls t = c → c.joining = none →
      ∀ q, s.calls t ≠ .joinAdd q := by
    intro t c ht hj q hq
    rw [ht] at hq
    rw [hq] at hj
    cases hj
  cases hv with
  | joinOld hi hsid hroom => exact hs.register hi hroom
  | @joinNew t sid u c hi hsid hroom =>
    exact (hs.allocate hr hroom).register hi (by simp [State.allocate])
  | roomAdd ht => exact hs.roomAdd ht (hg _ ht)
  | leaveRoom hi hpeer hroom => exact (hs.erasePeer _).setCall (hother hi rfl)
  | leaveNoRoom hi hpeer hroom => exact (hs.erasePeer _).setCall (hother hi rfl)
  | leaveUnknown => exact hs
  | roomRemove ht => exact hs.roomRemove ht (hg _ _ ht)
  | removeUser ht => exact (hs.setSpeakers _ _).setCall (hother ht rfl)
  | isEmpty ht => exact hs.setCall (hother ht rfl)
  | @drop t p r ht hempty =>
    obtain ⟨hlt,hch⟩ := hc.leaving (t := t) (by rw [ht]; rfl)
    have h0 : (s.heap r).closes = 0 := by
      simpa [State.setCall,State.dropRoom] using hp
    have hreg := hr.opened hlt h0
    rw [hch] at hreg
    exact (hs.dropRoom hreg hempty (hg p r ht hempty)).setCall (hother ht rfl)
  | keep ht hne => exact hs.setCall (hother ht rfl)
  | peerClose ht => exact hs.setCall (hother ht rfl)
  | markLoud hlt => exact hs.setSpeakers _ _
  | sweep hlt => exact hs.setSpeakers _ _

/-- A live session that sits in its room keeps its slot. -/
theorem slot_stays {s s' : State} {e : Event} {sid : SessionID} {p : Peer} (hr : RoomsTracked s)
    (hs : AllSeated s) (hg : KeepsMembers s e) (he : step s e = some s')
    (hp : s.peers.lookup sid = some p) (hslot : (s.heap p.room).peerByUserID p.userID = some sid) :
    (s'.heap p.room).peerByUserID p.userID = some sid := by
  have htaken : ∀ {r u}, SlotFree s r u → p.room = r → p.userID = u → False := by
    rintro r u hf rfl rfl
    rw [hf sid hslot] at hp
    cases hp
  have hspeakers : ∀ (r : RoomRef) (f : ActiveSpeakers → ActiveSpeakers),
      ((s.setSpeakers r f).heap p.room).peerByUserID p.userID = some sid := by
    intro r f
    by_cases hx : p.room = r
    · subst hx
      simpa [State.setSpeakers,State.setRoom,Room.peerByUserID] using hslot
    · simpa [State.setSpeakers,State.setRoom,hx] using hslot
  obtain ⟨-,hv⟩ := step_view he
  cases hv with
  | joinNew =>
    have hlt := (hr.registered (hs sid p hp).registered).1
    simpa [State.register,State.allocate,Function.update_of_ne (Nat.ne_of_lt hlt)] using hslot
  | @roomAdd t q hc =>
    rw [peerByUserID_roomAdd,if_neg (fun h => htaken (hg q hc) h.1 h.2)]
    exact hslot
  | @roomRemove t q r hc =>
    rw [peerByUserID_roomRemove,if_neg (fun h => htaken (hg q r hc) h.1 h.2)]
    exact hslot
  | @drop t q r hc =>
    by_cases hx : p.room = r
    · subst hx
      simpa [State.setCall,State.dropRoom,State.setRoom] using hslot
    · simpa [State.setCall,State.dropRoom,State.setRoom,hx] using hslot
  | @removeUser t q r => exact hspeakers r (fun a => a.removeUser q.userID)
  | markLoud => exact hspeakers _ _
  | sweep => exact hspeakers _ _
  | _ => exact hslot

/-- A crash happens in the middle of a `Leave`. -/
theorem step_panicked {s s' : State} {e : Event} (he : step s e = some s')
    (hp : s'.panicked = true) : ¬ Quiescent s' := by
  obtain ⟨h0,hv⟩ := step_view he
  cases hv with
  | @drop t p r ht hempty =>
    intro hq
    have h := hq t
    simp [State.setCall] at h
  | _ => exact absurd hp (by simp_all [State.register,State.allocate,State.setCall,State.roomAdd,
      State.roomRemove,State.removeUser,State.setSpeakers,State.setRoom,State.isEmpty])

/-- In every run whose steps keep the members, the live sessions of a channel share
its registered room whenever no `Join` or `Leave` is in flight. -/
theorem sessions_share_room {es : List Event} {s : State}
    (h : RunsWhen step KeepsMembers init es s) (hq : Quiescent s) : SharedRooms s := by
  have hinv : (s.panicked = true ∧ ¬ Quiescent s) ∨
      (s.panicked = false ∧ (RoomsTracked s ∧ CallsTracked s) ∧ AllSeated s) := by
    refine h.invariant (P := fun s => (s.panicked = true ∧ ¬ Quiescent s) ∨
      (s.panicked = false ∧ (RoomsTracked s ∧ CallsTracked s) ∧ AllSeated s)) ?_ ?_
    · refine Or.inr ⟨rfl,⟨roomsTracked_init,callsTracked_init⟩,?_⟩
      intro sid p hp
      simp [init] at hp
    · intro s s' e hs hg he
      rcases hs with ⟨hp,-⟩ | ⟨-,ht,hs⟩
      · rw [(step_view he).1] at hp
        cases hp
      · cases hp' : s'.panicked with
        | true => exact Or.inl ⟨rfl,step_panicked he hp'⟩
        | false =>
          refine Or.inr ⟨rfl,?_,step_allSeated ht.1 ht.2 hs hg he hp'⟩
          simpa [hp'] using step_tracked ht he
  rcases hinv with ⟨-,hn⟩ | ⟨-,-,hs⟩
  · exact absurd hq hn
  · exact sharedRooms_of_quiescent hs hq

/-- Two users of channel 7 whose joins overlap. -/
def twoJoins : List Event := [.join 0 "a" 1 7, .join 1 "b" 2 7, .roomAdd 0, .roomAdd 1]

/-- User 1 leaves again. -/
def oneLeaves : List Event :=
  [.leave 2 "a", .roomRemove 2, .removeUser 2, .isEmpty 2, .peerClose 2]

def bothJoined : State :=
  (((init.joinLocked 0 "a" 1 7).joinLocked 1 "b" 2 7).roomAdd 0 ⟨"a",1,7,0⟩).roomAdd 1 ⟨"b",2,7,0⟩

def oneLeft : State :=
  ((((bothJoined.leaveLocked 2 ⟨"a",1,7,0⟩).roomRemove 2 ⟨"a",1,7,0⟩ 0).removeUser 2
    ⟨"a",1,7,0⟩ 0).isEmpty 2 ⟨"a",1,7,0⟩ 0).setCall 2 .idle

theorem sessions_share_room_two : ∃ s, RunsWhen step KeepsMembers init (twoJoins ++ oneLeaves) s ∧
    s.peers.lookup "a" = none ∧ s.peers.lookup "b" = some ⟨"b",2,7,0⟩ ∧ SharedRooms s := by
  have hjoins : RunsWhen step KeepsMembers init twoJoins bothJoined := by
    refine .step trivial rfl (.step trivial rfl (.step ?_ rfl (.step ?_ rfl (.refl _))))
    · rintro p hp
      cases hp
      intro sid hsid
      cases hsid
    · rintro p hp
      cases hp
      intro sid hsid
      have hnone : (((((init.joinLocked 0 "a" 1 7).joinLocked 1 "b" 2 7).roomAdd 0
        ⟨"a",1,7,0⟩).heap 0).peerByUserID 2) = none := by decide
      exact absurd (hnone.symm.trans hsid) (by simp)
  have hleaves : RunsWhen step KeepsMembers bothJoined oneLeaves oneLeft := by
    refine .step trivial rfl (.step ?_ rfl (.step trivial rfl (.step trivial rfl
      (.step trivial rfl (.refl _)))))
    rintro p r hp
    obtain ⟨rfl,rfl⟩ := Call.leaveRemove.inj hp
    intro sid hsid
    obtain rfl : "a" = sid := Option.some.inj hsid
    decide
  have h := hjoins.append hleaves
  have hcalls : ∀ e ∈ twoJoins ++ oneLeaves, e.call = some 0 ∨ e.call = some 1 ∨ e.call = some 2 := by
    decide
  refine ⟨oneLeft,h,by decide,by decide,sessions_share_room h (quiescent_of_runs h.runs ?_)⟩
  intro e he t ht
  rcases hcalls e he with hc | hc | hc <;> rw [hc] at ht <;> cases ht <;> rfl

/-- User 1 leaves channel 7 while user 2 joins it: the room is dropped between the two
sections of the `Join`. -/
def orphanedJoin : List Event :=
  [.join 0 "a" 1 7, .roomAdd 0, .leave 0 "a", .roomRemove 0, .removeUser 0, .isEmpty 0,
   .join 1 "b" 2 7, .recheck 0, .roomAdd 1, .peerClose 0]

theorem join_into_dropped_room : ¬ ∀ es s, Runs step init es s → Quiescent s → SharedRooms s := by
  intro h
  obtain ⟨s,hrun,hs⟩ := exists_runs_of_exec step init orphanedJoin
    (fun s => (s.calls 0,s.calls 1,s.peers.lookup "b",s.rooms.lookup 7))
    (.idle,.idle,some ⟨"b",2,7,0⟩,none) (by decide)
  simp only [Prod.mk.injEq] at hs
  obtain ⟨h0,h1,hb,hroom⟩ := hs
  have hcalls : ∀ e ∈ orphanedJoin, e.call = some 0 ∨ e.call = some 1 := by decide
  have hq : Quiescent s := by
    refine quiescent_of_runs hrun ?_
    intro e he t ht
    rcases hcalls e he with hc | hc <;> rw [hc] at ht <;> cases ht
    · exact h0
    · exact h1
  have hshared := (h _ _ hrun hq "b" _ hb).1
  rw [hroom] at hshared
  cases hshared

end MiniDiscord.SfuRouter
