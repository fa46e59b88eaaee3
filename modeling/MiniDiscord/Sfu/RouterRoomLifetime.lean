import MiniDiscord.Sfu.RouterState

/-! # Lifetime of room objects

A room is open exactly while its channel maps to it. What the second section of
`Leave` does not test is whether another `Leave` of the same room got there
first; the overlap of two last leavers is the only way to close a room twice.
-/
namespace MiniDiscord.SfuRouter
open SfuRoom Transition

/-- The room a `Leave` took from `rooms` and is not yet done with. -/
def Call.leaving : Call → Option (Peer × RoomRef)
  | .leaveRemove p r => some (p,r)
  | .leaveRemoveUser p r => some (p,r)
  | .leaveIsEmpty p r => some (p,r)
  | .leaveRecheck p r => some (p,r)
  | _ => none

/-- The peer a `Join` registered but has not yet put into its room. -/
def Call.joining : Call → Option Peer
  | .joinAdd p => some p
  | _ => none

/-- Open rooms are exactly the registered ones, and no room is closed twice. -/
structure RoomsTracked (s : State) : Prop where
  registered : ∀ {c r}, s.rooms.lookup c = some r →
    r < s.nextRoom ∧ (s.heap r).channelID = c ∧ (s.heap r).closes = 0
  opened : ∀ {r}, r < s.nextRoom → (s.heap r).closes = 0 →
    s.rooms.lookup (s.heap r).channelID = some r
  closes_le : ∀ r, (s.heap r).closes ≤ 1
  fresh : ∀ {r}, s.nextRoom ≤ r → (s.heap r).closes = 0

/-- Rooms held by calls in flight exist and belong to the call's channel. -/
structure CallsTracked (s : State) : Prop where
  leaving : ∀ {t p r}, (s.calls t).leaving = some (p,r) →
    r < s.nextRoom ∧ (s.heap r).channelID = p.channelID
  joining : ∀ {t p}, (s.calls t).joining = some p →
    p.room < s.nextRoom ∧ (s.heap p.room).channelID = p.channelID

theorem roomsTracked_init : RoomsTracked init := by
  constructor <;> simp [init]

theorem callsTracked_init : CallsTracked init := by
  constructor <;> simp [init,Call.leaving,Call.joining]

/-- What a write leaves of its room, it leaves of all. -/
theorem setRoom_heap {A : Type} {f : Room → A} {s : State} {r : RoomRef} {room : Room}
    (hf : f room = f (s.heap r)) (x : RoomRef) : f ((s.setRoom r room).heap x) = f (s.heap x) := by
  by_cases hx : x = r
  · subst hx
    simpa [State.setRoom] using hf
  · simp [State.setRoom,hx]

theorem RoomsTracked.setRoom {s : State} (h : RoomsTracked s) {r : RoomRef} {room : Room}
    (hc : room.channelID = (s.heap r).channelID) (hk : room.closes = (s.heap r).closes) :
    RoomsTracked (s.setRoom r room) := by
  have hch := fun x => setRoom_heap (f := Room.channelID) hc x
  have hcl := fun x => setRoom_heap (f := Room.closes) hk x
  constructor
  · intro c x hx
    rw [hch,hcl]
    exact h.registered hx
  · intro x hx hx0
    rw [hcl] at hx0
    rw [hch]
    exact h.opened hx hx0
  · intro x
    rw [hcl]
    exact h.closes_le x
  · intro x hx
    rw [hcl]
    exact h.fresh hx

theorem RoomsTracked.allocate {s : State} (h : RoomsTracked s) {c : ChannelID}
    (hc : s.rooms.lookup c = none) : RoomsTracked (s.allocate c) := by
  have hother : ∀ {x}, x < s.nextRoom → (s.allocate c).heap x = s.heap x := by
    intro x hx
    simp [State.allocate,Function.update_of_ne (Nat.ne_of_lt hx)]
  have hnew : (s.allocate c).heap s.nextRoom = newRoom c := by simp [State.allocate]
  constructor
  · intro c' x hx
    simp only [State.allocate,GoMap.lookup_insert_eq] at hx
    split at hx
    · rename_i hcc
      cases hx
      rw [hnew]
      exact ⟨Nat.lt_succ_self _,hcc.symm,rfl⟩
    · obtain ⟨hlt,hch,hcl⟩ := h.registered hx
      rw [hother hlt]
      exact ⟨Nat.lt_succ_of_lt hlt,hch,hcl⟩
  · intro x hx hx0
    rcases Nat.lt_succ_iff_lt_or_eq.mp hx with hlt | rfl
    · rw [hother hlt] at hx0 ⊢
      have hreg := h.opened hlt hx0
      have hne : (s.heap x).channelID ≠ c := by
        intro he
        rw [he,hc] at hreg
        cases hreg
      simpa [State.allocate,GoMap.lookup_insert_eq,hne] using hreg
    · rw [hnew]
      simp [State.allocate]
  · intro x
    by_cases hx : x = s.nextRoom
    · subst hx
      simp [hnew]
    · simpa [State.allocate,hx] using h.closes_le x
  · intro x hx
    have hx' : s.nextRoom < x := hx
    simpa [State.allocate,Nat.ne_of_gt hx'] using h.fresh hx'.le

/-- Dropping a room that is still registered keeps open and registered the same. -/
theorem RoomsTracked.dropRoom {s : State} (h : RoomsTracked s) {p : Peer} {r : RoomRef}
    (hr : r < s.nextRoom) (hp : (s.heap r).channelID = p.channelID) (h0 : (s.heap r).closes = 0) :
    RoomsTracked (s.dropRoom p r) ∧ (s.dropRoom p r).panicked = false := by
  have hreg := h.opened hr h0
  rw [hp] at hreg
  have hself : (s.dropRoom p r).heap r = (s.heap r).close := by simp [State.dropRoom,State.setRoom]
  have hother : ∀ {x}, x ≠ r → (s.dropRoom p r).heap x = s.heap x := by
    intro x hx
    simp [State.dropRoom,State.setRoom,hx]
  refine ⟨?_,by simp [State.dropRoom,h0]⟩
  constructor
  · intro c x hx
    simp only [State.dropRoom,GoMap.lookup_erase_eq] at hx
    split at hx
    · cases hx
    · rename_i hc
      have hxr : x ≠ r := by
        rintro rfl
        exact hc ((h.registered hx).2.1.symm.trans hp)
      rw [hother hxr]
      exact h.registered hx
  · intro x hx hx0
    by_cases hxr : x = r
    · subst hxr
      rw [hself] at hx0
      simp at hx0
    · rw [hother hxr] at hx0 ⊢
      have hx' := h.opened hx hx0
      have hc : (s.heap x).channelID ≠ p.channelID := by
        intro he
        rw [he,hreg] at hx'
        exact hxr (Option.some.inj hx').symm
      simpa [State.dropRoom,GoMap.lookup_erase_eq,hc] using hx'
  · intro x
    by_cases hxr : x = r
    · subst hxr
      simp [hself,h0]
    · rw [hother hxr]
      exact h.closes_le x
  · intro x hx
    have hxr : x ≠ r := by
      rintro rfl
      exact absurd hr (Nat.not_lt.mpr hx)
    rw [hother hxr]
    exact h.fresh hx

theorem RoomsTracked.congr {s s' : State} (h : RoomsTracked s) (hr : s'.rooms = s.rooms)
    (hh : s'.heap = s.heap) (hn : s'.nextRoom = s.nextRoom) : RoomsTracked s' := by
  constructor
  · intro c r
    rw [hr,hh,hn]
    exact h.registered
  · intro r
    rw [hr,hh,hn]
    exact h.opened
  · rw [hh]
    exact h.closes_le
  · intro r
    rw [hh,hn]
    exact h.fresh

/-- One call moves on; rooms may be created, but none changes its channel. -/
theorem CallsTracked.move {s s' : State} (h : CallsTracked s) {t : CallID} {c : Call}
    (hcalls : s'.calls = Function.update s.calls t c) (hn : s.nextRoom ≤ s'.nextRoom)
    (hch : ∀ {r}, r < s.nextRoom → (s'.heap r).channelID = (s.heap r).channelID)
    (hl : ∀ {p r}, c.leaving = some (p,r) →
      r < s'.nextRoom ∧ (s'.heap r).channelID = p.channelID)
    (hj : ∀ {p}, c.joining = some p →
      p.room < s'.nextRoom ∧ (s'.heap p.room).channelID = p.channelID) : CallsTracked s' := by
  constructor
  · intro t' p r ht
    rw [hcalls] at ht
    by_cases htt : t' = t
    · subst htt
      exact hl (by simpa using ht)
    · obtain ⟨hlt,he⟩ := h.leaving (by simpa [htt] using ht)
      exact ⟨hlt.trans_le hn,(hch hlt).trans he⟩
  · intro t' p ht
    rw [hcalls] at ht
    by_cases htt : t' = t
    · subst htt
      exact hj (by simpa using ht)
    · obtain ⟨hlt,he⟩ := h.joining (by simpa [htt] using ht)
      exact ⟨hlt.trans_le hn,(hch hlt).trans he⟩

/-- Rewriting one room in place, without touching its channel. -/
theorem CallsTracked.setRoom {s : State} (h : CallsTracked s) {r : RoomRef} {room : Room}
    (hc : room.channelID = (s.heap r).channelID) : CallsTracked (s.setRoom r room) := by
  have hch := fun x => setRoom_heap (f := Room.channelID) hc x
  exact ⟨fun ht => by rw [hch]; exact h.leaving ht,fun ht => by rw [hch]; exact h.joining ht⟩

/-- A call that keeps the room it already held, or drops it, is still tracked. -/
theorem CallsTracked.setCall {s : State} (h : CallsTracked s) (t : CallID) {c : Call}
    (hl : ∀ {p r}, c.leaving = some (p,r) →
      r < s.nextRoom ∧ (s.heap r).channelID = p.channelID)
    (hj : c.joining = none) : CallsTracked (s.setCall t c) :=
  h.move rfl le_rfl (fun _ => rfl) hl (fun he => by simp [hj] at he)

theorem CallsTracked.register {s : State} (h : CallsTracked s) (t : CallID) {p : Peer}
    (hr : p.room < s.nextRoom) (hc : (s.heap p.room).channelID = p.channelID) :
    CallsTracked (s.register t p) :=
  h.move rfl le_rfl (fun _ => rfl) (fun he => by simp [Call.leaving] at he)
    (fun he => by cases he; exact ⟨hr,hc⟩)

theorem CallsTracked.allocate {s : State} (h : CallsTracked s) (c : ChannelID) :
    CallsTracked (s.allocate c) := by
  have hch : ∀ {r}, r < s.nextRoom → (s.allocate c).heap r = s.heap r := by
    intro r hr
    simp [State.allocate,Function.update_of_ne (Nat.ne_of_lt hr)]
  constructor
  · intro t p r ht
    obtain ⟨hlt,he⟩ := h.leaving ht
    exact ⟨Nat.lt_succ_of_lt hlt,by rw [hch hlt]; exact he⟩
  · intro t p ht
    obtain ⟨hlt,he⟩ := h.joining ht
    exact ⟨Nat.lt_succ_of_lt hlt,by rw [hch hlt]; exact he⟩

/-- A step that does not crash the process keeps rooms and calls tracked. -/
theorem step_tracked {s s' : State} {e : Event} (hs : RoomsTracked s ∧ CallsTracked s)
    (he : step s e = some s') : s'.panicked = true ∨ RoomsTracked s' ∧ CallsTracked s' := by
  obtain ⟨hr,hc⟩ := hs
  obtain ⟨-,hv⟩ := step_view he
  have hset : ∀ r (a : ActiveSpeakers), RoomsTracked (s.setRoom r { s.heap r with speakers := a }) ∧
      CallsTracked (s.setRoom r { s.heap r with speakers := a }) :=
    fun r a => ⟨hr.setRoom rfl rfl,hc.setRoom rfl⟩
  cases hv with
  | joinOld hi hsid hroom =>
    obtain ⟨hlt,hch,-⟩ := hr.registered hroom
    exact Or.inr ⟨hr.congr rfl rfl rfl,hc.register _ hlt hch⟩
  | @joinNew t sid u c hi hsid hroom =>
    refine Or.inr ⟨(hr.allocate hroom).congr rfl rfl rfl,
      (hc.allocate c).register t (Nat.lt_succ_self _) ?_⟩
    simp [State.allocate]
  | roomAdd ht =>
    refine Or.inr ⟨(hr.setRoom ?_ ?_).congr rfl rfl rfl,(hc.setRoom ?_).setCall _ ?_ rfl⟩
    · simp
    · simp
    · simp
    · intro p r he
      simp [Call.leaving] at he
  | leaveRoom hi hp hroom =>
    obtain ⟨hlt,hch,-⟩ := hr.registered hroom
    refine Or.inr ⟨hr.congr rfl rfl rfl,hc.move rfl le_rfl (fun _ => rfl) ?_ ?_⟩
    · intro p r he
      cases he
      exact ⟨hlt,hch⟩
    · intro p he
      simp [Call.joining] at he
  | leaveNoRoom hi hp hroom =>
    refine Or.inr ⟨hr.congr rfl rfl rfl,hc.move rfl le_rfl (fun _ => rfl) ?_ ?_⟩
    · intro p r he
      simp [Call.leaving] at he
    · intro p he
      simp [Call.joining] at he
  | leaveUnknown => exact Or.inr ⟨hr,hc⟩
  | roomRemove ht =>
    have hl := hc.leaving (by rw [ht]; rfl)
    refine Or.inr ⟨(hr.setRoom ?_ ?_).congr rfl rfl rfl,(hc.setRoom ?_).setCall _ ?_ rfl⟩
    · simp
    · simp
    · simp
    · intro p r he
      cases he
      simpa [State.setRoom] using hl
  | removeUser ht =>
    have hl := hc.leaving (by rw [ht]; rfl)
    obtain ⟨hr',hc'⟩ := hset _ (((s.heap _).speakers).removeUser _)
    refine Or.inr ⟨hr'.congr rfl rfl rfl,hc'.setCall _ ?_ rfl⟩
    intro p r he
    cases he
    simpa [State.setRoom] using hl
  | isEmpty ht =>
    have hl := hc.leaving (by rw [ht]; rfl)
    refine Or.inr ⟨hr.congr rfl rfl rfl,hc.setCall _ ?_ ?_⟩
    · intro p r he
      split at he
      · cases he
        exact hl
      · simp [Call.leaving] at he
    · split <;> rfl
  | @drop t p r ht hempty =>
    obtain ⟨hlt,hch⟩ := hc.leaving (t := t) (by rw [ht]; rfl)
    by_cases h0 : (s.heap r).closes = 0
    · right
      refine ⟨(hr.dropRoom hlt hch h0).1.congr rfl rfl rfl,?_⟩
      have hd : CallsTracked (s.dropRoom p r) :=
        ⟨(hc.setRoom (Room.channelID_close _)).leaving,(hc.setRoom (Room.channelID_close _)).joining⟩
      exact hd.setCall _ (fun he => by simp [Call.leaving] at he) rfl
    · left
      simp [State.setCall,State.dropRoom,h0]
  | keep ht hne =>
    exact Or.inr ⟨hr.congr rfl rfl rfl,hc.setCall _ (fun he => by simp [Call.leaving] at he) rfl⟩
  | peerClose ht =>
    exact Or.inr ⟨hr.congr rfl rfl rfl,hc.setCall _ (fun he => by simp [Call.leaving] at he) rfl⟩
  | markLoud hlt => exact Or.inr (hset _ _)
  | sweep hlt => exact Or.inr (hset _ _)

/-- Each `stopCh` is closed at most once, no close panics, and the entry a `Leave`
deletes from `rooms` is the very room it closes. -/
structure RoomLifetime (s : State) : Prop where
  alive : s.panicked = false
  closes_le : ∀ r, (s.heap r).closes ≤ 1
  deletes_own : ∀ {t p r entry}, s.calls t = .leaveRecheck p r → (s.heap r).isEmpty = true →
    s.rooms.lookup p.channelID = some entry → entry = r

/-- A `Leave` that finds its room empty in its second locked section is the only
`Leave` in flight that still holds this room. -/
def DropsAlone (s : State) : Event → Prop
  | .recheck t => ∀ p r, s.calls t = .leaveRecheck p r → (s.heap r).isEmpty = true →
      ∀ t' p', t' ≠ t → (s.calls t').leaving ≠ some (p',r)
  | _ => True

/-- No call in flight holds a room that was already closed. -/
def LeavesOpen (s : State) : Prop :=
  ∀ t p r, (s.calls t).leaving = some (p,r) → (s.heap r).closes = 0

theorem LeavesOpen.move {s s' : State} (h : LeavesOpen s) {t : CallID} {c : Call}
    (hcalls : s'.calls = Function.update s.calls t c)
    (hk : ∀ t' p r, t' ≠ t → (s.calls t').leaving = some (p,r) →
      (s.heap r).closes = 0 → (s'.heap r).closes = 0)
    (hl : ∀ {p r}, c.leaving = some (p,r) → (s'.heap r).closes = 0) : LeavesOpen s' := by
  intro t' p r ht
  rw [hcalls] at ht
  by_cases htt : t' = t
  · subst htt
    exact hl (by simpa using ht)
  · have ht' : (s.calls t').leaving = some (p,r) := by simpa [htt] using ht
    exact hk t' p r htt ht' (h t' p r ht')

theorem closes_setRoom {s : State} {r : RoomRef} {room : Room}
    (hk : room.closes = (s.heap r).closes) (x : RoomRef) :
    ((s.setRoom r room).heap x).closes = (s.heap x).closes := by
  by_cases hx : x = r
  · subst hx
    simpa [State.setRoom] using hk
  · simp [State.setRoom,hx]

theorem closes_setSpeakers (s : State) (r : RoomRef) (f : ActiveSpeakers → ActiveSpeakers)
    (x : RoomRef) : ((s.setSpeakers r f).heap x).closes = (s.heap x).closes := by
  have hk : ({ s.heap r with speakers := f (s.heap r).speakers } : Room).closes =
      (s.heap r).closes := rfl
  exact closes_setRoom hk x

theorem step_leavesOpen {s s' : State} {e : Event} (hr : RoomsTracked s) (hc : CallsTracked s)
    (hs : LeavesOpen s) (hg : DropsAlone s e) (he : step s e = some s') :
    s'.panicked = false ∧ LeavesOpen s' := by
  obtain ⟨hp,hv⟩ := step_view he
  cases hv with
  | joinOld hi hsid hroom =>
    exact ⟨hp,hs.move rfl (fun _ _ _ _ _ h0 => h0) (fun he => by simp [Call.leaving] at he)⟩
  | joinNew hi hsid hroom =>
    refine ⟨hp,hs.move rfl ?_ (fun he => by simp [Call.leaving] at he)⟩
    intro t' p r _ ht h0
    have hlt := (hc.leaving ht).1
    simpa [State.register,State.allocate,Function.update_of_ne (Nat.ne_of_lt hlt)] using h0
  | roomAdd ht =>
    refine ⟨hp,hs.move rfl ?_ (fun he => by simp [Call.leaving] at he)⟩
    intro t' p r _ _ h0
    exact (closes_setRoom (by simp) r).trans h0
  | leaveRoom hi hpeer hroom =>
    refine ⟨hp,hs.move rfl (fun _ _ _ _ _ h0 => h0) ?_⟩
    intro p r he
    cases he
    exact (hr.registered hroom).2.2
  | leaveNoRoom hi hpeer hroom =>
    exact ⟨hp,hs.move rfl (fun _ _ _ _ _ h0 => h0) (fun he => by simp [Call.leaving] at he)⟩
  | leaveUnknown => exact ⟨hp,hs⟩
  | roomRemove ht =>
    refine ⟨hp,hs.move rfl (fun _ _ r _ _ h0 => (closes_setRoom (by simp) r).trans h0) ?_⟩
    intro p r he
    cases he
    exact (closes_setRoom (by simp) _).trans (hs _ _ _ (by rw [ht]; rfl))
  | @removeUser t p r ht =>
    have hk := closes_setSpeakers s r (fun a => a.removeUser p.userID)
    refine ⟨hp,hs.move rfl (fun _ _ x _ _ h0 => (hk x).trans h0) ?_⟩
    intro p' r' he
    cases he
    exact (hk _).trans (hs t p r (by rw [ht]; rfl))
  | isEmpty ht =>
    refine ⟨hp,hs.move rfl (fun _ _ _ _ _ h0 => h0) ?_⟩
    intro p r he
    split at he
    · cases he
      exact hs _ _ _ (by rw [ht]; rfl)
    · simp [Call.leaving] at he
  | @drop t p r ht hempty =>
    have h0 : (s.heap r).closes = 0 := hs t p r (by rw [ht]; rfl)
    refine ⟨by simp [State.setCall,State.dropRoom,h0],
      hs.move rfl ?_ (fun he => by simp [Call.leaving] at he)⟩
    intro t' p' x htt ht' hx
    have hxr : x ≠ r := by
      rintro rfl
      exact hg p x ht hempty t' p' htt ht'
    simpa [State.setCall,State.dropRoom,State.setRoom,hxr] using hx
  | keep ht hne =>
    exact ⟨hp,hs.move rfl (fun _ _ _ _ _ h0 => h0) (fun he => by simp [Call.leaving] at he)⟩
  | peerClose ht =>
    exact ⟨hp,hs.move rfl (fun _ _ _ _ _ h0 => h0) (fun he => by simp [Call.leaving] at he)⟩
  | markLoud hlt => exact ⟨hp,fun t p r ht => (closes_setSpeakers _ _ _ r).trans (hs t p r ht)⟩
  | sweep hlt => exact ⟨hp,fun t p r ht => (closes_setSpeakers _ _ _ r).trans (hs t p r ht)⟩

/-- Runs in which no two `Leave` calls drop one room together never crash, and
hold open rooms only. -/
theorem runs_leavesOpen {es : List Event} {s : State} (h : RunsWhen step DropsAlone init es s) :
    s.panicked = false ∧ RoomsTracked s ∧ CallsTracked s ∧ LeavesOpen s := by
  refine h.invariant
    (P := fun s => s.panicked = false ∧ RoomsTracked s ∧ CallsTracked s ∧ LeavesOpen s) ?_ ?_
  · exact ⟨rfl,roomsTracked_init,callsTracked_init,fun t p r he => by simp [init,Call.leaving] at he⟩
  · intro s s' e hs hg he
    obtain ⟨-,hr,hc,ho⟩ := hs
    obtain ⟨hp,ho'⟩ := step_leavesOpen hr hc ho hg he
    rcases step_tracked ⟨hr,hc⟩ he with hp' | ⟨hr',hc'⟩
    · rw [hp] at hp'
      cases hp'
    · exact ⟨hp,hr',hc',ho'⟩

theorem roomLifetime_of_leavesOpen {s : State} (hp : s.panicked = false) (hr : RoomsTracked s)
    (hc : CallsTracked s) (ho : LeavesOpen s) : RoomLifetime s := by
  refine ⟨hp,hr.closes_le,?_⟩
  intro t p r entry ht _ hentry
  obtain ⟨hlt,hch⟩ := hc.leaving (t := t) (by rw [ht]; rfl)
  have hreg := hr.opened hlt (ho t p r (by rw [ht]; rfl))
  rw [hch,hentry] at hreg
  exact Option.some.inj hreg

/-! The condition is exact: breaking it once lets the other `Leave` crash the process. -/

section Overlap
variable {s : State} {t : CallID} {p : Peer} {r : RoomRef}

theorem crash_of_recheck (hp : s.panicked = false) (ht : s.calls t = .leaveRecheck p r)
    (he : (s.heap r).isEmpty = true) (hk : (s.heap r).closes ≠ 0) :
    ∃ es s', Runs step s es s' ∧ s'.panicked = true := by
  refine ⟨[.recheck t],_,Runs.single (t := s.recheck t p r) ?_,?_⟩
  · simp [step,hp,ht]
  · simp [State.recheck,he,State.setCall,State.dropRoom,hk]

theorem crash_of_isEmpty (hp : s.panicked = false) (ht : s.calls t = .leaveIsEmpty p r)
    (he : (s.heap r).isEmpty = true) (hk : (s.heap r).closes ≠ 0) :
    ∃ es s', Runs step s es s' ∧ s'.panicked = true := by
  have hstep : step s (.isEmpty t) = some (s.isEmpty t p r) := by simp [step,hp,ht]
  have hcall : (s.isEmpty t p r).calls t = .leaveRecheck p r := by
    simp [State.isEmpty,State.setCall,he]
  obtain ⟨es,s',hrun,hcrash⟩ := crash_of_recheck (s := s.isEmpty t p r) hp hcall he hk
  exact ⟨_,s',Runs.cons hstep hrun,hcrash⟩

theorem crash_of_removeUser (hp : s.panicked = false) (ht : s.calls t = .leaveRemoveUser p r)
    (he : (s.heap r).isEmpty = true) (hk : (s.heap r).closes ≠ 0) :
    ∃ es s', Runs step s es s' ∧ s'.panicked = true := by
  have hstep : step s (.removeUser t) = some (s.removeUser t p r) := by simp [step,hp,ht]
  have hcall : (s.removeUser t p r).calls t = .leaveIsEmpty p r := by
    simp [State.removeUser,State.setCall]
  have hheap : (s.removeUser t p r).heap r =
      { s.heap r with speakers := (s.heap r).speakers.removeUser p.userID } := by
    simp [State.removeUser,State.setCall,State.setSpeakers,State.setRoom]
  obtain ⟨es,s',hrun,hcrash⟩ := crash_of_isEmpty (s := s.removeUser t p r) hp hcall
    (by rw [hheap]; exact he) (by rw [hheap]; exact hk)
  exact ⟨_,s',Runs.cons hstep hrun,hcrash⟩

theorem crash_of_remove (hp : s.panicked = false) (ht : s.calls t = .leaveRemove p r)
    (he : (s.heap r).isEmpty = true) (hk : (s.heap r).closes ≠ 0) :
    ∃ es s', Runs step s es s' ∧ s'.panicked = true := by
  have hstep : step s (.roomRemove t) = some (s.roomRemove t p r) := by simp [step,hp,ht]
  have hcall : (s.roomRemove t p r).calls t = .leaveRemoveUser p r := by
    simp [State.roomRemove,State.setCall]
  have hheap : (s.roomRemove t p r).heap r = (s.heap r).remove p.userID := by
    simp [State.roomRemove,State.setCall,State.setRoom]
  have hempty : ((s.heap r).remove p.userID).isEmpty = true := by
    rw [Room.isEmpty_iff] at he ⊢
    intro u
    rw [Room.peerByUserID_remove,he u,ite_self]
  obtain ⟨es,s',hrun,hcrash⟩ := crash_of_removeUser (s := s.roomRemove t p r) hp hcall
    (by rw [hheap]; exact hempty) (by rw [hheap]; exact hk)
  exact ⟨_,s',Runs.cons hstep hrun,hcrash⟩

/-- A `Leave` that still holds an empty room closed by another one will close it again. -/
theorem crash_of_leaving (hp : s.panicked = false) (ht : (s.calls t).leaving = some (p,r))
    (he : (s.heap r).isEmpty = true) (hk : (s.heap r).closes ≠ 0) :
    ∃ es s', Runs step s es s' ∧ s'.panicked = true := by
  cases hc : s.calls t <;> rw [hc] at ht <;> cases ht
  case leaveRemove => exact crash_of_remove hp hc he hk
  case leaveRemoveUser => exact crash_of_removeUser hp hc he hk
  case leaveIsEmpty => exact crash_of_isEmpty hp hc he hk
  case leaveRecheck => exact crash_of_recheck hp hc he hk

end Overlap

theorem overlap_crashes {s s' : State} {e : Event} (he : step s e = some s')
    (hg : ¬ DropsAlone s e) : ∃ fs s'', Runs step s (e :: fs) s'' ∧ s''.panicked = true := by
  cases e <;> try exact absurd trivial hg
  case recheck t =>
    unfold DropsAlone at hg
    push Not at hg
    obtain ⟨p,r,ht,hempty,t',p',htt,ht'⟩ := hg
    have hp := (step_view he).1
    have hs' : s' = s.recheck t p r := by simpa [step,hp,ht] using he.symm
    have hroom : s'.heap r = (s.heap r).close := by
      simp [hs',State.recheck,hempty,State.setCall,State.dropRoom,State.setRoom]
    cases hpan : s'.panicked with
    | true => exact ⟨[],s',Runs.single he,hpan⟩
    | false =>
      have hcall : (s'.calls t').leaving = some (p',r) := by
        simpa [hs',State.recheck,hempty,State.setCall,State.dropRoom,State.setRoom,htt] using ht'
      obtain ⟨fs,s'',hrun,hcrash⟩ := crash_of_leaving hpan hcall
        (by rw [hroom]; exact hempty) (by simp [hroom])
      exact ⟨fs,s'',Runs.cons he hrun,hcrash⟩

/-- Rooms are closed once, by the `Leave` that unregisters them, in every run in which
a dropped room is held by no other `Leave`; and the first step of a run that drops a
room still held by another `Leave` can be followed by a second close. -/
theorem room_lifetime {es : List Event} {s : State} (h : RunsWhen step DropsAlone init es s) :
    RoomLifetime s ∧ ∀ e s', step s e = some s' → ¬ DropsAlone s e →
      ∃ fs s'', Runs step s (e :: fs) s'' ∧ ¬ RoomLifetime s'' := by
  constructor
  · obtain ⟨hp,hr,hc,ho⟩ := runs_leavesOpen h
    exact roomLifetime_of_leavesOpen hp hr hc ho
  · intro e s' he hg
    obtain ⟨fs,s'',hrun,hcrash⟩ := overlap_crashes he hg
    refine ⟨fs,s'',hrun,fun hl => ?_⟩
    rw [hl.alive] at hcrash
    cases hcrash

/-- The only user of channel 7 joins and leaves, up to the second section of the `Leave`. -/
def onlyLeaver : List Event :=
  [.join 0 "a" 1 7, .roomAdd 0, .leave 0 "a", .roomRemove 0, .removeUser 0, .isEmpty 0]

theorem room_lifetime_onlyLeaver : ∃ s, Runs step init (onlyLeaver ++ [.recheck 0]) s ∧
    (s.heap 0).closes = 1 ∧ RoomLifetime s := by
  obtain ⟨s,hrun,hs⟩ := exists_runs_of_exec step init onlyLeaver
    (fun s => (s.panicked,s.calls 0,(s.heap 0).closes,(s.heap 0).isEmpty))
    (false,.leaveRecheck ⟨"a",1,7,0⟩ 0,0,true) (by decide)
  simp only [Prod.mk.injEq] at hs
  obtain ⟨hp,hcall,hcloses,hempty⟩ := hs
  have hg : DropsAlone s (.recheck 0) := by
    intro p r _ _ t' p' ht hl
    have hidle : s.calls t' = .idle := hrun.frame (f := fun s => s.calls t')
      (fun he hstep => step_calls_of_ne hstep (by
        have h0 : ∀ e ∈ onlyLeaver, e.call = some 0 := by decide
        rw [h0 _ he]
        exact fun h => ht (Option.some.inj h).symm))
    rw [hidle] at hl
    cases hl
  have hlast : step s (.recheck 0) = some (s.recheck 0 ⟨"a",1,7,0⟩ 0) := by simp [step,hp,hcall]
  have hguard : ∀ e ∈ onlyLeaver, ∀ s, DropsAlone s e := by
    intro e he s
    cases e <;> trivial
  have h := (RunsWhen.guarded hrun hguard).append (.step hg hlast (.refl _))
  refine ⟨_,h.runs,?_,(room_lifetime h).1⟩
  simp [State.recheck,hempty,State.setCall,State.dropRoom,State.setRoom,hcloses]

/-- Users 1 and 2 leave channel 7 together: both see the room empty, the first
drops it, user 3 gets a new room, and the second deletes that one. -/
def lastLeavers : List Event :=
  [.join 0 "a" 1 7, .roomAdd 0, .join 1 "b" 2 7, .roomAdd 1,
   .leave 0 "a", .leave 1 "b", .roomRemove 0, .roomRemove 1, .removeUser 0, .removeUser 1,
   .isEmpty 0, .isEmpty 1, .recheck 0, .join 2 "c" 3 7, .recheck 1]

theorem room_closed_twice : ¬ ∀ es s, Runs step init es s → RoomLifetime s := by
  intro h
  obtain ⟨s,hrun,hs⟩ := exists_runs_of_exec step init lastLeavers
    (fun s => (s.panicked,(s.heap 0).closes)) (true,2) (by decide)
  have hk := (h _ _ hrun).closes_le 0
  simp only [Prod.mk.injEq] at hs
  omega

end MiniDiscord.SfuRouter
