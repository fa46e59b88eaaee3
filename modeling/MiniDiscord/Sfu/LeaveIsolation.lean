import MiniDiscord.Sfu.PeerSections

/-! # Isolation of Leave

A session is left by its session ID, but what its departure removes is keyed by its
user ID: the slot in the room, the active-speaker entry, the place in the subscriber
set of a track. Another session of the same user loses what it holds under the key.
-/
namespace MiniDiscord.SfuMedia
open SfuRoom SfuTrack SfuPeer Transition
open SfuRouter (CallID RoomRef)

/-- The peer whose `Leave` is in progress. -/
def leaver : SfuRouter.Call → Option SfuRouter.Peer
  | .leaveRemove p _ => some p
  | .leaveRemoveUser p _ => some p
  | .leaveIsEmpty p _ => some p
  | .leaveRecheck p _ => some p
  | .leaveClose p => some p
  | _ => none

/-- The next section of the peer belongs to `doClose`. -/
def closing (p : Peer) : Bool :=
  match p.cont with
  | .idle =>
    match p.commands with
    | .doClose :: _ => true
    | _ => false
  | .closeSubs _ => true
  | .closeTracks _ => true
  | .closeSubscribers _ _ _ => true
  | _ => false

/-- The session whose `Leave`, or whose `doClose`, the event is a section of. -/
def State.leaving (s : State) : Event → Option SessionID
  | .router (.leave _ sid) => some sid
  | .router (.roomRemove t) => (leaver (s.router.calls t)).map SfuRouter.Peer.sessionID
  | .router (.removeUser t) => (leaver (s.router.calls t)).map SfuRouter.Peer.sessionID
  | .router (.isEmpty t) => (leaver (s.router.calls t)).map SfuRouter.Peer.sessionID
  | .router (.recheck t) => (leaver (s.router.calls t)).map SfuRouter.Peer.sessionID
  | .router (.peerClose t) => (leaver (s.router.calls t)).map SfuRouter.Peer.sessionID
  | .run sid _ => if closing (s.peers sid) then some sid else none
  | _ => none

def State.roomOf (s : State) (x : SessionID) : Room := s.router.heap (s.peers x).room

/-- The session holds its user's slot in its room. -/
def State.seated (s : State) (x : SessionID) : Bool :=
  decide ((s.roomOf x).peerByUserID (s.peers x).userID = some x)

/-- Session `x` kept its place in its room, its subscriptions and its place in the
subscriber set of every track it is subscribed to, its tracks, and its speaker entry. -/
structure Untouched (s s' : State) (x : SessionID) : Prop where
  identity : (s'.peers x).toPeer = (s.peers x).toPeer
  slot : s.seated x = true → s'.seated x = true
  subs : (s'.peers x).subs = (s.peers x).subs
  subscriber : ∀ key pub sub, (s.peers x).subs.lookup key = some pub →
    (s.tracks pub).subs.lookup (s.peers x).userID = some sub →
      (s'.tracks pub).subs.lookup (s.peers x).userID = some sub
  published : (s'.peers x).published = (s.peers x).published
  speaker : ∀ loud, (s.roomOf x).speakers.lastLoudAt.lookup (s.peers x).userID = some loud →
    (s'.roomOf x).speakers.lastLoudAt.lookup (s.peers x).userID = some loud

/-- The section removes, under the user ID of `x`, something that `x` holds. -/
def State.hits (s : State) (x : SessionID) : Event → Prop
  | .router (.roomRemove t) =>
    match s.router.calls t with
    | .leaveRemove p r =>
      p.userID = (s.peers x).userID ∧ r = (s.peers x).room ∧ s.seated x = true
    | _ => False
  | .router (.removeUser t) =>
    match s.router.calls t with
    | .leaveRemoveUser p r => p.userID = (s.peers x).userID ∧ r = (s.peers x).room ∧
        (s.peers x).userID ∈ (s.router.heap r).speakers.lastLoudAt
    | _ => False
  | .run sid _ =>
    match (s.peers sid).cont with
    | .closeSubs (key :: _) =>
      match (s.peers sid).subs.lookup key with
      | some pub => (s.peers sid).userID = (s.peers x).userID ∧
          (s.peers x).userID ∈ (s.tracks pub).subs ∧
          ∃ key' ∈ (s.peers x).subs.keys, (s.peers x).subs.lookup key' = some pub
      | none => False
    | _ => False
  | _ => False

instance (s : State) (x : SessionID) (e : Event) : Decidable (s.hits x e) := by
  unfold State.hits
  split <;> (try split) <;> (try split) <;> infer_instance

/-- Session `x` has nothing that it did not have before. -/
structure Shrinks (s s' : State) (x : SessionID) : Prop where
  identity : (s'.peers x).toPeer = (s.peers x).toPeer
  slot : s'.seated x = true → s.seated x = true
  subs : (s'.peers x).subs = (s.peers x).subs
  subscriber : ∀ pub sub, (s'.tracks pub).subs.lookup (s.peers x).userID = some sub →
    (s.tracks pub).subs.lookup (s.peers x).userID = some sub
  published : (s'.peers x).published = (s.peers x).published
  speaker : ∀ loud, (s'.roomOf x).speakers.lastLoudAt.lookup (s.peers x).userID = some loud →
    (s.roomOf x).speakers.lastLoudAt.lookup (s.peers x).userID = some loud

/-- Nothing of `x`, of any room or of any track has changed. -/
structure SameFor (s s' : State) (x : SessionID) : Prop where
  identity : (s'.peers x).toPeer = (s.peers x).toPeer
  subs : (s'.peers x).subs = (s.peers x).subs
  published : (s'.peers x).published = (s.peers x).published
  tracks : s'.tracks = s.tracks
  peers : ∀ r, (s'.router.heap r).peers = (s.router.heap r).peers
  speakers : ∀ r, (s'.router.heap r).speakers = (s.router.heap r).speakers

variable {s s' : State} {e : Event} {sid x : SessionID}

theorem SameFor.seated (h : SameFor s s' x) : s'.seated x = s.seated x := by
  unfold State.seated State.roomOf Room.peerByUserID
  rw [h.identity,h.peers]

theorem SameFor.untouched (h : SameFor s s' x) : Untouched s s' x where
  identity := h.identity
  slot hs := by rw [h.seated]; exact hs
  subs := h.subs
  subscriber key pub sub _ hs := by rw [h.tracks]; exact hs
  published := h.published
  speaker loud hl := by
    unfold State.roomOf
    rw [h.identity,h.speakers]
    exact hl

theorem SameFor.shrinks (h : SameFor s s' x) : Shrinks s s' x where
  identity := h.identity
  slot hs := by rw [← h.seated]; exact hs
  subs := h.subs
  subscriber pub sub hs := by rw [← h.tracks]; exact hs
  published := h.published
  speaker loud hl := by
    unfold State.roomOf at hl
    rw [h.identity,h.speakers] at hl
    exact hl

/-- What a section of a `Leave` or a `doClose` can do to another session. -/
inductive LeaveView (s : State) (x : SessionID) : Event → State → Prop
  | same {f next} : SameFor s next x → ¬ s.hits x f → LeaveView s x f next
  | roomRemove {t p r} : s.router.calls t = .leaveRemove p r →
      LeaveView s x (.router (.roomRemove t)) { s with router := s.router.roomRemove t p r }
  | removeUser {t p r} : s.router.calls t = .leaveRemoveUser p r →
      LeaveView s x (.router (.removeUser t)) { s with router := s.router.removeUser t p r }
  | closeSub {y c key rest pub} : (s.peers y).cont = .closeSubs (key :: rest) →
      (s.peers y).subs.lookup key = some pub → x ≠ y →
      LeaveView s x (.run y c) (s.closeSub y key rest)

/-- A section that moves the router's calls, and at most closes a room. -/
theorem sameFor_router {r : SfuRouter.State}
    (hpeers : ∀ k, (r.heap k).peers = (s.router.heap k).peers)
    (hspeakers : ∀ k, (r.heap k).speakers = (s.router.heap k).speakers) :
    SameFor s { s with router := r } x :=
  ⟨rfl,rfl,rfl,rfl,hpeers,hspeakers⟩

/-- A room that is dropped is closed, which its members and its speakers do not see. -/
theorem heap_dropRoom {A : Type} (f : Room → A) (hf : ∀ room : Room, f room.close = f room)
    (r : SfuRouter.State) (p : SfuRouter.Peer) (k k' : RoomRef) :
    f ((r.dropRoom p k).heap k') = f (r.heap k') := by
  have hheap : (r.dropRoom p k).heap = Function.update r.heap k (r.heap k).close := rfl
  rw [hheap]
  by_cases hk : k' = k
  · subst hk
    rw [Function.update_self,hf]
  · rw [Function.update_of_ne hk]

/-- A section that writes another peer only. -/
theorem sameFor_setPeer (s : State) (p : Peer) (hx : x ≠ sid) : SameFor s (s.setPeer sid p) x := by
  have hp : (s.setPeer sid p).peers x = s.peers x := State.setPeer_peers_of_ne s p hx
  exact ⟨by rw [hp],by rw [hp],by rw [hp],rfl,fun _ => rfl,fun _ => rfl⟩

theorem SameFor.send {s₁ : State} (h : SameFor s s₁ x) (l : List Signal) :
    SameFor s (s₁.send l) x :=
  ⟨h.identity,h.subs,h.published,h.tracks,h.peers,h.speakers⟩

theorem SameFor.trans {s₁ s₂ : State} (h : SameFor s s₁ x) (h' : SameFor s₁ s₂ x) :
    SameFor s s₂ x where
  identity := h'.identity.trans h.identity
  subs := h'.subs.trans h.subs
  published := h'.published.trans h.published
  tracks := h'.tracks.trans h.tracks
  peers r := (h'.peers r).trans (h.peers r)
  speakers r := (h'.speakers r).trans (h.speakers r)

/-- A full or an open queue: no field that counts changes. -/
theorem sameFor_enqueue (y : SessionID) (fn : Task) : SameFor s (s.enqueue y fn) x := by
  by_cases hx : x = y
  · subst hx
    have hp : (s.enqueue x fn).peers x = (s.peers x).enqueue fn := State.setPeer_peers_self _ _ _
    have hf : ((s.peers x).enqueue fn).toPeer = (s.peers x).toPeer ∧
        ((s.peers x).enqueue fn).subs = (s.peers x).subs ∧
        ((s.peers x).enqueue fn).published = (s.peers x).published := by
      unfold Peer.enqueue
      split
      · exact ⟨rfl,rfl,rfl⟩
      · split <;> exact ⟨rfl,rfl,rfl⟩
    exact ⟨by rw [hp,hf.1],by rw [hp,hf.2.1],by rw [hp,hf.2.2],rfl,fun _ => rfl,fun _ => rfl⟩
  · have hp : (s.enqueue y fn).peers x = s.peers x := State.setPeer_peers_of_ne s _ hx
    exact ⟨by rw [hp],by rw [hp],by rw [hp],rfl,fun _ => rfl,fun _ => rfl⟩

theorem router_leave_view {re : SfuRouter.Event} {r : SfuRouter.State}
    (he : SfuRouter.step s.router re = some r) (hl : s.leaving (.router re) = some sid)
    (hx : x ≠ sid) : LeaveView s x (.router re) (s.routed re r) := by
  obtain ⟨-,hv⟩ := SfuRouter.step_view he
  cases hv with
  | joinOld => cases hl
  | joinNew => cases hl
  | roomAdd => cases hl
  | markLoud => cases hl
  | sweep => cases hl
  | leaveRoom => exact .same (sameFor_router (fun _ => rfl) (fun _ => rfl)) id
  | leaveNoRoom => exact .same (sameFor_router (fun _ => rfl) (fun _ => rfl)) id
  | leaveUnknown => exact .same (sameFor_router (fun _ => rfl) (fun _ => rfl)) id
  | roomRemove hc => exact .roomRemove hc
  | removeUser hc => exact .removeUser hc
  | isEmpty hc => exact .same (sameFor_router (fun _ => rfl) (fun _ => rfl)) id
  | keep hc hf => exact .same (sameFor_router (fun _ => rfl) (fun _ => rfl)) id
  | @drop t p k hc hf =>
    refine .same (sameFor_router (fun k' => ?_) (fun k' => ?_)) id
    · exact heap_dropRoom Room.peers (fun _ => rfl) s.router p k k'
    · exact heap_dropRoom Room.speakers (fun _ => rfl) s.router p k k'
  | @peerClose t p hc =>
    simp only [State.leaving, hc, leaver, Option.map_some, Option.some.injEq] at hl
    subst hl
    have hr : s.routed (.peerClose t) (s.router.setCall t .idle) =
        { s with router := s.router.setCall t .idle }.setPeer p.sessionID
          (s.peers p.sessionID).close := by
      simp [State.routed, hc]
    rw [hr]
    refine .same (.trans (sameFor_router ?_ ?_) (sameFor_setPeer _ _ hx)) id
    · exact fun _ => rfl
    · exact fun _ => rfl

theorem run_leave_view {c : Choice} (he : s.run sid c = some s')
    (hl : closing (s.peers sid) = true) (hx : x ≠ sid) : LeaveView s x (.run sid c) s' := by
  have hcont : ∀ k, SameFor s (s.setCont sid k) x := fun k => sameFor_setPeer _ _ hx
  have hview := run_view he
  generalize hk : (s.peers sid).cont = k at hview
  cases hview with
  | @task fn rest _ hq hs ht =>
    have hfn : fn = .doClose := by
      cases fn <;> simp [closing, hk, hq] at hl ⊢
    subst hfn
    simp only [State.runTask] at ht
    split at ht
    · cases ht
      exact .same ((sameFor_setPeer s _ hx).trans (sameFor_setPeer _ _ hx))
        (by simp [State.hits, hk])
    · cases ht
  | subsClosed => exact .same (hcont _) (by simp [State.hits, hk])
  | @closeSub key rest =>
    cases hp : (s.peers sid).subs.lookup key with
    | none =>
      refine .same ?_ (by simp [State.hits, hk, hp])
      simp only [State.closeSub, hp]
      exact hcont _
    | some pub => exact .closeSub hk hp hx
  | tracksClosed => exact .same (hcont _) (by simp [State.hits, hk])
  | closeTrack => exact .same ((hcont _).send _) (by simp [State.hits, hk])
  | subscribersClosed => exact .same (hcont _) (by simp [State.hits, hk])
  | @closeSubscriber source u us rest =>
    refine .same ?_ (by simp [State.hits, hk])
    have hs : SameFor s (s.setCont sid (.closeSubscribers source us rest)) x := hcont _
    apply hs.trans
    unfold State.closeSubscriber
    split
    · exact ⟨rfl,rfl,rfl,rfl,fun _ => rfl,fun _ => rfl⟩
    · exact sameFor_enqueue _ _
  | _ => simp [closing, hk] at hl

theorem leave_view (he : step s e = some s') (hl : s.leaving e = some sid) (hx : x ≠ sid) :
    LeaveView s x e s' := by
  unfold step at he
  split at he
  · cases he
  · cases e with
    | router re =>
      obtain ⟨r,hr,hs⟩ := Option.map_eq_some_iff.mp he
      subst hs
      exact router_leave_view hr hl hx
    | run y c =>
      simp only [State.leaving] at hl
      split at hl
      · cases hl
        exact run_leave_view he ‹_› hx
      · cases hl
    | _ => cases hl

section Keyed
variable {t : CallID} {p : SfuRouter.Peer} {r : RoomRef}

theorem roomOf_setRoom {c : SfuRouter.Call} (room : Room) :
    State.roomOf { s with router := (s.router.setRoom r room).setCall t c } x =
      if (s.peers x).room = r then room else s.roomOf x := by
  unfold State.roomOf
  by_cases hr : (s.peers x).room = r
  · rw [if_pos hr,hr]
    exact Function.update_self _ _ _
  · rw [if_neg hr]
    exact Function.update_of_ne hr _ _

/-- `room.remove(userID)` empties the slot of its user in its room, and no other. -/
theorem seated_roomRemove : State.seated { s with router := s.router.roomRemove t p r } x = true ↔
    s.seated x = true ∧ ¬ (p.userID = (s.peers x).userID ∧ r = (s.peers x).room) := by
  unfold State.seated SfuRouter.State.roomRemove
  rw [roomOf_setRoom,decide_eq_true_eq,decide_eq_true_eq]
  by_cases hr : (s.peers x).room = r
  · have hroom : s.router.heap r = s.roomOf x := by rw [← hr]; rfl
    rw [if_pos hr,hroom,Room.peerByUserID_remove]
    by_cases hu : (s.peers x).userID = p.userID
    · simp [hu, hr]
    · simp [hu, Ne.symm hu]
  · simp [hr, Ne.symm hr]

/-- `speakers.removeUser(userID)` drops the entry of its user in its room, and no other. -/
theorem speaker_removeUser (loud : Time) :
    (State.roomOf { s with router := s.router.removeUser t p r } x).speakers.lastLoudAt.lookup
        (s.peers x).userID = some loud ↔
      (s.roomOf x).speakers.lastLoudAt.lookup (s.peers x).userID = some loud ∧
        ¬ (p.userID = (s.peers x).userID ∧ r = (s.peers x).room) := by
  unfold SfuRouter.State.removeUser SfuRouter.State.setSpeakers
  rw [roomOf_setRoom]
  by_cases hr : (s.peers x).room = r
  · have hroom : s.router.heap r = s.roomOf x := by rw [← hr]; rfl
    rw [if_pos hr,hroom]
    unfold ActiveSpeakers.removeUser
    rw [GoMap.lookup_erase_eq]
    by_cases hu : (s.peers x).userID = p.userID
    · simp [hu, hr]
    · simp [hu, Ne.symm hu]
  · simp [hr, Ne.symm hr]

theorem speakers_roomRemove :
    (State.roomOf { s with router := s.router.roomRemove t p r } x).speakers =
      (s.roomOf x).speakers := by
  unfold SfuRouter.State.roomRemove
  rw [roomOf_setRoom]
  split
  · rename_i hr
    subst hr
    rfl
  · rfl

theorem seated_removeUser :
    State.seated { s with router := s.router.removeUser t p r } x = s.seated x := by
  unfold State.seated SfuRouter.State.removeUser SfuRouter.State.setSpeakers
  rw [roomOf_setRoom]
  split
  · rename_i hr
    subst hr
    rfl
  · rfl

end Keyed

/-- A removed subscriber is missing from that track only. -/
theorem subscriber_closeSub {key : SubKey} {rest : List SubKey} {pub : TrackRef}
    (hp : (s.peers sid).subs.lookup key = some pub) (k : TrackRef) (u : UserID)
    (sub : TrackSubscriber) : ((s.closeSub sid key rest).tracks k).subs.lookup u = some sub ↔
      (s.tracks k).subs.lookup u = some sub ∧ ¬ ((s.peers sid).userID = u ∧ k = pub) := by
  have ht : (s.closeSub sid key rest).tracks = Function.update s.tracks pub
      ((s.tracks pub).removeSubscriber (s.peers sid).userID) := by
    simp only [State.closeSub, hp]
    rfl
  rw [ht]
  by_cases hk : k = pub
  · subst hk
    rw [Function.update_self]
    unfold PublishedTrack.removeSubscriber
    rw [GoMap.lookup_erase_eq]
    by_cases hu : u = (s.peers sid).userID
    · simp [hu]
    · simp [hu, Ne.symm hu]
  · rw [Function.update_of_ne hk]
    simp [hk]

theorem closeSub_peers {key : SubKey} {pub : TrackRef} (rest : List SubKey)
    (hp : (s.peers sid).subs.lookup key = some pub) (hx : x ≠ sid) :
    (s.closeSub sid key rest).peers x = s.peers x := by
  simp only [State.closeSub, hp]
  exact State.setPeer_peers_of_ne _ _ hx

theorem roomOf_closeSub {key : SubKey} {pub : TrackRef} (rest : List SubKey)
    (hp : (s.peers sid).subs.lookup key = some pub) (hx : x ≠ sid) :
    (s.closeSub sid key rest).roomOf x = s.roomOf x := by
  have hrouter : (s.closeSub sid key rest).router = s.router := by
    simp only [State.closeSub, hp]
    rfl
  unfold State.roomOf
  rw [closeSub_peers rest hp hx,hrouter]

theorem seated_closeSub {key : SubKey} {pub : TrackRef} (rest : List SubKey)
    (hp : (s.peers sid).subs.lookup key = some pub) (hx : x ≠ sid) :
    (s.closeSub sid key rest).seated x = s.seated x := by
  unfold State.seated
  rw [roomOf_closeSub rest hp hx,closeSub_peers rest hp hx]

theorem LeaveView.shrinks (h : LeaveView s x e s') : Shrinks s s' x := by
  cases h with
  | same hs hn => exact hs.shrinks
  | @roomRemove t p r hc =>
    refine ⟨rfl,fun hs => (seated_roomRemove.mp hs).1,rfl,fun _ _ h => h,rfl,fun loud hl => ?_⟩
    rw [speakers_roomRemove] at hl
    exact hl
  | @removeUser t p r hc =>
    refine ⟨rfl,fun hs => ?_,rfl,fun _ _ h => h,rfl,fun loud hl => ((speaker_removeUser loud).mp hl).1⟩
    rw [seated_removeUser] at hs
    exact hs
  | @closeSub y c key rest pub hk hp hx =>
    have hpeer := closeSub_peers rest hp hx
    refine ⟨by rw [hpeer],fun hs => ?_,by rw [hpeer],fun k sub hs => ?_,by rw [hpeer],fun loud hl => ?_⟩
    · rw [seated_closeSub rest hp hx] at hs
      exact hs
    · exact ((subscriber_closeSub hp k _ sub).mp hs).1
    · rw [roomOf_closeSub rest hp hx] at hl
      exact hl

theorem LeaveView.untouched_iff (h : LeaveView s x e s') : Untouched s s' x ↔ ¬ s.hits x e := by
  cases h with
  | same hs hn => exact iff_of_true hs.untouched hn
  | @roomRemove t p r hc =>
    simp only [State.hits, hc]
    constructor
    · intro hu hh
      exact (seated_roomRemove.mp (hu.slot hh.2.2)).2 ⟨hh.1,hh.2.1⟩
    · intro hn
      refine ⟨rfl,fun hs => ?_,rfl,fun _ _ _ _ h => h,rfl,fun loud hl => ?_⟩
      · exact seated_roomRemove.mpr ⟨hs,fun hk => hn ⟨hk.1,hk.2,hs⟩⟩
      · rw [speakers_roomRemove]
        exact hl
  | @removeUser t p r hc =>
    simp only [State.hits, hc]
    constructor
    · intro hu hh
      obtain ⟨huser,hr,hm⟩ := hh
      obtain ⟨loud,hl⟩ := Finmap.mem_iff.mp hm
      subst hr
      exact ((speaker_removeUser loud).mp (hu.speaker loud hl)).2 ⟨huser,rfl⟩
    · intro hn
      refine ⟨rfl,fun hs => ?_,rfl,fun _ _ _ _ h => h,rfl,fun loud hl => ?_⟩
      · rw [seated_removeUser]
        exact hs
      · refine (speaker_removeUser loud).mpr ⟨hl,fun hk => hn ⟨hk.1,hk.2,?_⟩⟩
        rw [hk.2]
        exact Finmap.mem_of_lookup_eq_some hl
  | @closeSub y c key rest pub hk hp hx =>
    have hpeer := closeSub_peers rest hp hx
    simp only [State.hits, hk, hp]
    constructor
    · intro hu hh
      obtain ⟨huser,hm,key',-,hkey⟩ := hh
      obtain ⟨sub,hs⟩ := Finmap.mem_iff.mp hm
      exact ((subscriber_closeSub hp pub _ sub).mp (hu.subscriber key' pub sub hkey hs)).2 ⟨huser,rfl⟩
    · intro hn
      refine ⟨by rw [hpeer],fun hs => ?_,by rw [hpeer],fun key' k sub hkey hs => ?_,by rw [hpeer],
        fun loud hl => ?_⟩
      · rw [seated_closeSub rest hp hx]
        exact hs
      · refine (subscriber_closeSub hp k _ sub).mpr ⟨hs,fun hh => ?_⟩
        obtain ⟨huser,rfl⟩ := hh
        exact hn ⟨huser,Finmap.mem_of_lookup_eq_some hs,key',
          (GoMap.mem_keys_iff _ _).mpr ⟨k,hkey⟩,hkey⟩
      · rw [roomOf_closeSub rest hp hx]
        exact hl

theorem Untouched.refl (s : State) (x : SessionID) : Untouched s s x :=
  ⟨rfl,id,rfl,fun _ _ _ _ h => h,rfl,fun _ h => h⟩

theorem Untouched.trans {s₁ : State} (h : Untouched s s₁ x) (h' : Untouched s₁ s' x) :
    Untouched s s' x where
  identity := h'.identity.trans h.identity
  slot hs := h'.slot (h.slot hs)
  subs := h'.subs.trans h.subs
  subscriber key pub sub hkey hs := by
    have hmid := h.subscriber key pub sub hkey hs
    rw [← h.identity] at hmid ⊢
    exact h'.subscriber key pub sub (by rw [h.subs]; exact hkey) hmid
  published := h'.published.trans h.published
  speaker loud hl := by
    have hmid := h.speaker loud hl
    rw [← h.identity] at hmid ⊢
    exact h'.speaker loud hmid

theorem Shrinks.refl (s : State) (x : SessionID) : Shrinks s s x :=
  ⟨rfl,id,rfl,fun _ _ h => h,rfl,fun _ h => h⟩

theorem Shrinks.trans {s₁ : State} (h : Shrinks s s₁ x) (h' : Shrinks s₁ s' x) :
    Shrinks s s' x where
  identity := h'.identity.trans h.identity
  slot hs := h.slot (h'.slot hs)
  subs := h'.subs.trans h.subs
  subscriber pub sub hs := by
    rw [← h.identity] at hs ⊢
    have hmid := h'.subscriber pub sub hs
    rw [h.identity] at hmid ⊢
    exact h.subscriber pub sub hmid
  published := h'.published.trans h.published
  speaker loud hl := by
    rw [← h.identity] at hl ⊢
    have hmid := h'.speaker loud hl
    rw [h.identity] at hmid ⊢
    exact h.speaker loud hmid

/-- What is there at the end was there in between. -/
theorem Untouched.of_shrinks {s₁ : State} (h : Untouched s s' x) (h₁ : Shrinks s s₁ x)
    (h₂ : Shrinks s₁ s' x) : Untouched s s₁ x ∧ Untouched s₁ s' x := by
  constructor
  · refine ⟨h₁.identity,fun hs => h₂.slot (h.slot hs),h₁.subs,fun key pub sub hkey hs => ?_,
      h₁.published,fun loud hl => ?_⟩
    · have hend := h.subscriber key pub sub hkey hs
      rw [← h₁.identity] at hend ⊢
      exact h₂.subscriber pub sub hend
    · have hend := h.speaker loud hl
      rw [← h₁.identity] at hend ⊢
      exact h₂.speaker loud hend
  · refine ⟨h₂.identity,fun hs => h.slot (h₁.slot hs),h₂.subs,fun key pub sub hkey hs => ?_,
      h₂.published,fun loud hl => ?_⟩
    · rw [h₁.identity] at hs ⊢
      exact h.subscriber key pub sub (by rw [← h₁.subs]; exact hkey) (h₁.subscriber pub sub hs)
    · rw [h₁.identity] at hl ⊢
      exact h.speaker loud (h₁.speaker loud hl)

theorem leaving_shrinks {es : List Event} (hx : x ≠ sid)
    (h : RunsWhen step (fun s e => s.leaving e = some sid) s es s') : Shrinks s s' x := by
  induction h with
  | refl => exact Shrinks.refl _ x
  | step hl he _ ih => exact (leave_view he hl hx).shrinks.trans ih

/-- The sections of one session's `Leave` and `doClose` leave another session untouched
exactly when none of them removes what it holds under its user's ID. -/
theorem leave_isolated {es : List Event} (hx : x ≠ sid)
    (h : RunsWhen step (fun s e => s.leaving e = some sid) s es s') :
    Untouched s s' x ↔ RunsWhen step (fun s e => ¬ s.hits x e) s es s' := by
  induction h with
  | refl => exact iff_of_true (Untouched.refl _ x) (RunsWhen.refl _)
  | @step s t u e es hl he hr ih =>
    have hv := leave_view he hl hx
    constructor
    · intro hu
      obtain ⟨hfirst,hrest⟩ := hu.of_shrinks hv.shrinks (leaving_shrinks hx hr)
      exact RunsWhen.step (hv.untouched_iff.mp hfirst) he (ih.mp hrest)
    · intro hn
      cases hn with
      | step hn he' hr' =>
        cases Option.some.inj (he.symm.trans he')
        exact (hv.untouched_iff.mpr hn).trans (ih.mpr hr')

/-- Two sessions enter channel 7, the second for user `u`. -/
def joinSecond (u : UserID) : List Event :=
  [.router (.join 0 "a" 1 7), .router (.roomAdd 0), .router (.join 1 "b" u 7), .router (.roomAdd 1)]

/-- All of `Leave("a")`, with its re-check if it finds the room empty, and the `doClose`
that it schedules. -/
def leaveFirst (recheck : List SfuRouter.Event) : List Event :=
  [.router (.leave 2 "a"), .router (.roomRemove 2), .router (.removeUser 2), .router (.isEmpty 2)] ++
    recheck.map .router ++ [.router (.peerClose 2), .run "a" {}, .run "a" {}, .run "a" {}]

theorem leave_isolated_two : ∃ s s', Runs step init (joinSecond 2) s ∧
    RunsWhen step (fun s e => s.leaving e = some "a") s (leaveFirst []) s' ∧
    s.seated "b" = true ∧ Untouched s s' "b" := by
  obtain ⟨s,hrun,hs⟩ := exists_runs_of_exec step init (joinSecond 2)
    (fun s : State => (s.seated "b",
      (exec (fun (s : State) e => if s.leaving e = some "a" then step s e else none) s (leaveFirst [])).isSome,
      (exec (fun (s : State) e => if ¬ s.hits "b" e then step s e else none) s (leaveFirst [])).isSome))
    (true,true,true) (by decide)
  simp only [Prod.mk.injEq, Option.isSome_iff_exists] at hs
  obtain ⟨hseat,⟨s',hl⟩,⟨s'',hn⟩⟩ := hs
  obtain ⟨_,hleave,rfl⟩ := exists_runsWhen_of_exec step (fun (s : State) e => s.leaving e = some "a") s
    (leaveFirst []) id s' (by rw [hl]; rfl)
  obtain ⟨_,hmiss,rfl⟩ := exists_runsWhen_of_exec step (fun (s : State) e => ¬ s.hits "b" e) s
    (leaveFirst []) id s'' (by rw [hn]; rfl)
  have he := (runs_iff_exec.mp hleave.runs).symm.trans (runs_iff_exec.mp hmiss.runs)
  simp only [Option.some.injEq] at he
  refine ⟨s,_,hrun,hleave,hseat,(leave_isolated (by decide) hleave).mpr ?_⟩
  rw [he]
  exact hmiss

theorem newer_session_unseated : ¬ ∀ pre s es s' sid x, Runs step init pre s → x ≠ sid →
    RunsWhen step (fun s e => s.leaving e = some sid) s es s' → Untouched s s' x := by
  intro h
  obtain ⟨s,hrun,hs⟩ := exists_runs_of_exec step init (joinSecond 1)
    (fun s : State => (s.seated "b",
      (exec (fun (s : State) e => if s.leaving e = some "a" then step s e else none) s
        (leaveFirst [.recheck 2])).map (fun s' : State => s'.seated "b")))
    (true,some false) (by decide)
  simp only [Prod.mk.injEq] at hs
  obtain ⟨s',hleave,hseat⟩ := exists_runsWhen_of_exec step (fun (s : State) e => s.leaving e = some "a") s
    (leaveFirst [.recheck 2]) (fun s : State => s.seated "b") false hs.2
  have hkept := (h _ s _ s' "a" "b" hrun (by decide) hleave).slot hs.1
  rw [hseat] at hkept
  cases hkept

end MiniDiscord.SfuMedia
