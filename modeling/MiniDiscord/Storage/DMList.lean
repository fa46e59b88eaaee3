import MiniDiscord.Storage.DMUniqueness

/-! # The list of conversations

Which conversations a user sees, while any users open, close and write to them. The
transactions of `OpenDMChannel` run beside commands that are one statement each: closing a
conversation hides one side's row, and a message shows both.
-/
namespace MiniDiscord.Storage

/-- A row of the list; names, pictures and the time of the last message are left out. -/
structure ListedDM where
  channelID : ChannelID
  peerUserID : UserID
  deriving DecidableEq

def DMChannel.peer (d : DMChannel) (userID : UserID) : UserID :=
  if d.userA = userID then d.userB else d.userA

namespace Tables

def listDMChannels (db : Tables) (userID : UserID) : Finset ListedDM :=
  (db.dmVisibility.filter (fun v => v.userID = userID ∧ v.hidden = false)).biUnion (fun v =>
    (db.dmChannels.filter (fun d => d.channelID = v.channelID ∧ d.peer userID ∈ db.users)).image
      (fun d => ⟨v.channelID,d.peer userID⟩))

def isDMChannel (db : Tables) (channelID : ChannelID) : Bool :=
  decide (∃ d ∈ db.dmChannels, d.channelID = channelID)

/-- The conversation is in the user's list. -/
def Listed (db : Tables) (userID : UserID) (channelID : ChannelID) : Prop :=
  ∃ row ∈ db.listDMChannels userID, row.channelID = channelID

instance (db : Tables) (u : UserID) (c : ChannelID) : Decidable (db.Listed u c) := by
  unfold Listed
  infer_instance

variable {db db' : Tables} {u v : UserID} {c c' : ChannelID}

theorem listed_iff : db.Listed u c ↔ ⟨c,u,false⟩ ∈ db.dmVisibility ∧
    ∃ d ∈ db.dmChannels, d.channelID = c ∧ d.peer u ∈ db.users := by
  simp only [Listed, listDMChannels, Finset.mem_biUnion, Finset.mem_filter, Finset.mem_image]
  constructor
  · rintro ⟨row,⟨⟨vc,vu,vh⟩,⟨hv,rfl,rfl⟩,d,⟨hd,hc,hp⟩,rfl⟩,rfl⟩
    exact ⟨hv,d,hd,hc,hp⟩
  · rintro ⟨hv,d,hd,hc,hp⟩
    exact ⟨⟨c,d.peer u⟩,⟨⟨c,u,false⟩,⟨hv,rfl,rfl⟩,d,⟨hd,hc,hp⟩,rfl⟩,rfl⟩

/-- More rows show more. -/
theorem Listed.mono (h : db.Listed u c) (hv : ⟨c,u,false⟩ ∈ db.dmVisibility → ⟨c,u,false⟩ ∈ db'.dmVisibility)
    (hd : db.dmChannels ⊆ db'.dmChannels) (hu : db.users ⊆ db'.users) : db'.Listed u c := by
  obtain ⟨hrow,d,hmem,hc,hp⟩ := listed_iff.mp h
  exact listed_iff.mpr ⟨hv hrow,d,hd hmem,hc,hu hp⟩

theorem mem_hideVisibility_of_ne {row : DMVisibility} (h : ¬ (row.channelID = c ∧ row.userID = u)) :
    row ∈ (db.hideVisibility u c).dmVisibility ↔ row ∈ db.dmVisibility := by
  simp only [hideVisibility, Finset.mem_image]
  constructor
  · rintro ⟨old,hold,rfl⟩
    split at h
    · rename_i hit
      exact absurd hit h
    · rename_i hit
      rwa [if_neg hit]
  · intro hrow
    exact ⟨row,hrow,if_neg h⟩

/-- Closing a conversation hides it from nobody else, and hides no other one. -/
theorem listed_hideVisibility (h : ¬ (c' = c ∧ v = u)) :
    (db.hideVisibility u c).Listed v c' ↔ db.Listed v c' := by
  rw [listed_iff,listed_iff,mem_hideVisibility_of_ne h]
  exact Iff.rfl

theorem listed_revealVisibility (h : db.Listed v c') : (db.revealVisibility c).Listed v c' := by
  refine h.mono (fun hrow => ?_) (Finset.Subset.refl _) (Finset.Subset.refl _)
  simp only [revealVisibility, Finset.mem_union, Finset.mem_filter, Finset.mem_image]
  by_cases hc : c' = c ∧ v ∈ db.dmParticipants c
  · exact Or.inr ⟨v,hc.2,by rw [hc.1]⟩
  · exact Or.inl ⟨hrow,hc⟩

end Tables

namespace OpenDM
open Transition ReadCommitted

namespace DMList

inductive Event where
  | call (e : OpenDM.Event)
  | closeDM (userID : UserID) (channelID : ChannelID) (fails : Bool)
  | sendMessage (userID : UserID) (channelID : ChannelID) (fails : Bool)
  | listDMs (userID : UserID)

/-- A statement outside the transactions. -/
def update (s : State) (f : Tables → Tables) : State :=
  { s with store := { s.store with committed := f s.store.committed } }

/-- A command without access to the channel, or with a failing statement, leaves the list alone. -/
def step (s : State) : Event → Option State
  | .call e => OpenDM.step s e
  | .closeDM userID channelID fails =>
    if s.db.canUserAccessChannel userID channelID = true ∧ fails = false then
      some (update s (fun db => db.hideVisibility userID channelID))
    else some s
  | .sendMessage userID channelID fails =>
    if s.db.canUserAccessChannel userID channelID = true ∧ s.db.isDMChannel channelID = true ∧
        fails = false then
      some (update s (fun db => db.revealVisibility channelID))
    else some s
  | .listDMs _ => some s

end DMList

variable {s s' : State} {i : CallID} {call : Call}

/-- What a step of the transactions does, for what the list is read from. -/
inductive Moves (s : State) (i : CallID) (call : Call) : State → Prop
  | looks {phase} : (∀ c, phase ≠ .commit c true) → Moves s i call (s.setPhase i call phase)
  | writes {w phase given} :
      (∀ c, phase = .commit c true → w = .insertVisibility ⟨c,call.userID,false⟩) →
      (∀ row, w = .insertDMChannel row → row.userA ∈ (s.view i).users ∧ row.userB ∈ (s.view i).users) →
      Moves s i call ({ s.write i w with given := given }.setPhase i call phase)
  | fails {failure} : Moves s i call (s.fail i call failure)
  | commits {c created result} : s.calls.lookup i = some call → call.phase = .commit c created →
      Moves s i call (s.commit i call result)

theorem statement_moves {value : ChannelID} (hc : s.calls.lookup i = some call)
    (he : statement s i call value = some s') : Moves s i call s' := by
  unfold statement at he
  dsimp only at he
  cases hphase : call.phase with
  | lookup =>
    rw [hphase] at he
    dsimp only at he
    split at he
    · obtain rfl := Option.some.inj he
      exact .looks (fun c => by simp)
    · split at he
      · cases he
      · obtain rfl := Option.some.inj he
        exact .looks (fun c => by simp)
  | sharesServer =>
    rw [hphase] at he
    dsimp only at he
    split at he <;> obtain rfl := Option.some.inj he
    · exact .looks (fun c => by simp)
    · exact .fails
  | insertChannel =>
    rw [hphase] at he
    dsimp only at he
    split at he
    · cases he
    · obtain rfl := Option.some.inj he
      exact .writes (fun c h => by cases h) (fun row h => by cases h)
  | insertDMChannel channelID =>
    rw [hphase] at he
    dsimp only at he
    split at he
    · obtain rfl := Option.some.inj he
      exact .fails
    split at he
    · cases he
    split at he
    · obtain rfl := Option.some.inj he
      exact .looks (fun c => by simp)
    split at he
    · obtain rfl := Option.some.inj he
      exact .fails
    · rename_i hu
      obtain rfl := Option.some.inj he
      refine .writes (fun c h => by cases h) (fun row h => ?_)
      cases h
      exact not_not.mp hu
  | reread channelID =>
    rw [hphase] at he
    dsimp only at he
    split at he
    · obtain rfl := Option.some.inj he
      exact .looks (fun c => by simp)
    · split at he
      · cases he
      · obtain rfl := Option.some.inj he
        exact .fails
  | deleteChannel channelID winnerChannelID =>
    rw [hphase] at he
    obtain rfl := Option.some.inj he
    exact .writes (fun c h => by cases h) (fun row h => by cases h)
  | insertVisibility channelID =>
    rw [hphase] at he
    obtain rfl := Option.some.inj he
    refine .writes (fun c h => ?_) (fun row h => by cases h)
    cases h
    rfl
  | commit channelID created =>
    rw [hphase] at he
    obtain rfl := Option.some.inj he
    exact .commits hc hphase
  | done result =>
    rw [hphase] at he
    cases he

theorem step_moves {e : Event} (he : step s e = some s') : ∃ i call, Moves s i call s' := by
  cases e with
  | openDMChannel i userID peerID =>
    unfold step at he
    dsimp only at he
    cases hc : s.calls.lookup i with
    | some call =>
      rw [hc] at he
      cases he
    | none =>
      rw [hc] at he
      obtain rfl := Option.some.inj he
      refine ⟨i,⟨userID,peerID,.lookup⟩,?_⟩
      change Moves s i _ (s.setPhase i ⟨userID,peerID,.lookup⟩ .lookup)
      exact .looks (fun c => by simp)
  | statement i value =>
    obtain ⟨call,hc,he⟩ := Option.bind_eq_some_iff.mp he
    exact ⟨i,call,statement_moves hc he⟩
  | fail i =>
    obtain ⟨call,hc,he⟩ := Option.bind_eq_some_iff.mp he
    split at he
    · cases he
    · obtain rfl := Option.some.inj he
      exact ⟨i,call,.fails⟩
  | unacknowledged i =>
    obtain ⟨call,hc,he⟩ := Option.bind_eq_some_iff.mp he
    split at he
    · rename_i channelID created hphase
      obtain rfl := Option.some.inj he
      exact ⟨i,call,.commits hc hphase⟩
    · cases he

theorem users_apply (db : Tables) (w : Write) : (apply db w).users = db.users := by
  cases w <;> rfl

theorem users_view (s : State) (i : CallID) : (s.view i).users = s.db.users := by
  unfold State.view Store.view State.db
  generalize s.store.pending i = ws
  generalize s.store.committed = db
  induction ws generalizing db with
  | nil => rfl
  | cons w ws ih => exact (ih (apply db w)).trans (users_apply db w)

/-- Who opens a new conversation will see it, and both sides of every conversation exist. -/
structure Shown (s : State) : Prop where
  shows : ∀ i call c, s.calls.lookup i = some call → call.phase = .commit c true →
    .insertVisibility ⟨c,call.userID,false⟩ ∈ s.store.pending i
  inserting : ∀ i row, .insertDMChannel row ∈ s.store.pending i →
    row.userA ∈ s.db.users ∧ row.userB ∈ s.db.users
  rows : ∀ d ∈ s.db.dmChannels, d.userA ∈ s.db.users ∧ d.userB ∈ s.db.users

theorem dmChannels_view {d : DMChannel} (hd : d ∈ (s.view i).dmChannels) :
    d ∈ s.db.dmChannels ∨ .insertDMChannel d ∈ s.store.pending i := by
  unfold State.view Store.view at hd
  unfold State.db
  generalize s.store.pending i = ws at hd ⊢
  generalize s.store.committed = db at hd ⊢
  induction ws generalizing db with
  | nil => exact Or.inl hd
  | cons w ws ih =>
    rcases ih (apply db w) hd with h | h
    · cases w with
      | insertDMChannel row =>
        rcases Finset.mem_insert.mp h with rfl | h
        · exact Or.inr List.mem_cons_self
        · exact Or.inl h
      | deleteChannel c => exact Or.inl (Finset.mem_filter.mp h).1
      | insertChannel row => exact Or.inl h
      | insertVisibility row => exact Or.inl h
    · exact Or.inr (List.mem_cons_of_mem _ h)

theorem lookup_setPhase (s : State) (i j : CallID) (call : Call) (phase : Phase) :
    (s.setPhase i call phase).calls.lookup j =
      if j = i then some { call with phase := phase } else s.calls.lookup j :=
  GoMap.lookup_insert_eq _ _ _ _

/-- The phase of one call changes, and what it waits to commit. -/
theorem Shown.setPhase (h : Shown s) {store : Store CallID Tables Write} {given : Finset ChannelID}
    {phase : Phase} (hother : ∀ j, j ≠ i → store.pending j = s.store.pending j)
    (hu : store.committed.users = s.db.users)
    (hrows : ∀ d ∈ store.committed.dmChannels, d.userA ∈ s.db.users ∧ d.userB ∈ s.db.users)
    (hi : ∀ row, .insertDMChannel row ∈ store.pending i → row.userA ∈ s.db.users ∧ row.userB ∈ s.db.users)
    (hp : ∀ c, phase = .commit c true → .insertVisibility ⟨c,call.userID,false⟩ ∈ store.pending i) :
    Shown (State.setPhase ⟨store,given,s.calls⟩ i call phase) := by
  have hdb : (State.setPhase ⟨store,given,s.calls⟩ i call phase).db.users = s.db.users := hu
  constructor
  · intro j call' c hj hphase
    rw [lookup_setPhase] at hj
    split at hj
    · rename_i hji
      obtain rfl := Option.some.inj hj
      rw [hji]
      exact hp c hphase
    · rename_i hji
      change _ ∈ store.pending j
      rw [hother j hji]
      exact h.shows j call' c hj hphase
  · intro j row hj
    rw [hdb]
    by_cases hji : j = i
    · rw [hji] at hj
      exact hi row hj
    · change _ ∈ store.pending j at hj
      rw [hother j hji] at hj
      exact h.inserting j row hj
  · intro d hd
    rw [hdb]
    exact hrows d hd

theorem Shown.moves (h : Shown s) (hm : Moves s i call s') : Shown s' := by
  cases hm with
  | looks hp =>
    refine h.setPhase (fun _ _ => rfl) rfl h.rows (h.inserting i) (fun c hc => absurd hc (hp c))
  | @writes w phase given hv hd =>
    have hpend : (s.write i w).store.pending i = s.store.pending i ++ [w] := pending_write s.store
    refine h.setPhase (fun j hj => pending_write_of_ne s.store hj) rfl h.rows (fun row hrow => ?_)
      (fun c hc => ?_)
    · rw [hpend,List.mem_append,List.mem_singleton] at hrow
      rcases hrow with hrow | hrow
      · exact h.inserting i row hrow
      · have hview := hd row hrow.symm
        rwa [users_view] at hview
    · rw [hpend,hv c hc]
      exact List.mem_append_right _ (List.mem_singleton.mpr rfl)
  | fails =>
    refine h.setPhase (fun j hj => pending_rollback_of_ne s.store hj) rfl h.rows (fun row hrow => ?_)
      (fun c hc => by cases hc)
    rw [pending_rollback] at hrow
    cases hrow
  | commits hc hphase =>
    refine h.setPhase (fun j hj => pending_commit_of_ne apply s.store hj) (users_view s i) ?_
      (fun row hrow => ?_) (fun c hc => by cases hc)
    · intro d hd
      rcases dmChannels_view hd with hd | hd
      · exact h.rows d hd
      · exact h.inserting i d hd
    · rw [pending_commit] at hrow
      cases hrow

/-- A commit takes nothing off the list. -/
theorem listed_commit (h : Inv s) (hc : s.calls.lookup i = some call) {c : ChannelID}
    {created : Bool} (hphase : call.phase = .commit c created) {u : UserID} {c' : ChannelID}
    (hl : s.db.Listed u c') : (s.view i).Listed u c' := by
  have hw := h.writes i call hc
  unfold Writes at hw
  rw [hphase] at hw
  cases created with
  | true =>
    obtain ⟨row,hw⟩ := hw
    have hview : s.view i = ((s.db.insertChannel (dmRow c)).insertDMChannel
        (call.row c)).insertVisibility row := by
      rw [State.view,Store.view,hw]
      rfl
    rw [hview]
    exact hl.mono (fun hv => Finset.mem_insert_of_mem hv) (Finset.subset_insert _ _)
      (Finset.Subset.refl _)
  | false =>
    rcases hw with hw | ⟨d,hw⟩
    · rw [State.view,view_of_nil apply s.store hw]
      exact hl
    · have hview : s.view i =
          (s.db.insertChannel (dmRow d)).deleteChannels (fun row => row.id = (dmRow d).id) := by
        rw [State.view,Store.view,hw]
        rfl
      have hmade : d ∈ made (s.store.pending i) := by
        rw [hw]
        exact List.mem_cons_self
      have hfresh := (h.fresh i d hmade).2
      obtain ⟨-,hdm⟩ := Tables.deleteChannels_insertChannel h.kept.referential
        (show (dmRow d).id ∉ s.db.channelIDs from hfresh)
      obtain ⟨-,dm,hmem,hcid,-⟩ := Tables.listed_iff.mp hl
      have hne : c' ≠ d := by
        rintro rfl
        exact hfresh (hcid ▸ h.kept.referential.dmChannels dm hmem)
      rw [hview]
      refine hl.mono (fun hv => Finset.mem_filter.mpr ⟨hv,fun hgone => ?_⟩) (Eq.subset hdm.symm)
        (Finset.Subset.refl _)
      obtain ⟨row,hrow,hid⟩ := Finset.mem_image.mp hgone
      exact hne (hid.symm.trans (Finset.mem_filter.mp hrow).2)

theorem dmChannels_commit (h : Inv s) (hc : s.calls.lookup i = some call) {c : ChannelID}
    {created : Bool} (hphase : call.phase = .commit c created) :
    s.db.dmChannels ⊆ (s.view i).dmChannels := by
  have hw := h.writes i call hc
  unfold Writes at hw
  rw [hphase] at hw
  cases created with
  | true =>
    obtain ⟨row,hw⟩ := hw
    have hws : s.store.pending i = [.insertChannel (dmRow (call.row c).channelID),
        .insertDMChannel (call.row c),.insertVisibility row] := hw
    have hins := (h.toStoreInv.commit_made hws).2
    exact (Finset.subset_insert _ _).trans (Eq.subset hins.symm)
  | false => exact Eq.subset (h.toStoreInv.commit_found hw).2.symm

/-- A commit that has found the conversation puts nothing on the list. -/
theorem not_listed_commit (h : Inv s) (hc : s.calls.lookup i = some call) {c : ChannelID}
    (hphase : call.phase = .commit c false) {u : UserID} {c' : ChannelID}
    (hl : (s.view i).Listed u c') : s.db.Listed u c' := by
  have hw := h.writes i call hc
  unfold Writes at hw
  rw [hphase] at hw
  rcases hw with hw | ⟨d,hw⟩
  · rw [State.view,view_of_nil apply s.store hw] at hl
    exact hl
  · have hview : s.view i =
        (s.db.insertChannel (dmRow d)).deleteChannels (fun row => row.id = (dmRow d).id) := by
      rw [State.view,Store.view,hw]
      rfl
    rw [hview] at hl
    exact hl.mono (fun hv => (Finset.mem_filter.mp hv).1) (Finset.filter_subset _ _)
      (Finset.Subset.refl _)

/-- Whoever has made the conversation sees it. -/
theorem listed_created (h : Inv s) (hs : Shown s) (hc : s.calls.lookup i = some call) {c : ChannelID}
    (hphase : call.phase = .commit c true) : (s.view i).Listed call.userID c := by
  have hshow := hs.shows i call c hc hphase
  have hw := h.writes i call hc
  unfold Writes at hw
  rw [hphase] at hw
  obtain ⟨row,hw⟩ := hw
  have hrow : row = ⟨c,call.userID,false⟩ := by
    rw [hw] at hshow
    simp only [List.mem_cons, List.not_mem_nil, or_false, reduceCtorEq, false_or,
      Write.insertVisibility.injEq] at hshow
    exact hshow.symm
  have hview : s.view i = ((s.db.insertChannel (dmRow c)).insertDMChannel
      (call.row c)).insertVisibility row := by
    rw [State.view,Store.view,hw]
    rfl
  have hpeers : (call.row c).userA ∈ s.db.users ∧ (call.row c).userB ∈ s.db.users :=
    hs.inserting i _ (by rw [hw]; simp)
  rw [hview,Tables.listed_iff,hrow]
  refine ⟨Finset.mem_insert_self _ _,call.row c,Finset.mem_insert_self _ _,rfl,?_⟩
  unfold DMChannel.peer
  split
  · exact hpeers.2
  · exact hpeers.1

namespace DMList
variable {e : DMList.Event} {u v : UserID} {c : ChannelID}

theorem inv_update (h : Inv s) {f : Tables → Tables} (hr : (f s.db).Referential)
    (hd : (f s.db).dmChannels = s.db.dmChannels) (hc : (f s.db).channels = s.db.channels)
    (hi : (f s.db).channelIDs = s.db.channelIDs) : Inv (update s f) where
  kept := by
    constructor
    · exact hr
    · change ∀ d ∈ (f s.db).dmChannels, ∀ d' ∈ (f s.db).dmChannels, _
      rw [hd]
      exact h.kept.pairs
    · change ∀ c ∈ (f s.db).channels, _ → ∃ d ∈ (f s.db).dmChannels, _
      rw [hd,hc]
      exact h.kept.rows
  issued := by
    change (f s.db).channelIDs ⊆ s.given
    rw [hi]
    exact h.issued
  fresh := by
    intro i c hm
    change c ∈ s.given ∧ c ∉ (f s.db).channelIDs
    rw [hi]
    exact h.fresh i c hm
  absent := by
    intro i p hp
    change ¬ ∃ d ∈ (f s.db).dmChannels, _
    rw [hd]
    exact h.absent i p hp
  madeApart := h.madeApart
  insertedApart := h.insertedApart
  idle := h.idle
  writes := h.writes
  found := by
    intro i call hi
    refine (h.found i call hi).mono ?_
    change s.db.dmChannels ⊆ (f s.db).dmChannels
    rw [hd]

theorem shown_update (h : Shown s) {f : Tables → Tables} (hd : (f s.db).dmChannels = s.db.dmChannels)
    (hu : (f s.db).users = s.db.users) : Shown (update s f) where
  shows := h.shows
  inserting i row hr := by
    change row.userA ∈ (f s.db).users ∧ row.userB ∈ (f s.db).users
    rw [hu]
    exact h.inserting i row hr
  rows := by
    change ∀ d ∈ (f s.db).dmChannels, d.userA ∈ (f s.db).users ∧ d.userB ∈ (f s.db).users
    rw [hd,hu]
    exact h.rows

theorem referential_visibility {db db' : Tables} (h : db.Referential)
    (hv : db' = { db with dmVisibility := db'.dmVisibility }) : db'.Referential := by
  rw [hv]
  exact ⟨h.servers,h.channels,h.channelKey,h.channelServers,h.members,h.dmChannels⟩

theorem step_inv (h : Inv s ∧ Shown s) (he : step s e = some s') : Inv s' ∧ Shown s' := by
  obtain ⟨hi,hs⟩ := h
  have hup : ∀ f : Tables → Tables, (∀ db, f db = { db with dmVisibility := (f db).dmVisibility }) →
      Inv (update s f) ∧ Shown (update s f) := by
    intro f hf
    have hdb := hf s.db
    refine ⟨inv_update hi (referential_visibility hi.kept.referential hdb) ?_ ?_ ?_,
      shown_update hs ?_ ?_⟩ <;> rw [hdb]
  cases e with
  | call e =>
    obtain ⟨i,call,hm⟩ := step_moves he
    exact ⟨OpenDM.step_inv hi he,hs.moves hm⟩
  | closeDM u c fails =>
    simp only [step] at he
    split at he <;> obtain rfl := Option.some.inj he
    · exact hup _ (fun _ => rfl)
    · exact ⟨hi,hs⟩
  | sendMessage u c fails =>
    simp only [step] at he
    split at he <;> obtain rfl := Option.some.inj he
    · exact hup _ (fun _ => rfl)
    · exact ⟨hi,hs⟩
  | listDMs u =>
    obtain rfl := Option.some.inj he
    exact ⟨hi,hs⟩

/-- Only its own user's closing takes a conversation off a list. -/
theorem listed_step (h : Inv s) (he : step s e = some s') (hne : e ≠ .closeDM u c false)
    (hl : s.db.Listed u c) : s'.db.Listed u c := by
  cases e with
  | call e =>
    obtain ⟨i,call,hm⟩ := step_moves he
    cases hm with
    | looks => exact hl
    | writes => exact hl
    | fails => exact hl
    | commits hc hphase => exact listed_commit h hc hphase hl
  | closeDM u' c' fails =>
    simp only [step] at he
    split at he
    · rename_i hf
      obtain rfl := Option.some.inj he
      refine (Tables.listed_hideVisibility ?_).mpr hl
      rintro ⟨rfl,rfl⟩
      exact hne (by rw [hf.2])
    · obtain rfl := Option.some.inj he
      exact hl
  | sendMessage u' c' fails =>
    simp only [step] at he
    split at he <;> obtain rfl := Option.some.inj he
    · exact Tables.listed_revealVisibility hl
    · exact hl
  | listDMs u' =>
    obtain rfl := Option.some.inj he
    exact hl

/-- Closing a conversation changes nobody else's list. -/
theorem listed_closeDM {fails : Bool} (he : step s (.closeDM u c fails) = some s') (hv : v ≠ u)
    (c' : ChannelID) : s'.db.Listed v c' ↔ s.db.Listed v c' := by
  simp only [step] at he
  split at he <;> obtain rfl := Option.some.inj he
  · exact Tables.listed_hideVisibility (fun h => hv h.2)
  · exact Iff.rfl

theorem dmChannels_step (h : Inv s) (he : step s e = some s') : s.db.dmChannels ⊆ s'.db.dmChannels := by
  cases e with
  | call e =>
    obtain ⟨i,call,hm⟩ := step_moves he
    cases hm with
    | looks => exact Finset.Subset.refl _
    | writes => exact Finset.Subset.refl _
    | fails => exact Finset.Subset.refl _
    | commits hc hphase => exact dmChannels_commit h hc hphase
  | closeDM u c fails =>
    simp only [step] at he
    split at he <;> obtain rfl := Option.some.inj he <;> exact Finset.Subset.refl _
  | sendMessage u c fails =>
    simp only [step] at he
    split at he <;> obtain rfl := Option.some.inj he <;> exact Finset.Subset.refl _
  | listDMs u =>
    obtain rfl := Option.some.inj he
    exact Finset.Subset.refl _

/-- A message shows the conversation to both its sides. -/
theorem listed_sendMessage (hs : Shown s) {d : DMChannel} (hd : d ∈ s.db.dmChannels)
    (hv : v = d.userA ∨ v = d.userB) (ha : s.db.canUserAccessChannel u d.channelID = true)
    (he : step s (.sendMessage u d.channelID false) = some s') : s'.db.Listed v d.channelID := by
  have hdm : s.db.isDMChannel d.channelID = true := decide_eq_true ⟨d,hd,rfl⟩
  simp only [step, ha, hdm, and_self, if_true, Option.some.injEq] at he
  rw [← he]
  have hpart : v ∈ s.db.dmParticipants d.channelID := by
    simp only [Tables.dmParticipants, Finset.mem_union, Finset.mem_image, Finset.mem_filter]
    rcases hv with rfl | rfl
    · exact Or.inl ⟨d,⟨hd,rfl⟩,rfl⟩
    · exact Or.inr ⟨d,⟨hd,rfl⟩,rfl⟩
  have hpeer : d.peer v ∈ s.db.users := by
    unfold DMChannel.peer
    split
    · exact (hs.rows d hd).2
    · exact (hs.rows d hd).1
  exact Tables.listed_iff.mpr
    ⟨Finset.mem_union_right _ (Finset.mem_image.mpr ⟨v,hpart,rfl⟩),d,hd,rfl,hpeer⟩

/-- What is on a list stays there until its user closes it. -/
theorem listed_run {es : List DMList.Event} (hi : Inv s ∧ Shown s) (hl : s.db.Listed u c)
    (h : RunsWhen step (fun _ e => e ≠ .closeDM u c false) s es s') : s'.db.Listed u c :=
  (h.invariant (P := fun s => (Inv s ∧ Shown s) ∧ s.db.Listed u c) ⟨hi,hl⟩
    (fun h hne he => ⟨step_inv h.1 he,listed_step h.1.1 he hne h.2⟩)).2

/-- The user of a call that succeeds has the conversation in the list until closing it, if and
only if the call has made it or it was in the list before. From the next message in it on the
user has it in either case, until closing it; and nobody's closing changes another user's list. -/
theorem listed_until_closed {db : Tables} {given : Finset ChannelID} {es : List DMList.Event}
    {created : Bool} {value : ChannelID} (hk : Kept db) (hg : db.channelIDs ⊆ given)
    (hu : ∀ d ∈ db.dmChannels, d.userA ∈ db.users ∧ d.userB ∈ db.users)
    (hr : Runs step (start db given) es s) (hc : s.calls.lookup i = some call)
    (hphase : call.phase = .commit c created)
    (he : step s (.call (.statement i value)) = some s') :
    ((∀ fs t, RunsWhen step (fun _ e => e ≠ .closeDM call.userID c false) s' fs t →
      t.db.Listed call.userID c) ↔ (created = true ∨ s.db.Listed call.userID c)) ∧
    (∀ fs gs t t' t'' v, Runs step s' fs t → t.db.canUserAccessChannel v c = true →
      step t (.sendMessage v c false) = some t' →
      RunsWhen step (fun _ e => e ≠ .closeDM call.userID c false) t' gs t'' →
      t''.db.Listed call.userID c) ∧
    ∀ t t' v u c' fails, step t (.closeDM u c' fails) = some t' → v ≠ u →
      ∀ c'', t'.db.Listed v c'' ↔ t.db.Listed v c'' := by
  have h0 : Inv (start db given) ∧ Shown (start db given) := by
    refine ⟨inv_start hk hg,⟨fun i call c hi _ => ?_,fun i row hrow => ?_,hu⟩⟩
    · cases (Finmap.lookup_empty i).symm.trans hi
    · cases hrow
  have hinv := hr.invariant (P := fun s => Inv s ∧ Shown s) h0 (fun h _ he => step_inv h he)
  have hinv' := step_inv hinv he
  have hs' : s' = s.commit i call (.ok (c,created)) := by
    simp only [step, OpenDM.step, hc, Option.bind_some, statement, hphase, Option.some.injEq] at he
    exact he.symm
  have hdb : s'.db = s.view i := by rw [hs']; rfl
  refine ⟨⟨fun h => ?_,fun h => ?_⟩,fun fs gs t t' t'' v hfs ha hsend hgs => ?_,
    fun t t' v u c' fails he hv => listed_closeDM he hv⟩
  · cases created with
    | true => exact Or.inl rfl
    | false =>
      have hl := h [] s' (RunsWhen.refl s')
      rw [hdb] at hl
      exact Or.inr (not_listed_commit hinv.1 hc hphase hl)
  · have hl : s'.db.Listed call.userID c := by
      rw [hdb]
      rcases h with rfl | h
      · exact listed_created hinv.1 hinv.2 hc hphase
      · exact listed_commit hinv.1 hc hphase h
    intro fs t hfs
    exact listed_run hinv' hl hfs
  · have hrow : call.row c ∈ s'.db.dmChannels := by
      have hdone : s'.calls.lookup i = some { call with phase := .done (.ok (c,created)) } := by
        rw [hs']
        exact (GoMap.lookup_insert_eq _ _ _ _).trans (if_pos rfl)
      exact hinv'.1.found i _ hdone
    obtain ⟨hti,htrow⟩ := hfs.invariant
      (P := fun s => (Inv s ∧ Shown s) ∧ call.row c ∈ s.db.dmChannels) ⟨hinv',hrow⟩
      (fun h _ he => ⟨step_inv h.1 he,dmChannels_step h.1.1 he h.2⟩)
    have hside : call.userID = (call.row c).userA ∨ call.userID = (call.row c).userB := by
      change _ = (normalizeDMPair call.userID call.peerID).1 ∨
        _ = (normalizeDMPair call.userID call.peerID).2
      unfold normalizeDMPair
      split
      · exact Or.inl rfl
      · exact Or.inr rfl
    exact listed_run (step_inv hti hsend) (listed_sendMessage hti.2 htrow hside ha hsend) hgs

deriving instance DecidableEq for Phase
deriving instance DecidableEq for Call

/-- User 1 opens a conversation with user 2, up to the commit. -/
def opens : List DMList.Event :=
  [.call (.openDMChannel 0 1 2), .call (.statement 0 0), .call (.statement 0 0),
   .call (.statement 0 1), .call (.statement 0 0), .call (.statement 0 0)]

theorem listed_until_closed_opens :
    let s := after step (start sharing ∅) opens
    let s' := after step s [.call (.statement 0 0)]
    ∀ fs t, RunsWhen step (fun _ e => e ≠ .closeDM 1 1 false) s' fs t → t.db.Listed 1 1 := by
  have hc : (after step (start sharing ∅) opens).calls.lookup 0 = some ⟨1,2,.commit 1 true⟩ := by
    decide +kernel
  exact (listed_until_closed kept_sharing (Finset.empty_subset _) (by decide)
    (runs_after (by decide +kernel)) hc rfl (step_after (by decide +kernel))).1.mpr (Or.inl rfl)

/-- After it user 1 closes the conversation and opens it again, and user 2 opens it. -/
def reopens : List DMList.Event :=
  opens ++ [.call (.statement 0 0), .closeDM 1 1 false, .call (.openDMChannel 1 1 2),
    .call (.statement 1 1), .call (.statement 1 0), .call (.openDMChannel 2 2 1),
    .call (.statement 2 1), .call (.statement 2 0)]

theorem reopened_not_listed : ∃ s, Runs step (start sharing ∅) reopens s ∧
    (s.calls.lookup 1).bind Call.returned = some (1,false) ∧ ¬ s.db.Listed 1 1 ∧
    (s.calls.lookup 2).bind Call.returned = some (1,false) ∧ ¬ s.db.Listed 2 1 :=
  ⟨after step (start sharing ∅) reopens,runs_after (by decide +kernel),by decide +kernel⟩

end DMList

end OpenDM
end MiniDiscord.Storage
