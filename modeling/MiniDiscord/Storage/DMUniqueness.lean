import MiniDiscord.Storage.OpenDM

/-! # One conversation for a pair

Whoever inserts the pair first has the conversation. The others wait for it or find it, and
take back the channel they have made; nothing of a channel without its pair is ever
committed.
-/
namespace MiniDiscord.Storage.OpenDM
open Transition ReadCommitted

/-- The conversations in the tables: one for a pair, and no channel without its pair. -/
structure Kept (db : Tables) : Prop where
  referential : db.Referential
  pairs : ∀ d ∈ db.dmChannels, ∀ d' ∈ db.dmChannels, d.userA = d'.userA → d.userB = d'.userB → d = d'
  rows : ∀ c ∈ db.channels, c.serverID = none → ∃ d ∈ db.dmChannels, d.channelID = c.id

/-- The channels that a transaction has made. -/
def made (ws : List Write) : List ChannelID :=
  ws.filterMap (fun
    | .insertChannel row => some row.id
    | _ => none)

/-- What is committed and what is under way do not get into each other's way. -/
structure StoreInv (store : Store CallID Tables Write) (given : Finset ChannelID) : Prop where
  kept : Kept store.committed
  issued : store.committed.channelIDs ⊆ given
  fresh : ∀ i, ∀ c ∈ made (store.pending i), c ∈ given ∧ c ∉ store.committed.channelIDs
  absent : ∀ i, ∀ p ∈ inserted (store.pending i), ¬ hasPair store.committed p.1 p.2
  madeApart : ∀ i j, i ≠ j → ∀ c ∈ made (store.pending i), c ∉ made (store.pending j)
  insertedApart : ∀ i j, i ≠ j → ∀ p ∈ inserted (store.pending i), p ∉ inserted (store.pending j)

/-- The row of a new conversation. -/
def dmRow (channelID : ChannelID) : Channel := ⟨channelID,none,"",ChannelTypeDM⟩

/-- What the transaction of a call has written so far. -/
def Writes (call : Call) (ws : List Write) : Prop :=
  match call.phase with
  | .lookup | .sharesServer | .insertChannel | .done _ => ws = []
  | .insertDMChannel channelID | .reread channelID | .deleteChannel channelID _ =>
    ws = [.insertChannel (dmRow channelID)]
  | .insertVisibility channelID =>
    ws = [.insertChannel (dmRow channelID),.insertDMChannel (call.row channelID)]
  | .commit channelID true => ∃ row, ws = [.insertChannel (dmRow channelID),
    .insertDMChannel (call.row channelID),.insertVisibility row]
  | .commit _ false => ws = [] ∨ ∃ c, ws = [.insertChannel (dmRow c),.deleteChannel c]

/-- What the call has found to be committed. -/
def Found (call : Call) (db : Tables) : Prop :=
  match call.phase with
  | .deleteChannel _ winnerChannelID => call.row winnerChannelID ∈ db.dmChannels
  | .commit channelID false => call.row channelID ∈ db.dmChannels
  | .done (.ok (channelID,_)) => call.row channelID ∈ db.dmChannels
  | _ => True

structure Inv (s : State) : Prop extends StoreInv s.store s.given where
  idle : ∀ i, s.calls.lookup i = none → s.store.pending i = []
  writes : ∀ i call, s.calls.lookup i = some call → Writes call (s.store.pending i)
  found : ∀ i call, s.calls.lookup i = some call → Found call s.db

/-! ## The store -/

section Stores
variable {store store' : Store CallID Tables Write} {given given' : Finset ChannelID} {i : CallID}

theorem made_append (ws : List Write) (w : Write) : made (ws ++ [w]) = made ws ++ made [w] :=
  List.filterMap_append ..

theorem inserted_append (ws : List Write) (w : Write) :
    inserted (ws ++ [w]) = inserted ws ++ inserted [w] :=
  List.filterMap_append ..

/-- Nothing new is under way. -/
theorem StoreInv.of_subset (h : StoreInv store given) (hk : Kept store'.committed)
    (hi : store'.committed.channelIDs ⊆ given') (hg : given ⊆ given')
    (hmade : ∀ j, made (store'.pending j) ⊆ made (store.pending j))
    (hins : ∀ j, inserted (store'.pending j) ⊆ inserted (store.pending j))
    (hfresh : ∀ j, ∀ c ∈ made (store'.pending j), c ∉ store'.committed.channelIDs)
    (habs : ∀ j, ∀ p ∈ inserted (store'.pending j), ¬ hasPair store'.committed p.1 p.2) :
    StoreInv store' given' where
  kept := hk
  issued := hi
  fresh j c hc := ⟨hg (h.fresh j c (hmade j hc)).1,hfresh j c hc⟩
  absent := habs
  madeApart j k hjk c hc hk := h.madeApart j k hjk c (hmade j hc) (hmade k hk)
  insertedApart j k hjk p hp hk := h.insertedApart j k hjk p (hins j hp) (hins k hk)

theorem StoreInv.rollback (h : StoreInv store given) (i : CallID) :
    StoreInv (store.rollback i) given := by
  have hmade : ∀ j, made ((store.rollback i).pending j) ⊆ made (store.pending j) := by
    intro j
    by_cases hj : j = i
    · rw [hj,pending_rollback]
      exact List.nil_subset _
    · rw [pending_rollback_of_ne store hj]
      exact List.Subset.refl _
  have hins : ∀ j, inserted ((store.rollback i).pending j) ⊆ inserted (store.pending j) := by
    intro j
    by_cases hj : j = i
    · rw [hj,pending_rollback]
      exact List.nil_subset _
    · rw [pending_rollback_of_ne store hj]
      exact List.Subset.refl _
  exact h.of_subset h.kept h.issued (Finset.Subset.refl _) hmade hins
    (fun j c hc => (h.fresh j c (hmade j hc)).2) (fun j p hp => h.absent j p (hins j hp))

/-- A write that makes no channel and inserts no pair. -/
theorem StoreInv.write (h : StoreInv store given) {w : Write} (hm : made [w] = [])
    (hi : inserted [w] = []) : StoreInv (store.write i w) given := by
  have hmade : ∀ j, made ((store.write i w).pending j) ⊆ made (store.pending j) := by
    intro j
    by_cases hj : j = i
    · rw [hj,pending_write,made_append,hm,List.append_nil]
      exact List.Subset.refl _
    · rw [pending_write_of_ne store hj]
      exact List.Subset.refl _
  have hins : ∀ j, inserted ((store.write i w).pending j) ⊆ inserted (store.pending j) := by
    intro j
    by_cases hj : j = i
    · rw [hj,pending_write,inserted_append,hi,List.append_nil]
      exact List.Subset.refl _
    · rw [pending_write_of_ne store hj]
      exact List.Subset.refl _
  exact h.of_subset h.kept h.issued (Finset.Subset.refl _) hmade hins
    (fun j c hc => (h.fresh j c (hmade j hc)).2) (fun j p hp => h.absent j p (hins j hp))

/-- A new channel has an ID that was never given. -/
theorem StoreInv.insertChannel (h : StoreInv store given) {c : ChannelID} (hc : c ∉ given) :
    StoreInv (store.write i (.insertChannel (dmRow c))) (insert c given) := by
  have hmade : ∀ j d, d ∈ made ((store.write i (.insertChannel (dmRow c))).pending j) →
      d ∈ made (store.pending j) ∨ j = i ∧ d = c := by
    intro j d hd
    by_cases hj : j = i
    · rw [hj,pending_write,made_append,List.mem_append] at hd
      rcases hd with hd | hd
      · exact Or.inl (hj ▸ hd)
      · exact Or.inr ⟨hj,List.mem_singleton.mp hd⟩
    · rw [pending_write_of_ne store hj] at hd
      exact Or.inl hd
  have hins : ∀ j, inserted ((store.write i (.insertChannel (dmRow c))).pending j) =
      inserted (store.pending j) := by
    intro j
    by_cases hj : j = i
    · rw [hj,pending_write,inserted_append]
      exact List.append_nil _
    · rw [pending_write_of_ne store hj]
  have hold : ∀ j, c ∉ made (store.pending j) := fun j hd => hc (h.fresh j c hd).1
  constructor
  · exact h.kept
  · exact h.issued.trans (Finset.subset_insert _ _)
  · intro j d hd
    rcases hmade j d hd with hd | ⟨-,rfl⟩
    · exact ⟨Finset.mem_insert_of_mem (h.fresh j d hd).1,(h.fresh j d hd).2⟩
    · exact ⟨Finset.mem_insert_self _ _,fun hm => hc (h.issued hm)⟩
  · intro j p hp
    rw [hins] at hp
    exact h.absent j p hp
  · intro j k hjk d hd hk
    rcases hmade j d hd with hd' | ⟨rfl,rfl⟩
    · rcases hmade k d hk with hk' | ⟨rfl,rfl⟩
      · exact h.madeApart j k hjk d hd' hk'
      · exact hold j hd'
    · rcases hmade k _ hk with hk | ⟨rfl,-⟩
      · exact hold k hk
      · exact hjk rfl
  · intro j k hjk p hp hk
    rw [hins] at hp hk
    exact h.insertedApart j k hjk p hp hk

/-- A pair is inserted that nobody has, committed or under way. -/
theorem StoreInv.insertDMChannel (h : StoreInv store given) {row : DMChannel}
    (hn : ¬ hasPair store.committed row.userA row.userB)
    (hw : ∀ j, j ≠ i → (row.userA,row.userB) ∉ inserted (store.pending j)) :
    StoreInv (store.write i (.insertDMChannel row)) given := by
  have hmade : ∀ j, made ((store.write i (.insertDMChannel row)).pending j) = made (store.pending j) := by
    intro j
    by_cases hj : j = i
    · rw [hj,pending_write,made_append]
      exact List.append_nil _
    · rw [pending_write_of_ne store hj]
  have hins : ∀ j p, p ∈ inserted ((store.write i (.insertDMChannel row)).pending j) →
      p ∈ inserted (store.pending j) ∨ j = i ∧ p = (row.userA,row.userB) := by
    intro j p hp
    by_cases hj : j = i
    · rw [hj,pending_write,inserted_append,List.mem_append] at hp
      rcases hp with hp | hp
      · exact Or.inl (hj ▸ hp)
      · exact Or.inr ⟨hj,List.mem_singleton.mp hp⟩
    · rw [pending_write_of_ne store hj] at hp
      exact Or.inl hp
  constructor
  · exact h.kept
  · exact h.issued
  · intro j c hc
    rw [hmade] at hc
    exact h.fresh j c hc
  · intro j p hp
    rcases hins j p hp with hp | ⟨-,rfl⟩
    · exact h.absent j p hp
    · exact hn
  · intro j k hjk c hc hk
    rw [hmade] at hc hk
    exact h.madeApart j k hjk c hc hk
  · intro j k hjk p hp hk
    rcases hins j p hp with hp' | ⟨rfl,rfl⟩
    · rcases hins k p hk with hk' | ⟨rfl,rfl⟩
      · exact h.insertedApart j k hjk p hp' hk'
      · exact hw j hjk hp'
    · rcases hins k _ hk with hk | ⟨rfl,-⟩
      · exact hw k (Ne.symm hjk) hk
      · exact hjk rfl

/-- A commit adds what the transaction has made and inserted, and nothing else. -/
theorem StoreInv.commit (h : StoreInv store given) (hk : Kept (store.view apply i))
    (hids : ∀ c ∈ (store.view apply i).channelIDs, c ∈ store.committed.channelIDs ∨
      c ∈ made (store.pending i))
    (hpairs : ∀ a b, hasPair (store.view apply i) a b → hasPair store.committed a b ∨
      (a,b) ∈ inserted (store.pending i)) : StoreInv (store.commit apply i) given := by
  have hpend : ∀ j, j = i ∧ (store.commit apply i).pending j = [] ∨
      j ≠ i ∧ (store.commit apply i).pending j = store.pending j := by
    intro j
    by_cases hj : j = i
    · exact Or.inl ⟨hj,hj ▸ pending_commit apply store⟩
    · exact Or.inr ⟨hj,pending_commit_of_ne apply store hj⟩
  refine h.of_subset hk ?_ (Finset.Subset.refl _) ?_ ?_ ?_ ?_
  · intro c hc
    rcases hids c hc with hc | hc
    · exact h.issued hc
    · exact (h.fresh i c hc).1
  · intro j
    rcases hpend j with ⟨-,hj⟩ | ⟨-,hj⟩ <;> rw [hj]
    · exact List.nil_subset _
    · exact List.Subset.refl _
  · intro j
    rcases hpend j with ⟨-,hj⟩ | ⟨-,hj⟩ <;> rw [hj]
    · exact List.nil_subset _
    · exact List.Subset.refl _
  · intro j c hc hids'
    rcases hpend j with ⟨-,hj⟩ | ⟨hne,hj⟩ <;> rw [hj] at hc
    · cases hc
    · rcases hids c hids' with hold | hmine
      · exact (h.fresh j c hc).2 hold
      · exact h.madeApart j i hne c hc hmine
  · intro j p hp hpair
    rcases hpend j with ⟨-,hj⟩ | ⟨hne,hj⟩ <;> rw [hj] at hp
    · cases hp
    · rcases hpairs p.1 p.2 hpair with hold | hmine
      · exact h.absent j p hp hold
      · exact h.insertedApart j i hne p hp hmine

/-- The commit of a call that has found the conversation. -/
theorem StoreInv.commit_found (h : StoreInv store given)
    (hws : store.pending i = [] ∨
      ∃ c, store.pending i = [.insertChannel (dmRow c),.deleteChannel c]) :
    StoreInv (store.commit apply i) given ∧
      (store.commit apply i).committed.dmChannels = store.committed.dmChannels := by
  rcases hws with hws | ⟨c,hws⟩
  · have hview := view_of_nil apply store hws
    refine ⟨h.commit ?_ ?_ ?_,congrArg Tables.dmChannels hview⟩ <;> rw [hview]
    · exact h.kept
    · exact fun c hc => Or.inl hc
    · exact fun a b hab => Or.inl hab
  · have hview : store.view apply i =
        (store.committed.insertChannel (dmRow c)).deleteChannels (fun row => row.id = (dmRow c).id) := by
      rw [Store.view,hws]
      rfl
    have hc : c ∈ made (store.pending i) := by
      rw [hws]
      exact List.mem_cons_self
    have hr := h.kept.referential
    have hid : (dmRow c).id ∉ store.committed.channelIDs := (h.fresh i c hc).2
    obtain ⟨hch,hdm⟩ := Tables.deleteChannels_insertChannel hr hid
    refine ⟨h.commit ?_ ?_ ?_,(congrArg Tables.dmChannels hview).trans hdm⟩ <;> rw [hview]
    · constructor
      · exact (hr.insertChannel hid (fun s hs => (Option.some_ne_none s hs.symm).elim)).deleteChannels _
      · rw [hdm]
        exact h.kept.pairs
      · rw [hdm,hch]
        exact h.kept.rows
    · intro d hd
      obtain rfl | hd := Finset.mem_insert.mp hd
      · exact Or.inr hc
      · exact Or.inl hd
    · rintro a b ⟨d,hd,hab⟩
      exact Or.inl ⟨d,(Finset.mem_filter.mp hd).1,hab⟩

/-- The commit of a call that has made the conversation. -/
theorem StoreInv.commit_made (h : StoreInv store given) {row : DMChannel} {v : DMVisibility}
    (hws : store.pending i = [.insertChannel (dmRow row.channelID),.insertDMChannel row,
      .insertVisibility v]) :
    StoreInv (store.commit apply i) given ∧
      (store.commit apply i).committed.dmChannels = insert row store.committed.dmChannels := by
  have hview : store.view apply i = ((store.committed.insertChannel
      (dmRow row.channelID)).insertDMChannel row).insertVisibility v := by
    rw [Store.view,hws]
    rfl
  have hc : row.channelID ∈ made (store.pending i) := by
    rw [hws]
    exact List.mem_cons_self
  have hp : (row.userA,row.userB) ∈ inserted (store.pending i) := by
    rw [hws]
    exact List.mem_cons_self
  have hn : ¬ hasPair store.committed row.userA row.userB := h.absent i _ hp
  have hr : ((store.committed.insertChannel (dmRow row.channelID)).insertDMChannel row).Referential :=
    (h.kept.referential.insertChannel (h.fresh i _ hc).2
      (fun s hs => (Option.some_ne_none s hs.symm).elim)).insertDMChannel (Finset.mem_insert_self _ _)
  refine ⟨h.commit ?_ ?_ ?_,congrArg Tables.dmChannels hview⟩ <;> rw [hview]
  · constructor
    · exact ⟨hr.servers,hr.channels,hr.channelKey,hr.channelServers,hr.members,hr.dmChannels⟩
    · intro d hd d' hd' ha hb
      obtain rfl | hold := Finset.mem_insert.mp hd
      · obtain rfl | hold' := Finset.mem_insert.mp hd'
        · rfl
        · exact absurd ⟨d',hold',ha.symm,hb.symm⟩ hn
      · obtain rfl | hold' := Finset.mem_insert.mp hd'
        · exact absurd ⟨d,hold,ha,hb⟩ hn
        · exact h.kept.pairs d hold d' hold' ha hb
    · intro c hch hs
      obtain rfl | hold := Finset.mem_insert.mp hch
      · exact ⟨row,Finset.mem_insert_self _ _,rfl⟩
      · obtain ⟨d,hd,hid⟩ := h.kept.rows c hold hs
        exact ⟨d,Finset.mem_insert_of_mem hd,hid⟩
  · intro d hd
    obtain rfl | hd := Finset.mem_insert.mp hd
    · exact Or.inr hc
    · exact Or.inl hd
  · rintro a b ⟨d,hd,ha,hb⟩
    obtain rfl | hd := Finset.mem_insert.mp hd
    · rw [← ha,← hb]
      exact Or.inr hp
    · exact Or.inl ⟨d,hd,ha,hb⟩

end Stores

/-! ## Calls -/

section Calls
variable {s s' : State} {i : CallID} {call : Call} {phase : Phase}

theorem Found.mono {db db' : Tables} (h : Found call db) (hsub : db.dmChannels ⊆ db'.dmChannels) :
    Found call db' := by
  unfold Found at h ⊢
  split at h
  · exact hsub h
  · exact hsub h
  · exact hsub h
  · trivial

/-- A call goes on; the others keep what they have written and found. -/
theorem Inv.goOn (h : Inv s) {store' : Store CallID Tables Write} {given' : Finset ChannelID}
    (hs : StoreInv store' given') (hother : ∀ j, j ≠ i → store'.pending j = s.store.pending j)
    (hgrow : s.db.dmChannels ⊆ store'.committed.dmChannels)
    (hw : Writes { call with phase := phase } (store'.pending i))
    (hf : Found { call with phase := phase } store'.committed) :
    Inv (State.setPhase ⟨store',given',s.calls⟩ i call phase) := by
  constructor
  case toStoreInv => exact hs
  case idle =>
    intro j hj
    change (s.calls.insert i _).lookup j = none at hj
    rw [GoMap.lookup_insert_eq] at hj
    split at hj
    · cases hj
    · rename_i hne
      exact (hother j hne).trans (h.idle j hj)
  case writes =>
    intro j call' hj
    change (s.calls.insert i _).lookup j = some call' at hj
    rw [GoMap.lookup_insert_eq] at hj
    split at hj
    · rename_i he
      obtain rfl := Option.some.inj hj
      rw [he]
      exact hw
    · rename_i hne
      change Writes call' (store'.pending j)
      rw [hother j hne]
      exact h.writes j call' hj
  case found =>
    intro j call' hj
    change (s.calls.insert i _).lookup j = some call' at hj
    rw [GoMap.lookup_insert_eq] at hj
    split at hj
    · obtain rfl := Option.some.inj hj
      exact hf
    · exact (h.found j call' hj).mono hgrow

/-- A statement that only looks. -/
theorem Inv.looks (h : Inv s) (hw : Writes { call with phase := phase } (s.store.pending i))
    (hf : Found { call with phase := phase } s.db) : Inv (s.setPhase i call phase) :=
  h.goOn h.toStoreInv (fun _ _ => rfl) (Finset.Subset.refl _) hw hf

theorem Inv.fail (h : Inv s) (failure : Failure) : Inv (s.fail i call failure) :=
  h.goOn (h.toStoreInv.rollback i) (fun _ hj => pending_rollback_of_ne s.store hj)
    (Finset.Subset.refl _) (pending_rollback s.store) trivial

theorem Inv.writeOn (h : Inv s) {w : Write} (hm : made [w] = []) (hi : inserted [w] = [])
    (hw : Writes { call with phase := phase } (s.store.pending i ++ [w]))
    (hf : Found { call with phase := phase } s.db) : Inv ((s.write i w).setPhase i call phase) :=
  h.goOn (h.toStoreInv.write hm hi) (fun _ hj => pending_write_of_ne s.store hj)
    (Finset.Subset.refl _) ((pending_write s.store).symm ▸ hw) hf

/-- Where the transaction has at most made a channel it sees the committed conversations. -/
theorem view_dmChannels (h : s.store.pending i = [] ∨
    ∃ c, s.store.pending i = [.insertChannel (dmRow c)]) : (s.view i).dmChannels = s.db.dmChannels := by
  rcases h with h | ⟨c,h⟩
  · exact congrArg Tables.dmChannels (view_of_nil apply s.store h)
  · rw [State.view,Store.view,h]
    rfl

/-- A commit, acknowledged or not. -/
theorem Inv.commit (h : Inv s) (hc : s.calls.lookup i = some call) {channelID : ChannelID}
    {created : Bool} (hphase : call.phase = .commit channelID created)
    {result : Except Failure (ChannelID × Bool)}
    (hr : result = .ok (channelID,created) ∨ ∃ failure, result = .error failure) :
    Inv (s.commit i call result) := by
  have hw := h.writes i call hc
  have hf := h.found i call hc
  unfold Writes at hw
  unfold Found at hf
  rw [hphase] at hw hf
  have hcommit : StoreInv (s.store.commit apply i) s.given ∧
      s.db.dmChannels ⊆ (s.store.commit apply i).committed.dmChannels ∧
      call.row channelID ∈ (s.store.commit apply i).committed.dmChannels := by
    cases created with
    | false =>
      obtain ⟨hs,hdm⟩ := h.toStoreInv.commit_found hw
      refine ⟨hs,?_,?_⟩ <;> rw [hdm]
      · exact Finset.Subset.refl _
      · exact hf
    | true =>
      obtain ⟨v,hw⟩ := hw
      have hw' : s.store.pending i = [.insertChannel (dmRow (call.row channelID).channelID),
        .insertDMChannel (call.row channelID),.insertVisibility v] := hw
      obtain ⟨hs,hdm⟩ := h.toStoreInv.commit_made hw'
      refine ⟨hs,?_,?_⟩ <;> rw [hdm]
      · exact Finset.subset_insert _ _
      · exact Finset.mem_insert_self _ _
  refine h.goOn hcommit.1 (fun _ hj => pending_commit_of_ne apply s.store hj) hcommit.2.1
    (pending_commit apply s.store) ?_
  rcases hr with rfl | ⟨failure,rfl⟩
  · exact hcommit.2.2
  · trivial

theorem statement_inv (h : Inv s) (hc : s.calls.lookup i = some call) {value : ChannelID}
    (he : statement s i call value = some s') : Inv s' := by
  have hw := h.writes i call hc
  have hf := h.found i call hc
  unfold Writes at hw
  unfold Found at hf
  unfold statement at he
  dsimp only at he
  cases hphase : call.phase with
  | lookup =>
    rw [hphase] at hw he
    dsimp only at he
    rw [view_dmChannels (Or.inl hw)] at he
    split at he
    · rename_i hrow
      obtain rfl := Option.some.inj he
      exact h.looks (Or.inl hw) hrow
    · split at he
      · cases he
      · obtain rfl := Option.some.inj he
        exact h.looks hw trivial
  | sharesServer =>
    rw [hphase] at hw he
    dsimp only at he
    split at he
    · obtain rfl := Option.some.inj he
      exact h.looks hw trivial
    · obtain rfl := Option.some.inj he
      exact h.fail _
  | insertChannel =>
    rw [hphase] at hw he
    dsimp only at he
    split at he
    · cases he
    · rename_i hfresh
      obtain rfl := Option.some.inj he
      refine h.goOn (h.toStoreInv.insertChannel hfresh)
        (fun _ hj => pending_write_of_ne s.store hj) (Finset.Subset.refl _) ?_ trivial
      exact (pending_write s.store).trans (congrArg (· ++ [_]) hw)
  | insertDMChannel channelID =>
    rw [hphase] at hw he
    dsimp only at he
    split at he
    · obtain rfl := Option.some.inj he
      exact h.fail _
    split at he
    · cases he
    rename_i hwait
    split at he
    · obtain rfl := Option.some.inj he
      exact h.looks hw trivial
    rename_i hpair
    split at he
    · obtain rfl := Option.some.inj he
      exact h.fail _
    · obtain rfl := Option.some.inj he
      have hn : ¬ hasPair s.db call.a call.b := by
        rw [hasPair,view_dmChannels (Or.inr ⟨channelID,hw⟩)] at hpair
        exact hpair
      have hfree : ∀ j, j ≠ i → (call.a,call.b) ∉ inserted (s.store.pending j) := by
        intro j hj hin
        cases hl : s.calls.lookup j with
        | none =>
          rw [h.idle j hl] at hin
          cases hin
        | some call' =>
          exact hwait ⟨j,(GoMap.mem_keys_iff _ _).mpr ⟨call',hl⟩,hj,hin⟩
      refine h.goOn (h.toStoreInv.insertDMChannel hn hfree)
        (fun _ hj => pending_write_of_ne s.store hj) (Finset.Subset.refl _) ?_ trivial
      exact (pending_write s.store).trans (congrArg (· ++ [_]) hw)
  | reread channelID =>
    rw [hphase] at hw he
    dsimp only at he
    rw [view_dmChannels (Or.inr ⟨channelID,hw⟩)] at he
    split at he
    · rename_i hrow
      obtain rfl := Option.some.inj he
      exact h.looks hw hrow
    · split at he
      · cases he
      · obtain rfl := Option.some.inj he
        exact h.fail _
  | deleteChannel channelID winnerChannelID =>
    rw [hphase] at hw he hf
    obtain rfl := Option.some.inj he
    exact h.writeOn rfl rfl (Or.inr ⟨channelID,congrArg (· ++ [_]) hw⟩) hf
  | insertVisibility channelID =>
    rw [hphase] at hw he
    obtain rfl := Option.some.inj he
    exact h.writeOn rfl rfl ⟨_,congrArg (· ++ [_]) hw⟩ trivial
  | commit channelID created =>
    rw [hphase] at he
    obtain rfl := Option.some.inj he
    exact h.commit hc hphase (Or.inl rfl)
  | done result =>
    rw [hphase] at he
    cases he

theorem step_inv {e : Event} (h : Inv s) (he : step s e = some s') : Inv s' := by
  cases e with
  | openDMChannel i userID peerID =>
    unfold step at he
    dsimp only at he
    cases hc : s.calls.lookup i with
    | some call =>
      rw [hc] at he
      cases he
    | none =>
      rw [hc] at he
      obtain rfl := Option.some.inj he
      change Inv (s.setPhase i ⟨userID,peerID,.lookup⟩ .lookup)
      exact h.looks (h.idle i hc) trivial
  | statement i value =>
    obtain ⟨call,hc,he⟩ := Option.bind_eq_some_iff.mp he
    exact statement_inv h hc he
  | fail i =>
    obtain ⟨call,hc,he⟩ := Option.bind_eq_some_iff.mp he
    split at he
    · cases he
    · obtain rfl := Option.some.inj he
      exact h.fail _
  | unacknowledged i =>
    obtain ⟨call,hc,he⟩ := Option.bind_eq_some_iff.mp he
    split at he
    · rename_i channelID created hphase
      obtain rfl := Option.some.inj he
      exact h.commit hc hphase (Or.inr ⟨_,rfl⟩)
    · cases he

theorem inv_start {db : Tables} {given : Finset ChannelID} (hk : Kept db) (hg : db.channelIDs ⊆ given) :
    Inv (start db given) := by
  constructor
  case idle => exact fun _ _ => rfl
  case writes => exact fun i call hi => by cases (Finmap.lookup_empty i).symm.trans hi
  case found => exact fun i call hi => by cases (Finmap.lookup_empty i).symm.trans hi
  case toStoreInv =>
    constructor
    · exact hk
    · exact hg
    · exact fun _ _ hc => nomatch hc
    · exact fun _ _ hp => nomatch hp
    · exact fun _ _ _ _ hc => nomatch hc
    · exact fun _ _ _ _ hp => nomatch hp

end Calls

/-- What concurrent calls agree on, and what they leave in the tables. -/
structure OneConversation (s : State) : Prop where
  same : ∀ i j call call', s.calls.lookup i = some call → s.calls.lookup j = some call' →
    call.SameUsers call' → ∀ r ∈ call.returned, ∀ r' ∈ call'.returned, r.1 = r'.1
  one : ∀ d ∈ s.db.dmChannels, ∀ d' ∈ s.db.dmChannels, d.userA = d'.userA → d.userB = d'.userB → d = d'
  rows : ∀ c ∈ s.db.channels, c.serverID = none → ∃ d ∈ s.db.dmChannels, d.channelID = c.id

/-- A call that has succeeded has returned the conversation in the tables. -/
theorem Inv.returned {s : State} (h : Inv s) {i : CallID} {call : Call}
    (hi : s.calls.lookup i = some call) {r : ChannelID × Bool} (hr : r ∈ call.returned) :
    call.row r.1 ∈ s.db.dmChannels := by
  have hf := h.found i call hi
  unfold Call.returned at hr
  split at hr
  · rename_i result hphase
    obtain rfl := Option.some.inj hr
    unfold Found at hf
    rwa [hphase] at hf
  · cases hr

/-- Under every interleaving of the statements, commits and rollbacks of any calls. -/
theorem openDMChannel_one {db : Tables} {given : Finset ChannelID} {es : List Event} {s : State}
    (hk : Kept db) (hg : db.channelIDs ⊆ given) (h : Runs step (start db given) es s) :
    OneConversation s := by
  have hinv : Inv s := h.invariant (inv_start hk hg) (fun hs _ he => step_inv hs he)
  constructor
  · intro i j call call' hi hj hsame r hr r' hr'
    have hpair := hsame.pair
    have heq := hinv.kept.pairs _ (hinv.returned hi hr) _ (hinv.returned hj hr')
      (congrArg Prod.fst hpair) (congrArg Prod.snd hpair)
    exact congrArg DMChannel.channelID heq
  · exact hinv.kept.pairs
  · exact hinv.kept.rows

/-- Users 1 and 2 share a server. -/
def sharing : Tables :=
  { Tables.ofUsers {1,2} with
    servers := {⟨1,"friends",1⟩}, serverMembers := {⟨1,1⟩,⟨2,1⟩}, serverIDs := {1} }

theorem kept_sharing : Kept sharing := by
  constructor
  · constructor <;> decide
  · decide
  · decide

/-- Both open the conversation at once. The second finds the row it has lost the race to,
takes its channel back and returns the first one's. -/
def bothOpen : List Event :=
  [.openDMChannel 0 1 2, .openDMChannel 1 2 1, .statement 0 0, .statement 1 0, .statement 0 0,
   .statement 1 0, .statement 0 1, .statement 1 2, .statement 0 0, .statement 0 0, .statement 0 0,
   .statement 1 0, .statement 1 1, .statement 1 0, .statement 1 0]

theorem openDMChannel_one_both : ∃ s, Runs step (start sharing ∅) bothOpen s ∧
    (s.calls.lookup 0).bind Call.returned = some (1,true) ∧
    (s.calls.lookup 1).bind Call.returned = some (1,false) ∧ OneConversation s := by
  obtain ⟨s,hrun,hs⟩ := exists_runs_of_exec step (start sharing ∅) bothOpen
    (fun s => ((s.calls.lookup 0).bind Call.returned,(s.calls.lookup 1).bind Call.returned))
    (some (1,true),some (1,false)) (by decide +kernel)
  exact ⟨s,hrun,(Prod.mk.inj hs).1,(Prod.mk.inj hs).2,
    openDMChannel_one kept_sharing (Finset.empty_subset _) hrun⟩

end MiniDiscord.Storage.OpenDM
