import MiniDiscord.Storage.Cached

/-! # The cached lists of channel members

A channel's list is what live events are delivered by. Only the deletion of the channel
drops it, so it is right for as long as no operation gives the channel members that the
cached list lacks, or deletes its server.
-/
namespace MiniDiscord.Storage
open Transition ReadThrough
variable {s s' : State} {e : Event}

def IsList (k : Key) : Prop := ∃ channelID, k = .members channelID

/-- What is cached about a channel that gets members has them already, and nobody is cached
as a member of a channel that goes with its server. -/
def KeepsLists (s : State) : Event → Prop
  | .addMemberToServer userID serverID _ => ∀ row ∈ s.db.channels, row.serverID = some serverID →
      ∀ l ∈ s.cache (.members row.id), userID ∈ l
  | .deleteServer serverID _ _ => ∀ row ∈ s.db.channels, row.serverID = some serverID →
      ∀ l ∈ s.cache (.members row.id), l = ∅
  | .createChannel id serverID _ _ => ∀ l ∈ s.cache (.members id),
      s.db.serverMembersUserIDs serverID ⊆ l
  | .openDMChannel userID peerID id =>
      (∃ d ∈ s.db.dmChannels, (d.userA,d.userB) = normalizeDMPair userID peerID) ∨
        ∀ l ∈ s.cache (.members id), userID ∈ l ∧ peerID ∈ l
  | _ => True

instance (s : State) (e : Event) : Decidable (KeepsLists s e) :=
  match e with
  | .addMemberToServer .. | .deleteServer .. | .createChannel .. | .openDMChannel .. => by
    unfold KeepsLists
    infer_instance
  | .createServer .. | .deleteChannel .. | .hideDMChannel .. | .revealDMChannel _ | .read _
  | .expire _ => instDecidableTrue

/-- A cached list is right while the operation leaves it the same members. -/
theorem lists_write (h : CoherentOn IsList query s.db s.cache) (hw : s'.cache.Within IsList s.cache)
    (hq : ∀ c l, s'.cache (.members c) ≠ none → s.cache (.members c) = some l →
      (∀ u, u ∈ l ↔ s.db.canUserAccessChannel u c = true) →
      ∀ u, s'.db.canUserAccessChannel u c = true ↔ s.db.canUserAccessChannel u c = true) :
    CoherentOn IsList query s'.db s'.cache := by
  refine h.write hw ?_
  rintro k ⟨c,rfl⟩ hne
  obtain ⟨l,hl⟩ := Option.ne_none_iff_exists'.mp hne
  have hs := hw _ ⟨c,rfl⟩ l hl
  have hm : ∀ u, u ∈ l ↔ s.db.canUserAccessChannel u c = true := by
    intro u
    rw [h _ ⟨c,rfl⟩ l hs]
    exact Tables.mem_channelMemberUserIDs
  exact Tables.channelMemberUserIDs_congr (hq c l hne hs hm)

theorem step_lists (hr : s.db.Referential) (h : CoherentOn IsList query s.db s.cache)
    (hg : KeepsLists s e) (he : step s e = some s') : CoherentOn IsList query s'.db s'.cache := by
  cases e with
  | createServer id name ownerID =>
    obtain ⟨hid,hw,hdb⟩ := createServer_spec he
    refine lists_write h hw ?_
    intro c l _ _ _ u
    rw [hdb,Tables.access_insertMember]
    refine or_iff_left ?_
    -- no channel can name a server whose ID is new
    rintro ⟨-,row,hrow,-,hs⟩
    exact hid (hr.channelServers row hrow id hs)
  | deleteServer serverID userID scanned =>
    obtain ⟨hdb,hw,-⟩ := deleteServer_spec he
    refine lists_write h hw ?_
    intro c l _ hl hm u
    rw [hdb]
    by_cases hc : s.db.inServer c serverID
    · obtain ⟨row,hrow,rfl,hs⟩ := hc
      obtain rfl := hg row hrow hs l hl
      refine ⟨Tables.access_of_deleteServer,?_⟩
      intro ha
      exact absurd ((hm u).mpr ha) (Finset.notMem_empty u)
    · exact Tables.access_deleteServer hc
  | createChannel id serverID name channelType =>
    obtain ⟨-,-,hw,-,type,hdb⟩ := createChannel_spec he
    refine lists_write h hw ?_
    intro c l _ hl hm u
    rw [hdb,Tables.access_insertChannel]
    refine or_iff_left_of_imp ?_
    rintro ⟨rfl,serverID',hs,hu⟩
    obtain rfl := Option.some.inj hs
    exact (hm u).mp (hg l hl (Tables.mem_serverMembersUserIDs.mpr hu))
  | deleteChannel channelID serverID userID =>
    obtain ⟨-,hdb,hw,-,hn,-⟩ := deleteChannel_spec he
    refine lists_write h hw ?_
    intro c l hne _ _ u
    rw [hdb]
    refine Tables.access_deleteChannels ?_
    rintro row - rfl hid
    exact hne (hid ▸ hn)
  | addMemberToServer userID serverID fetched =>
    obtain ⟨-,hdb,hw,-⟩ := addMemberToServer_spec (p := IsList) he (fun hk => by simp [IsList] at hk)
    refine lists_write h hw ?_
    intro c l _ hl hm u
    rw [hdb,Tables.access_insertMember]
    refine or_iff_left_of_imp ?_
    rintro ⟨rfl,row,hrow,rfl,hs⟩
    exact (hm u).mp (hg row hrow hs l hl)
  | openDMChannel userID peerID id =>
    obtain ⟨hcache,hdb | ⟨a,b,hab,hn,-,hdb⟩⟩ := openDMChannel_spec he
    · rw [hdb,hcache]
      exact h
    · refine lists_write h (hcache ▸ Cache.within_refl _) ?_
      intro c l _ hl hm u
      rw [hdb]
      change (((s.db.insertChannel _).insertDMChannel _).canUserAccessChannel u c = true) ↔ _
      rw [Tables.access_insertDMChannel,Tables.access_insertChannel]
      have hsides : ¬ (∃ d ∈ s.db.dmChannels, (d.userA,d.userB) = normalizeDMPair userID peerID) := by
        rintro ⟨d,hd,he⟩
        rw [hab,Prod.mk.injEq] at he
        exact hn ⟨d,hd,he⟩
      have hl' := hg.resolve_left hsides
      constructor
      · rintro ((ha | ⟨-,_,hs,-⟩) | ⟨rfl,hu⟩)
        · exact ha
        · cases hs
        · apply (hm u).mp
          rcases (mem_normalizeDMPair hab u).mp hu with rfl | rfl
          · exact (hl' l hl).1
          · exact (hl' l hl).2
      · intro ha
        exact Or.inl (Or.inl ha)
  | hideDMChannel userID channelID =>
    obtain rfl := Option.some.inj he
    exact lists_write h (Cache.within_refl _) (fun _ _ _ _ _ _ => Iff.rfl)
  | revealDMChannel channelID =>
    obtain rfl := Option.some.inj he
    exact lists_write h (Cache.within_refl _) (fun _ _ _ _ _ _ => Iff.rfl)
  | read k => exact coherentOn_step_read h he
  | expire k =>
    obtain rfl := Option.some.inj he
    exact h.within delete_within

/-- Where every step keeps the lists, a list is the members of the channel right then. -/
theorem listChannelMemberUserIDs_current {db : Tables} {es : List Event} {s : State}
    (hdb : db.Referential) (h : RunsWhen step KeepsLists (start db) es s) (channelID : ChannelID) :
    (s.listChannelMemberUserIDs channelID).1 = s.db.channelMemberUserIDs channelID := by
  have hinv : CoherentOn IsList query s.db s.cache :=
    h.invariant_of (Q := fun s => s.db.Referential)
      (P := fun s => CoherentOn IsList query s.db s.cache) hdb (coherentOn_empty _ _ _)
      (fun hr _ he => step_referential hr he) (fun hr hs hg he => step_lists hr hs hg he)
  exact hinv.read_fst ⟨channelID,rfl⟩

/-- Somebody reads the list of a channel, and then user 2 joins its server. -/
def joinsAfterRead : List Event :=
  [.createServer 1 "friends" 1, .createChannel 1 1 "general" "", .read (.members 1),
   .addMemberToServer 2 1 true]

/-- User 2 joins before anybody reads the list, and then opens a conversation. -/
def joinsBeforeRead : List Event :=
  [.createServer 1 "friends" 1, .createChannel 1 1 "general" "", .addMemberToServer 2 1 true,
   .read (.members 1), .openDMChannel 2 1 2, .read (.members 2)]

theorem listChannelMemberUserIDs_current_joined : ∃ s,
    RunsWhen step KeepsLists (start (.ofUsers {1,2})) joinsBeforeRead s ∧
      s.cache (.members 1) = some {1,2} ∧
      (s.listChannelMemberUserIDs 2).1 = s.db.channelMemberUserIDs 2 := by
  obtain ⟨s,hrun,hs⟩ := exists_runsWhen_of_exec step KeepsLists (start (.ofUsers {1,2})) joinsBeforeRead
    (fun s => s.cache (.members 1)) (some {1,2}) (by decide +kernel)
  exact ⟨s,hrun,hs,listChannelMemberUserIDs_current (Tables.referential_ofUsers _) hrun 2⟩

theorem listChannelMemberUserIDs_stale : ∃ s, Runs step (start (.ofUsers {1,2})) joinsAfterRead s ∧
    2 ∈ s.db.channelMemberUserIDs 1 ∧ 2 ∉ (s.listChannelMemberUserIDs 1).1 := by
  obtain ⟨s,hrun,hs⟩ := exists_runs_of_exec step (start (.ofUsers {1,2})) joinsAfterRead
    (fun s => decide (2 ∈ s.db.channelMemberUserIDs 1 ∧ 2 ∉ (s.listChannelMemberUserIDs 1).1)) true
    (by decide +kernel)
  exact ⟨s,hrun,of_decide_eq_true hs⟩

end MiniDiscord.Storage
