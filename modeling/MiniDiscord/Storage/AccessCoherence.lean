import MiniDiscord.Storage.Cached

/-! # The cached answers about membership

Whether a user is a member of a server or may use a channel is cached, the answer no as
well as the answer yes. The channels of a server are cached rightly at every moment; an
answer is right for as long as no operation turns it round without dropping it.
-/
namespace MiniDiscord.Storage
open Transition ReadThrough
variable {s s' : State} {e : Event}

def IsRows (k : Key) : Prop := ∃ serverID, k = .channelsServer serverID

def IsAnswer (k : Key) : Prop :=
  (∃ userID serverID, k = .member userID serverID) ∨ ∃ channelID userID, k = .access channelID userID

theorem isAnswer_member (u : UserID) (serverID : ServerID) : IsAnswer (.member u serverID) :=
  Or.inl ⟨u,serverID,rfl⟩

theorem isAnswer_access (c : ChannelID) (u : UserID) : IsAnswer (.access c u) := Or.inr ⟨c,u,rfl⟩

theorem not_isAnswer_channelsServer (serverID : ServerID) : ¬ IsAnswer (.channelsServer serverID) := by
  rintro (⟨_,_,h⟩ | ⟨_,_,h⟩) <;> cases h

/-- No answer that is dropped nowhere is about to be wrong: a no to who gets access or
becomes a member, a yes to who loses it. -/
def KeepsAnswers (s : State) : Event → Prop
  | .createServer id _ ownerID => s.cache (.member ownerID id) ≠ some false
  | .deleteServer serverID _ scanned =>
      (∀ u ∈ s.db.serverMembersUserIDs serverID, u ∈ scanned ∨
        s.cache (.member u serverID) ≠ some true) ∧
      ∀ row ∈ s.db.channels, row.serverID = some serverID →
        ∀ u ∈ s.db.channelMemberUserIDs row.id, s.cache (.access row.id u) ≠ some true
  | .createChannel id serverID _ _ => ∀ u ∈ s.db.serverMembersUserIDs serverID,
      s.cache (.access id u) ≠ some false
  | .addMemberToServer userID serverID fetched => fetched = true ∨
      s.cache (.channelsServer serverID) ≠ none ∨
        ∀ row ∈ s.db.channels, row.serverID = some serverID →
          s.cache (.access row.id userID) ≠ some false
  | .openDMChannel userID peerID id =>
      (∃ d ∈ s.db.dmChannels, (d.userA,d.userB) = normalizeDMPair userID peerID) ∨
        s.cache (.access id userID) ≠ some false ∧ s.cache (.access id peerID) ≠ some false
  | _ => True

instance (s : State) (e : Event) : Decidable (KeepsAnswers s e) := by
  cases e <;> unfold KeepsAnswers <;> infer_instance

/-! ## The channels of a server -/

theorem rows_write (h : CoherentOn IsRows query s.db s.cache) (hw : s'.cache.Within IsRows s.cache)
    (hq : ∀ serverID, s'.cache (.channelsServer serverID) ≠ none → ∀ row, row.serverID = some serverID →
      (row ∈ s'.db.channels ↔ row ∈ s.db.channels)) : CoherentOn IsRows query s'.db s'.cache := by
  refine h.write hw ?_
  rintro k ⟨serverID,rfl⟩ hne
  apply congrArg (Finset.image _)
  apply Finset.ext
  intro row
  rw [Finset.mem_filter,Finset.mem_filter]
  exact and_congr_left (hq serverID hne row)

theorem step_rows (hr : s.db.Referential) (h : CoherentOn IsRows query s.db s.cache)
    (he : step s e = some s') : CoherentOn IsRows query s'.db s'.cache := by
  cases e with
  | createServer id name ownerID =>
    obtain ⟨-,hw,hdb⟩ := createServer_spec he
    refine rows_write h hw ?_
    intro _ _ row _
    rw [hdb]
    exact Iff.rfl
  | deleteServer serverID userID scanned =>
    obtain ⟨hdb,hw,hn,-⟩ := deleteServer_spec he
    refine rows_write h hw ?_
    intro serverID' hne row hs
    rw [hdb]
    refine Finset.mem_filter.trans (and_iff_left ?_)
    intro hs'
    rw [hs] at hs'
    obtain rfl := Option.some.inj hs'
    exact hne hn
  | createChannel id serverID name channelType =>
    obtain ⟨-,-,hw,hn,type,hdb⟩ := createChannel_spec he
    refine rows_write h hw ?_
    intro serverID' hne row hs
    rw [hdb]
    refine Finset.mem_insert.trans (or_iff_right ?_)
    rintro rfl
    obtain rfl := Option.some.inj hs
    exact hne hn
  | deleteChannel channelID serverID userID =>
    obtain ⟨⟨row',hrow',hid,hs'⟩,hdb,hw,hn,-⟩ := deleteChannel_spec he
    refine rows_write h hw ?_
    intro serverID' hne row hs
    rw [hdb]
    refine Finset.mem_filter.trans ?_
    refine and_iff_left_of_imp ?_
    intro hrow hc
    obtain rfl := hr.channelKey row hrow row' hrow' (hc.trans hid.symm)
    rw [hs] at hs'
    obtain rfl := Option.some.inj hs'
    exact hne hn
  | addMemberToServer userID serverID fetched =>
    have hspec := addMemberToServer_spec (p := fun k => IsRows k ∧ k ≠ .channelsServer serverID)
      he (fun hk => hk.2 rfl)
    obtain ⟨-,hdb,hw,hrows,-⟩ := hspec
    rintro k ⟨serverID',rfl⟩ rows hv
    rw [hdb]
    by_cases hs : serverID' = serverID
    · subst hs
      rw [hrows rows hv]
      exact h.read_fst ⟨serverID',rfl⟩
    · exact h _ ⟨serverID',rfl⟩ rows (hw _ ⟨⟨serverID',rfl⟩,by simpa using hs⟩ rows hv)
  | openDMChannel userID peerID id =>
    obtain ⟨hcache,hdb | ⟨a,b,-,-,-,hdb⟩⟩ := openDMChannel_spec he
    · rw [hdb,hcache]
      exact h
    · refine rows_write h (hcache ▸ Cache.within_refl _) ?_
      intro serverID _ row hs
      rw [hdb]
      refine Finset.mem_insert.trans (or_iff_right ?_)
      rintro rfl
      cases hs
  | hideDMChannel userID channelID =>
    obtain rfl := Option.some.inj he
    exact rows_write h (Cache.within_refl _) (fun _ _ _ _ => Iff.rfl)
  | revealDMChannel channelID =>
    obtain rfl := Option.some.inj he
    exact rows_write h (Cache.within_refl _) (fun _ _ _ _ => Iff.rfl)
  | read k => exact coherentOn_step_read h he
  | expire k =>
    obtain rfl := Option.some.inj he
    exact h.within delete_within

/-! ## The answers -/

/-- An answer stays right that no operation turns round while it is cached. -/
theorem answers_write (h : CoherentOn IsAnswer query s.db s.cache)
    (hw : s'.cache.Within IsAnswer s.cache)
    (hm : ∀ u serverID b, s'.cache (.member u serverID) = some b →
      s.cache (.member u serverID) = some b → s.db.isServerMember u serverID = b →
      s'.db.isServerMember u serverID = b)
    (ha : ∀ c u b, s'.cache (.access c u) = some b → s.cache (.access c u) = some b →
      s.db.canUserAccessChannel u c = b → s'.db.canUserAccessChannel u c = b) :
    CoherentOn IsAnswer query s'.db s'.cache := by
  rintro k (⟨u,serverID,rfl⟩ | ⟨c,u,rfl⟩) b hb
  · have hs := hw _ (isAnswer_member u serverID) b hb
    exact (hm u serverID b hb hs (h _ (isAnswer_member u serverID) b hs).symm).symm
  · have hs := hw _ (isAnswer_access c u) b hb
    exact (ha c u b hb hs (h _ (isAnswer_access c u) b hs).symm).symm

theorem answer_same {a a' b : Bool} (h : a' = true ↔ a = true) (hb : a = b) : a' = b :=
  (Bool.eq_iff_iff.mpr h).trans hb

/-- A no that becomes a yes must not be kept. -/
theorem answer_gained {a a' b : Bool} {gained : Prop} (h : a' = true ↔ a = true ∨ gained)
    (hb : a = b) (hn : gained → b ≠ false) : a' = b := by
  refine answer_same (h.trans (or_iff_left_of_imp ?_)) hb
  intro hg
  rw [hb]
  exact Bool.not_eq_false _ ▸ hn hg

theorem step_answers (hr : s.db.Referential) (hrows : CoherentOn IsRows query s.db s.cache)
    (h : CoherentOn IsAnswer query s.db s.cache) (hg : KeepsAnswers s e) (he : step s e = some s') :
    CoherentOn IsAnswer query s'.db s'.cache := by
  cases e with
  | createServer id name ownerID =>
    obtain ⟨hid,hw,hdb⟩ := createServer_spec he
    refine answers_write h hw ?_ ?_
    · intro u serverID b _ hb hv
      rw [hdb]
      refine answer_gained Tables.isServerMember_insertMember hv ?_
      rintro hrow rfl
      cases hrow
      exact hg hb
    · intro c u b _ _ hv
      rw [hdb]
      refine answer_gained Tables.access_insertMember hv ?_
      rintro ⟨-,row,hrow,-,hs⟩
      exact absurd (hr.channelServers row hrow id hs) hid
  | deleteServer serverID userID scanned =>
    obtain ⟨hdb,hw,-,hn⟩ := deleteServer_spec he
    refine answers_write h hw ?_ ?_
    · intro u serverID' b hne hb hv
      rw [hdb]
      refine answer_same (Tables.isServerMember_deleteServer.trans (and_iff_left_of_imp ?_)) hv
      rintro ht rfl
      have hu := Tables.mem_serverMembersUserIDs.mpr (Tables.isServerMember_iff.mp ht)
      rcases hg.1 u hu with hs | hs
      · rw [hn u hu hs] at hne
        cases hne
      · exact hs (by rw [hb,← hv,ht])
    · intro c u b _ hb hv
      rw [hdb]
      by_cases hc : s.db.inServer c serverID
      · obtain ⟨row,hrow,rfl,hs⟩ := hc
        refine answer_same ⟨Tables.access_of_deleteServer,?_⟩ hv
        intro ht
        have hu := Tables.mem_channelMemberUserIDs.mpr ht
        exact absurd (by rw [hb,← hv,ht]) (hg.2 row hrow hs u hu)
      · exact answer_same (Tables.access_deleteServer hc) hv
  | createChannel id serverID name channelType =>
    obtain ⟨-,-,hw,-,type,hdb⟩ := createChannel_spec he
    refine answers_write h hw ?_ ?_
    · intro u serverID' b _ _ hv
      rw [hdb]
      exact hv
    · intro c u b _ hb hv
      rw [hdb]
      refine answer_gained Tables.access_insertChannel hv ?_
      rintro ⟨rfl,serverID',hs,hu⟩ rfl
      obtain rfl := Option.some.inj hs
      exact hg u (Tables.mem_serverMembersUserIDs.mpr hu) hb
  | deleteChannel channelID serverID userID =>
    obtain ⟨-,hdb,hw,-,-,hn⟩ := deleteChannel_spec he
    refine answers_write h hw ?_ ?_
    · intro u serverID' b _ _ hv
      rw [hdb]
      exact hv
    · intro c u b hne _ hv
      rw [hdb]
      refine answer_same (Tables.access_deleteChannels ?_) hv
      rintro row - rfl rfl
      rw [hn u] at hne
      cases hne
  | addMemberToServer userID serverID fetched =>
    obtain ⟨-,hdb,hw,-,hmem,hacc⟩ := addMemberToServer_spec he (not_isAnswer_channelsServer serverID)
    refine answers_write h hw ?_ ?_
    · intro u serverID' b hne _ hv
      rw [hdb]
      refine answer_gained Tables.isServerMember_insertMember hv ?_
      rintro hrow rfl
      cases hrow
      rw [hmem] at hne
      cases hne
    · intro c u b hne hb hv
      rw [hdb]
      refine answer_gained Tables.access_insertMember hv ?_
      rintro ⟨rfl,row,hrow,rfl,hs⟩ rfl
      have hlist : (s.getServerChannels serverID).1 = s.db.serverChannels serverID :=
        hrows.read_fst ⟨serverID,rfl⟩
      rw [hlist] at hacc
      -- the entries of all the channels go, if the channels were found
      have hdrop : fetched = true ∨ s.cache (.channelsServer serverID) ≠ none →
          s'.cache (.access row.id u) = none := by
        intro hf
        obtain ⟨channel,hch,hid⟩ := Tables.exists_mem_serverChannels hrow hs
        rw [← hid]
        exact hacc hf channel hch
      rcases hg with hf | hf | hf
      · rw [hdrop (Or.inl hf)] at hne
        cases hne
      · rw [hdrop (Or.inr hf)] at hne
        cases hne
      · exact hf row hrow hs hb
  | openDMChannel userID peerID id =>
    obtain ⟨hcache,hdb | ⟨a,b,hab,hn,-,hdb⟩⟩ := openDMChannel_spec he
    · rw [hdb,hcache]
      exact h
    · have hsides : ¬ ∃ d ∈ s.db.dmChannels, (d.userA,d.userB) = normalizeDMPair userID peerID := by
        rintro ⟨d,hd,he⟩
        rw [hab,Prod.mk.injEq] at he
        exact hn ⟨d,hd,he⟩
      have hcached := hg.resolve_left hsides
      refine answers_write h (hcache ▸ Cache.within_refl _) ?_ ?_
      · intro u serverID v _ _ hv
        rw [hdb]
        exact hv
      · intro c u v _ hb hv
        rw [hdb]
        change ((s.db.insertChannel _).insertDMChannel _).canUserAccessChannel u c = v
        refine answer_gained Tables.access_insertDMChannel
          (answer_gained Tables.access_insertChannel hv ?_) ?_
        · rintro ⟨-,_,hs,-⟩
          cases hs
        · rintro ⟨rfl,hu⟩ rfl
          rcases (mem_normalizeDMPair hab u).mp hu with rfl | rfl
          · exact hcached.1 hb
          · exact hcached.2 hb
  | hideDMChannel userID channelID =>
    obtain rfl := Option.some.inj he
    exact h
  | revealDMChannel channelID =>
    obtain rfl := Option.some.inj he
    exact h
  | read k => exact coherentOn_step_read h he
  | expire k =>
    obtain rfl := Option.some.inj he
    exact h.within delete_within

/-- What the two checks need of the tables and the cache. -/
structure Answering (s : State) : Prop where
  referential : s.db.Referential
  rows : CoherentOn IsRows query s.db s.cache
  answers : CoherentOn IsAnswer query s.db s.cache

/-- Where every step keeps the answers, both checks answer for the tables of that moment. -/
theorem access_current {db : Tables} {es : List Event} {s : State} (hdb : db.Referential)
    (h : RunsWhen step KeepsAnswers (start db) es s) (u : UserID) (c : ChannelID) (serverID : ServerID) :
    (s.canUserAccessChannel u c).1 = s.db.canUserAccessChannel u c ∧
      (s.isServerMember u serverID).1 = s.db.isServerMember u serverID := by
  have hinv : Answering s := h.invariant ⟨hdb,coherentOn_empty _ _ _,coherentOn_empty _ _ _⟩
    (fun hs hg he => ⟨step_referential hs.referential he,step_rows hs.referential hs.rows he,
      step_answers hs.referential hs.rows hs.answers hg he⟩)
  exact ⟨hinv.answers.read_fst (isAnswer_access c u),hinv.answers.read_fst (isAnswer_member u serverID)⟩

/-- The owner of a server uses its channel, and then deletes the server. -/
def deletesAfterUse : List Event :=
  [.createServer 1 "friends" 1, .createChannel 1 1 "general" "", .read (.access 1 1),
   .deleteServer 1 1 {1}]

theorem access_stale : ∃ s, Runs step (start (.ofUsers {1,2})) deletesAfterUse s ∧
    (s.canUserAccessChannel 1 1).1 = true ∧ s.db.canUserAccessChannel 1 1 = false := by
  obtain ⟨s,hrun,hs⟩ := exists_runs_of_exec step (start (.ofUsers {1,2}))
    deletesAfterUse
    (fun s => ((s.canUserAccessChannel 1 1).1,s.db.canUserAccessChannel 1 1)) (true,false)
    (by decide +kernel)
  exact ⟨s,hrun,(Prod.mk.inj hs).1,(Prod.mk.inj hs).2⟩

/-- User 2 is no member, joins and uses the channel; the channel goes before its server. -/
def deletesChannelFirst : List Event :=
  [.createServer 1 "friends" 1, .createChannel 1 1 "general" "", .read (.access 1 2),
   .read (.member 2 1), .addMemberToServer 2 1 true, .read (.access 1 2), .read (.member 2 1),
   .deleteChannel 1 1 1, .deleteServer 1 1 {1,2}]

theorem access_current_joined : ∃ s,
    RunsWhen step KeepsAnswers (start (.ofUsers {1,2})) deletesChannelFirst s ∧
      (s.canUserAccessChannel 2 1).1 = s.db.canUserAccessChannel 2 1 ∧
      (s.isServerMember 2 1).1 = s.db.isServerMember 2 1 := by
  obtain ⟨s,hrun,-⟩ := exists_runsWhen_of_exec step KeepsAnswers
    (start (.ofUsers {1,2})) deletesChannelFirst (fun _ => ()) ()
    (by decide +kernel)
  exact ⟨s,hrun,access_current (Tables.referential_ofUsers _) hrun 2 1 1⟩

end MiniDiscord.Storage
