import MiniDiscord.Hub.Reconcile

/-! # What one sweep repairs

From an arbitrary pair of hub and router, with every record old enough to be
touched, one tick ends in agreement exactly when the divergence is of a kind the
two loops look for. They range over `userVoiceChannel` and over the router; a
participant without a channel, a session mapping without a channel, and a session
that two users share are seen by neither.
-/
namespace MiniDiscord.VoiceHub

/-- The three hub maps agree, and the session mapping is a bijection onto the router's table. -/
structure Healed (v : Voice) : Prop where
  participant_iff : ∀ u c, u ∈ v.hub.participants c ↔ v.hub.userVoiceChannel.lookup u = some c
  session_iff : ∀ u, u ∈ v.hub.sfuSessionByUser ↔ u ∈ v.hub.userVoiceChannel
  backed : ∀ u sid, v.hub.sfuSessionByUser.lookup u = some sid →
    ∃ p, v.router.lookup sid = some p ∧ p.userID = u ∧ p.connectionState.isDead = false
  owned : ∀ sid, sid ∈ v.router → ∃ u, v.hub.sfuSessionByUser.lookup u = some sid

/-- No record is younger than the minimum age of the sweep. -/
structure OldEnough (minAge now : Time) (v : Voice) : Prop where
  hub : ∀ u t, v.hub.voiceJoinedAt.lookup u = some t → minAge ≤ now - t
  router : ∀ sid p, v.router.lookup sid = some p → minAge ≤ now - p.joinedAt

/-- The session of `u` is in the router, alive, and `u` is listed in its channel. -/
def Voice.Backed (v : Voice) (u : UserID) (c : ChannelID) (sid : SessionID) (p : Session) : Prop :=
  v.hub.userVoiceChannel.lookup u = some c ∧ v.hub.sfuSessionByUser.lookup u = some sid ∧
    v.router.lookup sid = some p ∧ u ∈ v.hub.participants c ∧ p.connectionState.isDead = false

/-- A user in voice whose record the sweep takes for a ghost. -/
def Voice.Stale (v : Voice) (u : UserID) : Prop :=
  u ∈ v.hub.userVoiceChannel ∧ ¬ ∃ c sid p, v.Backed u c sid p

/-- The divergences one tick can repair. -/
structure Repairable (v : Voice) : Prop where
  participants : ∀ u c, u ∈ v.hub.participants c → v.hub.userVoiceChannel.lookup u = some c
  sessions : ∀ u, u ∈ v.hub.sfuSessionByUser → u ∈ v.hub.userVoiceChannel
  owners : ∀ u c sid p, v.Backed u c sid p →
    p.userID = u ∧ ∀ w, v.hub.sfuSessionByUser.lookup w = some sid → w = u

section Leave
variable (v : Voice) (u w : UserID)

theorem Voice.leave_userVoiceChannel (c : ChannelID) :
    (v.leaveVoiceChannelInternal u).1.hub.userVoiceChannel.lookup w = some c ↔
      v.hub.userVoiceChannel.lookup w = some c ∧ w ≠ u := by
  unfold Voice.leaveVoiceChannelInternal
  split
  · rename_i h
    refine ⟨fun hw => ⟨hw,?_⟩,And.left⟩
    rintro rfl
    rw [h] at hw
    cases hw
  · simp only [Hub.leaveLocked, GoMap.lookup_erase_eq]
    split <;> simp_all

theorem Voice.leave_sfuSessionByUser (sid : SessionID) :
    (v.leaveVoiceChannelInternal u).1.hub.sfuSessionByUser.lookup w = some sid ↔
      v.hub.sfuSessionByUser.lookup w = some sid ∧ ¬ (w = u ∧ w ∈ v.hub.userVoiceChannel) := by
  unfold Voice.leaveVoiceChannelInternal
  split
  · rename_i h
    refine ⟨fun hw => ⟨hw,?_⟩,And.left⟩
    rintro ⟨rfl,hm⟩
    exact Finmap.lookup_eq_none.mp h hm
  · rename_i c h
    have hm : u ∈ v.hub.userVoiceChannel := Finmap.mem_of_lookup_eq_some h
    simp only [Hub.leaveLocked, GoMap.lookup_erase_eq]
    split <;> simp_all

theorem Voice.leave_participants (c : ChannelID) :
    w ∈ (v.leaveVoiceChannelInternal u).1.hub.participants c ↔
      w ∈ v.hub.participants c ∧ ¬ (w = u ∧ v.hub.userVoiceChannel.lookup w = some c) := by
  unfold Voice.leaveVoiceChannelInternal
  split
  · rename_i h
    refine ⟨fun hw => ⟨hw,?_⟩,And.left⟩
    rintro ⟨rfl,hc⟩
    rw [h] at hc
    cases hc
  · rename_i c' h
    rw [Hub.mem_participants_leaveLocked]
    refine and_congr_right (fun _ => not_congr ?_)
    constructor
    · rintro ⟨rfl,rfl⟩
      exact ⟨rfl,h⟩
    · rintro ⟨rfl,hc⟩
      rw [h] at hc
      cases hc
      exact ⟨rfl,rfl⟩

theorem Voice.leave_router (sid : SessionID) (p : Session) :
    (v.leaveVoiceChannelInternal u).1.router.lookup sid = some p ↔ v.router.lookup sid = some p ∧
      ¬ (u ∈ v.hub.userVoiceChannel ∧ v.hub.sfuSessionByUser.lookup u = some sid) := by
  unfold Voice.leaveVoiceChannelInternal
  split
  · rename_i h
    exact ⟨fun hp => ⟨hp,fun hu => Finmap.lookup_eq_none.mp h hu.1⟩,And.left⟩
  · rename_i c h
    have hm : u ∈ v.hub.userVoiceChannel := Finmap.mem_of_lookup_eq_some h
    cases hs : v.hub.sfuSessionByUser.lookup u with
    | none => simp
    | some t =>
      dsimp only
      rw [GoMap.lookup_erase_eq]
      by_cases ht : sid = t
      · simp [ht, hm]
      · simp [ht, Ne.symm ht]

end Leave

/-- `leaveVoiceChannelInternal` for one user after the other. -/
def Voice.leaveAll (v : Voice) (us : List UserID) : Voice :=
  us.foldl (fun v u => (v.leaveVoiceChannelInternal u).1) v

theorem Voice.leaveAll_userVoiceChannel (us : List UserID) (v : Voice) (w : UserID) (c : ChannelID) :
    (v.leaveAll us).hub.userVoiceChannel.lookup w = some c ↔
      v.hub.userVoiceChannel.lookup w = some c ∧ w ∉ us := by
  induction us generalizing v with
  | nil => simp [Voice.leaveAll]
  | cons u us ih =>
    rw [Voice.leaveAll,List.foldl_cons]
    refine (ih _).trans ?_
    rw [v.leave_userVoiceChannel,List.mem_cons,not_or,and_assoc]

theorem Voice.mem_leave_userVoiceChannel (v : Voice) (u w : UserID) :
    w ∈ (v.leaveVoiceChannelInternal u).1.hub.userVoiceChannel ↔
      w ∈ v.hub.userVoiceChannel ∧ w ≠ u := by
  simp only [Finmap.mem_iff, v.leave_userVoiceChannel, exists_and_right]

theorem Voice.leaveAll_sfuSessionByUser (us : List UserID) (v : Voice) (w : UserID)
    (sid : SessionID) : (v.leaveAll us).hub.sfuSessionByUser.lookup w = some sid ↔
      v.hub.sfuSessionByUser.lookup w = some sid ∧ ¬ (w ∈ us ∧ w ∈ v.hub.userVoiceChannel) := by
  induction us generalizing v with
  | nil => simp [Voice.leaveAll]
  | cons u us ih =>
    rw [Voice.leaveAll,List.foldl_cons]
    refine (ih _).trans ?_
    rw [v.leave_sfuSessionByUser,v.mem_leave_userVoiceChannel,List.mem_cons]
    by_cases hw : w = u <;> simp [hw]

theorem Voice.leaveAll_participants (us : List UserID) (v : Voice) (w : UserID) (c : ChannelID) :
    w ∈ (v.leaveAll us).hub.participants c ↔ w ∈ v.hub.participants c ∧
      ¬ (w ∈ us ∧ v.hub.userVoiceChannel.lookup w = some c) := by
  induction us generalizing v with
  | nil => simp [Voice.leaveAll]
  | cons u us ih =>
    rw [Voice.leaveAll,List.foldl_cons]
    refine (ih _).trans ?_
    rw [v.leave_participants,v.leave_userVoiceChannel,List.mem_cons]
    by_cases hw : w = u <;> simp [hw]

theorem Voice.leaveAll_router (us : List UserID) (v : Voice) (sid : SessionID) (p : Session) :
    (v.leaveAll us).router.lookup sid = some p ↔ v.router.lookup sid = some p ∧
      ¬ ∃ u ∈ us, u ∈ v.hub.userVoiceChannel ∧ v.hub.sfuSessionByUser.lookup u = some sid := by
  induction us generalizing v with
  | nil => simp [Voice.leaveAll]
  | cons u us ih =>
    rw [Voice.leaveAll,List.foldl_cons]
    refine (ih _).trans ?_
    rw [v.leave_router,and_assoc]
    refine and_congr_right (fun _ => ?_)
    simp only [v.mem_leave_userVoiceChannel, v.leave_sfuSessionByUser, List.mem_cons]
    constructor
    · rintro ⟨hu,hus⟩ ⟨w,rfl | hw,hwc,hws⟩
      · exact hu ⟨hwc,hws⟩
      · by_cases hwu : w = u
        · subst hwu
          exact hu ⟨hwc,hws⟩
        · exact hus ⟨w,hw,⟨hwc,hwu⟩,hws,fun h => hwu h.1⟩
    · intro h
      exact ⟨fun hu => h ⟨u,Or.inl rfl,hu⟩,
        fun ⟨w,hw,hwc,hws⟩ => h ⟨w,Or.inr hw,hwc.1,hws.1⟩⟩

theorem Voice.removeEntries_eq_leaveAll (v : Voice) (minAge now : Time)
    (live : GoMap SessionID LiveSession) (entries : List HubVoiceEntry) :
    v.removeEntries minAge now live entries =
      v.leaveAll ((entries.filter (fun e => e.removes minAge now live)).map (·.userID)) := by
  unfold Voice.removeEntries Voice.leaveAll
  rw [List.foldl_map,List.foldl_filter]

section Tick
variable {minAge now : Time} {o : SweepOrder} {v : Voice}

theorem isStale_hubVoiceEntry (ho : o.Enumerates v) {u : UserID} {c : ChannelID}
    (hu : v.hub.userVoiceChannel.lookup u = some c) :
    (hubVoiceEntry v.hub u c).isStale (liveBySession (liveSessions v.router now o.sessions)) = true ↔
      v.Stale u := by
  have hm : u ∈ v.hub.userVoiceChannel := Finmap.mem_of_lookup_eq_some hu
  have hiff : (hubVoiceEntry v.hub u c).isStale
      (liveBySession (liveSessions v.router now o.sessions)) = false ↔
      ∃ c sid p, v.Backed u c sid p := by
    unfold HubVoiceEntry.isStale
    rw [lookup_liveBySession ho.sessions.2]
    simp only [hubVoiceEntry]
    cases hs : v.hub.sfuSessionByUser.lookup u with
    | none =>
      constructor
      · intro h
        split at h
        · cases h
        · simp at h
      · rintro ⟨c',sid,p,hb⟩
        have hsid := hb.2.1
        rw [hs] at hsid
        cases hsid
    | some sid =>
      simp only [Option.getD_some]
      cases hp : v.router.lookup sid with
      | none =>
        constructor
        · intro h
          cases h
        · rintro ⟨c',sid',p,hb⟩
          have hsid := hb.2.1
          rw [hs] at hsid
          cases hsid
          have hlive := hb.2.2.1
          rw [hp] at hlive
          cases hlive
      | some p =>
        simp only [Option.map_some, Option.isSome_some, Bool.not_true, Bool.false_or,
          Bool.or_eq_false_iff, Bool.not_eq_false', decide_eq_true_eq]
        constructor
        · rintro ⟨hin,hd⟩
          exact ⟨c,sid,p,hu,hs,hp,hin,hd⟩
        · rintro ⟨c',sid',q,hc',hs',hq,hin,hd⟩
          rw [hu] at hc'
          rw [hs] at hs'
          cases hc'
          cases hs'
          rw [hp] at hq
          cases hq
          exact ⟨hin,hd⟩
  rw [Voice.Stale,and_iff_right hm,← hiff,Bool.not_eq_false]

/-- With every record old, the users the tick removes are the stale ones. -/
theorem mem_removed_iff (ho : o.Enumerates v) (hold : OldEnough minAge now v) (u : UserID) :
    u ∈ ((voiceEntries v.hub o.users).filter (fun e => e.removes minAge now
      (liveBySession (liveSessions v.router now o.sessions)))).map (·.userID) ↔ v.Stale u := by
  have hyoung : ∀ w c, (hubVoiceEntry v.hub w c).isYoung minAge now = false := by
    intro w c
    unfold HubVoiceEntry.isYoung
    split
    · rfl
    · rename_i t ht
      exact decide_eq_false (not_lt.mpr (hold.hub w t ht))
  simp only [List.mem_map, List.mem_filter, mem_voiceEntries]
  constructor
  · rintro ⟨e,⟨⟨w,hw,c,hc,rfl⟩,hr⟩,rfl⟩
    rw [HubVoiceEntry.removes,hyoung,Bool.not_false,Bool.true_and] at hr
    exact (isStale_hubVoiceEntry ho hc).mp hr
  · intro hs
    obtain ⟨c,hc⟩ := Finmap.mem_iff.mp hs.1
    refine ⟨_,⟨⟨u,(ho.users.2 u).mpr hs.1,c,hc,rfl⟩,?_⟩,rfl⟩
    rw [HubVoiceEntry.removes,hyoung,Bool.not_false,Bool.true_and]
    exact (isStale_hubVoiceEntry ho hc).mpr hs

theorem tick_userVoiceChannel (ho : o.Enumerates v) (hold : OldEnough minAge now v) (u : UserID)
    (c : ChannelID) : (reconcileTick minAge now o v).hub.userVoiceChannel.lookup u = some c ↔
      v.hub.userVoiceChannel.lookup u = some c ∧ ¬ v.Stale u := by
  unfold reconcileTick Voice.closeOrphans
  dsimp only
  rw [Voice.removeEntries_eq_leaveAll,Voice.leaveAll_userVoiceChannel,mem_removed_iff ho hold]

theorem tick_sfuSessionByUser (ho : o.Enumerates v) (hold : OldEnough minAge now v) (u : UserID)
    (sid : SessionID) : (reconcileTick minAge now o v).hub.sfuSessionByUser.lookup u = some sid ↔
      v.hub.sfuSessionByUser.lookup u = some sid ∧ ¬ v.Stale u := by
  unfold reconcileTick Voice.closeOrphans
  dsimp only
  rw [Voice.removeEntries_eq_leaveAll,Voice.leaveAll_sfuSessionByUser,mem_removed_iff ho hold,
    and_iff_left_of_imp (a := v.Stale u) And.left]

theorem tick_participants (ho : o.Enumerates v) (hold : OldEnough minAge now v) (u : UserID)
    (c : ChannelID) : u ∈ (reconcileTick minAge now o v).hub.participants c ↔
      u ∈ v.hub.participants c ∧ ¬ (v.Stale u ∧ v.hub.userVoiceChannel.lookup u = some c) := by
  unfold reconcileTick Voice.closeOrphans
  dsimp only
  rw [Voice.removeEntries_eq_leaveAll,Voice.leaveAll_participants,mem_removed_iff ho hold]

theorem tick_router (ho : o.Enumerates v) (hold : OldEnough minAge now v) (sid : SessionID)
    (p : Session) : (reconcileTick minAge now o v).router.lookup sid = some p ↔
      v.router.lookup sid = some p ∧
      (¬ ∃ u, v.Stale u ∧ v.hub.sfuSessionByUser.lookup u = some sid) ∧
      (currentSessions v.hub o.owners).lookup sid = some p.userID := by
  have horphan : (∃ ls ∈ liveSessions v.router now o.sessions,
      ls.isOrphan minAge (currentSessions v.hub o.owners) = true ∧ ls.sessionID = sid) ↔
      ∃ p, v.router.lookup sid = some p ∧
        (currentSessions v.hub o.owners).lookup sid ≠ some p.userID := by
    constructor
    · rintro ⟨ls,hls,ho,rfl⟩
      obtain ⟨-,q,hq,hlq⟩ := mem_liveSessions.mp hls
      rw [hlq,LiveSession.isOrphan,Bool.and_eq_true,decide_eq_true_eq,decide_eq_true_eq] at ho
      exact ⟨q,hq,ho.2⟩
    · rintro ⟨q,hq,hc⟩
      refine ⟨⟨sid,q.userID,q.channelID,q.connectionState,now - q.joinedAt⟩,
        mem_liveSessions.mpr ⟨(ho.sessions.2 sid).mpr (Finmap.mem_of_lookup_eq_some hq),q,hq,rfl⟩,
        ?_,rfl⟩
      rw [LiveSession.isOrphan,Bool.and_eq_true,decide_eq_true_eq,decide_eq_true_eq]
      exact ⟨hold.router sid q hq,hc⟩
  unfold reconcileTick Voice.closeOrphans
  dsimp only
  rw [GoMap.lookup_foldl_erase,Voice.removeEntries_eq_leaveAll]
  have hleave := Voice.leaveAll_router ((List.filter (fun e => e.removes minAge now
    (liveBySession (liveSessions v.router now o.sessions))) (voiceEntries v.hub o.users)).map
      (·.userID)) v sid p
  simp only [mem_removed_iff ho hold] at hleave
  have hstale : (∃ u, v.Stale u ∧ u ∈ v.hub.userVoiceChannel ∧
      v.hub.sfuSessionByUser.lookup u = some sid) ↔
      ∃ u, v.Stale u ∧ v.hub.sfuSessionByUser.lookup u = some sid :=
    exists_congr (fun u => and_congr_right (fun hs => and_iff_right hs.1))
  rw [hstale] at hleave
  split
  · rename_i h
    obtain ⟨q,hq,hc⟩ := horphan.mp h
    constructor
    · intro h
      cases h
    · rintro ⟨hp,-,hcur⟩
      rw [hq] at hp
      cases hp
      exact absurd hcur hc
  · rename_i h
    rw [hleave]
    refine and_congr_right (fun hp => ?_)
    rw [iff_self_and]
    intro _
    by_contra hc
    exact h (horphan.mpr ⟨p,hp,hc⟩)

theorem not_stale_iff (v : Voice) {u : UserID} (hu : u ∈ v.hub.userVoiceChannel) :
    ¬ v.Stale u ↔ ∃ c sid p, v.Backed u c sid p := by
  rw [Voice.Stale,and_iff_right hu,not_not]

theorem repairable_of_healed (ho : o.Enumerates v) (hold : OldEnough minAge now v)
    (h : Healed (reconcileTick minAge now o v)) : Repairable v := by
  have hsessions : ∀ u, u ∈ v.hub.sfuSessionByUser → u ∈ v.hub.userVoiceChannel := by
    intro u hu
    by_contra hn
    obtain ⟨sid,hsid⟩ := Finmap.mem_iff.mp hu
    have hkept := (tick_sfuSessionByUser ho hold u sid).mpr ⟨hsid,fun hs => hn hs.1⟩
    obtain ⟨c,hc⟩ :=
      Finmap.mem_iff.mp ((h.session_iff u).mp (Finmap.mem_of_lookup_eq_some hkept))
    exact hn (Finmap.mem_of_lookup_eq_some ((tick_userVoiceChannel ho hold u c).mp hc).1)
  constructor
  · intro u c hu
    by_contra hn
    have hkept := (tick_participants ho hold u c).mpr ⟨hu,fun hs => hn hs.2⟩
    exact hn ((tick_userVoiceChannel ho hold u c).mp ((h.participant_iff u c).mp hkept)).1
  · exact hsessions
  · rintro u c sid p hb
    have hlive : ¬ v.Stale u :=
      (not_stale_iff v (Finmap.mem_of_lookup_eq_some hb.1)).mpr ⟨c,sid,p,hb⟩
    have hkept := (tick_sfuSessionByUser ho hold u sid).mpr ⟨hb.2.1,hlive⟩
    obtain ⟨q,hq,hqu,-⟩ := h.backed u sid hkept
    obtain ⟨hrq,hleft,-⟩ := (tick_router ho hold sid q).mp hq
    rw [hb.2.2.1] at hrq
    cases hrq
    refine ⟨hqu,fun w hw => ?_⟩
    -- a stale sharer would have closed the session, a live one would break the bijection
    have hwlive : ¬ v.Stale w := fun hs => hleft ⟨w,hs,hw⟩
    obtain ⟨q',hq',hqw,-⟩ := h.backed w sid ((tick_sfuSessionByUser ho hold w sid).mpr ⟨hw,hwlive⟩)
    rw [hq] at hq'
    cases hq'
    exact hqw.symm.trans hqu

theorem healed_of_repairable (ho : o.Enumerates v) (hold : OldEnough minAge now v)
    (h : Repairable v) : Healed (reconcileTick minAge now o v) := by
  have hcurrent : ∀ {u c sid p}, v.Backed u c sid p →
      (currentSessions v.hub o.owners).lookup sid = some p.userID := by
    intro u c sid p hb
    obtain ⟨hpu,huniq⟩ := h.owners u c sid p hb
    rw [hpu]
    exact lookup_currentSessions_of_unique ho.owners.2 hb.2.1 huniq
  constructor
  · intro u c
    rw [tick_participants ho hold,tick_userVoiceChannel ho hold]
    constructor
    · rintro ⟨hu,hs⟩
      exact ⟨h.participants u c hu,fun hst => hs ⟨hst,h.participants u c hu⟩⟩
    · rintro ⟨hu,hs⟩
      obtain ⟨c',sid,p,hb⟩ := (not_stale_iff v (Finmap.mem_of_lookup_eq_some hu)).mp hs
      have hc := hb.1
      rw [hu] at hc
      cases hc
      exact ⟨hb.2.2.2.1,fun hst => hs hst.1⟩
  · intro u
    simp only [Finmap.mem_iff, tick_sfuSessionByUser ho hold, tick_userVoiceChannel ho hold,
      exists_and_right]
    refine and_congr_left (fun hs => ⟨fun hu => ?_,fun hu => ?_⟩)
    · exact Finmap.mem_iff.mp (h.sessions u (Finmap.mem_iff.mpr hu))
    · obtain ⟨c,sid,p,hb⟩ := (not_stale_iff v (Finmap.mem_iff.mpr hu)).mp hs
      exact ⟨sid,hb.2.1⟩
  · intro u sid hu
    obtain ⟨hsid,hs⟩ := (tick_sfuSessionByUser ho hold u sid).mp hu
    have hm := h.sessions u (Finmap.mem_of_lookup_eq_some hsid)
    obtain ⟨c,sid',p,hb⟩ := (not_stale_iff v hm).mp hs
    have hss := hb.2.1
    rw [hsid] at hss
    cases hss
    obtain ⟨hpu,huniq⟩ := h.owners u c sid p hb
    refine ⟨p,(tick_router ho hold sid p).mpr ⟨hb.2.2.1,?_,hcurrent hb⟩,hpu,hb.2.2.2.2⟩
    rintro ⟨w,hw,hws⟩
    rw [huniq w hws] at hw
    exact hs hw
  · intro sid hm
    obtain ⟨p,hp⟩ := Finmap.mem_iff.mp hm
    obtain ⟨-,hleft,hcur⟩ := (tick_router ho hold sid p).mp hp
    have hses := lookup_currentSessions hcur
    exact ⟨p.userID,(tick_sfuSessionByUser ho hold _ sid).mpr ⟨hses,fun hs => hleft ⟨_,hs,hses⟩⟩⟩

theorem repairable_of_self_healed (h : Healed v) : Repairable v where
  participants u c hu := (h.participant_iff u c).mp hu
  sessions u hu := (h.session_iff u).mp hu
  owners u c sid p hb := by
    obtain ⟨q,hq,hqu,-⟩ := h.backed u sid hb.2.1
    rw [hb.2.2.1] at hq
    cases hq
    refine ⟨hqu,fun w hw => ?_⟩
    obtain ⟨q,hq,hqw,-⟩ := h.backed w sid hw
    rw [hb.2.2.1] at hq
    cases hq
    exact hqw.symm.trans hqu

theorem not_stale_of_healed (h : Healed v) (u : UserID) : ¬ v.Stale u := by
  rintro ⟨hu,hn⟩
  obtain ⟨c,hc⟩ := Finmap.mem_iff.mp hu
  obtain ⟨sid,hsid⟩ := Finmap.mem_iff.mp ((h.session_iff u).mpr hu)
  obtain ⟨p,hp,-,hd⟩ := h.backed u sid hsid
  exact hn ⟨c,sid,p,hc,hsid,hp,(h.participant_iff u c).mpr hc,hd⟩

/-- A tick leaves an agreeing state alone: no entry is stale and no session an orphan. -/
theorem reconcileTick_of_healed (ho : o.Enumerates v) (hold : OldEnough minAge now v)
    (h : Healed v) : reconcileTick minAge now o v = v := by
  have hnil : ((voiceEntries v.hub o.users).filter (fun e => e.removes minAge now
      (liveBySession (liveSessions v.router now o.sessions)))).map (·.userID) = [] := by
    refine List.eq_nil_iff_forall_not_mem.mpr (fun u hu => ?_)
    exact not_stale_of_healed h u ((mem_removed_iff ho hold u).mp hu)
  have hkeep : ∀ sid p, v.router.lookup sid = some p →
      (reconcileTick minAge now o v).router.lookup sid = some p := by
    intro sid p hp
    obtain ⟨u,hu⟩ := h.owned sid (Finmap.mem_of_lookup_eq_some hp)
    obtain ⟨q,hq,hqu,-⟩ := (healed_of_repairable ho hold (repairable_of_self_healed h)).backed u sid
      ((tick_sfuSessionByUser ho hold u sid).mpr ⟨hu,not_stale_of_healed h u⟩)
    have hrq := ((tick_router ho hold sid q).mp hq).1
    rw [hp] at hrq
    cases hrq
    exact hq
  have hrouter : (reconcileTick minAge now o v).router = v.router := by
    refine Finmap.ext_lookup (fun sid => ?_)
    cases hp : v.router.lookup sid with
    | some p => exact hkeep sid p hp
    | none =>
      by_contra hne
      obtain ⟨q,hq⟩ := Option.ne_none_iff_exists'.mp hne
      rw [((tick_router ho hold sid q).mp hq).1] at hp
      cases hp
  have hhub : (reconcileTick minAge now o v).hub = v.hub := by
    unfold reconcileTick Voice.closeOrphans
    dsimp only
    rw [Voice.removeEntries_eq_leaveAll,hnil]
    rfl
  calc reconcileTick minAge now o v
      = ⟨(reconcileTick minAge now o v).hub,(reconcileTick minAge now o v).router⟩ := rfl
    _ = v := by rw [hhub,hrouter]

/-- One tick heals an old enough state, and leaves a healed one alone, exactly when every
participant and every session mapping has its channel and no backed session is shared. -/
theorem reconcile_heals_iff (minAge now : Time) (o : SweepOrder) (v : Voice) (ho : o.Enumerates v)
    (hold : OldEnough minAge now v) :
    (Healed (reconcileTick minAge now o v) ∧ (Healed v → reconcileTick minAge now o v = v)) ↔
      Repairable v :=
  ⟨fun h => repairable_of_healed ho hold h.1,
    fun h => ⟨healed_of_repairable ho hold h,reconcileTick_of_healed ho hold⟩⟩

end Tick

/-- User 1 is recorded in channel 7 with a session the router lost. -/
def lostSession : Voice where
  hub := newHub.joinLocked 1 7 "lost" 0
  router := ∅

theorem reconcile_heals_lostSession :
    Healed (reconcileTick 15 60 ⟨[],[1],[1]⟩ lostSession) := by
  have ho : SweepOrder.Enumerates ⟨[],[1],[1]⟩ lostSession := by
    constructor <;> refine ⟨by decide,fun x => ?_⟩ <;>
      simp [lostSession, newHub, Hub.joinLocked, Finmap.mem_insert]
  have hold : OldEnough 15 60 lostSession := by
    constructor
    · intro u t ht
      simp only [lostSession, newHub, Hub.joinLocked, GoMap.lookup_insert_eq] at ht
      split at ht <;> cases ht
      decide
    · intro sid p hp
      cases hp
  refine ((reconcile_heals_iff 15 60 _ _ ho hold).mpr ?_).1
  constructor
  · intro u c hu
    simp only [lostSession, Hub.mem_participants_joinLocked] at hu
    rcases hu with hu | ⟨rfl,rfl⟩
    · cases hu
    · rfl
  · intro u hu
    exact hu
  · rintro u c sid p ⟨-,-,hp,-⟩
    cases hp

/-- A participant entry of channel 7 that no `userVoiceChannel` record stands behind. -/
def strayParticipant : Voice where
  hub := { newHub with voiceParticipants := Finmap.singleton 7 {1} }
  router := ∅

theorem stray_participant_survives : ¬ ∀ minAge now o v, SweepOrder.Enumerates o v →
    OldEnough minAge now v →
    Healed (reconcileTick minAge now o v) ∧ (Healed v → reconcileTick minAge now o v = v) := by
  intro h
  have ho : SweepOrder.Enumerates ⟨[],[],[]⟩ strayParticipant := by
    constructor <;> refine ⟨by decide,fun x => ?_⟩ <;> simp [strayParticipant, newHub]
  have hold : OldEnough 15 60 strayParticipant := by
    constructor <;> intro k x hx <;> cases hx
  have hstray := ((h 15 60 _ _ ho hold).1.participant_iff 1 7).mp (by decide)
  exact absurd hstray (by decide)

end MiniDiscord.VoiceHub
