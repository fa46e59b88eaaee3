import MiniDiscord.Client.VoiceSnapshots

/-! # The detached flag

What is left of a participant's grace timer when a response has been processed. The flag is
on the wire in all three responses; only the ack of an ordinary join carries it into the list
that the tiles are drawn from.
-/
namespace MiniDiscord.VoiceSnapshots
open ChatHub

variable {s3Host : String} {s s' : Client} {m : Moment} {u v : UserID} {c : ChannelID}

/-! ## The wire -/

theorem lookup_omitEmpty {key k value : String} (h : k ≠ key) : (omitEmpty key value).lookup k = none := by
  unfold omitEmpty
  split
  · rfl
  · simp [h]

theorem lookup_user_id (p : WsVoiceParticipant) :
    (encodeParticipant p).lookup "user_id" = some (.num p.userID) := by
  simp [encodeParticipant]

/-- The flag is on the wire if it is set. -/
theorem lookup_detached (p : WsVoiceParticipant) : (encodeParticipant p).lookup "detached" =
    if p.detached then some (.bool true) else none := by
  unfold encodeParticipant
  simp only [List.lookup_append]
  rw [lookup_omitEmpty (by decide),lookup_omitEmpty (by decide),lookup_omitEmpty (by decide),
    lookup_omitEmpty (by decide)]
  cases p.detached <;> rfl

theorem asParticipant_encode (p : WsVoiceParticipant) :
    (asParticipant (encodeParticipant p)).userId = p.userID ∧
      ((asParticipant (encodeParticipant p)).detached = some true ↔ p.detached = true) := by
  unfold asParticipant
  dsimp only
  rw [lookup_user_id,lookup_detached]
  cases p.detached <;> simp [number, boolean]

/-- The parser of `get_server_channels` copies no flag. -/
theorem detached_parseParticipant {o : JsonObject} {p : VoiceParticipant}
    (h : parseParticipant o = some p) : p.detached = none := by
  obtain ⟨_,-,rfl⟩ := Option.map_eq_some_iff.mp h
  rfl

/-! ## The hub -/

theorem userID_resolve (m : Moment) (s3Host : String) (v : UserID) :
    (m.resolveVoiceParticipant s3Host v).userID = v := by
  unfold Moment.resolveVoiceParticipant
  dsimp only
  split <;> rfl

theorem detached_resolve (m : Moment) (s3Host : String) (v : UserID) :
    (m.resolveVoiceParticipant s3Host v).detached = true ↔ m.Detached v := by
  unfold Moment.resolveVoiceParticipant
  dsimp only
  split <;> exact Iff.rfl

theorem mem_peers : (∃ p ∈ m.peers s3Host u c, p.userID = v) ↔ v ∈ (m.hub.participants c).erase u := by
  unfold Moment.peers
  constructor
  · rintro ⟨p,hp,rfl⟩
    obtain ⟨w,hw,rfl⟩ := List.mem_map.mp hp
    rw [userID_resolve]
    exact (Finset.mem_sort _).mp hw
  · intro hv
    exact ⟨_,List.mem_map.mpr ⟨v,(Finset.mem_sort _).mpr hv,rfl⟩,userID_resolve m s3Host v⟩

/-- Everyone in a voice channel of the server is listed. -/
theorem mem_snapshot {channels : List Channel} {channel : Channel} (hc : channel ∈ channels)
    (ht : channel.type = .voice) (hv : v ∈ m.hub.participants channel.id) :
    ∃ entry ∈ m.buildVoiceParticipantsSnapshot s3Host channels,
      entry.channelID = channel.id ∧ ∃ p ∈ entry.participants, p.userID = v := by
  have hid : channel.id ∈ ((channels.filter (fun c => decide (c.type = .voice))).map Channel.id).toFinset :=
    List.mem_toFinset.mpr (List.mem_map.mpr ⟨channel,List.mem_filter.mpr ⟨hc,decide_eq_true ht⟩,rfl⟩)
  have hne : m.hub.participants channel.id ≠ ∅ := Finset.ne_empty_of_mem hv
  refine ⟨_,List.mem_map.mpr ⟨channel.id,(Finset.mem_sort _).mpr
    (Finset.mem_filter.mpr ⟨hid,hne⟩),rfl⟩,rfl,?_⟩
  exact ⟨_,List.mem_map.mpr ⟨v,(Finset.mem_sort _).mpr hv,rfl⟩,userID_resolve m s3Host v⟩

/-- What an ack says of a participant: who it is, and whether it waits. -/
theorem mem_ackParticipants (hv : v ∈ (m.hub.participants c).erase u) (hd : m.Detached v) :
    ∃ p ∈ ackParticipants s3Host u c m, p.userId = v ∧ p.detached = some true := by
  obtain ⟨hid,hflag⟩ := asParticipant_encode (m.resolveVoiceParticipant s3Host v)
  refine ⟨_,List.mem_map.mpr ⟨_,List.mem_map.mpr ⟨_,List.mem_map.mpr
    ⟨v,(Finset.mem_sort _).mpr hv,rfl⟩,rfl⟩,rfl⟩,?_,?_⟩
  · rw [hid,userID_resolve]
  · exact hflag.mpr ((detached_resolve m s3Host v).mpr hd)

/-! ## The client -/

theorem mem_detachedUserIds : v ∈ s.detachedUserIds ↔ v ∈ s.detachedUserIdsFromEvents ∨
    ∃ p ∈ s.voiceParticipantsInChannel, p.userId = v ∧ p.detached = some true := by
  simp only [Client.detachedUserIds, Finset.mem_union, List.mem_toFinset, List.mem_map,
    List.mem_filter, decide_eq_true_eq]
  constructor
  · rintro (h | ⟨p,⟨hp,hd⟩,hv⟩)
    · exact Or.inl h
    · exact Or.inr ⟨p,hp,hv,hd⟩
  · rintro (h | ⟨p,hp,hv,hd⟩)
    · exact Or.inl h
    · exact Or.inr ⟨p,⟨hp,hd⟩,hv⟩

/-- What holds of all that is put into the lists holds of all that is in them. -/
theorem mem_foldl_update {A : Type} {P : A → Prop} {valid : List ChannelID}
    {entries : List (ChannelID × List A)} (he : ∀ e ∈ entries, ∀ a ∈ e.2, P a)
    {lists : ChannelID → Option (List A)} (hl : ∀ c, ∀ l ∈ lists c, ∀ a ∈ l, P a)
    {c : ChannelID} {l : List A} {a : A}
    (hc : (entries.foldl (fun (next : ChannelID → Option (List A)) e =>
      if e.1 ∈ valid then Function.update next e.1 (some e.2) else next) lists) c = some l)
    (ha : a ∈ l) : P a := by
  induction entries generalizing lists with
  | nil => exact hl c l hc a ha
  | cons e entries ih =>
    refine ih (fun e' hm => he e' (List.mem_cons_of_mem _ hm)) (fun c l hc a ha => ?_) hc
    dsimp only at hc
    split at hc
    · rw [Function.update_apply] at hc
      split at hc
      · obtain rfl := Option.some.inj hc
        exact he e List.mem_cons_self a ha
      · exact hl c l hc a ha
    · exact hl c l hc a ha

/-- No list has a flag after a synchronisation. -/
theorem detached_sync (responses : List (List Channel × Moment)) {p : VoiceParticipant}
    (hp : p ∈ (s.syncServersAndChannels (responses.map (fun r =>
      getServerChannelsState s3Host r.1 r.2))).voiceParticipantsInChannel) : p.detached = none := by
  unfold Client.voiceParticipantsInChannel at hp
  cases hl : (s.syncServersAndChannels (responses.map (fun r =>
      getServerChannelsState s3Host r.1 r.2))).voiceParticipantsByChannel s.voiceChannelId with
  | none =>
    change p ∈ (Client.voiceParticipantsByChannel _ s.voiceChannelId).getD [] at hp
    rw [hl] at hp
    cases hp
  | some l =>
    change p ∈ (Client.voiceParticipantsByChannel _ s.voiceChannelId).getD [] at hp
    rw [hl] at hp
    refine mem_foldl_update (P := fun p => p.detached = none) (fun e he a ha => ?_)
      (fun _ _ h => by cases h) hl hp
    obtain ⟨state,hstate,he⟩ := List.mem_flatMap.mp he
    obtain ⟨r,-,rfl⟩ := List.mem_map.mp hstate
    obtain ⟨entry,-,rfl⟩ := List.mem_map.mp he
    obtain ⟨o,-,ho⟩ := List.mem_filterMap.mp ha
    exact detached_parseParticipant ho

/-! ## The three responses -/

/-- The hub has listed the participant for the channel, at that moment. -/
def Listed (s3Host : String) (userID : UserID) (c : ChannelID) (v : UserID) (m : Moment) : Response → Prop
  | .getServerChannels responses => ∃ channels, (channels,m) ∈ responses ∧
      ∃ entry ∈ m.buildVoiceParticipantsSnapshot s3Host channels,
        entry.channelID = c ∧ ∃ p ∈ entry.participants, p.userID = v
  | .joinVoiceChannel channelID m' _ => m' = m ∧ channelID = c ∧ ∃ p ∈ m.peers s3Host userID c, p.userID = v
  | .rejoin channelID m' => m' = m ∧ channelID = c ∧ ∃ p ∈ m.peers s3Host userID c, p.userID = v
  | .sfuResume m' => m' = m ∧ m.channelOf userID = c ∧ ∃ p ∈ m.peers s3Host userID c, p.userID = v

/-- The participants of the client's channel that had a grace timer are detached. -/
def Survives (s3Host : String) (s' : Client) (r : Response) : Prop :=
  ∀ v m, Listed s3Host (s'.currentUserId.getD 0) s'.voiceChannelId v m r → m.Detached v →
    v ∈ s'.detachedUserIds

/-- The channel the client is in once the response is processed. -/
def channelAfter (s : Client) : Response → ChannelID
  | .joinVoiceChannel channelID _ opens =>
    if s.currentChannelID = channelID ∨ opens = true then channelID else s.voiceChannelId
  | _ => s.voiceChannelId

/-- What the client does not learn from the response it must know before. -/
def Known (s : Client) (v : UserID) : Response → Prop
  | .getServerChannels _ => v ∈ s.detachedUserIdsFromEvents
  | .joinVoiceChannel channelID _ opens =>
    if s.currentChannelID = channelID then ∃ p ∈ s.participants, p.userId = v ∧ p.detached = some true
    else opens = true ∨ v ∈ s.detachedUserIds
  | .rejoin _ _ => v ∈ s.detachedUserIds
  | .sfuResume _ => v ∈ s.detachedUserIds

theorem currentUserId_process {r : Response} (h : process s3Host s r = some s') :
    s'.currentUserId = s.currentUserId ∧ s'.voiceChannelId = channelAfter s r := by
  cases r with
  | getServerChannels responses =>
    obtain rfl := Option.some.inj h
    exact ⟨rfl,rfl⟩
  | joinVoiceChannel c m opens =>
    obtain ⟨u,hu,rfl⟩ := Option.map_eq_some_iff.mp h
    unfold Client.handleJoinVoice Client.join
    by_cases hc : s.currentChannelID = c
    · rw [if_pos hc]
      exact ⟨rfl,(if_pos (Or.inl hc)).symm⟩
    · rw [if_neg hc]
      cases opens with
      | true => exact ⟨rfl,(if_pos (Or.inr rfl)).symm⟩
      | false => exact ⟨rfl,(if_neg (by simp [hc])).symm⟩
  | rejoin c m =>
    obtain ⟨u,hu,rfl⟩ := Option.map_eq_some_iff.mp h
    exact ⟨rfl,rfl⟩
  | sfuResume m =>
    obtain ⟨u,hu,rfl⟩ := Option.map_eq_some_iff.mp h
    exact ⟨rfl,rfl⟩

/-- The list of the channel after an ordinary join. -/
theorem mem_detachedUserIds_joined {participants : List VoiceParticipant} (hv : v ≠ u) :
    v ∈ (s.joined u c participants).detachedUserIds ↔
      ∃ p ∈ participants, p.userId = v ∧ p.detached = some true := by
  have hlist : (s.joined u c participants).voiceParticipantsInChannel =
      Client.selfParticipant u :: participants.filter (fun p => p.userId ≠ u) := by
    unfold Client.voiceParticipantsInChannel Client.joined
    dsimp only
    rw [Function.update_self]
    rfl
  rw [mem_detachedUserIds,hlist]
  constructor
  · rintro (h | ⟨p,hp,hpv,hd⟩)
    · cases h
    · rcases List.mem_cons.mp hp with rfl | hp
      · cases hd
      · exact ⟨p,(List.mem_filter.mp hp).1,hpv,hd⟩
  · rintro ⟨p,hp,hpv,hd⟩
    have hne : p.userId ≠ u := hpv ▸ hv
    exact Or.inr ⟨p,List.mem_cons_of_mem _ (List.mem_filter.mpr ⟨hp,decide_eq_true hne⟩),hpv,hd⟩

theorem detached_process {r : Response} (h : process s3Host s r = some s')
    (hl : Listed s3Host (s'.currentUserId.getD 0) s'.voiceChannelId v m r) (hd : m.Detached v) :
    v ∈ s'.detachedUserIds ↔ Known s v r := by
  obtain ⟨huser,hchannel⟩ := currentUserId_process h
  rw [huser,hchannel] at hl
  cases r with
  | getServerChannels responses =>
    obtain rfl := Option.some.inj h
    rw [mem_detachedUserIds]
    constructor
    · rintro (hv | ⟨p,hp,-,hflag⟩)
      · exact hv
      · rw [detached_sync responses hp] at hflag
        cases hflag
    · exact Or.inl
  | joinVoiceChannel c m' opens =>
    obtain ⟨u,hu,rfl⟩ := Option.map_eq_some_iff.mp h
    obtain ⟨rfl,hc,hpeer⟩ := hl
    rw [hu] at hpeer
    have hv : v ≠ u := (Finset.mem_erase.mp (mem_peers.mp hpeer)).1
    simp only [Client.handleJoinVoice, Client.join, Known]
    by_cases hcur : s.currentChannelID = c
    · rw [if_pos hcur,if_pos hcur]
      exact mem_detachedUserIds_joined hv
    · rw [if_neg hcur,if_neg hcur]
      cases opens with
      | true =>
        refine iff_of_true ((mem_detachedUserIds_joined hv).mpr ?_) (Or.inl rfl)
        rw [← hc] at hpeer
        exact mem_ackParticipants (mem_peers.mp hpeer) hd
      | false => simp [Client.applySession, Client.detachedUserIds, Client.voiceParticipantsInChannel]
  | rejoin c m' =>
    obtain ⟨u,hu,rfl⟩ := Option.map_eq_some_iff.mp h
    exact Iff.rfl
  | sfuResume m' =>
    obtain ⟨u,hu,rfl⟩ := Option.map_eq_some_iff.mp h
    exact Iff.rfl

/-- The flag survives if and only if the client knows of everyone it does not learn about. -/
theorem detached_survives {r : Response} (h : process s3Host s r = some s') :
    Survives s3Host s' r ↔ ∀ v m, Listed s3Host (s.currentUserId.getD 0) (channelAfter s r) v m r →
      m.Detached v → Known s v r := by
  obtain ⟨huser,hchannel⟩ := currentUserId_process h
  unfold Survives
  rw [huser,hchannel]
  constructor
  · intro hs v m hl hd
    refine (detached_process h ?_ hd).mp (hs v m hl hd)
    rwa [huser,hchannel]
  · intro hs v m hl hd
    refine (detached_process h ?_ hd).mpr (hs v m hl hd)
    rwa [huser,hchannel]

/-- User 2 is in channel 7 and waits for its connection. -/
def waiting : Moment :=
  let hub : VoiceHub.Hub := { VoiceHub.newHub with
    voiceParticipants := Finmap.insert 7 {1,2} ∅
    userVoiceChannel := Finmap.insert 2 7 (Finmap.insert 1 7 ∅)
    sfuGraceTimers := Finmap.insert 2 0 ∅ }
  ⟨hub,fun _ => hub,fun _ => none⟩

/-- User 1, in no channel or in channel 7. -/
def newcomer : Client := ⟨some 1,0,fun _ => none,∅,0,[]⟩
def present : Client := ⟨some 1,7,fun _ => none,∅,7,[]⟩

theorem detached_survives_join : ∃ s', process "" newcomer (.joinVoiceChannel 7 waiting true) = some s' ∧
    Survives "" s' (.joinVoiceChannel 7 waiting true) := by
  have h : process "" newcomer (.joinVoiceChannel 7 waiting true) =
      some (newcomer.handleJoinVoice 1 7 (ackParticipants "" 1 7 waiting) true) := rfl
  exact ⟨_,h,(detached_survives h).mpr (fun v m _ _ => by simp [Known, newcomer])⟩

/-- The other responses, to a client that has heard of nothing. -/
theorem detached_dropped :
    (∃ s', process "" present (.getServerChannels [([⟨7,1,"voice",.voice,0⟩],waiting)]) = some s' ∧
      ¬ Survives "" s' (.getServerChannels [([⟨7,1,"voice",.voice,0⟩],waiting)])) ∧
    (∃ s', process "" present (.sfuResume waiting) = some s' ∧ ¬ Survives "" s' (.sfuResume waiting)) ∧
    ∃ s', process "" present (.rejoin 7 waiting) = some s' ∧ ¬ Survives "" s' (.rejoin 7 waiting) := by
  have hd : waiting.Detached 2 := by
    unfold Moment.Detached
    decide +kernel
  have hpeer : ∃ p ∈ waiting.peers "" 1 7, p.userID = 2 := mem_peers.mpr (by decide +kernel)
  have hnot : 2 ∉ present.detachedUserIds := by decide +kernel
  refine ⟨⟨_,rfl,fun h => ?_⟩,⟨_,rfl,fun h => ?_⟩,⟨_,rfl,fun h => ?_⟩⟩
  · have hlisted : ∃ entry ∈ waiting.buildVoiceParticipantsSnapshot "" [⟨7,1,"voice",.voice,0⟩],
        entry.channelID = 7 ∧ ∃ p ∈ entry.participants, p.userID = 2 :=
      mem_snapshot (List.mem_singleton_self _) rfl (by decide +kernel)
    rcases mem_detachedUserIds.mp (h 2 waiting ⟨_,List.mem_singleton_self _,hlisted⟩ hd) with hv | hv
    · revert hv
      decide
    · obtain ⟨p,hp,-,hflag⟩ := hv
      rw [detached_sync _ hp] at hflag
      cases hflag
  · exact hnot (h 2 waiting ⟨rfl,by decide +kernel,hpeer⟩ hd)
  · exact hnot (h 2 waiting ⟨rfl,rfl,hpeer⟩ hd)

end MiniDiscord.VoiceSnapshots
