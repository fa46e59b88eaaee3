import MiniDiscord.History.PageRequests
import MiniDiscord.Paging.Scans

/-! # Walks through a channel's history

A walk requests page after page, each with the cursor of the last response, while the rows
of the channel change.
-/
namespace MiniDiscord.MessageHistory
open ChatHub SfuTrack Decimal Paging

/-- Messages are deleted, and those that are sent come after all others. -/
def Evolves (rows : ℕ → Finset Key) : Prop :=
  ∀ i j, i ≤ j → ∀ k ∈ rows j, k ∈ rows i ∨ ∀ k' ∈ rows i, k' < k

/-- Request `i` finds the rows `rows i`. The messages found, and how many requests it took in
all; none without fuel, or after an error. -/
def walkOlder (rows : ℕ → Finset Key) (channelID : ChannelID) (limits : ℕ → ℤ) :
    ℕ → ℕ → Bytes → Option (List Key × ℕ)
  | 0, _, _ => none
  | fuel + 1, i, raw =>
    match Hub.getMessages (rows i) channelID (limits i) raw with
    | .error _ => none
    | .ok page =>
      if page.hasMore = true then
        (walkOlder rows channelID limits fuel (i + 1) page.nextCursor).map fun older =>
          (older.1 ++ page.messages,older.2)
      else some (page.messages,i + 1)

def walkNewer (rows : ℕ → Finset Key) (channelID : ChannelID) (limits : ℕ → ℤ) :
    ℕ → ℕ → Bytes → Option (List Key × ℕ)
  | 0, _, _ => none
  | fuel + 1, i, raw =>
    match Hub.getMessagesAfter true (rows i) channelID (limits i) raw with
    | .error _ => none
    | .ok page =>
      if page.hasMore = true then
        (walkNewer rows channelID limits fuel (i + 1) page.nextCursor).map fun newer =>
          (page.messages ++ newer.1,newer.2)
      else some (page.messages,i + 1)

/-- When the requests of a walk come, and the limits that they ask for. -/
structure Requests where
  time : ℕ → ℕ
  mono : Monotone time
  limits : ℕ → ℤ

/-- The walk from the older end of a window. -/
def Requests.older (requests : Requests) (rows : ℕ → Finset Key) (channelID : ChannelID) (fuel : ℕ)
    (window : AroundResponse) : Option (List Key × ℕ) :=
  if window.hasMoreOlder = true then
    walkOlder (fun i => rows (requests.time i)) channelID requests.limits fuel 0 window.olderCursor
  else some ([],0)

def Requests.newer (requests : Requests) (rows : ℕ → Finset Key) (channelID : ChannelID) (fuel : ℕ)
    (window : AroundResponse) : Option (List Key × ℕ) :=
  if window.hasMoreNewer = true then
    walkNewer (fun i => rows (requests.time i)) channelID requests.limits fuel 0 window.newerCursor
  else some ([],0)

/-! ## The queries answer for a scan -/

theorem answers_limited {r : Key → Key → Prop} {l : List Key} {rows : Finset Key}
    {after : Option Key} {limit : ℕ} (hpos : 0 < limit) (hr : l.Pairwise r)
    (hl : ∀ k, k ∈ l ↔ k ∈ rows ∧ Past r after k) :
    Answers r rows after ⟨(limited l limit).1,nextOf l limit⟩ := by
  constructor
  · exact limited_pairwise hr
  · intro k hk
    exact ((hl k).mp (limited_subset _ _ hk)).1
  · intro k hk
    exact ((hl k).mp (limited_subset _ _ hk)).2
  · intro c hc
    exact nextOf_mem hc
  · intro c hc k hk
    exact nextOf_max hr hc hk
  · intro k hk hpast hn
    exact mem_limited hpos hr ((hl k).mpr ⟨hk,hpast⟩) hn

def olderAnswer (rows : ℕ → Finset Key) (limits : ℕ → ℤ) (i : ℕ) (after : Option Key) : Answer Key :=
  let page := getMessages (stored (rows i)) (limits i).toNat after
  ⟨page.messages.reverse,page.nextCursor⟩

/-- Without a bound there is no request, but this would be its answer. -/
def newerAnswer (rows : ℕ → Finset Key) (limits : ℕ → ℤ) (i : ℕ) (after : Option Key) : Answer Key :=
  let l := (stored (rows i)).filter (fun k => after.all (fun c => decide (c < k)))
  let limit := clampLimit (limits i).toNat 50 100
  ⟨(limited l limit).1,nextOf l limit⟩

theorem all_iff_past {r : Key → Key → Prop} {after : Option Key} {k : Key} {p : Key → Bool}
    (hp : ∀ c, p c = true ↔ r c k) : after.all p = true ↔ Past r after k := by
  cases after with
  | none => exact ⟨fun _ => past_none k,fun _ => rfl⟩
  | some c => exact (hp c).trans past_some.symm

variable {rows : ℕ → Finset Key} {limits : ℕ → ℤ} {channelID : ChannelID} {fuel i : ℕ}
variable {after : Option Key} {c : Key}

theorem olderAnswer_answers (rows : ℕ → Finset Key) (limits : ℕ → ℤ) (i : ℕ) (after : Option Key) :
    Answers (· > ·) (rows i) after (olderAnswer rows limits i after) := by
  have hpos : 0 < clampLimit (limits i).toNat 50 100 := clampLimit_pos (by omega) (by omega)
  have hrows := reverse_sorted (stored_sorted (rows i))
    (fun k => after.all (fun c => decide (k < c)))
  have hanswer : ∀ l n, (limited l n).1.reverse.reverse = (limited l n).1 :=
    fun l n => List.reverse_reverse _
  simp only [olderAnswer,getMessages,hanswer]
  apply answers_limited hpos hrows
  intro k
  rw [List.mem_reverse,List.mem_filter,mem_stored]
  exact and_congr_right (fun _ => all_iff_past (fun _ => decide_eq_true_iff))

theorem newerAnswer_answers (rows : ℕ → Finset Key) (limits : ℕ → ℤ) (i : ℕ) (after : Option Key) :
    Answers (· < ·) (rows i) after (newerAnswer rows limits i after) := by
  have hpos : 0 < clampLimit (limits i).toNat 50 100 := clampLimit_pos (by omega) (by omega)
  have hrows : ((stored (rows i)).filter (fun k => after.all (fun c => decide (c < k)))).Pairwise
      (· < ·) := (stored_sorted (rows i)).sublist List.filter_sublist
  apply answers_limited hpos hrows
  intro k
  rw [List.mem_filter,mem_stored]
  exact and_congr_right (fun _ => all_iff_past (fun _ => decide_eq_true_iff))

theorem roomy_older (hev : Evolves rows) : Roomy (· > ·) rows rows where
  fits _ := subset_rfl
  keeps i c hc k hk hlt := by
    rcases hev i (i + 1) (Nat.le_succ i) k hk with hk | hnew
    · exact hk
    · exact absurd (hnew c hc) (not_lt_of_gt hlt)

theorem roomy_newer {all : Finset Key} (hall : ∀ i, rows i ⊆ all) :
    Roomy (· < ·) rows (fun _ => all) where
  fits := hall
  keeps _ _ _ _ hk _ := hk

section Requests
variable (h0 : 0 < channelID) (hlt : channelID < 2 ^ 63) (hrows : ∀ i, ∀ k ∈ rows i, Sendable k)
include h0 hlt hrows

/-- The texts of the cursors make no difference to a walk. -/
theorem walkOlder_scan (hc : ∀ k ∈ after, Sendable k) :
    walkOlder rows channelID limits fuel i (rawOf channelID after) =
      (scan (olderAnswer rows limits) fuel i after).map fun older => (older.1.reverse,older.2) := by
  induction fuel generalizing i after with
  | zero => rfl
  | succ fuel ih =>
    have hmore : (getMessages (stored (rows i)) (limits i).toNat after).hasMore =
        (getMessages (stored (rows i)) (limits i).toNat after).nextCursor.isSome :=
      getMessages_hasMore _ _ _
    rw [walkOlder,Hub.getMessages_rawOf h0 hlt (hrows i) (limits i) hc,scan]
    cases hnext : (getMessages (stored (rows i)) (limits i).toNat after).nextCursor with
    | none =>
      rw [hnext] at hmore
      simp only [hmore,olderAnswer,hnext,Option.isSome_none,Bool.false_eq_true,if_false,
        Option.map_some,List.reverse_reverse]
    | some c =>
      rw [hnext] at hmore
      have hsend : ∀ k ∈ some c, Sendable k := by
        intro k hk
        rw [← Option.some.inj hk]
        exact hrows i c (mem_stored.mp (getMessages_subset (getMessages_next hnext)).1)
      simp only [hmore,olderAnswer,hnext,Option.isSome_some,if_true,ih hsend,Option.map_map,
        Function.comp_def,List.reverse_append,List.reverse_reverse]

theorem walkNewer_scan (hc : Sendable c) :
    walkNewer rows channelID limits fuel i (rawOf channelID (some c)) =
      scan (newerAnswer rows limits) fuel i (some c) := by
  induction fuel generalizing i c with
  | zero => rfl
  | succ fuel ih =>
    have hanswer : newerAnswer rows limits i (some c) =
        ⟨(getMessagesAfter (stored (rows i)) (limits i).toNat c).messages,
          (getMessagesAfter (stored (rows i)) (limits i).toNat c).nextCursor⟩ := rfl
    have hmore : (getMessagesAfter (stored (rows i)) (limits i).toNat c).hasMore =
        (getMessagesAfter (stored (rows i)) (limits i).toNat c).nextCursor.isSome :=
      nextOf_isSome _ (clampLimit_pos (by omega) (by omega))
    rw [walkNewer,Hub.getMessagesAfter_rawOf h0 hlt (hrows i) (limits i) hc,scan,hanswer]
    cases hnext : (getMessagesAfter (stored (rows i)) (limits i).toNat c).nextCursor with
    | none =>
      rw [hnext] at hmore
      simp only [hmore,Option.isSome_none,Bool.false_eq_true,if_false]
    | some c' =>
      rw [hnext] at hmore
      have hsend : Sendable c' :=
        hrows i c' (mem_stored.mp (getMessagesAfter_subset (getMessagesAfter_next hnext)).1)
      simp only [hmore,Option.isSome_some,if_true,ih hsend]

theorem walkOlder_ends (hev : Evolves rows) (hc : ∀ k ∈ after, Sendable k)
    (h : ((rows i).filter (Past (· > ·) after)).card < fuel) :
    ∃ older n, walkOlder rows channelID limits fuel i (rawOf channelID after) = some (older,n) ∧
      Scanned (· > ·) rows rows i n after older.reverse := by
  obtain ⟨found,n,hscan,hs⟩ := scan_ends (olderAnswer_answers rows limits) (roomy_older hev) h
  refine ⟨found.reverse,n,?_,?_⟩
  · rw [walkOlder_scan h0 hlt hrows hc,hscan]
    rfl
  · rw [List.reverse_reverse]
    exact hs

theorem walkNewer_ends {all : Finset Key} (hall : ∀ i, rows i ⊆ all) (hc : Sendable c)
    (h : all.card < fuel) :
    ∃ newer n, walkNewer rows channelID limits fuel i (rawOf channelID (some c)) = some (newer,n) ∧
      Scanned (· < ·) rows (fun _ => all) i n (some c) newer := by
  have hcard : (all.filter (Past (· < ·) (some c))).card < fuel :=
    lt_of_le_of_lt (Finset.card_filter_le all _) h
  obtain ⟨newer,n,hscan,hs⟩ := scan_ends (newerAnswer_answers rows limits) (roomy_newer hall) hcard
  exact ⟨newer,n,(walkNewer_scan h0 hlt hrows hc).trans hscan,hs⟩

/-! ## From the ends of a window -/

variable {cursor : Option Key}

theorem Requests.older_ends (requests : Requests) (window : AroundResponse) (hev : Evolves rows)
    (hcursor : ∀ c ∈ cursor, c ∈ rows 0) (hmore : window.hasMoreOlder = cursor.isSome)
    (hraw : window.olderCursor = rawOf channelID cursor) (hfuel : (rows 0).card < fuel) :
    ∃ older n, requests.older rows channelID fuel window = some (older,n) ∧
      older.Pairwise (· < ·) ∧ (∀ k ∈ older, k ∈ rows 0 ∧ ¬ Above cursor k) ∧
      ∀ k, (∀ i < n, k ∈ rows (requests.time i)) → Above cursor k ∨ k ∈ older := by
  cases cursor with
  | none =>
    refine ⟨[],0,?_,List.Pairwise.nil,nofun,fun k _ => Or.inl (above_none k)⟩
    rw [Requests.older,hmore]
    rfl
  | some c =>
    have hc := hcursor c rfl
    -- Rows before the cursor were there when the window was.
    have hold : ∀ k ∈ rows (requests.time 0), k < c → k ∈ rows 0 := by
      intro k hk hlt
      rcases hev 0 (requests.time 0) (Nat.zero_le _) k hk with hk | hnew
      · exact hk
      · exact absurd (hnew c hc) (not_lt_of_gt hlt)
    have hcard : ((rows (requests.time 0)).filter (Past (· > ·) (some c))).card < fuel := by
      refine lt_of_le_of_lt (Finset.card_le_card ?_) hfuel
      intro k hk
      obtain ⟨hk,hpast⟩ := Finset.mem_filter.mp hk
      have hlt : c > k := past_some.mp hpast
      exact hold k hk hlt
    have hevolves : Evolves (fun i => rows (requests.time i)) :=
      fun i j hij => hev _ _ (requests.mono hij)
    have hsend : ∀ k ∈ some c, Sendable k := by
      intro k hk
      exact hrows 0 k (hcursor k hk)
    obtain ⟨older,n,hwalk,hs⟩ :=
      @walkOlder_ends _ requests.limits _ _ _ _ h0 hlt (fun i => hrows (requests.time i)) hevolves
        hsend hcard
    have hbefore : ∀ k ∈ older, c > k :=
      fun k hk => past_some.mp (hs.past k (List.mem_reverse.mpr hk))
    refine ⟨older,n,?_,List.pairwise_reverse.mp hs.sorted,?_,?_⟩
    · rw [Requests.older,hmore,hraw]
      exact hwalk
    · intro k hk
      have hlt := hbefore k hk
      exact ⟨hold k (hs.fits k (List.mem_reverse.mpr hk)) hlt,fun ha => not_le.mpr hlt (ha c rfl)⟩
    · intro k hk
      rcases le_or_gt c k with hle | hlt
      · exact Or.inl (above_some.mpr hle)
      · have hpast : Past (· > ·) (some c) k := past_some.mpr hlt
        exact Or.inr (List.mem_reverse.mp (hs.fills k hpast (fun j _ hj => hk j hj)))

theorem Requests.newer_ends (requests : Requests) (window : AroundResponse) {all : Finset Key} (hall : ∀ i, rows i ⊆ all)
    (hcursor : ∀ c ∈ cursor, c ∈ rows 0) (hmore : window.hasMoreNewer = cursor.isSome)
    (hraw : window.newerCursor = rawOf channelID cursor) (hfuel : all.card < fuel) :
    ∃ newer n, requests.newer rows channelID fuel window = some (newer,n) ∧
      newer.Pairwise (· < ·) ∧
      (∀ k ∈ newer, (∃ i < n, k ∈ rows (requests.time i)) ∧ ¬ ∀ hi ∈ cursor, k ≤ hi) ∧
      ∀ k, (∀ i < n, k ∈ rows (requests.time i)) → (∀ hi ∈ cursor, k ≤ hi) ∨ k ∈ newer := by
  cases cursor with
  | none =>
    refine ⟨[],0,?_,List.Pairwise.nil,nofun,fun k _ => Or.inl nofun⟩
    rw [Requests.newer,hmore]
    rfl
  | some c =>
    obtain ⟨newer,n,hwalk,hs⟩ :=
      @walkNewer_ends _ requests.limits _ _ 0 c h0 hlt (fun i => hrows (requests.time i)) all
        (fun i => hall (requests.time i)) (hrows 0 c (hcursor c rfl)) hfuel
    refine ⟨newer,n,?_,hs.sorted,?_,?_⟩
    · rw [Requests.newer,hmore,hraw]
      exact hwalk
    · intro k hk
      obtain ⟨i,-,hi,hmem⟩ := hs.held k hk
      refine ⟨⟨i,hi,hmem⟩,?_⟩
      intro hle
      exact absurd (hle c rfl) (not_le.mpr (past_some.mp (hs.past k hk)))
    · intro k hk
      rcases le_or_gt k c with hle | hlt
      · refine Or.inl ?_
        rintro _ ⟨⟩
        exact hle
      · exact Or.inr (hs.fills k (past_some.mpr hlt) (fun j _ hj => hk j hj))

/-! ## Nothing is lost or repeated -/

/-- A walk from the latest messages on. -/
theorem walkOlder_latest (hev : Evolves rows) (limits : ℕ → ℤ) :
    ∃ found n, walkOlder rows channelID limits ((rows 0).card + 1) 0 [] = some (found,n) ∧
      found.Pairwise (· < ·) ∧ (∀ k ∈ found, k ∈ rows 0) ∧
      ∀ k, (∀ i < n, k ∈ rows i) → k ∈ found := by
  have hcard : ((rows 0).filter (Past (· > ·) none)).card < (rows 0).card + 1 :=
    Nat.lt_succ_of_le (Finset.card_filter_le _ _)
  obtain ⟨found,n,hwalk,hs⟩ :=
    @walkOlder_ends _ limits _ _ 0 none h0 hlt hrows hev nofun hcard
  refine ⟨found,n,hwalk,List.pairwise_reverse.mp hs.sorted,?_,?_⟩
  · intro k hk
    exact hs.fits k (List.mem_reverse.mpr hk)
  · intro k hk
    exact List.mem_reverse.mp (hs.fills k (past_none k) (fun i _ hi => hk i hi))

/-- A window and the walks from its ends. -/
theorem around_walks (hev : Evolves rows) {anchor : Key} (hanchor : anchor ∈ rows 0) (limit : ℤ)
    (older newer : Requests) {all : Finset Key} (hall : ∀ i, rows i ⊆ all) :
    ∃ window before n after m,
      Hub.getMessagesAround true (rows 0) channelID anchor.id limit = .ok window ∧
      older.older rows channelID (all.card + 1) window = some (before,n) ∧
      newer.newer rows channelID (all.card + 1) window = some (after,m) ∧
      (before ++ window.messages ++ after).Pairwise (· < ·) ∧
      (∀ k ∈ before ++ window.messages, k ∈ rows 0) ∧
      (∀ k ∈ after, ∃ i < m, k ∈ rows (newer.time i)) ∧
      ∀ k ∈ rows 0, (∀ i < n, k ∈ rows (older.time i)) → (∀ i < m, k ∈ rows (newer.time i)) →
        k ∈ before ++ window.messages ++ after := by
  obtain ⟨page,hpage,hwindow⟩ := Hub.getMessagesAround_stored h0 hlt (hrows 0) hanchor limit
  obtain ⟨hmem,holder,hnewer⟩ := getMessagesAround_mem hpage
  have hs := stored_sorted (rows 0)
  obtain ⟨hmoreNewer,hsorted,hends,hfills⟩ := getMessagesAround_spans hs hpage
  have hmoreOlder := (getMessagesAround_page hs hpage).1
  have hfuel : (rows 0).card < all.card + 1 := Nat.lt_succ_of_le (Finset.card_le_card (hall 0))
  obtain ⟨before,n,hbefore,hbsorted,hbmem,hbfills⟩ := older.older_ends h0 hlt hrows
    (windowOf channelID page) hev (fun c hc => mem_stored.mp (hmem c (holder c hc))) hmoreOlder rfl
    hfuel
  obtain ⟨after,m,hafter,hasorted,hamem,hafills⟩ := newer.newer_ends h0 hlt hrows
    (windowOf channelID page) hall (fun c hc => mem_stored.mp (hmem c (hnewer c hc))) hmoreNewer rfl
    (Nat.lt_succ_self _)
  -- The window's messages are between its two cursors, and the walks are beyond them.
  have hbw : ∀ a ∈ before, ∀ b ∈ page.messages, a < b := by
    intro a ha b hb
    refine lt_of_not_ge (fun hle => (hbmem a ha).2 ?_)
    intro c hc
    exact le_trans ((hends b hb).1 c hc) hle
  have hwa : ∀ a ∈ page.messages, ∀ b ∈ after, a < b := by
    intro a ha b hb
    refine lt_of_not_ge (fun hle => (hamem b hb).2 ?_)
    intro hi hhi
    exact le_trans hle ((hends a ha).2 hi hhi)
  have hba : ∀ a ∈ before, ∀ b ∈ after, a < b := by
    intro a ha b hb
    obtain ⟨c,hc⟩ := not_forall.mp (hbmem a ha).2
    obtain ⟨hc,-⟩ := Classical.not_imp.mp hc
    exact lt_trans (hbw a ha c (holder c hc)) (hwa c (holder c hc) b hb)
  refine ⟨windowOf channelID page,before,n,after,m,hwindow,hbefore,hafter,?_,?_,?_,?_⟩
  · apply List.pairwise_append.mpr
    refine ⟨List.pairwise_append.mpr ⟨hbsorted,hsorted,hbw⟩,hasorted,?_⟩
    intro a ha b hb
    rcases List.mem_append.mp ha with ha | ha
    · exact hba a ha b hb
    · exact hwa a ha b hb
  · intro k hk
    rcases List.mem_append.mp hk with hk | hk
    · exact (hbmem k hk).1
    · exact mem_stored.mp (hmem k hk)
  · intro k hk
    exact (hamem k hk).1
  · intro k hk hold hnew
    rcases hbfills k hold with ha | hin
    · rcases hafills k hnew with hup | hin
      · apply List.mem_append_left
        exact List.mem_append_right _ (hfills k (mem_stored.mpr hk) ha hup)
      · exact List.mem_append_right _ hin
    · apply List.mem_append_left
      exact List.mem_append_left _ hin

/-- A walk from the latest messages ends with those that were there all the time, each once and
in order, and so does a window with the walks from its ends, which is all of a history that
does not change. -/
theorem pagination_exact (hev : Evolves rows) :
    (∀ limits : ℕ → ℤ, ∃ found n,
      walkOlder rows channelID limits ((rows 0).card + 1) 0 [] = some (found,n) ∧
      found.Pairwise (· < ·) ∧ (∀ k ∈ found, k ∈ rows 0) ∧
      ∀ k, (∀ i < n, k ∈ rows i) → k ∈ found) ∧
    ∀ anchor ∈ rows 0, ∀ (limit : ℤ) (older newer : Requests) (all : Finset Key),
      (∀ i, rows i ⊆ all) → ∃ window before n after m,
        Hub.getMessagesAround true (rows 0) channelID anchor.id limit = .ok window ∧
        older.older rows channelID (all.card + 1) window = some (before,n) ∧
        newer.newer rows channelID (all.card + 1) window = some (after,m) ∧
        (before ++ window.messages ++ after).Pairwise (· < ·) ∧
        (∀ k ∈ before ++ window.messages, k ∈ rows 0) ∧
        (∀ k ∈ after, ∃ i < m, k ∈ rows (newer.time i)) ∧
        (∀ k ∈ rows 0, (∀ i < n, k ∈ rows (older.time i)) → (∀ i < m, k ∈ rows (newer.time i)) →
          k ∈ before ++ window.messages ++ after) ∧
        ((∀ i, rows i = rows 0) → before ++ window.messages ++ after = stored (rows 0)) := by
  refine ⟨walkOlder_latest h0 hlt hrows hev,?_⟩
  intro anchor hanchor limit older newer all hall
  obtain ⟨window,before,n,after,m,hwindow,hbefore,hafter,hsorted,hold,hnew,hfills⟩ :=
    around_walks h0 hlt hrows hev hanchor limit older newer hall
  refine ⟨window,before,n,after,m,hwindow,hbefore,hafter,hsorted,hold,hnew,hfills,?_⟩
  intro hstill
  apply hsorted.eq_of_mem_iff (stored_sorted (rows 0))
  intro k
  rw [mem_stored]
  constructor
  · intro hk
    rcases List.mem_append.mp hk with hk | hk
    · exact hold k hk
    · obtain ⟨i,-,hi⟩ := hnew k hk
      rwa [hstill] at hi
  · intro hk
    have hall : ∀ t, k ∈ rows t := fun t => (hstill t).symm ▸ hk
    exact hfills k hk (fun i _ => hall _) (fun i _ => hall _)

end Requests

/-- The first message is deleted and a third one is sent after the first request. -/
theorem pagination_exact_replaced :
    let rows : ℕ → Finset Key := fun i =>
      if i = 0 then {toLex (1,1),toLex (2,2)} else {toLex (2,2),toLex (3,3)}
    ∃ found n, walkOlder rows 1 (fun _ => 1) ((rows 0).card + 1) 0 [] = some (found,n) ∧
      toLex (2,2) ∈ found ∧ toLex (3,3) ∉ found := by
  intro rows
  have hrows : ∀ i, ∀ k ∈ rows i, Sendable k := by
    intro i k hk
    have hk : k = toLex (1,1) ∨ k = toLex (2,2) ∨ k = toLex (3,3) := by
      by_cases h0 : i = 0
      · simp only [rows,if_pos h0,Finset.mem_insert,Finset.mem_singleton] at hk
        exact hk.imp_right Or.inl
      · simp only [rows,if_neg h0,Finset.mem_insert,Finset.mem_singleton] at hk
        exact Or.inr hk
    rcases hk with rfl | rfl | rfl
    · exact ⟨by decide,by decide,by decide⟩
    · exact ⟨by decide,by decide,by decide⟩
    · exact ⟨by decide,by decide,by decide⟩
  have hev : Evolves rows := by
    intro i j hij k hk
    by_cases hi : i = 0
    · by_cases hj : j = 0
      · rw [hi,← hj]
        exact Or.inl hk
      · simp only [rows,if_neg hj,Finset.mem_insert,Finset.mem_singleton] at hk
        rcases hk with rfl | rfl
        · rw [hi]
          exact Or.inl (by decide)
        · rw [hi]
          exact Or.inr (by decide)
    · have hj : j ≠ 0 := by omega
      have he : rows i = rows j := (if_neg hi).trans (if_neg hj).symm
      rw [he]
      exact Or.inl hk
  have h0 : (0 : ChannelID) < 1 := by decide
  have hlt : (1 : ChannelID) < 2 ^ 63 := by decide
  obtain ⟨found,n,hwalk,-,hold,hfills⟩ := (pagination_exact h0 hlt hrows hev).1 (fun _ => 1)
  refine ⟨found,n,hwalk,?_,?_⟩
  · apply hfills
    intro i _
    by_cases hi : i = 0
    · simp only [rows,if_pos hi]
      decide
    · simp only [rows,if_neg hi]
      decide
  · intro hk
    exact absurd (hold _ hk) (by decide)

end MiniDiscord.MessageHistory
