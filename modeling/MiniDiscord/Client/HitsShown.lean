import MiniDiscord.Client.MessageSearch

/-! # The hits that are shown

Page after page the hits are those of one search in their order. A page that is requested
while another search is under way blocks the requests after it.
-/
namespace MiniDiscord.MessageSearch
open ChatHub Decimal Paging Transition MessageHistory

variable {fts : TextSearch} {s s' t : State} {e : Event} {es fs : List Event} {r r' : Request}
variable {rs : List Request} {i : ℕ}

/-! ## The requests under way -/

section Requests
variable {p : Request → Bool}

theorem split_at (h : rs[i]? = some r) : ∃ before after, rs = before ++ r :: after ∧
    (∀ r', rs.set i r' = before ++ r' :: after) ∧ rs.eraseIdx i = before ++ after := by
  obtain ⟨hi,hr⟩ := List.getElem?_eq_some_iff.mp h
  refine ⟨rs.take i,rs.drop (i + 1),?_,fun r' => ?_,?_⟩
  · rw [← hr,List.getElem_cons_drop,List.take_append_drop]
  · rw [List.set_eq_take_append_cons_drop,if_pos hi]
  · exact List.eraseIdx_eq_take_drop_succ rs i

theorem filter_other (h : rs[i]? = some r) (hr : p r = false) :
    (rs.eraseIdx i).filter p = rs.filter p ∧
      ∀ r', p r' = false → (rs.set i r').filter p = rs.filter p := by
  obtain ⟨before,after,hrs,hset,herase⟩ := split_at h
  constructor
  · rw [herase,hrs]
    simp [List.filter_append, hr]
  · intro r' hr'
    rw [hset r',hrs]
    simp [List.filter_append, hr, hr']

/-- There is one request of a kind only. -/
theorem filter_only (h : rs[i]? = some r) (hr : p r = true) {r₀ : Request} (honly : rs.filter p = [r₀]) :
    r₀ = r ∧ (rs.eraseIdx i).filter p = [] ∧ ∀ r', p r' = true → (rs.set i r').filter p = [r'] := by
  obtain ⟨before,after,hrs,hset,herase⟩ := split_at h
  rw [hrs,List.filter_append,List.filter_cons_of_pos hr] at honly
  obtain ⟨hbefore,hafter⟩ : before.filter p = [] ∧ r :: after.filter p = [r₀] := by
    cases hb : before.filter p with
    | nil =>
      rw [hb,List.nil_append] at honly
      exact ⟨rfl,honly⟩
    | cons b bs =>
      rw [hb,List.cons_append] at honly
      simp at honly
  obtain ⟨rfl,hnil⟩ := List.cons.inj hafter
  refine ⟨rfl,?_,fun r' hr' => ?_⟩
  · rw [herase,List.filter_append,hbefore,hnil]
    rfl
  · rw [hset r',List.filter_append,List.filter_cons_of_pos hr',hbefore,hnil]
    rfl

end Requests

/-- Of the search that was submitted last. -/
def isCurrent (s : State) (r : Request) : Bool := decide (r.seq = s.requestSeq)

/-- What is awaited for the search that was submitted last: nothing, its first page, or one
more page of what is shown. -/
inductive Awaited (fts : TextSearch) (s : State) : List Request → Prop
  | nothing (loading : s.isLoading = false) : Awaited fts s []
  | first {r : Request} (first : r.more = false) (loading : s.isLoading = true) (cursor : r.cursor = [])
      (hits : ∀ response, r.response = some (.ok response) → HitsAfter r.always r.ever none response)
      (tracked : r.response ≠ none →
        r.always ⊆ wanted fts s.table r.search ∧ wanted fts s.table r.search ⊆ r.ever) :
      Awaited fts s [r]
  | more {r : Request} {c : Key} (more : r.more = true) (loading : s.isLoading = false)
      (loadingMore : s.isLoadingMore = true) (shown : s.shown = some r.search)
      (cursor : r.cursor = s.cursor) (continues : Continues s.cursor (some c))
      (hits : ∀ response, r.response = some (.ok response) →
        HitsAfter s.always s.ever (some c) response) :
      Awaited fts s [r]

structure Consistent (fts : TextSearch) (s : State) : Prop where
  bounded : ∀ r ∈ s.requests, r.seq ≤ s.requestSeq
  awaited : Awaited fts s (s.requests.filter (isCurrent s))
  hits : s.shown ≠ none → HitsAfter s.always s.ever none ⟨s.hits,s.cursor,s.hasMore⟩
  tracked : ∀ search, s.shown = some search →
    s.always ⊆ wanted fts s.table search ∧ wanted fts s.table search ⊆ s.ever
  empty : s.shown = none → s.hasMore = false

theorem consistent_start {channelId : ChannelID} {serverId : ServerID} {table : Table} :
    Consistent fts (start channelId serverId table) where
  bounded := nofun
  awaited := .nothing rfl
  hits h := absurd rfl h
  tracked := nofun
  empty _ := rfl

theorem Awaited.congr (h : Awaited fts s rs) (hloading : t.isLoading = s.isLoading)
    (hmore : t.isLoadingMore = s.isLoadingMore) (hshown : t.shown = s.shown)
    (hcursor : t.cursor = s.cursor) (htable : t.table = s.table) (halways : t.always = s.always)
    (hever : t.ever = s.ever) : Awaited fts t rs := by
  cases h with
  | nothing loading => exact .nothing (hloading.trans loading)
  | first first loading cursor hits tracked =>
    exact .first first (hloading.trans loading) cursor hits (by rwa [htable])
  | more more loading loadingMore shown cursor continues hits =>
    exact .more more (hloading.trans loading) (hmore.trans loadingMore) (hshown.trans shown)
      (cursor.trans hcursor.symm) (by rwa [hcursor]) (by rwa [halways,hever])

/-! ## The steps -/

/-- The inputs make no difference to what is awaited. -/
theorem Consistent.congr (h : Consistent fts s) (hrequests : t.requests = s.requests)
    (hseq : t.requestSeq = s.requestSeq) (hloading : t.isLoading = s.isLoading)
    (hmore : t.isLoadingMore = s.isLoadingMore) (hshown : t.shown = s.shown) (hhits : t.hits = s.hits)
    (hcursor : t.cursor = s.cursor) (hhasMore : t.hasMore = s.hasMore) (htable : t.table = s.table)
    (halways : t.always = s.always) (hever : t.ever = s.ever) : Consistent fts t where
  bounded := by
    rw [hrequests,hseq]
    exact h.bounded
  awaited := by
    have hcurrent : isCurrent t = isCurrent s := by
      funext r
      rw [isCurrent,isCurrent,hseq]
    rw [hrequests,hcurrent]
    exact h.awaited.congr hloading hmore hshown hcursor htable halways hever
  hits := by
    rw [hshown,halways,hever,hhits,hcursor,hhasMore]
    exact h.hits
  tracked := by
    rw [hshown,halways,hever,htable]
    exact h.tracked
  empty := by
    rw [hshown,hhasMore]
    exact h.empty

theorem Consistent.submit (h : Consistent fts s) : Consistent fts s.submit := by
  unfold State.submit
  split
  · exact h
  · have hnone : s.requests.filter (fun r => decide (r.seq = s.requestSeq + 1)) = [] := by
      rw [List.filter_eq_nil_iff]
      intro r hr
      have hle := h.bounded r hr
      simp only [decide_eq_true_eq]
      omega
    refine ⟨fun r hr => ?_,?_,h.hits,h.tracked,h.empty⟩
    · rcases List.mem_append.mp hr with hr | hr
      · exact Nat.le_succ_of_le (h.bounded r hr)
      · rw [List.mem_singleton.mp hr]
    · rw [List.filter_append]
      change Awaited fts _ (s.requests.filter (fun r => decide (r.seq = s.requestSeq + 1)) ++ _)
      rw [hnone,List.nil_append,List.filter_cons_of_pos (by simp [isCurrent])]
      exact .first rfl rfl rfl (by simp) (fun hne => absurd rfl hne)

theorem continues_of_hasMore {always ever : Set Key} {hits : List Key} {cursor : Bytes}
    (h : HitsAfter always ever none ⟨hits,cursor,true⟩) : ∃ c, Continues cursor (some c) := by
  obtain ⟨next,-,hsome,hcontinues⟩ := h
  obtain ⟨c,rfl⟩ := Option.isSome_iff_exists.mp hsome.symm
  exact ⟨c,hcontinues⟩

/-- Nothing else is awaited when a page is requested. -/
theorem Consistent.loadMore (h : Consistent fts s)
    (hu : s.sendsMore = true → s.isLoading = false ∧ s.shown = some s.search) :
    Consistent fts s.loadMore := by
  unfold State.loadMore
  split
  · exact h
  · rename_i hsends
    have hsends' : s.sendsMore = true := by simpa using hsends
    obtain ⟨hloading,hshown⟩ := hu hsends'
    simp only [State.sendsMore, Bool.and_eq_true, Bool.not_eq_true'] at hsends'
    obtain ⟨⟨⟨-,hidle⟩,hhasMore⟩,-⟩ := hsends'
    have hnone : s.requests.filter (isCurrent s) = [] := by
      cases hrs : s.requests.filter (isCurrent s) with
      | nil => rfl
      | cons r rs =>
        have hawaited := h.awaited
        rw [hrs] at hawaited
        cases hawaited with
        | first _ loading => rw [hloading] at loading; cases loading
        | more _ _ loadingMore => rw [hidle] at loadingMore; cases loadingMore
    have hpage := h.hits (by rw [hshown]; exact Option.some_ne_none _)
    rw [hhasMore] at hpage
    obtain ⟨c,hc⟩ := continues_of_hasMore hpage
    refine ⟨fun r hr => ?_,?_,h.hits,h.tracked,h.empty⟩
    · rcases List.mem_append.mp hr with hr | hr
      · exact h.bounded r hr
      · rw [List.mem_singleton.mp hr]
    · rw [List.filter_append]
      change Awaited fts _ (s.requests.filter (isCurrent s) ++ _)
      rw [hnone,List.nil_append,List.filter_cons_of_pos (by simp [isCurrent])]
      exact .more rfl hloading rfl hshown rfl hc (by simp)

theorem Consistent.setChannel (h : Consistent fts s) (channelId : ChannelID)
    (hu : s.scope = .channel → ∀ r ∈ s.requests, r.seq ≠ s.requestSeq) :
    Consistent fts (s.setChannel channelId) := by
  unfold State.setChannel
  dsimp only
  split
  · exact h.congr rfl rfl rfl rfl rfl rfl rfl rfl rfl rfl rfl
  · rename_i hscope
    have hnone : s.requests.filter (isCurrent s) = [] := by
      rw [List.filter_eq_nil_iff]
      intro r hr
      simpa [isCurrent] using hu (not_not.mp hscope) r hr
    have hawaited := h.awaited
    rw [hnone] at hawaited
    refine ⟨h.bounded,?_,fun hne => absurd rfl hne,nofun,fun _ => rfl⟩
    change Awaited fts _ (s.requests.filter (isCurrent s))
    rw [hnone]
    cases hawaited with
    | nothing loading => exact .nothing loading

theorem Consistent.change (h : Consistent fts s) (table : Table) : Consistent fts (s.change fts table) := by
  have halways : (s.change fts table).always ⊆ s.always := fun k hk => hk.1
  have hever : s.ever ⊆ (s.change fts table).ever := fun k hk => Or.inl hk
  constructor
  · intro r hr
    obtain ⟨r',hr',rfl⟩ := List.mem_map.mp hr
    exact h.bounded r' hr'
  · have hfilter : (s.requests.map (Request.change fts table)).filter (isCurrent (s.change fts table)) =
        (s.requests.filter (isCurrent s)).map (Request.change fts table) := by
      rw [List.filter_map]
      rfl
    change Awaited fts _ ((s.requests.map (Request.change fts table)).filter _)
    rw [hfilter]
    have hawaited := h.awaited
    revert hawaited
    generalize s.requests.filter (isCurrent s) = rs
    intro hawaited
    cases hawaited with
    | nothing loading => exact .nothing loading
    | first first loading cursor hits tracked =>
      refine .first first loading cursor (fun response hr => ?_) (fun hne => ?_)
      · exact (hits response hr).mono (fun k hk => hk.1) (fun k hk => Or.inl hk)
      · exact ⟨fun k hk => hk.2,fun k hk => Or.inr hk⟩
    | more more loading loadingMore shown cursor continues hits =>
      exact .more more loading loadingMore shown cursor continues
        (fun response hr => (hits response hr).mono halways hever)
  · intro hne
    exact (h.hits hne).mono halways hever
  · intro search hsearch
    exact ⟨fun k hk => hk.2 search hsearch,fun k hk => Or.inr ⟨search,hsearch,hk⟩⟩
  · exact h.empty

/-- The hub's answer is a page of what is wanted at the moment. -/
theorem Consistent.answer (h : Consistent fts s) {access : Option Bool} {fails : Bool}
    (hr : s.requests[i]? = some r) :
    Consistent fts { s with requests := s.requests.set i (r.answer fts s.table access fails) } := by
  have hmem : r ∈ s.requests := List.mem_of_getElem? hr
  refine ⟨fun r' hr' => ?_,?_,h.hits,h.tracked,h.empty⟩
  · rcases List.mem_or_eq_of_mem_set hr' with hr' | rfl
    · exact h.bounded r' hr'
    · exact h.bounded r hmem
  have hawaited := h.awaited
  have hkept : isCurrent s (r.answer fts s.table access fails) = isCurrent s r := rfl
  change Awaited fts _ ((s.requests.set i (r.answer fts s.table access fails)).filter (isCurrent s))
  cases hcurrent : isCurrent s r with
  | false =>
    rw [(filter_other hr hcurrent).2 _ (hkept.trans hcurrent)]
    exact hawaited.congr rfl rfl rfl rfl rfl rfl rfl
  | true =>
    have hanswered : ∀ after response, Continues r.cursor after →
        (r.answer fts s.table access fails).response = some (.ok response) →
        HitsAfter (wanted fts s.table r.search) (wanted fts s.table r.search) after response :=
      fun _ _ hc hok => answered hc (Option.some.inj hok)
    revert hawaited
    generalize hrs : s.requests.filter (isCurrent s) = rs
    intro hawaited
    cases hawaited with
    | nothing =>
      have hmem' : r ∈ s.requests.filter (isCurrent s) := List.mem_filter.mpr ⟨hmem,hcurrent⟩
      rw [hrs] at hmem'
      cases hmem'
    | first first loading cursor _ _ =>
      obtain ⟨rfl,-,hset⟩ := filter_only hr hcurrent hrs
      rw [hset _ (hkept.trans hcurrent)]
      refine .first first loading cursor (fun response hok => ?_) (fun _ => ⟨subset_rfl,subset_rfl⟩)
      exact hanswered none response (by rw [cursor]; exact continues_nil) hok
    | more more loading loadingMore shown cursor continues _ =>
      obtain ⟨rfl,-,hset⟩ := filter_only hr hcurrent hrs
      rw [hset _ (hkept.trans hcurrent)]
      refine .more more loading loadingMore shown cursor continues (fun response hok => ?_)
      obtain ⟨halways,hever⟩ := h.tracked _ shown
      exact (hanswered _ response (by rw [cursor]; exact continues) hok).mono halways hever

/-- The state without a request that is settled now. -/
abbrev State.without (s : State) (i : ℕ) : State := { s with requests := s.requests.eraseIdx i }

theorem mem_eraseIdx {r : Request} (h : r ∈ s.requests.eraseIdx i) : r ∈ s.requests :=
  (List.eraseIdx_sublist s.requests i).mem h

/-- A response to an older search changes nothing. -/
theorem Consistent.overtaken (h : Consistent fts s) (hr : s.requests[i]? = some r)
    (hold : isCurrent s r = false) : Consistent fts (s.without i) := by
  refine ⟨fun r' hr' => h.bounded r' (mem_eraseIdx hr'),?_,h.hits,h.tracked,h.empty⟩
  change Awaited fts _ ((s.requests.eraseIdx i).filter (isCurrent s))
  rw [(filter_other hr hold).1]
  exact h.awaited.congr rfl rfl rfl rfl rfl rfl rfl

/-- The hits of a first page replace all others; those of one more page follow them. -/
theorem Consistent.resolve (h : Consistent fts s) (hr : s.requests[i]? = some r)
    {response : WsSearchMessagesResponse} (hok : r.response = some (.ok response)) :
    Consistent fts ((s.without i).resolve r response) := by
  unfold State.resolve
  split
  · rename_i hne
    exact h.overtaken hr (decide_eq_false hne)
  rename_i hseq
  have hcurrent : isCurrent s r = true := decide_eq_true (not_not.mp hseq)
  have hbounded : ∀ r ∈ s.requests.eraseIdx i, r.seq ≤ s.requestSeq := fun r' hr' =>
    h.bounded r' (mem_eraseIdx hr')
  have hawaited := h.awaited
  revert hawaited
  generalize hrs : s.requests.filter (isCurrent s) = rs
  intro hawaited
  cases hawaited with
  | nothing =>
    have hmem : r ∈ s.requests.filter (isCurrent s) :=
      List.mem_filter.mpr ⟨List.mem_of_getElem? hr,hcurrent⟩
    rw [hrs] at hmem
    cases hmem
  | first first _ _ hits tracked =>
    obtain ⟨rfl,hnil,-⟩ := filter_only hr hcurrent hrs
    rw [if_neg (by simp [first]),State.settle,if_neg (by simp [first])]
    refine ⟨hbounded,?_,fun _ => hits response hok,fun search hsearch => ?_,fun hnone => by cases hnone⟩
    · change Awaited fts _ ((s.requests.eraseIdx i).filter (isCurrent s))
      rw [hnil]
      exact .nothing rfl
    · obtain rfl := Option.some.inj hsearch
      exact tracked (by rw [hok]; exact Option.some_ne_none _)
  | more more loading _ shown _ continues hits =>
    obtain ⟨rfl,hnil,-⟩ := filter_only hr hcurrent hrs
    rw [if_pos more,State.settle,if_pos more]
    refine ⟨hbounded,?_,fun _ => ?_,h.tracked,fun hnone => ?_⟩
    · change Awaited fts _ ((s.requests.eraseIdx i).filter (isCurrent s))
      rw [hnil]
      exact .nothing loading
    · obtain ⟨next,hfound,-,hcursor⟩ := h.hits (by rw [shown]; exact Option.some_ne_none _)
      obtain rfl : next = some _ := Option.some.inj (hcursor.symm.trans continues)
      obtain ⟨next',hmore,hsome,hcontinues⟩ := hits response hok
      exact ⟨next',hfound.append hmore,hsome,hcontinues⟩
    · cases shown.symm.trans hnone

theorem Consistent.reject (h : Consistent fts s) (hr : s.requests[i]? = some r) (message : String) :
    Consistent fts ((s.without i).reject r message) := by
  unfold State.reject
  split
  · rename_i hne
    exact h.overtaken hr (decide_eq_false hne)
  rename_i hseq
  have hcurrent : isCurrent s r = true := decide_eq_true (not_not.mp hseq)
  have hbounded : ∀ r ∈ s.requests.eraseIdx i, r.seq ≤ s.requestSeq := fun r' hr' =>
    h.bounded r' (mem_eraseIdx hr')
  have hawaited := h.awaited
  revert hawaited
  generalize hrs : s.requests.filter (isCurrent s) = rs
  intro hawaited
  cases hawaited with
  | nothing =>
    have hmem : r ∈ s.requests.filter (isCurrent s) :=
      List.mem_filter.mpr ⟨List.mem_of_getElem? hr,hcurrent⟩
    rw [hrs] at hmem
    cases hmem
  | first first =>
    obtain ⟨rfl,hnil,-⟩ := filter_only hr hcurrent hrs
    rw [State.settle,if_neg (by simp [first])]
    refine ⟨hbounded,?_,h.hits,h.tracked,h.empty⟩
    change Awaited fts _ ((s.requests.eraseIdx i).filter (isCurrent s))
    rw [hnil]
    exact .nothing rfl
  | more more loading =>
    obtain ⟨rfl,hnil,-⟩ := filter_only hr hcurrent hrs
    rw [State.settle,if_pos more]
    refine ⟨hbounded,?_,h.hits,h.tracked,h.empty⟩
    change Awaited fts _ ((s.requests.eraseIdx i).filter (isCurrent s))
    rw [hnil]
    exact .nothing loading

theorem step_consistent (h : Consistent fts s) (hu : Undisturbed s e) (he : step fts s e = some s') :
    Consistent fts s' := by
  cases e with
  | setQuery query =>
    obtain rfl := Option.some.inj he
    exact h.congr rfl rfl rfl rfl rfl rfl rfl rfl rfl rfl rfl
  | setScope scope =>
    obtain rfl := Option.some.inj he
    exact h.congr rfl rfl rfl rfl rfl rfl rfl rfl rfl rfl rfl
  | setFilters filters =>
    obtain rfl := Option.some.inj he
    exact h.congr rfl rfl rfl rfl rfl rfl rfl rfl rfl rfl rfl
  | setChannel channelId =>
    obtain rfl := Option.some.inj he
    exact h.setChannel channelId hu
  | setServer serverId =>
    obtain rfl := Option.some.inj he
    exact h.congr rfl rfl rfl rfl rfl rfl rfl rfl rfl rfl rfl
  | setConnected isConnected =>
    obtain rfl := Option.some.inj he
    exact h.congr rfl rfl rfl rfl rfl rfl rfl rfl rfl rfl rfl
  | submit =>
    obtain rfl := Option.some.inj he
    exact h.submit
  | loadMore =>
    obtain rfl := Option.some.inj he
    exact h.loadMore hu
  | change table =>
    obtain rfl := Option.some.inj he
    exact h.change table
  | answer i access fails =>
    simp only [step] at he
    split at he
    · cases he
    · rename_i r hr
      split at he
      · cases he
      · obtain rfl := Option.some.inj he
        exact h.answer hr
  | response i =>
    simp only [step] at he
    split at he
    · cases he
    · rename_i r hr
      obtain ⟨outcome,houtcome,rfl⟩ := Option.map_eq_some_iff.mp he
      cases outcome with
      | ok response => exact h.resolve hr houtcome
      | error message => exact h.reject hr message
  | failed i message =>
    simp only [step] at he
    split at he
    · cases he
    · rename_i r hr
      obtain rfl := Option.some.inj he
      exact h.reject hr message

/-- However the messages change and the responses come, the hits that are shown are in order and
without repetition, each of them was wanted at some moment since the first page was read, and a
message that was wanted all the time is among them unless there is more to load after them. -/
theorem hits_shown {channelId : ChannelID} {serverId : ServerID} {table : Table}
    (h : RunsWhen (step fts) Undisturbed (start channelId serverId table) es s)
    (hshown : s.shown ≠ none) :
    s.hits.Pairwise (· > ·) ∧ (∀ k ∈ s.hits, k ∈ s.ever) ∧
      ∀ k ∈ s.always, k ∉ s.hits → s.hasMore = true ∧ ∀ k' ∈ s.hits, k < k' := by
  have hinv : Consistent fts s := h.invariant consistent_start step_consistent
  obtain ⟨next,hfound,hmore,-⟩ := hinv.hits hshown
  refine ⟨hfound.sorted,hfound.held,fun k hk hmissing => ?_⟩
  cases next with
  | none => exact absurd (hfound.fills k hk (past_none k) nofun) hmissing
  | some c =>
    have hck : c > k := by
      by_contra hle
      refine hmissing (hfound.fills k hk (past_none k) (fun c' hc' => ?_))
      rw [← Option.some.inj hc']
      exact hle
    refine ⟨hmore,fun k' hk' => ?_⟩
    rcases hfound.last c rfl k' hk' with rfl | hlt
    · exact hck
    · exact lt_trans hck hlt

instance (s : State) (e : Event) : Decidable (Undisturbed s e) := by
  cases e <;> unfold Undisturbed <;> infer_instance

/-- So many messages, one in each nanosecond, all in channel 1. -/
def numbered (n : ℕ) (h : n < 100) : Table where
  rows := (List.range n).map (fun i : ℕ => toLex ((i : ℤ) + 1,(i : ℤ) + 1))
  message _ := ⟨1,some 1,[],false,false⟩
  channel _ := ⟨some 1,.text⟩
  sorted := by
    refine List.pairwise_map.mpr (List.pairwise_lt_range.imp (fun {a b} hab => ?_))
    exact Prod.Lex.toLex_lt_toLex.mpr (Or.inl (by simpa using hab))
  sendable k hk := by
    obtain ⟨i,hi,rfl⟩ := List.mem_map.mp hk
    have hlt : i < 100 := lt_trans (List.mem_range.mp hi) h
    have hzero : Rfc3339.Timestamp.zero.nanos < 0 := by decide +kernel
    have hyear : 100 + Rfc3339.epoch < Calendar.yearTenThousand := by decide +kernel
    refine ⟨⟨⟨?_,?_⟩,?_,?_⟩,by decide,by decide⟩
    · change (0 : ℤ) < (i : ℤ) + 1
      omega
    · change (i : ℤ) + 1 < 2 ^ 63
      omega
    · change Rfc3339.Timestamp.zero.nanos < (i : ℤ) + 1
      omega
    · change (i : ℤ) + 1 + Rfc3339.epoch < Calendar.yearTenThousand
      omega

/-- Four messages are sent before the second page is read. -/
def twoPages : List Event :=
  [.setQuery ['h','i'], .submit, .answer 0 (some true) false, .response 0,
    .change (numbered 30 (by decide)), .loadMore, .answer 0 (some true) false, .response 0]

theorem hits_shown_twoPages :
    let s := after (step (fun _ _ => true)) (start 1 1 (numbered 26 (by decide))) twoPages
    s.hits.length = 26 ∧ s.hits.Pairwise (· > ·) ∧ (∀ k ∈ s.hits, k ∈ s.ever) ∧
      ∀ k ∈ s.always, k ∉ s.hits → s.hasMore = true ∧ ∀ k' ∈ s.hits, k < k' := by
  intro s
  have hrun : RunsWhen (step (fun _ _ => true)) Undisturbed (start 1 1 (numbered 26 (by decide)))
      twoPages s := runsWhen_after (by decide +kernel)
  have hend : s.hits.length = 26 ∧ s.shown ≠ none := by decide +kernel
  exact ⟨hend.1,hits_shown hrun hend.2⟩

/-! ## A page that was overtaken -/

theorem State.requests_settle (r : Request) : (s.settle r).requests = s.requests ∧
    (s.settle r).requestSeq = s.requestSeq ∧
    ((s.settle r).isLoadingMore = s.isLoadingMore ∨ r.more = true) := by
  unfold settle
  split
  · rename_i hmore
    exact ⟨rfl,rfl,Or.inr hmore⟩
  · exact ⟨rfl,rfl,Or.inl rfl⟩

/-- Only the response to a page of the search that was submitted last ends the waiting. -/
theorem State.requests_settled (r : Request) (outcome : Except String WsSearchMessagesResponse) :
    (s.settled r outcome).requests = s.requests ∧ (s.settled r outcome).requestSeq = s.requestSeq ∧
      ((s.settled r outcome).isLoadingMore = s.isLoadingMore ∨ r.more = true ∧ r.seq = s.requestSeq) := by
  have hsettle : ∀ t : State, t.requests = s.requests → t.requestSeq = s.requestSeq →
      t.isLoadingMore = s.isLoadingMore → r.seq = s.requestSeq →
      (t.settle r).requests = s.requests ∧ (t.settle r).requestSeq = s.requestSeq ∧
        ((t.settle r).isLoadingMore = s.isLoadingMore ∨ r.more = true ∧ r.seq = s.requestSeq) := by
    intro t hrequests hseq hmore hr
    obtain ⟨h₁,h₂,h₃⟩ := requests_settle (s := t) r
    exact ⟨h₁.trans hrequests,h₂.trans hseq,h₃.imp (fun h => h.trans hmore) (fun h => ⟨h,hr⟩)⟩
  cases outcome with
  | ok response =>
    change (s.resolve r response).requests = _ ∧ (s.resolve r response).requestSeq = _ ∧
      ((s.resolve r response).isLoadingMore = _ ∨ _)
    unfold resolve
    split
    · exact ⟨rfl,rfl,Or.inl rfl⟩
    · rename_i hseq
      split <;> exact hsettle _ rfl rfl rfl (not_not.mp hseq)
  | error message =>
    change (s.reject r message).requests = _ ∧ (s.reject r message).requestSeq = _ ∧
      ((s.reject r message).isLoadingMore = _ ∨ _)
    unfold reject
    split
    · exact ⟨rfl,rfl,Or.inl rfl⟩
    · rename_i hseq
      exact hsettle _ rfl rfl rfl (not_not.mp hseq)

/-- A request was there before, or is one of the search that was submitted last. -/
def From (s s' : State) (r' : Request) : Prop :=
  (∃ r ∈ s.requests, r'.seq = r.seq ∧ r'.more = r.more) ∨
    r'.seq = s'.requestSeq ∧ (r'.more = true → s.isLoadingMore = false)

theorem from_of_mem (h : r ∈ s.requests) : From s s' r := Or.inl ⟨r,h,rfl,rfl⟩

/-- What a step does to the requests, and when it ends the waiting for a page. -/
theorem step_requests (he : step fts s e = some s') : s.requestSeq ≤ s'.requestSeq ∧
    (∀ r' ∈ s'.requests, From s s' r') ∧
    (s.isLoadingMore = true → s'.isLoadingMore = true ∨
      ∃ r ∈ s.requests, r.more = true ∧ r.seq = s.requestSeq) := by
  have hsettled : ∀ (i : ℕ) (r : Request) outcome, r ∈ s.requests →
      s.requestSeq ≤ ((s.without i).settled r outcome).requestSeq ∧
      (∀ r' ∈ ((s.without i).settled r outcome).requests,
        From s ((s.without i).settled r outcome) r') ∧
      (s.isLoadingMore = true → ((s.without i).settled r outcome).isLoadingMore = true ∨
        ∃ r ∈ s.requests, r.more = true ∧ r.seq = s.requestSeq) := by
    intro i r outcome hr
    obtain ⟨hrequests,hseq,hmore⟩ := State.requests_settled (s := s.without i) r outcome
    refine ⟨hseq.ge,fun r' hr' => ?_,fun hwaits => ?_⟩
    · rw [hrequests] at hr'
      exact from_of_mem (mem_eraseIdx hr')
    · rcases hmore with hmore | ⟨hmore,hcurrent⟩
      · exact Or.inl (hmore.trans hwaits)
      · exact Or.inr ⟨r,hr,hmore,hcurrent⟩
  cases e with
  | setChannel channelId =>
    obtain rfl := Option.some.inj he
    unfold State.setChannel
    dsimp only
    split <;> exact ⟨le_rfl,fun r' hr' => from_of_mem hr',Or.inl⟩
  | submit =>
    obtain rfl := Option.some.inj he
    unfold State.submit
    split
    · exact ⟨le_rfl,fun r' hr' => from_of_mem hr',Or.inl⟩
    · refine ⟨Nat.le_succ _,fun r' hr' => ?_,Or.inl⟩
      rcases List.mem_append.mp hr' with hr' | hr'
      · exact from_of_mem hr'
      · rw [List.mem_singleton.mp hr']
        exact Or.inr ⟨rfl,fun hmore => by cases hmore⟩
  | loadMore =>
    obtain rfl := Option.some.inj he
    unfold State.loadMore
    split
    · exact ⟨le_rfl,fun r' hr' => from_of_mem hr',Or.inl⟩
    · rename_i hsends
      refine ⟨le_rfl,fun r' hr' => ?_,fun _ => Or.inl rfl⟩
      rcases List.mem_append.mp hr' with hr' | hr'
      · exact from_of_mem hr'
      · rw [List.mem_singleton.mp hr']
        simp only [State.sendsMore, Bool.not_eq_false, Bool.and_eq_true, Bool.not_eq_true'] at hsends
        exact Or.inr ⟨rfl,fun _ => hsends.1.1.2⟩
  | change table =>
    obtain rfl := Option.some.inj he
    refine ⟨le_rfl,fun r' hr' => ?_,Or.inl⟩
    obtain ⟨r,hr,rfl⟩ := List.mem_map.mp hr'
    exact Or.inl ⟨r,hr,rfl,rfl⟩
  | answer i access fails =>
    simp only [step] at he
    split at he
    · cases he
    · rename_i r hr
      split at he
      · cases he
      · obtain rfl := Option.some.inj he
        refine ⟨le_rfl,fun r' hr' => ?_,Or.inl⟩
        rcases List.mem_or_eq_of_mem_set hr' with hr' | rfl
        · exact from_of_mem hr'
        · exact Or.inl ⟨r,List.mem_of_getElem? hr,rfl,rfl⟩
  | response i =>
    simp only [step] at he
    split at he
    · cases he
    · rename_i r hr
      obtain ⟨outcome,-,rfl⟩ := Option.map_eq_some_iff.mp he
      exact hsettled i r outcome (List.mem_of_getElem? hr)
  | failed i message =>
    simp only [step] at he
    split at he
    · cases he
    · rename_i r hr
      obtain rfl := Option.some.inj he
      exact hsettled i r (.error message) (List.mem_of_getElem? hr)
  | _ =>
    obtain rfl := Option.some.inj he
    exact ⟨le_rfl,fun r' hr' => from_of_mem hr',Or.inl⟩

theorem step_bounded (h : ∀ r ∈ s.requests, r.seq ≤ s.requestSeq) (he : step fts s e = some s') :
    ∀ r ∈ s'.requests, r.seq ≤ s'.requestSeq := by
  obtain ⟨hle,hfrom,-⟩ := step_requests he
  intro r' hr'
  rcases hfrom r' hr' with ⟨r,hr,hseq,-⟩ | ⟨hseq,-⟩
  · rw [hseq]
    exact (h r hr).trans hle
  · exact hseq.le

/-- A page was requested, and another search was submitted before its response came. -/
structure Overtaken (s : State) : Prop where
  loadingMore : s.isLoadingMore = true
  old : ∀ r ∈ s.requests, r.more = true → r.seq < s.requestSeq

theorem step_overtaken (h : Overtaken s) (he : step fts s e = some s') : Overtaken s' := by
  obtain ⟨hle,hfrom,hwaits⟩ := step_requests he
  constructor
  · refine (hwaits h.loadingMore).resolve_right ?_
    rintro ⟨r,hr,hmore,hseq⟩
    exact absurd hseq (Nat.ne_of_lt (h.old r hr hmore))
  · intro r' hr' hmore'
    rcases hfrom r' hr' with ⟨r,hr,hseq,hmore⟩ | ⟨-,hidle⟩
    · rw [hseq]
      exact (h.old r hr (hmore.symm.trans hmore')).trans_le hle
    · exact absurd (h.loadingMore.symm.trans (hidle hmore')) (by simp)

/-- After a search was submitted while a page was awaited, the panel waits for that page for
ever and requests no other, whatever it finds. -/
theorem never_loads_more {channelId : ChannelID} {serverId : ServerID} {table : Table}
    (h : Runs (step fts) (start channelId serverId table) es s) (hmore : s.isLoadingMore = true)
    (hsubmit : s.canSearch = true) (hafter : Runs (step fts) s.submit fs t) :
    t.isLoadingMore = true ∧ t.loadMore = t ∧
      ∀ r ∈ t.requests, r.more = true → r.seq < t.requestSeq := by
  have hbounded : ∀ r ∈ s.requests, r.seq ≤ s.requestSeq :=
    h.invariant (P := fun s => ∀ r ∈ s.requests, r.seq ≤ s.requestSeq) (by simp [start])
      (fun hs _ he => step_bounded hs he)
  have hstart : Overtaken s.submit := by
    unfold State.submit
    rw [if_neg (by simp [hsubmit])]
    refine ⟨hmore,fun r hr hmore => ?_⟩
    rcases List.mem_append.mp hr with hr | hr
    · exact Nat.lt_succ_of_le (hbounded r hr)
    · rw [List.mem_singleton.mp hr] at hmore
      cases hmore
  have hend : Overtaken t := hafter.invariant hstart (fun hs _ he => step_overtaken hs he)
  refine ⟨hend.loadingMore,?_,hend.old⟩
  unfold State.loadMore State.sendsMore
  rw [hend.loadingMore]
  simp

/-- The second search finds more than a page, too. -/
def secondSearch : List Event :=
  [.answer 0 (some true) false, .answer 1 (some true) false, .response 0, .response 0]

theorem never_loads_more_secondSearch :
    let search := step (fun _ _ => true)
    let s := after search (start 1 1 (numbered 30 (by decide)))
      [.setQuery ['h','i'], .submit, .answer 0 (some true) false, .response 0, .loadMore]
    let t := after search s.submit secondSearch
    t.hasMore = true ∧ t.requests.length = 0 ∧ t.isLoadingMore = true ∧ t.loadMore = t ∧
      ∀ r ∈ t.requests, r.more = true → r.seq < t.requestSeq := by
  intro search s t
  have hwaits : s.isLoadingMore = true ∧ s.canSearch = true := by decide +kernel
  have hfound : t.hasMore = true ∧ t.requests.length = 0 := by decide +kernel
  have hafter : Runs search s.submit secondSearch t := runs_after (by decide +kernel)
  exact ⟨hfound.1,hfound.2,never_loads_more (runs_after (by decide +kernel)) hwaits.1 hwaits.2 hafter⟩

end MiniDiscord.MessageSearch
