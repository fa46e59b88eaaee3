import Mathlib.Data.Prod.Lex
import Mathlib.Data.List.Sort
import MiniDiscord.Commands.Types
import MiniDiscord.Paging.Spans

/-! # Pages of a channel's history

The rows of a channel in the order `(created_at, id)`, and the three queries for a page.
The texts of the messages play no part here.
-/
namespace MiniDiscord.MessageHistory
open ChatHub SfuTrack Paging

/-- `(created_at, id)` of a message. -/
abbrev Key := Time ×ₗ MessageID

instance : LawfulBEq Key := inferInstance

def Key.id (k : Key) : MessageID := (ofLex k).2

/-- What a page request is answered with; a field that the response lacks is empty. -/
structure Page where
  messages : List Key := []
  nextCursor : Option Key := none
  hasMore : Bool := false
  olderCursor : Option Key := none
  newerCursor : Option Key := none
  hasMoreOlder : Bool := false
  hasMoreNewer : Bool := false
  deriving DecidableEq

/-- The bounds that the storage puts on a limit. -/
def clampLimit (limit default most : ℕ) : ℕ :=
  if limit = 0 then default else if most < limit then most else limit

/-- The rows of a query with `LIMIT limit + 1`, cut to the limit, and whether there were more. -/
def limited (rows : List Key) (limit : ℕ) : List Key × Bool :=
  let rows := rows.take (limit + 1)
  if limit < rows.length then (rows.take limit,true) else (rows,false)

/-- The rows of a channel are given in ascending order; this query goes backward. -/
def getMessages (stored : List Key) (limit : ℕ) (cursor : Option Key) : Page :=
  let limit := clampLimit limit 50 100
  let rows := (stored.filter (fun k => cursor.all (fun c => decide (k < c)))).reverse
  let (messages,hasMore) := limited rows limit
  { messages := messages.reverse
    nextCursor := if hasMore = true then messages.getLast? else none
    hasMore := hasMore }

def getMessagesAfter (stored : List Key) (limit : ℕ) (cursor : Key) : Page :=
  let limit := clampLimit limit 50 100
  let rows := stored.filter (fun k => decide (cursor < k))
  let (messages,hasMore) := limited rows limit
  { messages := messages
    nextCursor := if hasMore = true then messages.getLast? else none
    hasMore := hasMore }

/-- `none` when there is no such message in the channel. -/
def getMessagesAround (stored : List Key) (messageID : MessageID) (limit : ℕ) : Option Page :=
  let limit := clampLimit limit 25 50
  match stored.find? (fun k => decide (k.id = messageID)) with
  | none => none
  | some anchor =>
    let (older,hasMoreOlder) := limited (stored.filter (fun k => decide (k ≤ anchor))).reverse limit
    let (newer,hasMoreNewer) := limited (stored.filter (fun k => decide (anchor < k))) limit
    let messages := older.reverse ++ newer
    some
      { messages := messages
        olderCursor := if hasMoreOlder = true then messages.head? else none
        newerCursor := if hasMoreNewer = true then messages.getLast? else none
        hasMoreOlder := hasMoreOlder
        hasMoreNewer := hasMoreNewer }

theorem clampLimit_pos {limit default most : ℕ} (hd : 0 < default) (hm : 0 < most) :
    0 < clampLimit limit default most := by
  unfold clampLimit
  split
  · exact hd
  · split <;> omega

/-! ## What is in the rows that were taken -/

theorem limited_fst (rows : List Key) (limit : ℕ) : (limited rows limit).1 = rows.take limit := by
  unfold limited
  dsimp only
  split
  · rw [List.take_take,Nat.min_eq_left (Nat.le_succ limit)]
  · rename_i h
    rw [List.length_take] at h
    have hle : rows.length ≤ limit := by omega
    rw [List.take_of_length_le hle,List.take_of_length_le (by omega)]

theorem limited_snd (rows : List Key) (limit : ℕ) :
    (limited rows limit).2 = decide (limit < rows.length) := by
  unfold limited
  dsimp only
  rw [List.length_take]
  split <;> simp <;> omega

/-- Without more rows all of them were taken. -/
theorem limited_complete {rows : List Key} {limit : ℕ} (h : (limited rows limit).2 = false) :
    (limited rows limit).1 = rows := by
  rw [limited_snd] at h
  rw [limited_fst]
  exact List.take_of_length_le (not_lt.mp (of_decide_eq_false h))

/-- With more rows there is a last one among those taken. -/
theorem limited_getLast {rows : List Key} {limit : ℕ} (hpos : 0 < limit)
    (h : (limited rows limit).2 = true) : ∃ k, (limited rows limit).1.getLast? = some k := by
  rw [limited_snd] at h
  rw [limited_fst]
  have hlt := of_decide_eq_true h
  cases hk : (rows.take limit).getLast? with
  | some k => exact ⟨k,rfl⟩
  | none =>
    have hnil := List.getLast?_eq_none_iff.mp hk
    have hlen : (rows.take limit).length = 0 := by rw [hnil]; rfl
    rw [List.length_take] at hlen
    omega

/-- The cursor that a query hands on. -/
def nextOf (rows : List Key) (limit : ℕ) : Option Key :=
  if (limited rows limit).2 = true then (limited rows limit).1.getLast? else none

theorem nextOf_isSome (rows : List Key) {limit : ℕ} (hpos : 0 < limit) :
    (limited rows limit).2 = (nextOf rows limit).isSome := by
  unfold nextOf
  cases h : (limited rows limit).2 with
  | false => rfl
  | true =>
    obtain ⟨k,hk⟩ := limited_getLast hpos h
    rw [if_pos rfl,hk]
    rfl

theorem nextOf_getLast {rows : List Key} {limit : ℕ} {c : Key} (h : nextOf rows limit = some c) :
    (limited rows limit).1.getLast? = some c := by
  unfold nextOf at h
  split at h
  · exact h
  · cases h

theorem nextOf_mem {rows : List Key} {limit : ℕ} {c : Key} (h : nextOf rows limit = some c) :
    c ∈ (limited rows limit).1 := List.mem_of_getLast? (nextOf_getLast h)

theorem limited_subset (rows : List Key) (limit : ℕ) : (limited rows limit).1 ⊆ rows := by
  rw [limited_fst]
  exact List.take_subset limit rows

/-- Whatever no cursor cuts off was taken, when the rows are sorted by `r`. -/
theorem mem_limited {r : Key → Key → Prop} {rows : List Key} {limit : ℕ} (hpos : 0 < limit)
    (hr : rows.Pairwise r) {k : Key} (hk : k ∈ rows)
    (hn : ∀ c, nextOf rows limit = some c → ¬ r c k) : k ∈ (limited rows limit).1 := by
  cases hmore : (limited rows limit).2 with
  | false => rwa [limited_complete hmore]
  | true =>
    obtain ⟨c,hc⟩ := limited_getLast hpos hmore
    have hnext : nextOf rows limit = some c := by
      unfold nextOf
      rw [if_pos hmore,hc]
    rw [limited_fst] at hc ⊢
    exact mem_take_of_not_rel hr hk hc (hn c hnext)

theorem nextOf_max {r : Key → Key → Prop} {rows : List Key} {limit : ℕ} (hr : rows.Pairwise r)
    {c k : Key} (hc : nextOf rows limit = some c) (hk : k ∈ (limited rows limit).1) :
    k = c ∨ r k c := by
  have hlast := nextOf_getLast hc
  rw [limited_fst] at hlast hk
  exact getLast?_take_max hr hk hlast

theorem limited_pairwise {r : Key → Key → Prop} {rows : List Key} {limit : ℕ}
    (hr : rows.Pairwise r) : (limited rows limit).1.Pairwise r := by
  rw [limited_fst]
  exact hr.sublist (List.take_sublist limit rows)

section Backward
variable {rows : List Key} {limit : ℕ} (hpos : 0 < limit) (hrows : rows.Pairwise (· > ·))
include hpos hrows

/-- A backward query leaves out only what is before the cursor that it hands on. -/
theorem mem_backward {k : Key} (hk : k ∈ rows) (ha : Above (nextOf rows limit) k) :
    k ∈ (limited rows limit).1.reverse := by
  rw [List.mem_reverse]
  exact mem_limited hpos hrows hk (fun c hc => not_lt.mpr (ha c hc))

omit hpos in
theorem above_backward {k : Key} (hk : k ∈ (limited rows limit).1.reverse) :
    Above (nextOf rows limit) k := by
  intro c hc
  rcases nextOf_max hrows hc (List.mem_reverse.mp hk) with rfl | hlt
  · exact le_refl k
  · exact le_of_lt hlt

omit hpos in
theorem backward_sorted : (limited rows limit).1.reverse.Pairwise (· < ·) :=
  List.pairwise_reverse.mpr (limited_pairwise hrows)

end Backward

/-! ## What the pages are -/

variable {stored : List Key}

theorem reverse_sorted (hs : stored.Pairwise (· < ·)) (p : Key → Bool) :
    (stored.filter p).reverse.Pairwise (· > ·) :=
  List.pairwise_reverse.mpr (hs.sublist List.filter_sublist)

/-- The latest page is a tail of the history, with nothing on its way. -/
theorem getMessages_tail (hs : stored.Pairwise (· < ·)) (limit : ℕ) :
    let page := getMessages stored limit none
    Tail page.nextCursor page.messages [] ∧ Reaches stored page.nextCursor page.messages [] := by
  have hpos : 0 < clampLimit limit 50 100 := clampLimit_pos (by omega) (by omega)
  have hrows := reverse_sorted hs (fun k => (none : Option Key).all (fun c => decide (k < c)))
  refine ⟨⟨?_,?_⟩,?_⟩
  · rw [List.append_nil]
    exact backward_sorted hrows
  · rw [List.append_nil]
    intro k hk
    exact above_backward hrows hk
  · intro k hk ha
    refine Or.inl (mem_backward hpos hrows ?_ ha)
    rw [List.mem_reverse]
    exact List.mem_filter.mpr ⟨hk,rfl⟩

theorem getMessages_hasMore (stored : List Key) (limit : ℕ) (cursor : Option Key) :
    let page := getMessages stored limit cursor
    page.hasMore = page.nextCursor.isSome :=
  nextOf_isSome _ (clampLimit_pos (by omega) (by omega))

/-- A page holds rows before its cursor. -/
theorem getMessages_subset {limit : ℕ} {cursor : Option Key} {k : Key}
    (hk : k ∈ (getMessages stored limit cursor).messages) : k ∈ stored ∧ ∀ c ∈ cursor, k < c := by
  have hmem := List.mem_reverse.mp (limited_subset _ _ (List.mem_reverse.mp hk))
  obtain ⟨hs,hall⟩ := List.mem_filter.mp hmem
  refine ⟨hs,?_⟩
  rintro c rfl
  exact of_decide_eq_true hall

theorem getMessages_next {limit : ℕ} {cursor : Option Key} {c : Key}
    (hc : c ∈ (getMessages stored limit cursor).nextCursor) :
    c ∈ (getMessages stored limit cursor).messages := List.mem_reverse.mpr (nextOf_mem hc)

theorem getMessagesAfter_subset {limit : ℕ} {c k : Key}
    (hk : k ∈ (getMessagesAfter stored limit c).messages) : k ∈ stored ∧ c < k := by
  obtain ⟨hs,hlt⟩ := List.mem_filter.mp (limited_subset _ _ hk)
  exact ⟨hs,of_decide_eq_true hlt⟩

theorem getMessagesAfter_next {limit : ℕ} {c c' : Key}
    (hc : c' ∈ (getMessagesAfter stored limit c).nextCursor) :
    c' ∈ (getMessagesAfter stored limit c).messages := nextOf_mem hc

/-- With a cursor the page is the one before the cursor. -/
theorem getMessages_older (hs : stored.Pairwise (· < ·)) (limit : ℕ) (c : Key) :
    let page := getMessages stored limit (some c)
    OlderPage stored page.nextCursor page.messages c := by
  have hpos : 0 < clampLimit limit 50 100 := clampLimit_pos (by omega) (by omega)
  have hrows := reverse_sorted hs (fun k => (some c).all (fun c => decide (k < c)))
  have hbefore : ∀ k ∈ (stored.filter (fun k => (some c).all (fun c => decide (k < c)))).reverse,
      k < c := by
    intro k hk
    exact of_decide_eq_true (List.mem_filter.mp (List.mem_reverse.mp hk)).2
  constructor
  · exact backward_sorted hrows
  · intro k hk
    exact above_backward hrows hk
  · intro k hk
    exact hbefore k (limited_subset _ _ (List.mem_reverse.mp hk))
  · intro c' hc'
    exact hbefore c' (limited_subset _ _ (nextOf_mem hc'))
  · intro k hk ha hc
    refine mem_backward hpos hrows ?_ ha
    rw [List.mem_reverse]
    exact List.mem_filter.mpr ⟨hk,decide_eq_true hc⟩

/-- The page after a bound ends at the cursor that it hands on, or with the history. -/
theorem getMessagesAfter_page (hs : stored.Pairwise (· < ·)) (limit : ℕ) (c : Key) :
    let page := getMessagesAfter stored limit c
    (∃ hi, page.hasMore = true ∧ page.nextCursor = some hi ∧ NewerPage stored c page.messages hi) ∨
      (page.hasMore = false ∧ page.nextCursor = none ∧ LastPage stored c page.messages []) := by
  have hpos : 0 < clampLimit limit 50 100 := clampLimit_pos (by omega) (by omega)
  have hrows : (stored.filter (fun k => decide (c < k))).Pairwise (· < ·) :=
    hs.sublist List.filter_sublist
  have hafter : ∀ k ∈ (limited (stored.filter (fun k => decide (c < k))) (clampLimit limit 50 100)).1,
      c < k := fun k hk => of_decide_eq_true (List.mem_filter.mp (limited_subset _ _ hk)).2
  have hmem : ∀ k ∈ stored, c < k →
      (∀ hi, nextOf (stored.filter (fun k => decide (c < k))) (clampLimit limit 50 100) = some hi →
        k ≤ hi) →
      k ∈ (limited (stored.filter (fun k => decide (c < k))) (clampLimit limit 50 100)).1 := by
    intro k hk hc hn
    exact mem_limited hpos hrows (List.mem_filter.mpr ⟨hk,decide_eq_true hc⟩)
      (fun hi hhi => not_lt.mpr (hn hi hhi))
  cases hnext : nextOf (stored.filter (fun k => decide (c < k))) (clampLimit limit 50 100) with
  | some hi =>
    refine Or.inl ⟨hi,?_,hnext,?_⟩
    · have h := nextOf_isSome (stored.filter (fun k => decide (c < k))) hpos
      rw [hnext] at h
      exact h
    · refine ⟨limited_pairwise hrows,hafter,?_,hafter hi (nextOf_mem hnext),?_⟩
      · intro k hk
        rcases nextOf_max hrows hnext hk with rfl | hlt
        · exact le_refl k
        · exact le_of_lt hlt
      · intro k hk hc hhi
        apply hmem k hk hc
        intro hi' hhi'
        rw [hnext] at hhi'
        rw [← Option.some.inj hhi']
        exact hhi
  | none =>
    refine Or.inr ⟨?_,hnext,?_⟩
    · have h := nextOf_isSome (stored.filter (fun k => decide (c < k))) hpos
      rw [hnext] at h
      exact h
    · refine ⟨?_,?_,?_⟩
      · rw [List.append_nil]
        exact limited_pairwise hrows
      · rw [List.append_nil]
        exact hafter
      · intro k hk hc
        apply Or.inl (hmem k hk hc ?_)
        intro hi hhi
        rw [hnext] at hhi
        cases hhi

/-! ## The window around a message -/

section Around
variable {older newer : List Key} {n : ℕ} {anchor : Key} (hpos : 0 < n)

/-- The first of the messages is the last row of the backward half. -/
theorem olderCursor_eq (hpos : 0 < n) (older newer : List Key) :
    (if (limited older n).2 = true then ((limited older n).1.reverse ++ (limited newer n).1).head?
      else none) = nextOf older n := by
  unfold nextOf
  split
  · rename_i h
    obtain ⟨c,hc⟩ := limited_getLast hpos h
    rw [List.head?_append,List.head?_reverse,hc]
    rfl
  · rfl

theorem newerCursor_eq (hpos : 0 < n) (older newer : List Key) :
    (if (limited newer n).2 = true then ((limited older n).1.reverse ++ (limited newer n).1).getLast?
      else none) = nextOf newer n := by
  unfold nextOf
  split
  · rename_i h
    obtain ⟨c,hc⟩ := limited_getLast hpos h
    rw [List.getLast?_append,hc]
    rfl
  · rfl

variable (hback : older.Pairwise (· > ·)) (hforth : newer.Pairwise (· < ·))
  (hold : ∀ k ∈ older, k ≤ anchor) (hnew : ∀ k ∈ newer, anchor < k)
include hback hforth hold hnew

theorem around_sorted : ((limited older n).1.reverse ++ (limited newer n).1).Pairwise (· < ·) := by
  apply List.pairwise_append.mpr
  refine ⟨backward_sorted hback,limited_pairwise hforth,?_⟩
  intro a ha b hb
  exact lt_of_le_of_lt (hold a (limited_subset _ _ (List.mem_reverse.mp ha)))
    (hnew b (limited_subset _ _ hb))

omit hforth in
theorem around_above {k : Key} (hk : k ∈ (limited older n).1.reverse ++ (limited newer n).1) :
    Above (nextOf older n) k := by
  rcases List.mem_append.mp hk with hk | hk
  · exact above_backward hback hk
  · intro c hc
    exact le_of_lt (lt_of_le_of_lt (hold c (limited_subset _ _ (nextOf_mem hc)))
      (hnew k (limited_subset _ _ hk)))

omit hold hnew in
include hpos in
/-- What is in one of the halves, and cut off by neither cursor, is in the window. -/
theorem mem_around {k : Key} (hk : k ∈ older ∨ k ∈ newer) (ha : Above (nextOf older n) k)
    (hn : ∀ hi, nextOf newer n = some hi → k ≤ hi) :
    k ∈ (limited older n).1.reverse ++ (limited newer n).1 := by
  rcases hk with hk | hk
  · exact List.mem_append_left _ (mem_backward hpos hback hk ha)
  · apply List.mem_append_right
    exact mem_limited hpos hforth hk (fun hi hhi => not_lt.mpr (hn hi hhi))

omit hback in
theorem around_upto {hi : Key} (hhi : nextOf newer n = some hi) {k : Key}
    (hk : k ∈ (limited older n).1.reverse ++ (limited newer n).1) : k ≤ hi := by
  rcases List.mem_append.mp hk with hk | hk
  · have hle := hold k (limited_subset _ _ (List.mem_reverse.mp hk))
    exact le_of_lt (lt_of_le_of_lt hle (hnew hi (limited_subset _ _ (nextOf_mem hhi))))
  · rcases nextOf_max hforth hhi hk with rfl | hlt
    · exact le_refl k
    · exact le_of_lt hlt

end Around

/-! ## Where a window's messages come from -/

section Window
variable {messageID : MessageID} {limit : ℕ} {page : Page}

theorem getMessagesAround_isSome {anchor : Key} (h : anchor ∈ stored) (limit : ℕ) :
    ∃ page, getMessagesAround stored anchor.id limit = some page := by
  unfold getMessagesAround
  cases hfind : stored.find? (fun k => decide (k.id = anchor.id)) with
  | some found => exact ⟨_,rfl⟩
  | none => exact absurd (decide_eq_true rfl) (List.find?_eq_none.mp hfind anchor h)

/-- A window holds rows, and its cursors are two of its messages. -/
theorem getMessagesAround_mem (h : getMessagesAround stored messageID limit = some page) :
    (∀ k ∈ page.messages, k ∈ stored) ∧ (∀ k ∈ page.olderCursor, k ∈ page.messages) ∧
      ∀ k ∈ page.newerCursor, k ∈ page.messages := by
  unfold getMessagesAround at h
  dsimp only at h
  split at h
  · cases h
  obtain rfl := Option.some.inj h
  refine ⟨?_,?_,?_⟩
  · intro k hk
    rcases List.mem_append.mp hk with hk | hk
    · have hmem := List.mem_reverse.mp (limited_subset _ _ (List.mem_reverse.mp hk))
      exact (List.mem_filter.mp hmem).1
    · exact (List.mem_filter.mp (limited_subset _ _ hk)).1
  · intro k hk
    exact List.mem_of_mem_head? (Option.mem_ite_none_right.mp hk).2
  · intro k hk
    exact List.mem_of_mem_getLast? (Option.mem_ite_none_right.mp hk).2

end Window

/-- The window around a message ends at the cursor that it hands on, or with the history. -/
theorem getMessagesAround_page (hs : stored.Pairwise (· < ·)) {messageID : MessageID} {limit : ℕ}
    {page : Page} (h : getMessagesAround stored messageID limit = some page) :
    page.hasMoreOlder = page.olderCursor.isSome ∧
      ((∃ hi, page.hasMoreNewer = true ∧ page.newerCursor = some hi ∧
          Window page.olderCursor page.messages hi ∧ Fills stored page.olderCursor page.messages hi) ∨
        (page.hasMoreNewer = false ∧ page.newerCursor = none ∧
          Tail page.olderCursor page.messages [] ∧
          Reaches stored page.olderCursor page.messages [])) := by
  have hpos : 0 < clampLimit limit 25 50 := clampLimit_pos (by omega) (by omega)
  unfold getMessagesAround at h
  dsimp only at h
  split at h
  · cases h
  rename_i anchor hanchor
  generalize clampLimit limit 25 50 = n at hpos h
  have hback := reverse_sorted hs (fun k => decide (k ≤ anchor))
  have hforth : (stored.filter (fun k => decide (anchor < k))).Pairwise (· < ·) :=
    hs.sublist List.filter_sublist
  have hold : ∀ k ∈ (stored.filter (fun k => decide (k ≤ anchor))).reverse, k ≤ anchor :=
    fun k hk => of_decide_eq_true (List.mem_filter.mp (List.mem_reverse.mp hk)).2
  have hnew : ∀ k ∈ stored.filter (fun k => decide (anchor < k)), anchor < k :=
    fun k hk => of_decide_eq_true (List.mem_filter.mp hk).2
  have hhalf : ∀ k ∈ stored, k ∈ (stored.filter (fun k => decide (k ≤ anchor))).reverse ∨
      k ∈ stored.filter (fun k => decide (anchor < k)) := by
    intro k hk
    rcases le_or_gt k anchor with hle | hlt
    · exact Or.inl (List.mem_reverse.mpr (List.mem_filter.mpr ⟨hk,decide_eq_true hle⟩))
    · exact Or.inr (List.mem_filter.mpr ⟨hk,decide_eq_true hlt⟩)
  generalize (stored.filter (fun k => decide (k ≤ anchor))).reverse = older at *
  generalize stored.filter (fun k => decide (anchor < k)) = newer at *
  rw [olderCursor_eq hpos,newerCursor_eq hpos] at h
  obtain rfl := Option.some.inj h
  refine ⟨nextOf_isSome older hpos,?_⟩
  cases hnext : nextOf newer n with
  | some hi =>
    refine Or.inl ⟨hi,?_,rfl,⟨?_,?_,?_,?_⟩,?_⟩
    · rw [nextOf_isSome newer hpos,hnext]
      rfl
    · exact around_sorted hback hforth hold hnew
    · intro k hk
      exact around_above hback hold hnew hk
    · intro k hk
      exact around_upto hforth hold hnew hnext hk
    · intro c hc
      have hle := hold c (limited_subset _ _ (nextOf_mem hc))
      exact le_of_lt (lt_of_le_of_lt hle (hnew hi (limited_subset _ _ (nextOf_mem hnext))))
    · intro k hk ha hhi
      apply mem_around hpos hback hforth (hhalf k hk) ha
      intro hi' hhi'
      rw [hnext] at hhi'
      rw [← Option.some.inj hhi']
      exact hhi
  | none =>
    refine Or.inr ⟨?_,rfl,⟨?_,?_⟩,?_⟩
    · rw [nextOf_isSome newer hpos,hnext]
      rfl
    · rw [List.append_nil]
      exact around_sorted hback hforth hold hnew
    · rw [List.append_nil]
      intro k hk
      exact around_above hback hold hnew hk
    · intro k hk ha
      apply Or.inl (mem_around hpos hback hforth (hhalf k hk) ha ?_)
      intro hi hhi
      rw [hnext] at hhi
      cases hhi

/-- The window is what its two cursors leave. -/
theorem getMessagesAround_spans (hs : stored.Pairwise (· < ·)) {messageID : MessageID} {limit : ℕ}
    {page : Page} (h : getMessagesAround stored messageID limit = some page) :
    page.hasMoreNewer = page.newerCursor.isSome ∧ page.messages.Pairwise (· < ·) ∧
      (∀ k ∈ page.messages, Above page.olderCursor k ∧ ∀ hi ∈ page.newerCursor, k ≤ hi) ∧
      ∀ k ∈ stored, Above page.olderCursor k → (∀ hi ∈ page.newerCursor, k ≤ hi) →
        k ∈ page.messages := by
  rcases (getMessagesAround_page hs h).2 with ⟨hi,hmore,hnext,hwindow,hfills⟩ | ⟨hmore,hnext,htail,hreach⟩
  · rw [hmore,hnext]
    refine ⟨rfl,hwindow.sorted,?_,?_⟩
    · rintro k hk
      refine ⟨hwindow.above k hk,?_⟩
      rintro _ ⟨⟩
      exact hwindow.upto k hk
    · intro k hk ha hhi
      exact hfills k hk ha (hhi hi rfl)
  · rw [hmore,hnext]
    refine ⟨rfl,?_,?_,?_⟩
    · simpa using htail.sorted
    · intro k hk
      exact ⟨htail.above k (List.mem_append_left _ hk),nofun⟩
    · intro k hk ha _
      simpa using hreach k hk ha

end MiniDiscord.MessageHistory
