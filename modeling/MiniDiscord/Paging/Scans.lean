import Mathlib.Data.Finset.Card
import Mathlib.Order.RelClasses

/-! # Scans of a set that changes

A scan asks for page after page and goes on from the last row of each. The rows may change
between the requests. A scan ends, and has found whatever was there all the time, when a
request makes no room for rows in front of those that it found.
-/
namespace MiniDiscord.Paging
variable {α : Type*}

/-- The rows of a page in the order of the scan, and the row to go on from. -/
structure Answer (α : Type*) where
  found : List α
  next : Option α

/-- The rows that were found, and how many requests there were so far; none without fuel. -/
def scan (answer : ℕ → Option α → Answer α) : ℕ → ℕ → Option α → Option (List α × ℕ)
  | 0, _, _ => none
  | fuel + 1, i, after =>
    match (answer i after).next with
    | none => some ((answer i after).found,i + 1)
    | some c => (scan answer fuel (i + 1) (some c)).map fun rest =>
      ((answer i after).found ++ rest.1,rest.2)

/-- After the row; without a row, anywhere. -/
def Past (r : α → α → Prop) (after : Option α) (k : α) : Prop := ∀ c ∈ after, r c k

instance (r : α → α → Prop) [DecidableRel r] (after : Option α) : DecidablePred (Past r after) :=
  fun k => inferInstanceAs (Decidable (∀ c ∈ after, r c k))

/-- The page leaves out only rows that are after the row to go on from. -/
structure Answers (r : α → α → Prop) (rows : Finset α) (after : Option α) (a : Answer α) : Prop where
  sorted : a.found.Pairwise r
  held : ∀ k ∈ a.found, k ∈ rows
  past : ∀ k ∈ a.found, Past r after k
  next : ∀ c ∈ a.next, c ∈ a.found
  last : ∀ c ∈ a.next, ∀ k ∈ a.found, k = c ∨ r k c
  fills : ∀ k ∈ rows, Past r after k → (∀ c ∈ a.next, ¬ r c k) → k ∈ a.found

/-- What the requests from `i` to `n` found. -/
structure Scanned (r : α → α → Prop) (rows room : ℕ → Finset α) (i n : ℕ) (after : Option α)
    (found : List α) : Prop where
  requests : i < n
  sorted : found.Pairwise r
  past : ∀ k ∈ found, Past r after k
  fits : ∀ k ∈ found, k ∈ room i
  held : ∀ k ∈ found, ∃ j, i ≤ j ∧ j < n ∧ k ∈ rows j
  fills : ∀ k, Past r after k → (∀ j, i ≤ j → j < n → k ∈ rows j) → k ∈ found

/-- Rows that come in are not in the room past a row of the page before. -/
structure Roomy (r : α → α → Prop) (rows room : ℕ → Finset α) : Prop where
  fits : ∀ i, rows i ⊆ room i
  keeps : ∀ i, ∀ c ∈ rows i, ∀ k ∈ room (i + 1), r c k → k ∈ room i

variable {r : α → α → Prop} {rows room : ℕ → Finset α} {i n : ℕ} {after : Option α} {a : Answer α}
variable {c k : α} {found : List α}

theorem past_none (k : α) : Past r none k := nofun

theorem past_some : Past r (some c) k ↔ r c k := by
  constructor
  · intro h
    exact h c rfl
  · intro h c' hc
    rw [← Option.some.inj hc]
    exact h

theorem Past.trans [IsTrans α r] (h : Past r after c) (hk : r c k) : Past r after k :=
  fun b hb => IsTrans.trans _ _ _ (h b hb) hk

/-- The last page. -/
theorem Answers.scanned (ha : Answers r (rows i) after a) (hroom : Roomy r rows room)
    (hnext : a.next = none) : Scanned r rows room i (i + 1) after a.found := by
  constructor
  · exact Nat.lt_succ_self i
  · exact ha.sorted
  · exact ha.past
  · intro k hk
    exact hroom.fits i (ha.held k hk)
  · intro k hk
    exact ⟨i,le_refl i,Nat.lt_succ_self i,ha.held k hk⟩
  · intro k hk hrows
    apply ha.fills k (hrows i (le_refl i) (Nat.lt_succ_self i)) hk
    intro c hc
    rw [hnext] at hc
    cases hc

/-- A page before the rest. -/
theorem Answers.append [IsTrans α r] (ha : Answers r (rows i) after a) (hroom : Roomy r rows room)
    (hnext : a.next = some c) (h : Scanned r rows room (i + 1) n (some c) found) :
    Scanned r rows room i n after (a.found ++ found) := by
  have hc := ha.next c hnext
  have hlt : i < n := Nat.lt_of_succ_lt h.requests
  have hpast : ∀ k ∈ found, r c k := fun k hk => past_some.mp (h.past k hk)
  constructor
  · exact hlt
  · apply List.pairwise_append.mpr
    refine ⟨ha.sorted,h.sorted,?_⟩
    intro k hk b hb
    rcases ha.last c hnext k hk with rfl | hkc
    · exact hpast b hb
    · exact IsTrans.trans _ _ _ hkc (hpast b hb)
  · intro k hk
    rcases List.mem_append.mp hk with hk | hk
    · exact ha.past k hk
    · exact (ha.past c hc).trans (hpast k hk)
  · intro k hk
    rcases List.mem_append.mp hk with hk | hk
    · exact hroom.fits i (ha.held k hk)
    · exact hroom.keeps i c (ha.held c hc) k (h.fits k hk) (hpast k hk)
  · intro k hk
    rcases List.mem_append.mp hk with hk | hk
    · exact ⟨i,le_refl i,hlt,ha.held k hk⟩
    · obtain ⟨j,hij,hjn,hj⟩ := h.held k hk
      exact ⟨j,Nat.le_of_succ_le hij,hjn,hj⟩
  · intro k hk hrows
    by_cases hck : r c k
    · apply List.mem_append_right
      exact h.fills k (past_some.mpr hck) (fun j hj => hrows j (Nat.le_of_succ_le hj))
    · apply List.mem_append_left
      apply ha.fills k (hrows i (le_refl i) hlt) hk
      intro c' hc'
      rw [hnext] at hc'
      rwa [← Option.some.inj hc']

variable [DecidableRel r] [IsStrictOrder α r]

/-- A page takes room away. -/
theorem Answers.card_lt (ha : Answers r (rows i) after a) (hroom : Roomy r rows room)
    (hnext : a.next = some c) :
    ((room (i + 1)).filter (Past r (some c))).card < ((room i).filter (Past r after)).card := by
  have hc := ha.next c hnext
  apply Finset.card_lt_card
  apply Finset.ssubset_iff_of_subset ?_ |>.mpr
  · refine ⟨c,Finset.mem_filter.mpr ⟨hroom.fits i (ha.held c hc),ha.past c hc⟩,?_⟩
    intro h
    exact irrefl c (past_some.mp (Finset.mem_filter.mp h).2)
  · intro k hk
    obtain ⟨hk,hpast⟩ := Finset.mem_filter.mp hk
    have hck := past_some.mp hpast
    exact Finset.mem_filter.mpr
      ⟨hroom.keeps i c (ha.held c hc) k hk hck,(ha.past c hc).trans hck⟩

/-- A scan with more requests than there is room for rows ends. -/
theorem scan_ends {answer : ℕ → Option α → Answer α}
    (hans : ∀ i after, Answers r (rows i) after (answer i after)) (hroom : Roomy r rows room)
    {fuel : ℕ} (h : ((room i).filter (Past r after)).card < fuel) :
    ∃ found n, scan answer fuel i after = some (found,n) ∧ Scanned r rows room i n after found := by
  induction fuel generalizing i after with
  | zero => exact absurd h (Nat.not_lt_zero _)
  | succ fuel ih =>
    have ha := hans i after
    cases hnext : (answer i after).next with
    | none =>
      refine ⟨_,_,?_,ha.scanned hroom hnext⟩
      rw [scan,hnext]
    | some c =>
      have hlt := ha.card_lt hroom hnext
      obtain ⟨found,n,hscan,hs⟩ := @ih (i + 1) (some c) (by omega)
      refine ⟨_,n,?_,ha.append hroom hnext hs⟩
      rw [scan,hnext]
      simp only [hscan,Option.map_some]

end MiniDiscord.Paging
