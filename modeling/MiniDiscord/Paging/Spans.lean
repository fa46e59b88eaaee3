import Mathlib.Data.List.Basic
import Mathlib.Order.Basic
import Mathlib.Order.Lattice

/-! # Spans of an ordered log

A reader holds a piece of a growing log in ascending order. A tail reaches to the end of
the log but for what is still on its way; a window ends at a bound. Pages from before and
from after extend them.
-/
namespace MiniDiscord.Paging
variable {α : Type*} [LinearOrder α]
variable {stored ms T P : List α} {lo lo' : Option α} {c hi hi' m : α}

/-- From the cursor on; without a cursor, anywhere. -/
def Above (lo : Option α) (k : α) : Prop := ∀ c ∈ lo, c ≤ k

theorem above_none (k : α) : Above none k := nofun

theorem above_some {c k : α} : Above (some c) k ↔ c ≤ k := by
  constructor
  · intro h
    exact h c rfl
  · intro h c' hc
    rw [← Option.some.inj hc]
    exact h

/-- `T` is what follows `ms` and is still on its way. -/
structure Tail (lo : Option α) (ms T : List α) : Prop where
  sorted : (ms ++ T).Pairwise (· < ·)
  above : ∀ k ∈ ms ++ T, Above lo k

/-- Nothing of the log from the cursor on is missing from a tail. -/
def Reaches (stored : List α) (lo : Option α) (ms T : List α) : Prop :=
  ∀ k ∈ stored, Above lo k → k ∈ ms ∨ k ∈ T

structure Window (lo : Option α) (ms : List α) (hi : α) : Prop where
  sorted : ms.Pairwise (· < ·)
  above : ∀ k ∈ ms, Above lo k
  upto : ∀ k ∈ ms, k ≤ hi
  below : ∀ c ∈ lo, c ≤ hi

def Fills (stored : List α) (lo : Option α) (ms : List α) (hi : α) : Prop :=
  ∀ k ∈ stored, Above lo k → k ≤ hi → k ∈ ms

/-- The page before a cursor. -/
structure OlderPage (stored : List α) (lo : Option α) (P : List α) (c : α) : Prop where
  sorted : P.Pairwise (· < ·)
  above : ∀ k ∈ P, Above lo k
  before : ∀ k ∈ P, k < c
  next : ∀ c' ∈ lo, c' < c
  fills : ∀ k ∈ stored, Above lo k → k < c → k ∈ P

/-- A page after a bound, up to the next one. -/
structure NewerPage (stored : List α) (lo : α) (P : List α) (hi : α) : Prop where
  sorted : P.Pairwise (· < ·)
  after : ∀ k ∈ P, lo < k
  upto : ∀ k ∈ P, k ≤ hi
  next : lo < hi
  fills : ∀ k ∈ stored, lo < k → k ≤ hi → k ∈ P

/-- The page after a bound that ends where the log did. -/
structure LastPage (stored : List α) (lo : α) (P T : List α) : Prop where
  sorted : (P ++ T).Pairwise (· < ·)
  after : ∀ k ∈ P ++ T, lo < k
  reaches : ∀ k ∈ stored, lo < k → k ∈ P ∨ k ∈ T

/-- A message after all others goes to the end. -/
theorem sorted_snoc {l : List α} (h : l.Pairwise (· < ·)) (hm : ∀ k ∈ l, k < m) :
    (l ++ [m]).Pairwise (· < ·) := by
  apply List.pairwise_append.mpr
  refine ⟨h,List.pairwise_singleton _ _,?_⟩
  intro a ha b hb
  rw [List.mem_singleton.mp hb]
  exact hm a ha

omit [LinearOrder α] in
theorem forall_mem_snoc {p : α → Prop} {l : List α} (h : ∀ k ∈ l, p k) (hm : p m) :
    ∀ k ∈ l ++ [m], p k := by
  intro k hk
  rcases List.mem_append.mp hk with hk | hk
  · exact h k hk
  · rw [List.mem_singleton.mp hk]
    exact hm

/-! ## Tails -/

theorem Tail.prepend (h : Tail (some c) ms T) (hp : OlderPage stored lo P c) :
    Tail lo (P ++ ms) T := by
  constructor
  · rw [List.append_assoc]
    apply List.pairwise_append.mpr
    refine ⟨hp.sorted,h.sorted,?_⟩
    intro a ha b hb
    exact lt_of_lt_of_le (hp.before a ha) (above_some.mp (h.above b hb))
  · rw [List.append_assoc]
    intro k hk
    rcases List.mem_append.mp hk with hk | hk
    · exact hp.above k hk
    · intro c' hc'
      exact le_of_lt (lt_of_lt_of_le (hp.next c' hc') (above_some.mp (h.above k hk)))

theorem Reaches.prepend (h : Reaches stored (some c) ms T) (hp : OlderPage stored lo P c) :
    Reaches stored lo (P ++ ms) T := by
  intro k hk hlo
  by_cases hc : k < c
  · exact Or.inl (List.mem_append_left _ (hp.fills k hk hlo hc))
  · rcases h k hk (above_some.mpr (not_lt.mp hc)) with hm | ht
    · exact Or.inl (List.mem_append_right _ hm)
    · exact Or.inr ht

/-- The next message arrives. -/
theorem Tail.arrive (h : Tail lo ms (m :: T)) : Tail lo (ms ++ [m]) T := by
  have he : ms ++ [m] ++ T = ms ++ m :: T := by simp
  constructor
  · rw [he]
    exact h.sorted
  · rw [he]
    exact h.above

theorem Reaches.arrive (h : Reaches stored lo ms (m :: T)) : Reaches stored lo (ms ++ [m]) T := by
  intro k hk hlo
  rcases h k hk hlo with hm | ht
  · exact Or.inl (List.mem_append_left _ hm)
  · rcases List.mem_cons.mp ht with rfl | ht
    · exact Or.inl (List.mem_append_right _ List.mem_cons_self)
    · exact Or.inr ht

/-- The log grows by a message that is now on its way. -/
theorem Tail.grow (h : Tail lo ms T) (hm : ∀ k ∈ ms ++ T, k < m) (hlo : Above lo m) :
    Tail lo ms (T ++ [m]) := by
  constructor
  · rw [← List.append_assoc]
    exact sorted_snoc h.sorted hm
  · rw [← List.append_assoc]
    exact forall_mem_snoc h.above hlo

theorem Reaches.grow {stored' : List α} (h : Reaches stored lo ms T)
    (hs : ∀ k ∈ stored', k = m ∨ k ∈ stored) : Reaches stored' lo ms (T ++ [m]) := by
  intro k hk hlo
  rcases hs k hk with rfl | hk
  · exact Or.inr (List.mem_append_right _ List.mem_cons_self)
  · exact (h k hk hlo).imp_right (List.mem_append_left _)

theorem Tail.filter (h : Tail lo ms T) (p : α → Bool) : Tail lo (ms.filter p) T := by
  have hsub : (ms.filter p ++ T).Sublist (ms ++ T) := (List.filter_sublist).append_right T
  exact ⟨h.sorted.sublist hsub,fun k hk => h.above k (hsub.subset hk)⟩

theorem Reaches.shrink {stored' : List α} (h : Reaches stored lo ms T) (hs : stored' ⊆ stored) :
    Reaches stored' lo ms T := fun k hk hlo => h k (hs hk) hlo

/-! ## Windows -/

theorem Window.prepend (h : Window (some c) ms hi) (hp : OlderPage stored lo P c) :
    Window lo (P ++ ms) hi := by
  have hc : c ≤ hi := h.below c rfl
  constructor
  · apply List.pairwise_append.mpr
    refine ⟨hp.sorted,h.sorted,?_⟩
    intro a ha b hb
    exact lt_of_lt_of_le (hp.before a ha) (above_some.mp (h.above b hb))
  · intro k hk
    rcases List.mem_append.mp hk with hk | hk
    · exact hp.above k hk
    · intro c' hc'
      exact le_of_lt (lt_of_lt_of_le (hp.next c' hc') (above_some.mp (h.above k hk)))
  · intro k hk
    rcases List.mem_append.mp hk with hk | hk
    · exact le_of_lt (lt_of_lt_of_le (hp.before k hk) hc)
    · exact h.upto k hk
  · intro c' hc'
    exact le_of_lt (lt_of_lt_of_le (hp.next c' hc') hc)

theorem Fills.prepend (h : Fills stored (some c) ms hi) (hp : OlderPage stored lo P c) :
    Fills stored lo (P ++ ms) hi := by
  intro k hk hlo hhi
  by_cases hc : k < c
  · exact List.mem_append_left _ (hp.fills k hk hlo hc)
  · exact List.mem_append_right _ (h k hk (above_some.mpr (not_lt.mp hc)) hhi)

theorem Window.append (h : Window lo ms hi) (hp : NewerPage stored hi P hi') :
    Window lo (ms ++ P) hi' := by
  constructor
  · apply List.pairwise_append.mpr
    refine ⟨h.sorted,hp.sorted,?_⟩
    intro a ha b hb
    exact lt_of_le_of_lt (h.upto a ha) (hp.after b hb)
  · intro k hk
    rcases List.mem_append.mp hk with hk | hk
    · exact h.above k hk
    · intro c hc
      exact le_of_lt (lt_of_le_of_lt (h.below c hc) (hp.after k hk))
  · intro k hk
    rcases List.mem_append.mp hk with hk | hk
    · exact le_trans (h.upto k hk) (le_of_lt hp.next)
    · exact hp.upto k hk
  · intro c hc
    exact le_trans (h.below c hc) (le_of_lt hp.next)

theorem Fills.append (h : Fills stored lo ms hi) (hp : NewerPage stored hi P hi') :
    Fills stored lo (ms ++ P) hi' := by
  intro k hk hlo hhi
  by_cases hc : k ≤ hi
  · exact List.mem_append_left _ (h k hk hlo hc)
  · exact List.mem_append_right _ (hp.fills k hk (not_le.mp hc) hhi)

/-- With its last page a window becomes a tail. -/
theorem Window.close (h : Window lo ms hi) (hp : LastPage stored hi P T) : Tail lo (ms ++ P) T := by
  constructor
  · rw [List.append_assoc]
    apply List.pairwise_append.mpr
    refine ⟨h.sorted,hp.sorted,?_⟩
    intro a ha b hb
    exact lt_of_le_of_lt (h.upto a ha) (hp.after b hb)
  · rw [List.append_assoc]
    intro k hk
    rcases List.mem_append.mp hk with hk | hk
    · exact h.above k hk
    · intro c hc
      exact le_of_lt (lt_of_le_of_lt (h.below c hc) (hp.after k hk))

theorem Fills.close (h : Fills stored lo ms hi) (hp : LastPage stored hi P T) :
    Reaches stored lo (ms ++ P) T := by
  intro k hk hlo
  by_cases hc : k ≤ hi
  · exact Or.inl (List.mem_append_left _ (h k hk hlo hc))
  · exact (hp.reaches k hk (not_le.mp hc)).imp_left (List.mem_append_right _)

theorem Window.filter (h : Window lo ms hi) (p : α → Bool) : Window lo (ms.filter p) hi := by
  have hsub : (ms.filter p).Sublist ms := List.filter_sublist
  exact ⟨h.sorted.sublist hsub,fun k hk => h.above k (hsub.subset hk),
    fun k hk => h.upto k (hsub.subset hk),h.below⟩

theorem Fills.shrink {stored' : List α} (h : Fills stored lo ms hi) (hs : stored' ⊆ stored) :
    Fills stored' lo ms hi := fun k hk hlo hhi => h k (hs hk) hlo hhi

/-- What the log grows by lies behind a window. -/
theorem Fills.grow {stored' : List α} (h : Fills stored lo ms hi)
    (hs : ∀ k ∈ stored', k = m ∨ k ∈ stored) (hm : hi < m) : Fills stored' lo ms hi := by
  intro k hk hlo hhi
  rcases hs k hk with rfl | hk
  · exact absurd hhi (not_le.mpr hm)
  · exact h k hk hlo hhi

/-! ## Pages -/

theorem OlderPage.shrink {stored' : List α} (h : OlderPage stored lo P c) (hs : stored' ⊆ stored) :
    OlderPage stored' lo P c :=
  ⟨h.sorted,h.above,h.before,h.next,fun k hk => h.fills k (hs hk)⟩

theorem OlderPage.grow {stored' : List α} (h : OlderPage stored lo P c)
    (hs : ∀ k ∈ stored', k = m ∨ k ∈ stored) (hm : c ≤ m) : OlderPage stored' lo P c := by
  refine ⟨h.sorted,h.above,h.before,h.next,?_⟩
  intro k hk hlo hc
  rcases hs k hk with rfl | hk
  · exact absurd hc (not_lt.mpr hm)
  · exact h.fills k hk hlo hc

theorem NewerPage.shrink {stored' : List α} (h : NewerPage stored c P hi) (hs : stored' ⊆ stored) :
    NewerPage stored' c P hi :=
  ⟨h.sorted,h.after,h.upto,h.next,fun k hk => h.fills k (hs hk)⟩

theorem NewerPage.grow {stored' : List α} (h : NewerPage stored c P hi)
    (hs : ∀ k ∈ stored', k = m ∨ k ∈ stored) (hm : hi < m) : NewerPage stored' c P hi := by
  refine ⟨h.sorted,h.after,h.upto,h.next,?_⟩
  intro k hk hlo hhi
  rcases hs k hk with rfl | hk
  · exact absurd hhi (not_le.mpr hm)
  · exact h.fills k hk hlo hhi

theorem LastPage.shrink {stored' : List α} (h : LastPage stored c P T) (hs : stored' ⊆ stored) :
    LastPage stored' c P T := ⟨h.sorted,h.after,fun k hk => h.reaches k (hs hk)⟩

theorem LastPage.grow {stored' : List α} (h : LastPage stored c P T)
    (hs : ∀ k ∈ stored', k = m ∨ k ∈ stored) (hm : ∀ k ∈ P ++ T, k < m) (hc : c < m) :
    LastPage stored' c P (T ++ [m]) := by
  constructor
  · rw [← List.append_assoc]
    exact sorted_snoc h.sorted hm
  · rw [← List.append_assoc]
    exact forall_mem_snoc h.after hc
  · intro k hk hlo
    rcases hs k hk with rfl | hk
    · exact Or.inr (List.mem_append_right _ List.mem_cons_self)
    · exact (h.reaches k hk hlo).imp_right (List.mem_append_left _)

/-! ## The first rows of a sorted query -/

omit [LinearOrder α] in
/-- A row that is not behind the last one taken was taken. -/
theorem mem_take_of_not_rel {r : α → α → Prop} {l : List α} {n : ℕ} (hl : l.Pairwise r) {x y : α}
    (hx : x ∈ l) (hy : (l.take n).getLast? = some y) (hr : ¬ r y x) : x ∈ l.take n := by
  rw [← List.take_append_drop n l] at hx hl
  rcases List.mem_append.mp hx with ht | hd
  · exact ht
  · exact absurd ((List.pairwise_append.mp hl).2.2 y (List.mem_of_getLast? hy) x hd) hr

omit [LinearOrder α] in
/-- The last of the rows taken is behind the others. -/
theorem getLast?_take_max {r : α → α → Prop} {l : List α} {n : ℕ} (hl : l.Pairwise r) {x y : α}
    (hx : x ∈ l.take n) (hy : (l.take n).getLast? = some y) : x = y ∨ r x y := by
  have ht := hl.sublist (List.take_sublist n l)
  obtain ⟨front,hfront⟩ := List.getLast?_eq_some_iff.mp hy
  rw [hfront] at hx ht
  rcases List.mem_append.mp hx with hx | hx
  · exact Or.inr ((List.pairwise_append.mp ht).2.2 x hx y List.mem_cons_self)
  · exact Or.inl (List.mem_singleton.mp hx)

end MiniDiscord.Paging
