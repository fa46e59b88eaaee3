import Mathlib.Data.Set.Basic
import MiniDiscord.Paging.Scans

/-! # The pages found so far

A scan under way: the rows of its pages, and the row it goes on from. What is known of the
rows between is which of them were there all the time, and which at some time.
-/
namespace MiniDiscord.Paging
variable {α : Type*}

/-- The pages leave out no row that was always there, up to the row to go on from. -/
structure Found (r : α → α → Prop) (always ever : Set α) (after : Option α) (a : Answer α) : Prop where
  sorted : a.found.Pairwise r
  held : ∀ k ∈ a.found, k ∈ ever
  past : ∀ k ∈ a.found, Past r after k
  next : ∀ c ∈ a.next, c ∈ a.found
  last : ∀ c ∈ a.next, ∀ k ∈ a.found, k = c ∨ r k c
  fills : ∀ k ∈ always, Past r after k → (∀ c ∈ a.next, ¬ r c k) → k ∈ a.found

variable {r : α → α → Prop} {rows : Finset α} {always always' ever ever' : Set α}
variable {after : Option α} {a : Answer α} {c k : α} {pages : List α}

theorem Answers.toFound (h : Answers r rows after a) : Found r rows rows after a :=
  ⟨h.sorted,h.held,h.past,h.next,h.last,h.fills⟩

/-- As the rows change, fewer were always there and more were there at some time. -/
theorem Found.mono (h : Found r always ever after a) (halways : always' ⊆ always)
    (hever : ever ⊆ ever') : Found r always' ever' after a where
  sorted := h.sorted
  held k hk := hever (h.held k hk)
  past := h.past
  next := h.next
  last := h.last
  fills k hk := h.fills k (halways hk)

theorem Found.append [IsTrans α r] (h : Found r always ever after ⟨pages,some c⟩)
    (ha : Found r always ever (some c) a) : Found r always ever after ⟨pages ++ a.found,a.next⟩ := by
  have hc : c ∈ pages := h.next c rfl
  have hlast : ∀ k ∈ pages, k = c ∨ r k c := h.last c rfl
  have hpast : ∀ k ∈ a.found, r c k := fun k hk => past_some.mp (ha.past k hk)
  have hacross : ∀ k ∈ pages, ∀ b ∈ a.found, r k b := by
    intro k hk b hb
    rcases hlast k hk with rfl | hkc
    · exact hpast b hb
    · exact IsTrans.trans _ _ _ hkc (hpast b hb)
  constructor
  · exact List.pairwise_append.mpr ⟨h.sorted,ha.sorted,hacross⟩
  · intro k hk
    rcases List.mem_append.mp hk with hk | hk
    · exact h.held k hk
    · exact ha.held k hk
  · intro k hk
    rcases List.mem_append.mp hk with hk | hk
    · exact h.past k hk
    · exact (h.past c hc).trans (hpast k hk)
  · intro c' hc'
    exact List.mem_append_right _ (ha.next c' hc')
  · intro c' hc' k hk
    rcases List.mem_append.mp hk with hk | hk
    · exact Or.inr (hacross k hk c' (ha.next c' hc'))
    · exact ha.last c' hc' k hk
  · intro k hk hafter hnext
    by_cases hck : r c k
    · exact List.mem_append_right _ (ha.fills k hk (past_some.mpr hck) hnext)
    · refine List.mem_append_left _ (h.fills k hk hafter (fun c' hc' => ?_))
      rw [← Option.some.inj hc']
      exact hck

end MiniDiscord.Paging
