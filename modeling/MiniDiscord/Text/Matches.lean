import Mathlib.Data.List.Basic
import Mathlib.Tactic.Common

/-! # Scanning a text for matches

A matcher tells how long its match at the head of a text is. A scan takes the leftmost match,
goes on behind it and never looks back.
-/
namespace Matches
variable {α β : Type*}

/-- A pattern that never matches the empty text; `0` stands for no match. -/
structure Matcher (α : Type*) where
  len : List α → ℕ
  le : ∀ text, len text ≤ text.length

@[simp] theorem Matcher.len_nil (m : Matcher α) : m.len [] = 0 := Nat.le_zero.mp (m.le [])

/-- Where the first match starts and how long it is. -/
def firstMatch (m : Matcher α) : List α → Option (ℕ × ℕ)
  | [] => none
  | c :: rest =>
    if m.len (c :: rest) = 0 then (firstMatch m rest).map fun p => (p.1 + 1,p.2)
    else some (0,m.len (c :: rest))

/-- The matches of a text, where `k` characters still belong to the match before. -/
def findAllFrom (m : Matcher α) : ℕ → List α → List (List α)
  | _, [] => []
  | k + 1, _ :: rest => findAllFrom m k rest
  | 0, c :: rest =>
    if m.len (c :: rest) = 0 then findAllFrom m 0 rest
    else (c :: rest).take (m.len (c :: rest)) :: findAllFrom m (m.len (c :: rest) - 1) rest

def findAll (m : Matcher α) (text : List α) : List (List α) := findAllFrom m 0 text

variable {m : Matcher α} {text : List α}

theorem findAllFrom_eq (m : Matcher α) (k : ℕ) (text : List α) :
    findAllFrom m k text = findAll m (text.drop k) := by
  induction k generalizing text with
  | zero => rfl
  | succ k ih =>
    cases text with
    | nil => rfl
    | cons c rest => exact ih rest

theorem findAll_nil (m : Matcher α) : findAll m [] = [] := rfl

theorem findAll_cons {c : α} (h : m.len (c :: text) = 0) :
    findAll m (c :: text) = findAll m text := by
  rw [findAll,findAllFrom,if_pos h,findAll]

theorem findAll_match (h : m.len text ≠ 0) :
    findAll m text = text.take (m.len text) :: findAll m (text.drop (m.len text)) := by
  cases text with
  | nil => exact absurd m.len_nil h
  | cons c rest =>
    obtain ⟨n,hn⟩ := Nat.exists_eq_succ_of_ne_zero h
    rw [findAll,findAllFrom,if_neg h,findAllFrom_eq,hn,Nat.succ_sub_one,List.drop_succ_cons]

/-- A scan passes over places where nothing matches. -/
theorem findAll_drop (k : ℕ) (text : List α) (h : ∀ j < k, m.len (text.drop j) = 0) :
    findAll m text = findAll m (text.drop k) := by
  induction k generalizing text with
  | zero => rfl
  | succ k ih =>
    cases text with
    | nil => rfl
    | cons c rest =>
      have hhead : m.len (c :: rest) = 0 := h 0 (Nat.succ_pos k)
      have hrest : ∀ j < k, m.len (rest.drop j) = 0 := fun j hj => h (j + 1) (Nat.succ_lt_succ hj)
      rw [findAll_cons hhead,ih rest hrest,List.drop_succ_cons]

theorem findAllFrom_append {k : ℕ} {front rest : List α} (hk : k ≤ front.length)
    (h : ∀ j < front.length, m.len ((front ++ rest).drop j) = m.len (front.drop j)) :
    findAllFrom m k (front ++ rest) = findAllFrom m k front ++ findAll m rest := by
  induction front generalizing k with
  | nil =>
    obtain rfl : k = 0 := Nat.le_zero.mp hk
    rfl
  | cons c front ih =>
    have hrest : ∀ j < front.length, m.len ((front ++ rest).drop j) = m.len (front.drop j) :=
      fun j hj => h (j + 1) (Nat.succ_lt_succ hj)
    cases k with
    | succ k => exact ih (Nat.le_of_succ_le_succ hk) hrest
    | zero =>
      have hhead : m.len (c :: (front ++ rest)) = m.len (c :: front) := h 0 (Nat.succ_pos _)
      have hle := m.le (c :: front)
      rw [List.cons_append,findAllFrom,findAllFrom,hhead]
      split
      · exact ih (Nat.zero_le _) hrest
      · rw [← List.cons_append,List.take_append_of_le_length hle,
          ih (Nat.sub_le_of_le_add hle) hrest,List.cons_append]

/-- Where no match reaches beyond the front of a text, the front and the rest are scanned apart. -/
theorem findAll_append {front rest : List α}
    (h : ∀ j < front.length, m.len ((front ++ rest).drop j) = m.len (front.drop j)) :
    findAll m (front ++ rest) = findAll m front ++ findAll m rest :=
  findAllFrom_append (Nat.zero_le _) h

/-- A match is what the matcher takes at some place of the text. -/
theorem mem_findAll {found : List α} (h : found ∈ findAll m text) :
    ∃ t, t <:+ text ∧ m.len t ≠ 0 ∧ found = t.take (m.len t) := by
  induction hsize : text.length using Nat.strongRecOn generalizing text with
  | _ size ih =>
    subst hsize
    by_cases hlen : m.len text = 0
    · cases text with
      | nil => cases h
      | cons c rest =>
        rw [findAll_cons hlen] at h
        obtain ⟨t,ht,hmatch⟩ := ih rest.length (Nat.lt_succ_self _) h rfl
        exact ⟨t,ht.trans (List.suffix_cons c rest),hmatch⟩
    · rw [findAll_match hlen] at h
      rcases List.mem_cons.mp h with rfl | h
      · exact ⟨text,List.suffix_refl text,hlen,rfl⟩
      · have hle := m.le text
        have hshort : (text.drop (m.len text)).length < text.length := by
          rw [List.length_drop]
          omega
        obtain ⟨t,ht,hmatch⟩ := ih _ hshort h rfl
        exact ⟨t,ht.trans (List.drop_suffix _ _),hmatch⟩

theorem firstMatch_eq_none (h : firstMatch m text = none) (j : ℕ) : m.len (text.drop j) = 0 := by
  induction text generalizing j with
  | nil => simp
  | cons c rest ih =>
    rw [firstMatch] at h
    split at h
    · rename_i hhead
      cases j with
      | zero => exact hhead
      | succ j => exact ih (by simpa using h) j
    · cases h

theorem firstMatch_eq_some {i n : ℕ} (h : firstMatch m text = some (i,n)) :
    (∀ j < i, m.len (text.drop j) = 0) ∧ n = m.len (text.drop i) ∧ n ≠ 0 := by
  induction text generalizing i with
  | nil => cases h
  | cons c rest ih =>
    rw [firstMatch] at h
    split at h
    · rename_i hhead
      obtain ⟨⟨i',n'⟩,hfirst,heq⟩ := Option.map_eq_some_iff.mp h
      cases heq
      obtain ⟨hbefore,hn,hpos⟩ := ih hfirst
      refine ⟨?_,hn,hpos⟩
      intro j hj
      cases j with
      | zero => exact hhead
      | succ j => exact hbefore j (Nat.lt_of_succ_lt_succ hj)
    · rename_i hhead
      cases h
      exact ⟨fun j hj => absurd hj (Nat.not_lt_zero j),rfl,hhead⟩

theorem firstMatch_bounds {i n : ℕ} (h : firstMatch m text = some (i,n)) :
    0 < n ∧ i + n ≤ text.length := by
  obtain ⟨-,hn,hpos⟩ := firstMatch_eq_some h
  have hle := m.le (text.drop i)
  rw [List.length_drop] at hle
  omega

/-! ## Scanning an encoded text -/

/-- A matcher of codes follows a matcher of characters: it matches where a character begins
the codes of what the other matches, and nowhere inside a character. -/
structure Follows (enc : α → List β) (m : Matcher α) (m' : Matcher β) : Prop where
  nonempty : ∀ c, enc c ≠ []
  head : ∀ text : List α, m'.len (text.flatMap enc) = ((text.take (m.len text)).flatMap enc).length
  inside : ∀ (c : α) (text : List β) (j : ℕ), 0 < j → j < (enc c).length →
    m'.len ((enc c ++ text).drop j) = 0

variable {enc : α → List β} {m' : Matcher β}

theorem flatMap_take_append (enc : α → List β) (text : List α) (n : ℕ) :
    (text.take n).flatMap enc ++ (text.drop n).flatMap enc = text.flatMap enc := by
  rw [← List.flatMap_append,List.take_append_drop]

theorem flatMap_length_eq_zero (h : ∀ c, enc c ≠ []) :
    (text.flatMap enc).length = 0 ↔ text = [] := by
  rw [List.length_eq_zero_iff,List.flatMap_eq_nil_iff]
  constructor
  · intro hall
    cases text with
    | nil => rfl
    | cons c rest => exact absurd (hall c List.mem_cons_self) (h c)
  · rintro rfl
    simp

theorem findAll_flatMap (h : Follows enc m m') (text : List α) :
    findAll m' (text.flatMap enc) = (findAll m text).map (·.flatMap enc) := by
  induction hlen : text.length using Nat.strongRecOn generalizing text with
  | _ size ih =>
    subst hlen
    have hhead := h.head text
    by_cases hm : m.len text = 0
    · cases text with
      | nil => rfl
      | cons c rest =>
        rw [hm,List.take_zero,List.flatMap_nil,List.length_nil] at hhead
        rw [findAll_cons hm,List.flatMap_cons,findAll_drop (enc c).length,List.drop_left]
        · exact ih rest.length (Nat.lt_succ_self _) rest rfl
        · intro j hj
          rcases Nat.eq_zero_or_pos j with rfl | hpos
          · rw [List.drop_zero,← List.flatMap_cons]
            exact hhead
          · exact h.inside c _ j hpos hj
    · have hsplit := flatMap_take_append enc text (m.len text)
      have hm' : m'.len (text.flatMap enc) ≠ 0 := by
        rw [hhead,Ne,flatMap_length_eq_zero h.nonempty,List.take_eq_nil_iff]
        rintro (hzero | rfl)
        · exact hm hzero
        · exact hm m.len_nil
      have htake : (text.flatMap enc).take (m'.len (text.flatMap enc)) =
          (text.take (m.len text)).flatMap enc := by
        rw [hhead,← hsplit,List.take_left]
      have hdrop : (text.flatMap enc).drop (m'.len (text.flatMap enc)) =
          (text.drop (m.len text)).flatMap enc := by
        rw [hhead,← hsplit,List.drop_left]
      have hshort : (text.drop (m.len text)).length < text.length := by
        have hle := m.le text
        rw [List.length_drop]
        omega
      rw [findAll_match hm',findAll_match hm,htake,hdrop,List.map_cons,
        ih _ hshort (text.drop (m.len text)) rfl]

end Matches
