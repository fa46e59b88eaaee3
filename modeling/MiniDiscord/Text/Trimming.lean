import Mathlib.Data.List.DropRight

/-! # Trimming the tail of a text

Two loops over the end of a text, one after the other: the first takes punctuation away, the
second closing brackets while there are more of them in the text than opening ones.
-/
namespace Trimming
variable {α : Type*} [DecidableEq α]

/-- The text ends with a bracket that nothing in it opens. -/
def Unbalanced (opening closing : α) (text : List α) : Prop :=
  text.getLast? = some closing ∧ text.count opening < text.count closing

/-- The second loop, on the reversed text. -/
def dropClosing (opening closing : α) : List α → List α
  | [] => []
  | c :: rest =>
    if c = closing ∧ rest.count opening < rest.count closing + 1 then
      dropClosing opening closing rest
    else c :: rest

def trimClosing (opening closing : α) (text : List α) : List α :=
  (dropClosing opening closing text.reverse).reverse

def trimTail (punct : α → Bool) (opening closing : α) (text : List α) : List α :=
  trimClosing opening closing (text.rdropWhile punct)

variable {punct : α → Bool} {opening closing : α} {text t : List α}

/-- One turn of the second loop. -/
theorem trimClosing_concat (text : List α) (c : α) :
    trimClosing opening closing (text ++ [c]) =
      if c = closing ∧ text.count opening < text.count closing + 1 then
        trimClosing opening closing text
      else text ++ [c] := by
  rw [trimClosing,List.reverse_append,List.reverse_singleton,List.singleton_append,dropClosing,
    List.count_reverse,List.count_reverse]
  split
  · rfl
  · rw [List.reverse_cons,List.reverse_reverse]

theorem unbalanced_concat (hne : opening ≠ closing) (text : List α) :
    Unbalanced opening closing (text ++ [closing]) ↔
      text.count opening < text.count closing + 1 := by
  rw [Unbalanced,List.getLast?_concat,List.count_append,List.count_append,
    List.count_singleton_self,List.count_singleton,if_neg (by simpa using hne.symm)]
  simp

/-- What the second loop takes away are brackets, and the last of them was not opened. -/
theorem trimClosing_spec (hne : opening ≠ closing) (text : List α) :
    ∃ k, text = trimClosing opening closing text ++ List.replicate k closing ∧
      ¬ Unbalanced opening closing (trimClosing opening closing text) ∧
      (k ≠ 0 → (trimClosing opening closing text).count opening ≤
        (trimClosing opening closing text).count closing) := by
  induction text using List.reverseRecOn with
  | nil =>
    refine ⟨0,rfl,?_,fun h => absurd rfl h⟩
    rintro ⟨h,-⟩
    cases h
  | append_singleton text c ih =>
    rw [trimClosing_concat]
    split
    · rename_i hc
      obtain ⟨rfl,hcount⟩ := hc
      obtain ⟨k,htext,hbalanced,hlast⟩ := ih
      refine ⟨k + 1,?_,hbalanced,?_⟩
      · rw [List.replicate_succ',← List.append_assoc,← htext]
      · intro _
        by_cases hk : k = 0
        · subst hk
          rw [List.replicate_zero,List.append_nil] at htext
          rw [← htext]
          omega
        · exact hlast hk
    · rename_i hc
      refine ⟨0,?_,?_,fun h => absurd rfl h⟩
      · rw [List.replicate_zero,List.append_nil]
      · intro hun
        obtain rfl : c = closing := by
          have hlast := hun.1
          rw [List.getLast?_concat] at hlast
          exact Option.some.inj hlast
        exact hc ⟨rfl,(unbalanced_concat hne text).mp hun⟩

theorem trimClosing_of_balanced (hne : opening ≠ closing)
    (h : ¬ Unbalanced opening closing text) : trimClosing opening closing text = text := by
  induction text using List.reverseRecOn with
  | nil => rfl
  | append_singleton text c =>
    rw [trimClosing_concat,if_neg]
    rintro ⟨rfl,hcount⟩
    exact h ((unbalanced_concat hne text).mpr hcount)

/-- Brackets after a text without one of its own left to close are all taken away. -/
theorem trimClosing_replicate (hne : opening ≠ closing) (h : t.count opening ≤ t.count closing)
    (ht : ¬ Unbalanced opening closing t) (k : ℕ) :
    trimClosing opening closing (t ++ List.replicate k closing) = t := by
  induction k with
  | zero =>
    rw [List.replicate_zero,List.append_nil]
    exact trimClosing_of_balanced hne ht
  | succ k ih =>
    have hcount : (t ++ List.replicate k closing).count opening <
        (t ++ List.replicate k closing).count closing + 1 := by
      rw [List.count_append,List.count_append,List.count_replicate,List.count_replicate_self,
        if_neg (by simpa using hne.symm)]
      omega
    rw [List.replicate_succ',← List.append_assoc,trimClosing_concat,if_pos ⟨rfl,hcount⟩]
    exact ih

/-- What the two loops take away, the brackets of the second before the punctuation of the
first. -/
theorem trimTail_spec (punct : α → Bool) (hne : opening ≠ closing) (text : List α) :
    ∃ k, text.rdropWhile punct = trimTail punct opening closing text ++
        List.replicate k closing ∧
      text = trimTail punct opening closing text ++
        (List.replicate k closing ++ text.rtakeWhile punct) ∧
      ¬ Unbalanced opening closing (trimTail punct opening closing text) ∧
      (k ≠ 0 → (trimTail punct opening closing text).count opening ≤
        (trimTail punct opening closing text).count closing) := by
  obtain ⟨k,htext,hbalanced,hlast⟩ := trimClosing_spec hne (text.rdropWhile punct)
  refine ⟨k,htext,?_,hbalanced,hlast⟩
  rw [trimTail,← List.append_assoc,← htext,List.rdropWhile_append_rtakeWhile]

theorem trimTail_removed (punct : α → Bool) (hne : opening ≠ closing) (text : List α) :
    ∃ tail, text = trimTail punct opening closing text ++ tail ∧
      ∀ c ∈ tail, punct c = true ∨ c = closing := by
  obtain ⟨k,-,hsplit,-,-⟩ := trimTail_spec punct hne text
  refine ⟨_,hsplit,?_⟩
  intro d hd
  rcases List.mem_append.mp hd with hd | hd
  · exact Or.inr (List.eq_of_mem_replicate hd)
  · exact Or.inl (List.mem_rtakeWhile_imp hd)

/-- What stands before a character that neither loop takes stays. -/
theorem trimTail_keeps (hne : opening ≠ closing) {front rest : List α} {c : α}
    (hpunct : punct c = false) (hc : c ≠ closing) :
    ∃ kept, trimTail punct opening closing (front ++ c :: rest) = front ++ c :: kept ∧
      kept <+: rest := by
  obtain ⟨tail,htext,htail⟩ := trimTail_removed punct hne (front ++ c :: rest)
  have hnot : c ∉ tail := by
    intro hmem
    rcases htail c hmem with h | h
    · rw [hpunct] at h
      cases h
    · exact hc h
  rcases List.append_eq_append_iff.mp htext with ⟨kept,hkept,hrest⟩ | ⟨kept,hkept,hrest⟩
  · cases kept with
    | nil => exact absurd (by rw [← List.nil_append tail,← hrest]; exact List.mem_cons_self) hnot
    | cons d kept =>
      obtain ⟨rfl,htail⟩ := List.cons.inj hrest
      exact ⟨kept,hkept,⟨tail,htail.symm⟩⟩
  · exact absurd (by rw [hrest]; exact List.mem_append_right _ List.mem_cons_self) hnot

/-! ## When nothing is left to trim -/

/-- What is left of a text is trimmed, was cut at its end only, and is not cut further. -/
structure Clean (trim : List α → List α) (punct : α → Bool) (opening closing : α)
    (text : List α) : Prop where
  punctuation : ∀ c ∈ (trim text).getLast?, punct c = false
  balanced : ¬ Unbalanced opening closing (trim text)
  removed : ∃ tail, text = trim text ++ tail ∧ ∀ c ∈ tail, punct c = true ∨ c = closing
  stable : trim (trim text) = trim text

/-- Punctuation, then brackets that nothing opens, then only punctuation. -/
def Covers (punct : α → Bool) (opening closing : α) (text : List α) : Prop :=
  ∃ front c k tail, text = front ++ c :: (List.replicate (k + 1) closing ++ tail) ∧
    punct c = true ∧ (∀ d ∈ tail, punct d = true) ∧ front.count opening ≤ front.count closing

omit [DecidableEq α] in
theorem rdropWhile_eq_self (h : ∀ c ∈ text.getLast?, punct c = false) :
    text.rdropWhile punct = text := by
  rw [List.rdropWhile_eq_self_iff]
  intro hne hc
  have hlast := h (text.getLast hne) (List.getLast?_eq_some_getLast hne)
  rw [hc] at hlast
  cases hlast

variable (hne : opening ≠ closing) (hopening : punct opening = false)
  (hclosing : punct closing = false)
include hne hopening hclosing

theorem trimTail_of_covers (h : Covers punct opening closing text) :
    ∃ front c, trimTail punct opening closing text = front ++ [c] ∧ punct c = true := by
  obtain ⟨front,c,k,tail,rfl,hc,htail,hcount⟩ := h
  have hco : c ≠ opening := by
    rintro rfl
    rw [hopening] at hc
    cases hc
  have hcc : c ≠ closing := by
    rintro rfl
    rw [hclosing] at hc
    cases hc
  refine ⟨front,c,?_,hc⟩
  have hsplit : front ++ c :: (List.replicate (k + 1) closing ++ tail) =
      (front ++ [c] ++ List.replicate (k + 1) closing) ++ tail := by simp
  have hlast : (front ++ [c] ++ List.replicate (k + 1) closing).rdropWhile punct =
      front ++ [c] ++ List.replicate (k + 1) closing := by
    apply rdropWhile_eq_self
    intro d hd
    rw [List.replicate_succ',← List.append_assoc,List.getLast?_concat] at hd
    cases hd
    exact hclosing
  have hdrop : (front ++ c :: (List.replicate (k + 1) closing ++ tail)).rdropWhile punct =
      front ++ [c] ++ List.replicate (k + 1) closing := by
    rw [hsplit]
    induction tail using List.reverseRecOn with
    | nil =>
      rw [List.append_nil]
      exact hlast
    | append_singleton tail d ih =>
      rw [← List.append_assoc,List.rdropWhile_concat_pos _ _ _ (htail d (by simp))]
      exact ih (fun e he => htail e (List.mem_append_left _ he)) (by simp)
  rw [trimTail,hdrop]
  apply trimClosing_replicate hne
  · rw [List.count_append,List.count_append,List.count_singleton,List.count_singleton,
      if_neg (by simpa using hco),if_neg (by simpa using hcc)]
    exact hcount
  · rintro ⟨hlast',-⟩
    rw [List.getLast?_concat] at hlast'
    exact hcc (Option.some.inj hlast')

omit hopening in
theorem clean_of_not_covers (h : ¬ Covers punct opening closing text) :
    Clean (trimTail punct opening closing) punct opening closing text := by
  obtain ⟨k,htext,hsplit,hbalanced,hlast⟩ := trimTail_spec punct hne text
  have hpunct : ∀ c ∈ (trimTail punct opening closing text).getLast?, punct c = false := by
    intro c hc
    by_contra hp
    rw [Bool.not_eq_false] at hp
    obtain ⟨front,hfront⟩ := List.getLast?_eq_some_iff.mp hc
    cases k with
    | zero =>
      -- No bracket was taken: the first loop would have gone on.
      rw [List.replicate_zero,List.append_nil,hfront] at htext
      have hne' : text.rdropWhile punct ≠ [] := by
        rw [htext]
        simp
      refine List.rdropWhile_last_not punct text hne' ?_
      simp only [htext,List.getLast_append_singleton]
      exact hp
    | succ k =>
      refine h ⟨front,c,k,text.rtakeWhile punct,?_,hp,fun d hd => List.mem_rtakeWhile_imp hd,?_⟩
      · rw [hfront,List.append_assoc] at hsplit
        exact hsplit
      · have hle := hlast (Nat.succ_ne_zero k)
        rw [hfront,List.count_append,List.count_append,List.count_singleton,
          List.count_singleton] at hle
        have hcc : c ≠ closing := by
          rintro rfl
          rw [hclosing] at hp
          cases hp
        have hzero : (if (c == closing) = true then 1 else 0) = 0 := if_neg (by simpa using hcc)
        omega
  refine ⟨hpunct,hbalanced,trimTail_removed punct hne text,?_⟩
  have hstable : (trimTail punct opening closing text).rdropWhile punct =
      trimTail punct opening closing text := rdropWhile_eq_self hpunct
  exact (congrArg _ hstable).trans (trimClosing_of_balanced hne hbalanced)

/-- A trimmed text is clean unless punctuation stood before the brackets taken away. -/
theorem clean_iff_not_covers : Clean (trimTail punct opening closing) punct opening closing text ↔
    ¬ Covers punct opening closing text := by
  constructor
  · intro hclean hcovers
    obtain ⟨front,c,ht,hc⟩ := trimTail_of_covers hne hopening hclosing hcovers
    have hlast := hclean.punctuation c
    rw [ht,List.getLast?_concat] at hlast
    have := hlast rfl
    rw [hc] at this
    cases this
  · exact clean_of_not_covers hne hclosing

end Trimming
