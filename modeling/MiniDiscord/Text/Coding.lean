import MiniDiscord.Text.Trimming

/-! # Texts and their codes

Characters of one kind are written as one or more units of another. The special ones, which
a program looks for, are units of their own, and no unit of another character is one of them.
-/
namespace Coding
open Trimming
variable {α β : Type*}

structure Transparent (enc : α → List β) (code : α → ℕ) (code' : β → ℕ)
    (special : ℕ → Bool) : Prop where
  injective : Function.Injective code
  injective' : Function.Injective code'
  alone : ∀ c, (∃ u, enc c = [u] ∧ code' u = code c) ∨
    (enc c ≠ [] ∧ special (code c) = false ∧ ∀ u ∈ enc c, special (code' u) = false)

theorem ne_of_special {special : ℕ → Bool} {m n : ℕ} (hm : special m = false)
    (hn : special n = true) : m ≠ n := by
  rintro rfl
  rw [hn] at hm
  cases hm

namespace Transparent
variable {enc : α → List β} {code : α → ℕ} {code' : β → ℕ} {special : ℕ → Bool} {text : List α}

section
variable (ht : Transparent enc code code' special)
include ht

theorem nonempty (c : α) : enc c ≠ [] := by
  rcases ht.alone c with ⟨u,hu,-⟩ | ⟨h,-,-⟩
  · rw [hu]
    exact List.cons_ne_nil u []
  · exact h

/-- No unit inside a character is special. -/
theorem inside {c : α} {j : ℕ} (hpos : 0 < j) (hj : j < (enc c).length) :
    ∀ u ∈ ((enc c).drop j).head?, special (code' u) = false := by
  intro u hu
  rcases ht.alone c with ⟨v,hv,-⟩ | ⟨-,-,h⟩
  · rw [hv,List.length_singleton] at hj
    omega
  · exact h u (List.mem_of_mem_drop (List.mem_of_head? hu))

/-- The last unit of a character is the character, or neither is special. -/
theorem last_unit (c : α) : ∃ us u, enc c = us ++ [u] ∧
    (us = [] ∧ code' u = code c ∨ special (code c) = false ∧ special (code' u) = false) := by
  rcases ht.alone c with ⟨u,hu,hcode⟩ | ⟨hne,hspecial,hunits⟩
  · exact ⟨[],u,hu,Or.inl ⟨rfl,hcode⟩⟩
  · refine ⟨_,_,(List.dropLast_append_getLast hne).symm,Or.inr ⟨hspecial,?_⟩⟩
    exact hunits _ (List.getLast_mem hne)

theorem unit_eq_iff {a c : α} {b u : β} (hu : code' u = code c) (hb : code' b = code a) :
    u = b ↔ c = a := by
  constructor
  · rintro rfl
    exact ht.injective (hu.symm.trans hb)
  · rintro rfl
    exact ht.injective' (hu.trans hb.symm)

theorem prefix_iff {p : List ℕ} (hp : ∀ n ∈ p, special n = true) (text : List α) :
    p <+: (text.flatMap enc).map code' ↔ p <+: text.map code := by
  induction p generalizing text with
  | nil => simp
  | cons n p ih =>
    have hn : special n = true := hp n List.mem_cons_self
    have hrest : ∀ k ∈ p, special k = true := fun k hk => hp k (List.mem_cons_of_mem n hk)
    cases text with
    | nil => simp
    | cons c rest =>
      rcases ht.alone c with ⟨u,hu,hcode⟩ | ⟨hne,hspecial,hunits⟩
      · rw [List.flatMap_cons,hu,List.singleton_append,List.map_cons,List.map_cons,
          List.cons_prefix_cons,List.cons_prefix_cons,hcode,ih hrest rest]
      · obtain ⟨u,us,hus⟩ := List.exists_cons_of_ne_nil hne
        have hu : special (code' u) = false := hunits u (by rw [hus]; exact List.mem_cons_self)
        rw [List.flatMap_cons,hus,List.cons_append,List.map_cons,List.map_cons,
          List.cons_prefix_cons,List.cons_prefix_cons]
        exact iff_of_false (fun h => ne_of_special hu hn h.1.symm)
          (fun h => ne_of_special hspecial hn h.1.symm)

/-- Special codes at the head of a text are as many units as characters. -/
theorem drop_prefix {p : List ℕ} (hp : ∀ n ∈ p, special n = true)
    (h : p <+: text.map code) :
    (text.flatMap enc).drop p.length = (text.drop p.length).flatMap enc ∧
      ((text.take p.length).flatMap enc).length = p.length := by
  induction p generalizing text with
  | nil => simp
  | cons n p ih =>
    cases text with
    | nil => simp at h
    | cons c rest =>
      rw [List.map_cons,List.cons_prefix_cons] at h
      obtain ⟨rfl,hpre⟩ := h
      have hrest := ih (fun k hk => hp k (List.mem_cons_of_mem _ hk)) hpre
      rcases ht.alone c with ⟨u,hu,-⟩ | ⟨-,hspecial,-⟩
      · simp only [List.flatMap_cons,hu,List.length_cons,List.drop_succ_cons,List.take_succ_cons,
          List.singleton_append,hrest,and_self]
      · exact absurd rfl (ne_of_special hspecial (hp (code c) List.mem_cons_self))

theorem takeWhile_flatMap {keep : ℕ → Bool} (hkeep : ∀ n, keep n = false → special n = true)
    (text : List α) :
    (text.flatMap enc).takeWhile (fun u => keep (code' u)) =
      (text.takeWhile fun c => keep (code c)).flatMap enc := by
  induction text with
  | nil => rfl
  | cons c rest ih =>
    rcases ht.alone c with ⟨u,hu,hcode⟩ | ⟨-,hspecial,hunits⟩
    · rw [List.flatMap_cons,hu,List.singleton_append,List.takeWhile_cons,List.takeWhile_cons,hcode]
      by_cases hc : keep (code c) = true
      · rw [if_pos hc,if_pos hc,List.flatMap_cons,hu,ih,List.singleton_append]
      · rw [if_neg hc,if_neg hc,List.flatMap_nil]
    · have kept : ∀ n, special n = false → keep n = true := by
        intro n hn
        by_contra hk
        exact absurd rfl (ne_of_special hn (hkeep n (eq_false_of_ne_true hk)))
      rw [List.flatMap_cons,List.takeWhile_append_of_pos fun u hu => kept _ (hunits u hu),
        List.takeWhile_cons,if_pos (kept _ hspecial),List.flatMap_cons,ih]

theorem rdropWhile_flatMap {cut : ℕ → Bool} (hcut : ∀ n, cut n = true → special n = true)
    (text : List α) :
    (text.flatMap enc).rdropWhile (fun u => cut (code' u)) =
      (text.rdropWhile fun c => cut (code c)).flatMap enc := by
  have uncut : ∀ n, special n = false → ¬ cut n = true :=
    fun n hn hc => absurd rfl (ne_of_special hn (hcut n hc))
  induction text using List.reverseRecOn with
  | nil => rfl
  | append_singleton text c ih =>
    rw [List.flatMap_append,List.flatMap_singleton]
    obtain ⟨us,u,hus,⟨rfl,hcode⟩ | ⟨hspecial,hu⟩⟩ := ht.last_unit c
    · rw [hus,List.nil_append,List.rdropWhile_concat,List.rdropWhile_concat,hcode]
      by_cases hc : cut (code c) = true
      · rw [if_pos hc,if_pos hc,ih]
      · rw [if_neg hc,if_neg hc,List.flatMap_append,List.flatMap_singleton,hus,List.nil_append]
    · rw [List.rdropWhile_concat,if_neg (uncut _ hspecial),hus,← List.append_assoc,
        List.rdropWhile_concat,if_neg (uncut _ hu),List.flatMap_append,List.flatMap_singleton,hus,
        List.append_assoc]

end

/-! ## Brackets -/
section
variable [DecidableEq α] [DecidableEq β] {a : α} {b : β}
  (ht : Transparent enc code code' special)
include ht

theorem count_char (hab : code' b = code a) (ha : special (code a) = true) (c : α) :
    (enc c).count b = [c].count a := by
  rcases ht.alone c with ⟨u,hu,hcode⟩ | ⟨-,hspecial,hunits⟩
  · rw [hu,List.count_singleton,List.count_singleton]
    simp only [beq_iff_eq,ht.unit_eq_iff hcode hab]
  · have hb : b ∉ enc c := fun hmem => ne_of_special (hunits b hmem) ha hab
    have hca : c ≠ a := fun heq => ne_of_special hspecial ha (congrArg code heq)
    rw [List.count_eq_zero_of_not_mem hb,List.count_singleton]
    simp [hca]

theorem count_flatMap (hab : code' b = code a) (ha : special (code a) = true) (text : List α) :
    (text.flatMap enc).count b = text.count a := by
  induction text with
  | nil => rfl
  | cons c rest ih =>
    have hhead : (c :: rest).count a = [c].count a + rest.count a := by
      rw [← List.count_append,List.singleton_append]
    rw [List.flatMap_cons,List.count_append,ht.count_char hab ha,ih,hhead]

variable {opening closing : α} {opening' closing' : β}
  (hopening : code' opening' = code opening) (hclosing : code' closing' = code closing)
  (ho : special (code opening) = true) (hc : special (code closing) = true)
include hopening hclosing ho hc

theorem trimClosing_flatMap (text : List α) :
    trimClosing opening' closing' (text.flatMap enc) =
      (trimClosing opening closing text).flatMap enc := by
  induction text using List.reverseRecOn with
  | nil => rfl
  | append_singleton text c ih =>
    rw [List.flatMap_append,List.flatMap_singleton,trimClosing_concat]
    obtain ⟨us,u,hus,⟨rfl,hcode⟩ | ⟨hspecial,hunit⟩⟩ := ht.last_unit c
    · rw [hus,List.nil_append,trimClosing_concat,ht.count_flatMap hopening ho,
        ht.count_flatMap hclosing hc]
      simp only [ht.unit_eq_iff hcode hclosing]
      split
      · exact ih
      · rw [List.flatMap_append,List.flatMap_singleton,hus,List.nil_append]
    · have hu : u ≠ closing' := fun heq =>
        ne_of_special hunit hc ((congrArg code' heq).trans hclosing)
      have hcc : c ≠ closing := fun heq => ne_of_special hspecial hc (congrArg code heq)
      rw [hus,← List.append_assoc,trimClosing_concat,if_neg fun h => hu h.1,
        if_neg fun h => hcc h.1,List.flatMap_append,List.flatMap_singleton,hus,List.append_assoc]

/-- Trimming the tail of a text and of its codes is the same. -/
theorem trimTail_flatMap {cut : ℕ → Bool} (hcut : ∀ n, cut n = true → special n = true)
    (text : List α) :
    trimTail (fun u => cut (code' u)) opening' closing' (text.flatMap enc) =
      (trimTail (fun c => cut (code c)) opening closing text).flatMap enc := by
  rw [trimTail,ht.rdropWhile_flatMap hcut,
    ht.trimClosing_flatMap hopening hclosing ho hc,trimTail]

end
end Transparent
end Coding
