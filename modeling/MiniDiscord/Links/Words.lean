import MiniDiscord.Links.Pattern

/-! # The addresses of a text

Blanks, angle brackets and quotes cut a text into words. A scan for links finds at most one
address in a word: what the word holds from its first scheme with something behind it on.
-/
namespace MiniDiscord.Links
open Matches
variable {α : Type*} {code : α → ℕ} {space : ℕ → Bool} {text word rest : List α}

/-- A word from its first scheme on, if the scheme is not all that is left of it. -/
def addressOf (code : α → ℕ) : List α → Option (List α)
  | [] => none
  | c :: rest =>
    if 0 < schemeLength ((c :: rest).map code) ∧
        schemeLength ((c :: rest).map code) < (c :: rest).length then
      some (c :: rest)
    else addressOf code rest

/-- The addresses of the words of a text, in order. -/
def addresses (code : α → ℕ) (space : ℕ → Bool) (text : List α) : List (List α) :=
  (text.splitOnP fun c => !inUrl space (code c)).filterMap (addressOf code)

/-- What follows a word cannot be part of a scheme that begins in it. -/
theorem prefix_word {p : List ℕ} (hp : ∀ n ∈ p, inUrl space n = true)
    (hrest : ∀ c ∈ rest.head?, inUrl space (code c) = false) (word : List α) :
    p <+: (word ++ rest).map code ↔ p <+: word.map code := by
  induction p generalizing word with
  | nil => simp
  | cons n p ih =>
    have hn := hp n List.mem_cons_self
    cases word with
    | nil =>
      cases rest with
      | nil => simp
      | cons c rest =>
        have hc := hrest c rfl
        rw [List.nil_append,List.map_cons,List.cons_prefix_cons,List.map_nil]
        constructor
        · rintro ⟨rfl,-⟩
          rw [hn] at hc
          cases hc
        · intro h
          cases List.prefix_nil.mp h
    | cons c word =>
      rw [List.cons_append,List.map_cons,List.map_cons,List.cons_prefix_cons,
        List.cons_prefix_cons,ih (fun k hk => hp k (List.mem_cons_of_mem n hk)) word]

/-! ## A wider white space -/

theorem inUrl_of_wider {space' : ℕ → Bool} (hwider : ∀ n, space n = true → space' n = true)
    {n : ℕ} (h : inUrl space' n = true) : inUrl space n = true := by
  rw [inUrl,Bool.and_eq_true,Bool.not_eq_true'] at h ⊢
  refine ⟨?_,h.2⟩
  cases hspace : space n with
  | false => rfl
  | true => exact absurd ((hwider n hspace).symm.trans h.1) (by simp)

/-- A pattern with more blanks matches nowhere else. -/
theorem urlMatcher_wider {space' : ℕ → Bool} (hwider : ∀ n, space n = true → space' n = true)
    (h : (urlMatcher code space).len text = 0) : (urlMatcher code space').len text = 0 := by
  change urlLength code space text = 0 at h
  change urlLength code space' text = 0
  rw [urlLength] at h ⊢
  have hrest : (urlRest code space text).length = 0 → (urlRest code space' text).length = 0 := by
    rw [List.length_eq_zero_iff,List.length_eq_zero_iff,urlRest,urlRest,
      List.takeWhile_eq_nil_iff,List.takeWhile_eq_nil_iff]
    intro hnone hpos hin
    exact hnone hpos (inUrl_of_wider hwider hin)
  split at h
  · rename_i hcases
    exact if_pos (hcases.imp_right hrest)
  · omega

theorem takeWhile_eq {p q : α → Bool} {l : List α} (hqp : ∀ c, q c = true → p c = true)
    (h : ∀ c ∈ l.takeWhile p, q c = true) : l.takeWhile q = l.takeWhile p := by
  induction l with
  | nil => rfl
  | cons c l ih =>
    by_cases hp : p c = true
    · rw [List.takeWhile_cons,if_pos hp] at h
      have hq : q c = true := h c List.mem_cons_self
      rw [List.takeWhile_cons,List.takeWhile_cons,if_pos hp,if_pos hq,
        ih fun d hd => h d (List.mem_cons_of_mem c hd)]
    · have hq : ¬ q c = true := fun hq => hp (hqp c hq)
      rw [List.takeWhile_cons,List.takeWhile_cons,if_neg hp,if_neg hq]

/-- A match without any of the further blanks is a match with them as well. -/
theorem urlMatcher_same {space' : ℕ → Bool} (hwider : ∀ n, space n = true → space' n = true)
    (h : (urlMatcher code space).len text ≠ 0)
    (hfree : ∀ c ∈ text.take ((urlMatcher code space).len text), space' (code c) = false) :
    (urlMatcher code space').len text = (urlMatcher code space).len text := by
  obtain ⟨-,-,htake⟩ := urlMatcher_spec h
  have hrest : urlRest code space' text = urlRest code space text := by
    rw [urlRest,urlRest]
    apply takeWhile_eq
    · exact fun c hc => inUrl_of_wider hwider hc
    · intro c hc
      have hin : inUrl space (code c) = true :=
        List.mem_takeWhile_imp (p := fun c => inUrl space (code c)) hc
      have hblank : space' (code c) = false := by
        apply hfree
        rw [htake]
        exact List.mem_append_right _ hc
      rw [inUrl,Bool.and_eq_true] at hin ⊢
      exact ⟨by rw [hblank]; rfl,hin.2⟩
  change urlLength code space' text = urlLength code space text
  rw [urlLength,urlLength,hrest]

/-- The first matches, when they have none of the further blanks, are the first with them. -/
theorem take_findAll_wider {space' : ℕ → Bool} (hwider : ∀ n, space n = true → space' n = true)
    (n : ℕ) (text : List α)
    (hfree : ∀ a ∈ (findAll (urlMatcher code space) text).take n,
      ∀ c ∈ a, space' (code c) = false) :
    (findAll (urlMatcher code space') text).take n =
      (findAll (urlMatcher code space) text).take n := by
  induction hsize : text.length using Nat.strongRecOn generalizing n text with
  | _ size ih =>
    subst hsize
    by_cases hlen : (urlMatcher code space).len text = 0
    · cases text with
      | nil => rfl
      | cons c rest =>
        rw [findAll_cons hlen] at hfree ⊢
        rw [findAll_cons (urlMatcher_wider hwider hlen)]
        exact ih rest.length (Nat.lt_succ_self _) n rest hfree rfl
    · cases n with
      | zero => rfl
      | succ n =>
        rw [findAll_match hlen,List.take_succ_cons] at hfree
        have hsame := urlMatcher_same hwider hlen (hfree _ List.mem_cons_self)
        have hlen' : (urlMatcher code space').len text ≠ 0 := by
          rw [hsame]
          exact hlen
        have hle := (urlMatcher code space).le text
        have hshort : (text.drop ((urlMatcher code space).len text)).length < text.length := by
          rw [List.length_drop]
          omega
        have hrest := ih _ hshort n (text.drop ((urlMatcher code space).len text))
          (fun a ha => hfree a (List.mem_cons_of_mem _ ha)) rfl
        rw [findAll_match hlen,findAll_match hlen',List.take_succ_cons,List.take_succ_cons,
          hsame,hrest]

/-! ## A word has one address -/
section
variable (hscheme : ∀ scheme ∈ schemes, ∀ n ∈ scheme, inUrl space n = true)
include hscheme

/-- Nothing in a match is a blank, an angle bracket or a quote. -/
theorem inUrl_of_match {found : List α} (h : found ∈ findAll (urlMatcher code space) text) :
    (∀ c ∈ found, inUrl space (code c) = true) ∧ found ≠ [] := by
  obtain ⟨t,-,hlen,rfl⟩ := mem_findAll h
  obtain ⟨-,hne,htake⟩ := urlMatcher_spec hlen
  rw [htake]
  refine ⟨?_,fun hnil => hne (List.append_eq_nil_iff.mp hnil).2⟩
  intro c hc
  rcases List.mem_append.mp hc with hc | hc
  · rcases schemeLength_spec (t.map code) with hzero | ⟨scheme,hmem,hpre,heq⟩
    · rw [hzero] at hc
      cases hc
    · apply hscheme scheme hmem
      rw [List.prefix_iff_eq_take.mp hpre,← heq,← List.map_take]
      exact List.mem_map_of_mem hc
  · exact List.mem_takeWhile_imp (p := fun c => inUrl space (code c)) hc

/-- The match at the head of a word is all of the word. -/
theorem urlMatcher_word (hword : ∀ c ∈ word, inUrl space (code c) = true)
    (hrest : ∀ c ∈ rest.head?, inUrl space (code c) = false) :
    (urlMatcher code space).len (word ++ rest) =
      if 0 < schemeLength (word.map code) ∧ schemeLength (word.map code) < word.length then
        word.length else 0 := by
  have hlen : schemeLength ((word ++ rest).map code) = schemeLength (word.map code) :=
    schemeLength_congr fun scheme hmem => prefix_word (hscheme scheme hmem) hrest word
  have hle := schemeLength_le (word.map code)
  rw [List.length_map] at hle
  have hnone : rest.takeWhile (fun c => inUrl space (code c)) = [] := by
    cases rest with
    | nil => rfl
    | cons c rest => rw [List.takeWhile_cons,hrest c rfl,if_neg Bool.false_ne_true]
  have hurl : urlRest code space (word ++ rest) = word.drop (schemeLength (word.map code)) := by
    rw [urlRest,hlen,List.drop_append_of_le_length hle,List.takeWhile_append_of_pos,hnone,
      List.append_nil]
    intro c hc
    exact hword c (List.mem_of_mem_drop hc)
  change urlLength code space (word ++ rest) = _
  rw [urlLength,hlen,hurl,List.length_drop]
  by_cases h : 0 < schemeLength (word.map code) ∧ schemeLength (word.map code) < word.length
  · rw [if_pos h,if_neg (by omega)]
    omega
  · rw [if_neg h,if_pos (by omega)]

/-- A scan of a text finds in its first word the address of it. -/
theorem findAll_word (hword : ∀ c ∈ word, inUrl space (code c) = true)
    (hrest : ∀ c ∈ rest.head?, inUrl space (code c) = false) :
    findAll (urlMatcher code space) (word ++ rest) =
      (addressOf code word).toList ++ findAll (urlMatcher code space) rest := by
  induction word with
  | nil => rfl
  | cons c word ih =>
    have hlen := urlMatcher_word hscheme hword hrest
    rw [addressOf]
    by_cases h : 0 < schemeLength ((c :: word).map code) ∧
        schemeLength ((c :: word).map code) < (c :: word).length
    · rw [if_pos h] at hlen ⊢
      have hne : (urlMatcher code space).len (c :: word ++ rest) ≠ 0 := by
        rw [hlen]
        exact Nat.succ_ne_zero _
      rw [findAll_match hne,hlen,List.take_left,List.drop_left,Option.toList_some,
        List.singleton_append]
    · rw [if_neg h] at hlen ⊢
      rw [List.cons_append] at hlen ⊢
      rw [findAll_cons hlen]
      exact ih fun d hd => hword d (List.mem_cons_of_mem c hd)

/-- The matches of the pattern are the addresses of the words. -/
theorem findAll_eq_addresses (text : List α) :
    findAll (urlMatcher code space) text = addresses code space text := by
  induction hsize : text.length using Nat.strongRecOn generalizing text with
  | _ size ih =>
    subst hsize
    have hsplit := List.takeWhile_append_dropWhile (p := fun c => inUrl space (code c)) (l := text)
    generalize hw : text.takeWhile (fun c => inUrl space (code c)) = word at hsplit
    have hword : ∀ c ∈ word, inUrl space (code c) = true := by
      intro c hc
      rw [← hw] at hc
      exact List.mem_takeWhile_imp (p := fun c => inUrl space (code c)) hc
    cases hr : text.dropWhile fun c => inUrl space (code c) with
    | nil =>
      rw [hr] at hsplit
      have hnil : ∀ c ∈ ([] : List α).head?, inUrl space (code c) = false := by simp
      have hfound := findAll_word hscheme hword hnil
      rw [hsplit,findAll_nil,List.append_nil] at hfound
      rw [List.append_nil] at hsplit
      rw [hfound,addresses,← hsplit,List.splitOnP_eq_singleton (by simpa using hword),
        List.filterMap_cons,List.filterMap_nil]
      cases addressOf code word <;> rfl
    | cons c rest =>
      rw [hr] at hsplit
      have hc : inUrl space (code c) = false := by
        have hhead := List.head_dropWhile_not (fun c => inUrl space (code c)) (l := text)
          (by rw [hr]; exact List.cons_ne_nil c rest)
        simp only [hr,List.head_cons] at hhead
        exact hhead
      have hhead : ∀ d ∈ (c :: rest).head?, inUrl space (code d) = false := by
        intro d hd
        cases hd
        exact hc
      have hzero : (urlMatcher code space).len ([] ++ c :: rest) = 0 :=
        urlMatcher_word hscheme (by simp) hhead
      have hshort : rest.length < text.length := by
        rw [← hsplit,List.length_append,List.length_cons]
        omega
      have hfound := findAll_word hscheme hword hhead
      rw [List.nil_append] at hzero
      rw [hsplit,findAll_cons hzero,ih _ hshort rest rfl] at hfound
      rw [hfound,addresses,addresses,← hsplit,
        List.splitOnP_append_cons_of_forall_mem (by simpa using hword) c (by simpa using hc),
        List.filterMap_cons]
      cases addressOf code word <;> rfl

end
end MiniDiscord.Links
