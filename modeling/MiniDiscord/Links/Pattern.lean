import MiniDiscord.Text.Matches
import MiniDiscord.Text.Coding

/-! # The pattern of a link

`https?://[^\s<>"']+`, on the codes of a text. The server and the client have the same pattern
and read `\s` differently.
-/
namespace MiniDiscord.Links
open Matches Coding
variable {α β : Type*}

/-- `https://` and `http://`, the longer one first. -/
def schemes : List (List ℕ) :=
  [[0x68,0x74,0x74,0x70,0x73,0x3A,0x2F,0x2F],[0x68,0x74,0x74,0x70,0x3A,0x2F,0x2F]]

/-- The length of the scheme at the head of the codes. -/
def schemeLength (codes : List ℕ) : ℕ :=
  ((schemes.find? fun scheme => scheme.isPrefixOf codes).map List.length).getD 0

/-- `[^\s<>"']`. -/
def inUrl (space : ℕ → Bool) (n : ℕ) : Bool :=
  !space n && !(List.contains [0x3C,0x3E,0x22,0x27] n)

/-- What follows the scheme of a match. -/
def urlRest (code : α → ℕ) (space : ℕ → Bool) (text : List α) : List α :=
  (text.drop (schemeLength (text.map code))).takeWhile fun c => inUrl space (code c)

def urlLength (code : α → ℕ) (space : ℕ → Bool) (text : List α) : ℕ :=
  if schemeLength (text.map code) = 0 ∨ (urlRest code space text).length = 0 then 0
  else schemeLength (text.map code) + (urlRest code space text).length

variable {code : α → ℕ} {code' : β → ℕ} {space special : ℕ → Bool} {text : List α}

theorem schemeLength_spec (codes : List ℕ) :
    schemeLength codes = 0 ∨
      ∃ scheme ∈ schemes, scheme <+: codes ∧ schemeLength codes = scheme.length := by
  rw [schemeLength]
  cases hfind : schemes.find? fun scheme => scheme.isPrefixOf codes with
  | none => exact Or.inl rfl
  | some scheme =>
    have hpre : scheme.isPrefixOf codes = true :=
      List.find?_some (p := fun scheme : List ℕ => scheme.isPrefixOf codes) hfind
    exact Or.inr ⟨scheme,List.mem_of_find?_eq_some hfind,
      List.isPrefixOf_iff_prefix.mp hpre,rfl⟩

theorem schemeLength_le (codes : List ℕ) : schemeLength codes ≤ codes.length := by
  rcases schemeLength_spec codes with h | ⟨scheme,-,hpre,h⟩
  · omega
  · rw [h]
    exact hpre.length_le

/-- A scheme begins with an `h`. -/
theorem schemeLength_cons {n : ℕ} (codes : List ℕ) (h : n ≠ 0x68) :
    schemeLength (n :: codes) = 0 := by
  have hn : (0x68 == n) = false := by simpa using h.symm
  simp [schemeLength,schemes,List.isPrefixOf,hn]

theorem schemeLength_congr {codes codes' : List ℕ}
    (h : ∀ scheme ∈ schemes, scheme <+: codes ↔ scheme <+: codes') :
    schemeLength codes = schemeLength codes' := by
  have hfind : (schemes.find? fun scheme => scheme.isPrefixOf codes) =
      schemes.find? fun scheme => scheme.isPrefixOf codes' := by
    rw [← List.head?_filter,← List.head?_filter,List.filter_congr]
    intro scheme hmem
    rw [Bool.eq_iff_iff,List.isPrefixOf_iff_prefix,List.isPrefixOf_iff_prefix]
    exact h scheme hmem
  rw [schemeLength,schemeLength,hfind]

theorem urlRest_length_le (code : α → ℕ) (space : ℕ → Bool) (text : List α) :
    schemeLength (text.map code) + (urlRest code space text).length ≤ text.length := by
  have hscheme := schemeLength_le (text.map code)
  have hrest := (List.takeWhile_prefix (fun c => inUrl space (code c))
    (l := text.drop (schemeLength (text.map code)))).length_le
  rw [List.length_map] at hscheme
  rw [List.length_drop] at hrest
  rw [urlRest]
  omega

def urlMatcher (code : α → ℕ) (space : ℕ → Bool) : Matcher α where
  len := urlLength code space
  le := by
    intro text
    have hle := urlRest_length_le code space text
    rw [urlLength]
    split
    · omega
    · exact hle

/-- A match is a scheme and at least one more character, and no blank stands in it. -/
theorem urlMatcher_spec (h : (urlMatcher code space).len text ≠ 0) :
    schemeLength (text.map code) ≠ 0 ∧ urlRest code space text ≠ [] ∧
      text.take ((urlMatcher code space).len text) =
        text.take (schemeLength (text.map code)) ++ urlRest code space text := by
  change urlLength code space text ≠ 0 at h
  change _ ∧ _ ∧ text.take (urlLength code space text) = _
  rw [urlLength] at h ⊢
  split at h
  · exact absurd rfl h
  · rename_i hboth
    rw [not_or] at hboth
    refine ⟨hboth.1,fun hnil => hboth.2 (by rw [hnil,List.length_nil]),?_⟩
    have hpre : urlRest code space text <+: text.drop (schemeLength (text.map code)) :=
      List.takeWhile_prefix _
    rw [if_neg (not_or.mpr hboth),List.take_add,← List.prefix_iff_eq_take.mp hpre]

/-! ## The pattern on an encoded text -/

theorem schemes_special (hascii : ∀ n < 128, special n = true) :
    ∀ scheme ∈ schemes, ∀ n ∈ scheme, special n = true := by
  intro scheme hscheme n hn
  apply hascii
  have hall : (schemes.all fun scheme => scheme.all fun n => decide (n < 128)) = true := by decide
  have := List.all_eq_true.mp (List.all_eq_true.mp hall scheme hscheme) n hn
  simpa using this

/-- A character that ends a link is a blank, one of `<>"'`, so special. -/
theorem special_of_inUrl (hascii : ∀ n < 128, special n = true)
    (hspace : ∀ n, space n = true → special n = true) (n : ℕ) (h : inUrl space n = false) :
    special n = true := by
  rw [inUrl,Bool.and_eq_false_iff,Bool.not_eq_false',Bool.not_eq_false'] at h
  rcases h with h | h
  · exact hspace n h
  · apply hascii
    have hmem : n ∈ [0x3C,0x3E,0x22,0x27] := by simpa using h
    simp only [List.mem_cons,List.not_mem_nil,or_false] at hmem
    omega

section
variable {enc : α → List β} (ht : Transparent enc code code' special)
  (hascii : ∀ n < 128, special n = true)
include ht hascii

theorem schemeLength_flatMap (text : List α) :
    schemeLength ((text.flatMap enc).map code') = schemeLength (text.map code) :=
  schemeLength_congr fun scheme hmem => ht.prefix_iff (schemes_special hascii scheme hmem) text

/-- The scheme is as long in the codes as it is in the text. -/
theorem drop_scheme (text : List α) :
    (text.flatMap enc).drop (schemeLength (text.map code)) =
      (text.drop (schemeLength (text.map code))).flatMap enc ∧
      ((text.take (schemeLength (text.map code))).flatMap enc).length =
        schemeLength (text.map code) := by
  rcases schemeLength_spec (text.map code) with h | ⟨scheme,hmem,hpre,h⟩
  · rw [h]
    exact ⟨rfl,rfl⟩
  · rw [h]
    exact ht.drop_prefix (schemes_special hascii scheme hmem) hpre

theorem urlRest_flatMap (hspace : ∀ n, space n = true → special n = true) (text : List α) :
    urlRest code' space (text.flatMap enc) = (urlRest code space text).flatMap enc := by
  rw [urlRest,schemeLength_flatMap ht hascii,(drop_scheme ht hascii text).1,
    ht.takeWhile_flatMap (special_of_inUrl hascii hspace),urlRest]

/-- No scheme begins inside a character. -/
theorem schemeLength_inside {c : α} {j : ℕ} (hpos : 0 < j) (hj : j < (enc c).length)
    (rest : List β) : schemeLength (((enc c ++ rest).drop j).map code') = 0 := by
  rw [List.drop_append_of_le_length (Nat.le_of_lt hj)]
  obtain ⟨u,us,hus⟩ := List.exists_cons_of_ne_nil (l := (enc c).drop j) (by
    rw [Ne,List.drop_eq_nil_iff]
    omega)
  have hu := ht.inside hpos hj u (by rw [hus]; rfl)
  rw [hus,List.cons_append,List.map_cons]
  apply schemeLength_cons
  intro hh
  rw [hh,hascii 0x68 (by decide)] at hu
  cases hu

theorem urlMatcher_follows (hspace : ∀ n, space n = true → special n = true) :
    Follows enc (urlMatcher code space) (urlMatcher code' space) where
  nonempty := ht.nonempty
  head := by
    intro text
    have hscheme := schemeLength_flatMap ht hascii text
    have hrest := urlRest_flatMap ht hascii hspace text
    have hnil : ((urlRest code space text).flatMap enc).length = 0 ↔
        (urlRest code space text).length = 0 := by
      rw [flatMap_length_eq_zero ht.nonempty,List.length_eq_zero_iff]
    by_cases h : (urlMatcher code space).len text = 0
    · rw [h,List.take_zero,List.flatMap_nil,List.length_nil]
      change urlLength code space text = 0 at h
      change urlLength code' space _ = 0
      rw [urlLength] at h ⊢
      rw [hscheme,hrest]
      split at h
      · rename_i hboth
        exact if_pos (by rwa [hnil])
      · rename_i hboth
        rw [if_neg (by rwa [hnil])]
        omega
    · obtain ⟨hne,hnonempty,htake⟩ := urlMatcher_spec h
      rw [htake,List.flatMap_append,List.length_append,(drop_scheme ht hascii text).2]
      change urlLength code' space _ = _
      rw [urlLength,hscheme,hrest,if_neg]
      rw [not_or,hnil,List.length_eq_zero_iff]
      exact ⟨hne,hnonempty⟩
  inside := by
    intro c text j hpos hj
    exact if_pos (Or.inl (schemeLength_inside ht hascii hpos hj _))

end
end MiniDiscord.Links
