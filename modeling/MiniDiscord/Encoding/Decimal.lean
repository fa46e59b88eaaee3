import Mathlib.Data.Fintype.Basic
import Mathlib.Data.List.DropRight
import Mathlib.Data.List.TakeDrop
import Mathlib.Tactic.Ring

/-! # Decimal texts

Numbers as ASCII digits: of a fixed width, without leading zeros, and as a fraction whose
trailing zeros are left out.
-/
namespace Decimal

abbrev Bytes := List UInt8

def isDigit (c : UInt8) : Bool := 48 ≤ c ∧ c ≤ 57

def digit (n : ℕ) : UInt8 := UInt8.ofNat (48 + n % 10)

def value (text : Bytes) : ℕ := text.foldl (fun acc c => acc * 10 + (c.toNat - 48)) 0

/-- The last digits of a number. -/
def fixed : ℕ → ℕ → Bytes
  | 0,_ => []
  | width + 1,n => fixed width (n / 10) ++ [digit n]

def readFixed (width : ℕ) (text : Bytes) : Option (ℕ × Bytes) :=
  if width ≤ text.length ∧ (text.take width).all isDigit then
    some (value (text.take width),text.drop width)
  else none

def natText (n : ℕ) : Bytes := (Nat.toDigits 10 n).map Char.toUInt8

def isZero (c : UInt8) : Bool := c = 48

/-- Nanoseconds as the fraction of a second, with the point. -/
def fractionText (nanos : ℕ) : Bytes :=
  match (fixed 9 nanos).rdropWhile isZero with
  | [] => []
  | digits => 46 :: digits

/-- Digits after the ninth are ignored. A point without digits is none. -/
def readFraction : Bytes → ℕ × Bytes
  | 46 :: rest =>
    match rest.span isDigit with
    | ([],_) => (0,46 :: rest)
    | (digits,rest) => (value (digits.take 9) * 10 ^ (9 - (digits.take 9).length),rest)
  | text => (0,text)

variable {text rest : Bytes} {c : UInt8} {n width : ℕ}

theorem isDigit_digit (n : ℕ) : isDigit (digit n) = true := by
  have h : ∀ d : Fin 10, isDigit (UInt8.ofNat (48 + d)) = true := by decide
  exact h ⟨n % 10,Nat.mod_lt n (by omega)⟩

theorem digit_value (n : ℕ) : (digit n).toNat - 48 = n % 10 := by
  have h : ∀ d : Fin 10, (UInt8.ofNat (48 + d)).toNat - 48 = d.val := by decide
  exact h ⟨n % 10,Nat.mod_lt n (by omega)⟩

theorem value_snoc (text : Bytes) (n : ℕ) : value (text ++ [digit n]) = value text * 10 + n % 10 := by
  simp only [value,List.foldl_append,List.foldl_cons,List.foldl_nil,digit_value]

theorem length_fixed (width n : ℕ) : (fixed width n).length = width := by
  induction width generalizing n with
  | zero => rfl
  | succ width ih => rw [fixed,List.length_append,ih,List.length_singleton]

theorem isDigit_fixed (h : c ∈ fixed width n) : isDigit c = true := by
  induction width generalizing n with
  | zero => cases h
  | succ width ih =>
    rcases List.mem_append.mp h with hc | hc
    · exact ih hc
    · rw [List.mem_singleton.mp hc]
      exact isDigit_digit n

theorem value_fixed (h : n < 10 ^ width) : value (fixed width n) = n := by
  induction width generalizing n with
  | zero =>
    have h0 : n = 0 := by omega
    rw [h0]
    rfl
  | succ width ih =>
    have hdiv : n / 10 < 10 ^ width := Nat.div_lt_of_lt_mul (by rwa [pow_succ,mul_comm] at h)
    rw [fixed,value_snoc,ih hdiv]
    omega

theorem readFixed_fixed (h : n < 10 ^ width) (rest : Bytes) :
    readFixed width (fixed width n ++ rest) = some (n,rest) := by
  have hlen := length_fixed width n
  have htake : (fixed width n ++ rest).take width = fixed width n := by
    rw [List.take_append_of_le_length hlen.ge,List.take_of_length_le hlen.le]
  have hdrop : (fixed width n ++ rest).drop width = rest := by
    rw [List.drop_append_of_le_length hlen.ge,List.drop_of_length_le hlen.le,List.nil_append]
  have hcond : width ≤ (fixed width n ++ rest).length ∧ (fixed width n).all isDigit = true := by
    refine ⟨by rw [List.length_append,hlen]; omega,?_⟩
    exact List.all_eq_true.mpr (fun c hc => isDigit_fixed hc)
  rw [readFixed,htake,hdrop,if_pos hcond,value_fixed h]

/-! ## Without leading zeros -/

theorem natText_eq (n : ℕ) :
    natText n = if n < 10 then [digit n] else natText (n / 10) ++ [digit n] := by
  have hdigit : (Nat.digitChar (n % 10)).toUInt8 = digit n := by
    have h : ∀ d : Fin 10, (Nat.digitChar d).toUInt8 = UInt8.ofNat (48 + d) := by decide
    exact h ⟨n % 10,Nat.mod_lt n (by omega)⟩
  rw [natText,Nat.toDigits_eq_if (by omega)]
  split
  · rename_i h
    rw [Nat.mod_eq_of_lt h] at hdigit
    rw [List.map_singleton,hdigit]
  · rw [List.map_append,List.map_singleton,hdigit]
    rfl

theorem value_natText (n : ℕ) : value (natText n) = n := by
  induction n using Nat.strong_induction_on with
  | _ n ih =>
    rw [natText_eq]
    split
    · rename_i h
      have hv := value_snoc [] n
      rw [List.nil_append,Nat.mod_eq_of_lt h] at hv
      exact hv.trans (zero_add n)
    · rw [value_snoc,ih (n / 10) (by omega)]
      omega

theorem isDigit_natText (h : c ∈ natText n) : isDigit c = true := by
  induction n using Nat.strong_induction_on with
  | _ n ih =>
    rw [natText_eq] at h
    split at h
    · rw [List.mem_singleton.mp h]
      exact isDigit_digit n
    · rcases List.mem_append.mp h with hc | hc
      · exact ih (n / 10) (by omega) hc
      · rw [List.mem_singleton.mp hc]
        exact isDigit_digit n

theorem natText_ne_nil (n : ℕ) : natText n ≠ [] := by
  rw [natText_eq]
  split <;> simp

theorem head_natText (h : 0 < n) : (natText n).head? ≠ some 48 := by
  induction n using Nat.strong_induction_on with
  | _ n ih =>
    rw [natText_eq]
    split
    · rename_i hlt
      have hd : ∀ d : Fin 10, 0 < d.val → UInt8.ofNat (48 + d) ≠ 48 := by decide
      have hn := hd ⟨n % 10,Nat.mod_lt n (by omega)⟩ (by dsimp only; omega)
      simpa [digit] using hn
    · have hrest := ih (n / 10) (by omega) (by omega)
      cases ht : natText (n / 10) with
      | nil => exact absurd ht (natText_ne_nil _)
      | cons c text =>
        rw [ht] at hrest
        exact hrest

/-! ## Fractions -/

theorem value_rdropWhile (text : Bytes) :
    value (text.rdropWhile isZero) * 10 ^ (text.length - (text.rdropWhile isZero).length) =
      value text := by
  induction text using List.reverseRecOn with
  | nil => rfl
  | append_singleton text c ih =>
    by_cases hc : isZero c = true
    · have hle : (text.rdropWhile isZero).length ≤ text.length :=
        (List.rdropWhile_prefix isZero text).length_le
      have hvalue : value (text ++ [c]) = value text * 10 := by
        rw [of_decide_eq_true hc]
        exact value_snoc text 0
      rw [List.rdropWhile_concat_pos isZero text c hc,List.length_append,List.length_singleton,
        Nat.sub_add_comm hle,pow_succ,← mul_assoc,ih,hvalue]
    · rw [List.rdropWhile_concat_neg isZero text c hc,Nat.sub_self,pow_zero,mul_one]

theorem span_digits (h : ∀ c ∈ text, isDigit c = true)
    (hrest : ∀ c ∈ rest.head?, isDigit c = false) : (text ++ rest).span isDigit = (text,rest) := by
  rw [List.span_eq_takeWhile_dropWhile,List.takeWhile_append_of_pos h,
    List.dropWhile_append_of_pos h]
  cases rest with
  | nil => simp
  | cons c rest =>
    have hc := hrest c rfl
    simp [hc]

theorem readFraction_fractionText (h : n < 10 ^ 9)
    (hrest : ∀ c ∈ rest.head?, isDigit c = false ∧ c ≠ 46) :
    readFraction (fractionText n ++ rest) = (n,rest) := by
  have hvalue := value_rdropWhile (fixed 9 n)
  rw [value_fixed h,length_fixed] at hvalue
  have hdigits : ∀ c ∈ (fixed 9 n).rdropWhile isZero, isDigit c = true := fun c hc =>
    isDigit_fixed ((List.rdropWhile_prefix isZero _).subset hc)
  have hlen : ((fixed 9 n).rdropWhile isZero).length ≤ 9 := by
    have hle := (List.rdropWhile_prefix isZero (fixed 9 n)).length_le
    rwa [length_fixed] at hle
  unfold fractionText
  split
  · rename_i he
    rw [he] at hvalue
    have h0 : n = 0 := hvalue.symm.trans (zero_mul _)
    rw [List.nil_append,h0]
    unfold readFraction
    split
    · exact absurd rfl (hrest 46 rfl).2
    · rfl
  · rename_i hne
    generalize (fixed 9 n).rdropWhile isZero = digits at *
    have hspan := span_digits hdigits (fun c hc => (hrest c hc).1)
    rw [List.cons_append]
    simp only [readFraction,hspan]
    cases digits with
    | nil => exact absurd rfl hne
    | cons c digits => simp only [List.take_of_length_le hlen,hvalue]

end Decimal
