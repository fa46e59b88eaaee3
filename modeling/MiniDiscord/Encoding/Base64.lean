import Mathlib.Data.Fintype.Basic

/-! # Base64 for URLs, without padding

Six bits a letter. A text may end within a group, and what is left over of its last letter
is ignored; line breaks are ignored as well.
-/
namespace Base64

abbrev Bytes := List UInt8

def letter (n : ℕ) : UInt8 :=
  if n < 26 then UInt8.ofNat (65 + n)
  else if n < 52 then UInt8.ofNat (71 + n)
  else if n < 62 then UInt8.ofNat (n - 4)
  else if n = 62 then 45
  else 95

def value (c : UInt8) : Option ℕ :=
  if 65 ≤ c ∧ c ≤ 90 then some (c.toNat - 65)
  else if 97 ≤ c ∧ c ≤ 122 then some (c.toNat - 71)
  else if 48 ≤ c ∧ c ≤ 57 then some (c.toNat + 4)
  else if c = 45 then some 62
  else if c = 95 then some 63
  else none

def encode : Bytes → Bytes
  | [] => []
  | [a] => [letter (a.toNat / 4),letter (a.toNat % 4 * 16)]
  | [a,b] =>
    [letter (a.toNat / 4),letter (a.toNat % 4 * 16 + b.toNat / 16),letter (b.toNat % 16 * 4)]
  | a :: b :: c :: rest =>
    letter (a.toNat / 4) :: letter (a.toNat % 4 * 16 + b.toNat / 16) ::
      letter (b.toNat % 16 * 4 + c.toNat / 64) :: letter (c.toNat % 64) :: encode rest

def decodeValues : List ℕ → Option Bytes
  | [] => some []
  | [_] => none
  | [a,b] => some [UInt8.ofNat (a * 4 + b / 16)]
  | [a,b,c] => some [UInt8.ofNat (a * 4 + b / 16),UInt8.ofNat (b % 16 * 16 + c / 4)]
  | a :: b :: c :: d :: rest =>
    (decodeValues rest).map fun bytes =>
      UInt8.ofNat (a * 4 + b / 16) :: UInt8.ofNat (b % 16 * 16 + c / 4) ::
        UInt8.ofNat (c % 4 * 64 + d) :: bytes

def isBreak (c : UInt8) : Bool := c = 10 ∨ c = 13

def decode (text : Bytes) : Option Bytes :=
  ((text.filter (fun c => !isBreak c)).mapM value).bind decodeValues

theorem value_letter : ∀ {n : ℕ}, n < 64 → value (letter n) = some n := by
  have h : ∀ n : Fin 64, value (letter n) = some n.val := by decide
  intro n hn
  exact h ⟨n,hn⟩

theorem isBreak_letter : ∀ {n : ℕ}, n < 64 → isBreak (letter n) = false := by
  have h : ∀ n : Fin 64, isBreak (letter n) = false := by decide
  intro n hn
  exact h ⟨n,hn⟩

/-- The six-bit groups of the bytes. -/
def groups : Bytes → List ℕ
  | [] => []
  | [a] => [a.toNat / 4,a.toNat % 4 * 16]
  | [a,b] => [a.toNat / 4,a.toNat % 4 * 16 + b.toNat / 16,b.toNat % 16 * 4]
  | a :: b :: c :: rest =>
    a.toNat / 4 :: (a.toNat % 4 * 16 + b.toNat / 16) :: (b.toNat % 16 * 4 + c.toNat / 64) ::
      (c.toNat % 64) :: groups rest

theorem encode_eq (bytes : Bytes) : encode bytes = (groups bytes).map letter := by
  fun_induction groups bytes with
  | case1 => rfl
  | case2 => rfl
  | case3 => rfl
  | case4 a b c rest ih => simp only [encode,List.map_cons,ih]

theorem groups_lt (bytes : Bytes) : ∀ n ∈ groups bytes, n < 64 := by
  fun_induction groups bytes with
  | case1 => nofun
  | case2 a =>
    have ha := a.toNat_lt
    simp only [List.mem_cons,List.not_mem_nil,or_false]
    rintro n (rfl | rfl) <;> omega
  | case3 a b =>
    have ha := a.toNat_lt
    have hb := b.toNat_lt
    simp only [List.mem_cons,List.not_mem_nil,or_false]
    rintro n (rfl | rfl | rfl) <;> omega
  | case4 a b c rest ih =>
    have ha := a.toNat_lt
    have hb := b.toNat_lt
    have hc := c.toNat_lt
    simp only [List.mem_cons]
    rintro n (rfl | rfl | rfl | rfl | hn)
    · omega
    · omega
    · omega
    · omega
    · exact ih n hn

theorem ofNat_eq {a : UInt8} {n : ℕ} (h : n = a.toNat) : UInt8.ofNat n = a := by
  rw [h]
  exact UInt8.ofNat_toNat

theorem decodeValues_groups (bytes : Bytes) : decodeValues (groups bytes) = some bytes := by
  fun_induction groups bytes with
  | case1 => rfl
  | case2 a =>
    have ha := a.toNat_lt
    simp only [decodeValues]
    rw [ofNat_eq (a := a) (by omega)]
  | case3 a b =>
    have ha := a.toNat_lt
    have hb := b.toNat_lt
    simp only [decodeValues]
    rw [ofNat_eq (a := a) (by omega),ofNat_eq (a := b) (by omega)]
  | case4 a b c rest ih =>
    have ha := a.toNat_lt
    have hb := b.toNat_lt
    have hc := c.toNat_lt
    simp only [decodeValues,ih,Option.map_some]
    rw [ofNat_eq (a := a) (by omega),ofNat_eq (a := b) (by omega),ofNat_eq (a := c) (by omega)]

theorem mapM_value {values : List ℕ} (h : ∀ n ∈ values, n < 64) :
    (values.map letter).mapM value = some values := by
  induction values with
  | nil => rfl
  | cons n values ih =>
    rw [List.map_cons,List.mapM_cons,value_letter (h n List.mem_cons_self),
      ih (fun m hm => h m (List.mem_cons_of_mem _ hm))]
    rfl

theorem decode_encode (bytes : Bytes) : decode (encode bytes) = some bytes := by
  have hfilter : (encode bytes).filter (fun c => !isBreak c) = encode bytes := by
    apply List.filter_eq_self.mpr
    intro c hc
    rw [encode_eq] at hc
    obtain ⟨n,hn,rfl⟩ := List.mem_map.mp hc
    rw [isBreak_letter (groups_lt bytes n hn)]
    rfl
  rw [decode,hfilter,encode_eq,mapM_value (groups_lt bytes),Option.bind_some,decodeValues_groups]

end Base64
