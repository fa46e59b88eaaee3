import MiniDiscord.Text.Coding

/-! # Texts as bytes and as UTF-16 units -/
namespace Unicode
open Coding

def utf8 (text : List Char) : List UInt8 := text.flatMap String.utf8EncodeChar

def utf16EncodeChar (c : Char) : List UInt16 :=
  if c.toNat < 0x10000 then [UInt16.ofNat c.toNat]
  else [UInt16.ofNat (0xD800 + (c.toNat - 0x10000) / 0x400),
    UInt16.ofNat (0xDC00 + (c.toNat - 0x10000) % 0x400)]

def utf16 (text : List Char) : List UInt16 := text.flatMap utf16EncodeChar

theorem utf16_append (text text' : List Char) : utf16 (text ++ text') = utf16 text ++ utf16 text' :=
  List.flatMap_append

theorem charCode_injective : Function.Injective Char.toNat := by
  intro c d h
  exact Char.ext (UInt32.toNat_inj.mp h)

/-- The ASCII characters are bytes of their own. -/
theorem utf8_transparent :
    Transparent String.utf8EncodeChar Char.toNat UInt8.toNat fun n => decide (n < 128) where
  injective := charCode_injective
  injective' := fun _ _ h => UInt8.toNat_inj.mp h
  alone := by
    intro c
    have hvalue : c.val.toNat = c.toNat := rfl
    simp only [String.utf8EncodeChar,hvalue]
    by_cases h1 : c.toNat ≤ 0x7F
    · rw [if_pos h1]
      refine Or.inl ⟨_,rfl,?_⟩
      rw [UInt8.toNat_ofNat']
      omega
    · rw [if_neg h1]
      refine Or.inr ⟨?_,decide_eq_false (by omega),?_⟩
      · split
        · simp
        · split <;> simp
      · have hbig : ∀ n, 128 ≤ n → n < 256 → decide ((UInt8.ofNat n).toNat < 128) = false := by
          intro n hlow hhigh
          rw [UInt8.toNat_ofNat',decide_eq_false_iff_not]
          omega
        intro u hu
        split at hu
        · simp only [List.mem_cons,List.not_mem_nil,or_false] at hu
          rcases hu with rfl | rfl <;> exact hbig _ (by omega) (by omega)
        · split at hu
          · simp only [List.mem_cons,List.not_mem_nil,or_false] at hu
            rcases hu with rfl | rfl | rfl <;> exact hbig _ (by omega) (by omega)
          · simp only [List.mem_cons,List.not_mem_nil,or_false] at hu
            rcases hu with rfl | rfl | rfl | rfl <;> exact hbig _ (by omega) (by omega)

/-- A code of the first plane that is no surrogate. -/
def firstPlane (n : ℕ) : Bool := decide (n < 0x10000 ∧ ¬ (0xD800 ≤ n ∧ n < 0xE000))

theorem charCode_lt (c : Char) : c.toNat < 0x110000 := by
  have hvalid := c.valid
  rcases hvalid with h | ⟨-,h⟩
  · have : c.toNat < 0xD800 := h
    omega
  · exact h

/-- The characters of the first plane are units of their own. -/
theorem utf16_transparent :
    Transparent utf16EncodeChar Char.toNat UInt16.toNat firstPlane where
  injective := charCode_injective
  injective' := fun _ _ h => UInt16.toNat_inj.mp h
  alone := by
    intro c
    have hlt := charCode_lt c
    rw [utf16EncodeChar]
    by_cases h1 : c.toNat < 0x10000
    · rw [if_pos h1]
      refine Or.inl ⟨_,rfl,?_⟩
      rw [UInt16.toNat_ofNat']
      omega
    · have hsurrogate : ∀ n, 0xD800 ≤ n → n < 0xE000 →
          firstPlane (UInt16.ofNat n).toNat = false := by
        intro n hlow hhigh
        rw [firstPlane,UInt16.toNat_ofNat',decide_eq_false_iff_not]
        omega
      rw [if_neg h1]
      refine Or.inr ⟨by simp,?_,?_⟩
      · rw [firstPlane,decide_eq_false_iff_not]
        omega
      · intro u hu
        simp only [List.mem_cons,List.not_mem_nil,or_false] at hu
        rcases hu with rfl | rfl <;> exact hsurrogate _ (by omega) (by omega)

theorem utf8_injective {text text' : List Char} (h : utf8 text = utf8 text') : text = text' := by
  have hbytes : text.utf8Encode = text'.utf8Encode := by
    rw [List.utf8Encode,List.utf8Encode]
    exact congrArg List.toByteArray h
  exact String.ofList_injective (String.toByteArray_inj.mp (by simpa using hbytes))

end Unicode
