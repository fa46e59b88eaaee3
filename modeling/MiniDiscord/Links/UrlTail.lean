import MiniDiscord.Text.Trimming

/-! # The tail of a link

The server and the client cut the punctuation that sticks to a link in a running text, the one
on bytes and the other on UTF-16 units.
-/
namespace MiniDiscord.Links
open Trimming

/-- The characters `.,!?;:'"`. -/
def trailingPunctuation : List ℕ := [0x2E,0x2C,0x21,0x3F,0x3B,0x3A,0x27,0x22]

def byteIsPunctuation (b : UInt8) : Bool := trailingPunctuation.contains b.toNat

def unitIsPunctuation (u : UInt16) : Bool := trailingPunctuation.contains u.toNat

/-- `TrimURLTail` of the server, with the brackets `(` and `)`. -/
def trimURLTail (raw : List UInt8) : List UInt8 :=
  trimTail byteIsPunctuation 0x28 0x29 raw

/-- `trimUrlTail` of the client. -/
def trimUrlTail (raw : List UInt16) : List UInt16 :=
  trimTail unitIsPunctuation 0x28 0x29 raw

/-- Both trims leave a clean link unless the tail has a bracket to drop with punctuation
before it. -/
theorem trimmed_iff_not_covers (raw : List UInt8) (raw' : List UInt16) :
    (Clean trimURLTail byteIsPunctuation 0x28 0x29 raw ↔
      ¬ Covers byteIsPunctuation 0x28 0x29 raw) ∧
    (Clean trimUrlTail unitIsPunctuation 0x28 0x29 raw' ↔
      ¬ Covers unitIsPunctuation 0x28 0x29 raw') := by
  constructor
  · exact clean_iff_not_covers (by decide) (by decide) (by decide)
  · exact clean_iff_not_covers (by decide) (by decide) (by decide)

/-- The link `http://a.b/c.)`: both trims leave the point that stood before the bracket. -/
theorem point_before_bracket_left :
    ¬ ((∀ u : List UInt8, Clean trimURLTail byteIsPunctuation 0x28 0x29 u) ∧
      (∀ u : List UInt16, Clean trimUrlTail unitIsPunctuation 0x28 0x29 u)) := by
  rintro ⟨hserver,-⟩
  have hlast := (hserver [0x68,0x74,0x74,0x70,0x3A,0x2F,0x2F,0x61,0x2E,0x62,0x2F,0x63,0x2E,
    0x29]).punctuation 0x2E
  exact absurd (hlast (by decide)) (by decide)

end MiniDiscord.Links
