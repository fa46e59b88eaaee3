import MiniDiscord.Encoding.Calendar
import MiniDiscord.Encoding.Decimal

/-! # Timestamps as texts

The format of RFC 3339: the fields of the clock in its own zone, a fraction where there is
one, and how far the zone is ahead.
-/
namespace Rfc3339
open Calendar Decimal

/-- Nanoseconds from the start of 1970 in UTC, and the minutes that the zone is ahead. -/
structure Timestamp where
  nanos : ℤ
  offset : ℤ
  deriving DecidableEq

/-- The start of 1970. -/
def epoch : ℤ := daysBeforeYear 1970 * nanosPerDay

/-- The zero timestamp is the start of the year 1. -/
def Timestamp.zero : Timestamp := ⟨daysBeforeYear 1 * nanosPerDay - epoch,0⟩

def Timestamp.isZero (t : Timestamp) : Bool := t.nanos = Timestamp.zero.nanos

def nanosPerMinute : ℤ := 60 * 10 ^ 9

/-- What the clock of the zone shows, in nanoseconds from the start of the year 0. -/
def Timestamp.clock (t : Timestamp) : ℤ := t.nanos + t.offset * nanosPerMinute + epoch

def fieldsText (f : Fields) : Bytes :=
  fixed 4 f.year ++ 45 :: (fixed 2 f.month ++ 45 :: (fixed 2 f.day ++ 84 :: (fixed 2 f.hour ++
    58 :: (fixed 2 f.minute ++ 58 :: (fixed 2 f.second ++ fractionText f.nanosecond)))))

def zoneText (offset : ℤ) : Bytes :=
  if offset = 0 then [90]
  else (if 0 < offset then 43 else 45) ::
    (fixed 2 (offset.natAbs / 60) ++ 58 :: fixed 2 (offset.natAbs % 60))

/-- Years of more than four digits and zones of a day or more have no text. -/
def Timestamp.text (t : Timestamp) : Option Bytes :=
  if 0 ≤ t.clock ∧ t.clock < yearTenThousand ∧ t.offset.natAbs < 1440 then
    some (fieldsText (Fields.ofClock t.clock.toNat) ++ zoneText t.offset)
  else none

def expect (c : UInt8) : Bytes → Option Bytes
  | [] => none
  | d :: rest => if d = c then some rest else none

def readFields (text : Bytes) : Option (Fields × Bytes) := do
  let (year,rest) ← readFixed 4 text
  let rest ← expect 45 rest
  let (month,rest) ← readFixed 2 rest
  let rest ← expect 45 rest
  let (day,rest) ← readFixed 2 rest
  let rest ← expect 84 rest
  let (hour,rest) ← readFixed 2 rest
  let rest ← expect 58 rest
  let (minute,rest) ← readFixed 2 rest
  let rest ← expect 58 rest
  let (second,rest) ← readFixed 2 rest
  let (nanosecond,rest) := readFraction rest
  some (⟨year,month,day,hour,minute,second,nanosecond⟩,rest)

/-- A sign and the hours and minutes. -/
def readOffset : Bytes → Option ℤ
  | [] => none
  | sign :: rest => do
    let (hours,rest) ← readFixed 2 rest
    let rest ← expect 58 rest
    let (minutes,rest) ← readFixed 2 rest
    if (sign = 43 ∨ sign = 45) ∧ rest = [] ∧ hours ≤ 23 ∧ minutes ≤ 59 then
      some (if sign = 45 then -(hours * 60 + minutes : ℤ) else hours * 60 + minutes)
    else none

def readZone (text : Bytes) : Option ℤ := if text = [90] then some 0 else readOffset text

def inRange (f : Fields) : Bool :=
  1 ≤ f.month ∧ f.month ≤ 12 ∧ 1 ≤ f.day ∧ f.day ≤ daysIn f.year f.month ∧ f.hour ≤ 23 ∧
    f.minute ≤ 59 ∧ f.second ≤ 59

def parse (text : Bytes) : Option Timestamp := do
  let (f,rest) ← readFields text
  let offset ← readZone rest
  if inRange f = true then some ⟨f.clock - epoch - offset * nanosPerMinute,offset⟩ else none

variable {f : Fields} {rest : Bytes} {offset : ℤ} {t : Timestamp}

theorem expect_cons (c : UInt8) (rest : Bytes) : expect c (c :: rest) = some rest := if_pos rfl

theorem readFields_text (h : f.Ok) (hrest : ∀ c ∈ rest.head?, isDigit c = false ∧ c ≠ 46) :
    readFields (fieldsText f ++ rest) = some (f,rest) := by
  have hyear : f.year < 10 ^ 4 := Nat.lt_succ_of_le h.year
  have hmonth : f.month < 10 ^ 2 := by have := h.month; omega
  have hday : f.day < 10 ^ 2 := by
    have hle : daysIn f.year f.month ≤ 31 := by
      unfold daysIn
      split <;> first | omega | (split <;> omega)
    have := h.day
    omega
  have hhour : f.hour < 10 ^ 2 := by have := h.hour; omega
  have hminute : f.minute < 10 ^ 2 := by have := h.minute; omega
  have hsecond : f.second < 10 ^ 2 := by have := h.second; omega
  simp only [readFields,fieldsText,List.append_assoc,List.cons_append,readFixed_fixed hyear,
    readFixed_fixed hmonth,readFixed_fixed hday,readFixed_fixed hhour,readFixed_fixed hminute,
    readFixed_fixed hsecond,expect_cons,readFraction_fractionText h.nanosecond hrest,
    Option.bind_eq_bind,Option.bind_some]

theorem readOffset_text {sign : UInt8} (hsign : sign = 43 ∨ sign = 45) (h : offset.natAbs < 1440) :
    readOffset (sign :: (fixed 2 (offset.natAbs / 60) ++ 58 :: fixed 2 (offset.natAbs % 60))) =
      some (if sign = 45 then -(offset.natAbs : ℤ) else offset.natAbs) := by
  have hhours : offset.natAbs / 60 < 10 ^ 2 := by omega
  have hminutes : offset.natAbs % 60 < 10 ^ 2 := by omega
  have hlast := readFixed_fixed hminutes []
  rw [List.append_nil] at hlast
  simp only [readOffset,readFixed_fixed hhours,expect_cons,hlast,Option.bind_eq_bind,
    Option.bind_some]
  rw [if_pos ⟨hsign,trivial,by omega,by omega⟩]
  split
  · congr 1
    omega
  · congr 1
    omega

theorem readZone_text (h : offset.natAbs < 1440) : readZone (zoneText offset) = some offset := by
  unfold readZone zoneText
  by_cases h0 : offset = 0
  · rw [if_pos h0,if_pos rfl,h0]
  · have hlen : ∀ sign : UInt8, sign ::
        (fixed 2 (offset.natAbs / 60) ++ 58 :: fixed 2 (offset.natAbs % 60)) ≠ [90] := by
      intro sign he
      have hcount := congrArg List.length he
      simp [length_fixed] at hcount
    rw [if_neg h0,if_neg (hlen _)]
    split
    · rename_i hpos
      rw [readOffset_text (Or.inl rfl) h,if_neg (by decide)]
      congr 1
      omega
    · rename_i hneg
      rw [readOffset_text (Or.inr rfl) h,if_pos rfl]
      congr 1
      omega

theorem head_zoneText (offset : ℤ) : ∀ c ∈ (zoneText offset).head?, isDigit c = false ∧ c ≠ 46 := by
  unfold zoneText
  split
  · rintro c ⟨⟩
    decide
  · split <;> rintro c ⟨⟩ <;> decide

theorem inRange_of_ok (h : f.Ok) : inRange f = true :=
  decide_eq_true ⟨h.month.1,h.month.2,h.day.1,h.day.2,h.hour,h.minute,h.second⟩

theorem parse_text {text : Bytes} (h : t.text = some text) : parse text = some t := by
  unfold Timestamp.text at h
  split at h
  · rename_i hrange
    obtain ⟨h0,hlt,hoffset⟩ := hrange
    cases h
    have hok : (Fields.ofClock t.clock.toNat).Ok := ok_ofClock (by omega)
    have hfields := readFields_text hok (head_zoneText t.offset)
    have hclock : ((Fields.ofClock t.clock.toNat).clock : ℤ) = t.clock := by
      rw [clock_ofClock]
      exact Int.toNat_of_nonneg h0
    simp only [parse,hfields,readZone_text hoffset,Option.bind_eq_bind,Option.bind_some,
      inRange_of_ok hok,if_true,hclock]
    congr 1
    have hnanos : t.clock - epoch - t.offset * nanosPerMinute = t.nanos := by
      unfold Timestamp.clock
      ring
    rw [hnanos]
  · cases h

end Rfc3339
