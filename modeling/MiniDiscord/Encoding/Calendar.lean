import Mathlib.Data.Nat.Find
import Mathlib.Order.Monotone.Basic
import Mathlib.Tactic.Ring

/-! # The Gregorian calendar

Days and nanoseconds are counted from the start of the year 0, and the fields of a moment
are found from the count.
-/
namespace Calendar

def isLeap (year : ℕ) : Bool := year % 4 = 0 ∧ (year % 100 ≠ 0 ∨ year % 400 = 0)

def daysIn (year : ℕ) : ℕ → ℕ
  | 1 | 3 | 5 | 7 | 8 | 10 | 12 => 31
  | 4 | 6 | 9 | 11 => 30
  | 2 => if isLeap year then 29 else 28
  | _ => 0

/-- The leap years before are every fourth one but for the centuries that are no fourth one. -/
def daysBeforeYear (year : ℕ) : ℕ :=
  365 * year + ((year + 3) / 4 - (year + 99) / 100 + (year + 399) / 400)

def daysBeforeMonth (year : ℕ) : ℕ → ℕ
  | 0 => 0
  | month + 1 => daysBeforeMonth year month + daysIn year month

structure Fields where
  year : ℕ
  month : ℕ
  day : ℕ
  hour : ℕ
  minute : ℕ
  second : ℕ
  nanosecond : ℕ
  deriving DecidableEq

def nanosPerDay : ℕ := 86400 * 10 ^ 9

/-- The start of the year 10000. -/
def yearTenThousand : ℕ := daysBeforeYear 10000 * nanosPerDay

namespace Fields

def clock (f : Fields) : ℕ :=
  (daysBeforeYear f.year + daysBeforeMonth f.year f.month + (f.day - 1)) * nanosPerDay +
    ((f.hour * 60 + f.minute) * 60 + f.second) * 10 ^ 9 + f.nanosecond

def yearOf (days : ℕ) : ℕ := Nat.findGreatest (fun year => daysBeforeYear year ≤ days) 9999

def monthOf (year day : ℕ) : ℕ := Nat.findGreatest (fun month => daysBeforeMonth year month ≤ day) 12

/-- The days of the year before the day. -/
def yearDay (days : ℕ) : ℕ := days - daysBeforeYear (yearOf days)

/-- The fields of a moment before the year 10000. -/
def ofClock (t : ℕ) : Fields :=
  let days := t / nanosPerDay
  let seconds := t % nanosPerDay / 10 ^ 9
  let year := yearOf days
  let month := monthOf year (yearDay days)
  { year := year
    month := month
    day := yearDay days - daysBeforeMonth year month + 1
    hour := seconds / 3600
    minute := seconds / 60 % 60
    second := seconds % 60
    nanosecond := t % 10 ^ 9 }

/-- The ranges of the fields. -/
structure Ok (f : Fields) : Prop where
  year : f.year ≤ 9999
  month : 1 ≤ f.month ∧ f.month ≤ 12
  day : 1 ≤ f.day ∧ f.day ≤ daysIn f.year f.month
  hour : f.hour ≤ 23
  minute : f.minute ≤ 59
  second : f.second ≤ 59
  nanosecond : f.nanosecond < 10 ^ 9

end Fields

theorem daysBeforeYear_succ (year : ℕ) :
    daysBeforeYear (year + 1) = daysBeforeYear year + if isLeap year then 366 else 365 := by
  have h4 : (year + 1 + 3) / 4 = (year + 3) / 4 + if year % 4 = 0 then 1 else 0 := by
    split <;> omega
  have h100 : (year + 1 + 99) / 100 = (year + 99) / 100 + if year % 100 = 0 then 1 else 0 := by
    split <;> omega
  have h400 : (year + 1 + 399) / 400 = (year + 399) / 400 + if year % 400 = 0 then 1 else 0 := by
    split <;> omega
  have hle : (year + 99) / 100 ≤ (year + 3) / 4 := by omega
  have hcentury : year % 100 = 0 → year % 4 = 0 := by omega
  have hfourth : year % 400 = 0 → year % 100 = 0 := by omega
  simp only [daysBeforeYear,h4,h100,h400,isLeap,decide_eq_true_eq]
  generalize (year + 3) / 4 = a at *
  generalize (year + 99) / 100 = b at *
  by_cases c4 : year % 4 = 0
  · by_cases c100 : year % 100 = 0
    · by_cases c400 : year % 400 = 0
      · rw [if_pos c4,if_pos c100,if_pos c400,if_pos ⟨c4,Or.inr c400⟩]
        omega
      · rw [if_pos c4,if_pos c100,if_neg c400,if_neg (by simp [c100,c400])]
        omega
    · have c400 : ¬ year % 400 = 0 := fun h => c100 (hfourth h)
      rw [if_pos c4,if_neg c100,if_neg c400,if_pos ⟨c4,Or.inl c100⟩]
      omega
  · have c100 : ¬ year % 100 = 0 := fun h => c4 (hcentury h)
    have c400 : ¬ year % 400 = 0 := fun h => c100 (hfourth h)
    rw [if_neg c4,if_neg c100,if_neg c400,if_neg (fun h => c4 h.1)]
    omega

theorem daysBeforeMonth_year (year : ℕ) :
    daysBeforeMonth year 13 = if isLeap year then 366 else 365 := by
  simp only [daysBeforeMonth,daysIn]
  split <;> rfl

variable {days year day : ℕ}

theorem yearOf_le : Fields.yearOf days ≤ 9999 := Nat.findGreatest_le 9999

theorem daysBeforeYear_yearOf : daysBeforeYear (Fields.yearOf days) ≤ days := by
  apply Nat.findGreatest_spec (m := 0) (P := fun year => daysBeforeYear year ≤ days)
  · omega
  · exact Nat.zero_le days

theorem lt_yearOf_succ (h : days < daysBeforeYear 10000) :
    days < daysBeforeYear (Fields.yearOf days + 1) := by
  rcases Nat.lt_or_ge (Fields.yearOf days) 9999 with hlt | hge
  · have hnext := Nat.findGreatest_is_greatest (P := fun year => daysBeforeYear year ≤ days)
      (n := 9999) (Nat.lt_succ_self _) hlt
    exact not_le.mp hnext
  · have he : Fields.yearOf days = 9999 := le_antisymm yearOf_le hge
    rwa [he]

theorem monthOf_le : Fields.monthOf year day ≤ 12 := Nat.findGreatest_le 12

theorem one_le_monthOf : 1 ≤ Fields.monthOf year day := by
  apply Nat.le_findGreatest
  · omega
  · simp [daysBeforeMonth,daysIn]

theorem daysBeforeMonth_monthOf : daysBeforeMonth year (Fields.monthOf year day) ≤ day := by
  apply Nat.findGreatest_spec (m := 0) (P := fun month => daysBeforeMonth year month ≤ day)
  · omega
  · exact Nat.zero_le day

theorem lt_monthOf_succ (h : day < daysBeforeMonth year 13) :
    day < daysBeforeMonth year (Fields.monthOf year day + 1) := by
  rcases Nat.lt_or_ge (Fields.monthOf year day) 12 with hlt | hge
  · have hnext := Nat.findGreatest_is_greatest (P := fun month => daysBeforeMonth year month ≤ day)
      (n := 12) (Nat.lt_succ_self _) hlt
    exact not_le.mp hnext
  · have he : Fields.monthOf year day = 12 := le_antisymm monthOf_le hge
    rwa [he]

variable {t : ℕ}

theorem days_lt (h : t < yearTenThousand) : t / nanosPerDay < daysBeforeYear 10000 :=
  Nat.div_lt_of_lt_mul (by rwa [mul_comm])

theorem yearDay_lt (h : days < daysBeforeYear 10000) :
    Fields.yearDay days < daysBeforeMonth (Fields.yearOf days) 13 := by
  have hyear := lt_yearOf_succ h
  rw [daysBeforeYear_succ,← daysBeforeMonth_year] at hyear
  have hle : daysBeforeYear (Fields.yearOf days) ≤ days := daysBeforeYear_yearOf
  unfold Fields.yearDay
  omega

theorem ok_ofClock (h : t < yearTenThousand) : (Fields.ofClock t).Ok := by
  have hmonth := lt_monthOf_succ (yearDay_lt (days_lt h))
  rw [daysBeforeMonth] at hmonth
  have hsec : t % nanosPerDay / 10 ^ 9 < 86400 := by
    apply Nat.div_lt_of_lt_mul
    rw [mul_comm]
    exact Nat.mod_lt _ (by decide)
  constructor
  · exact yearOf_le
  · exact ⟨one_le_monthOf,monthOf_le⟩
  · have hle := @daysBeforeMonth_monthOf (Fields.yearOf (t / nanosPerDay))
      (Fields.yearDay (t / nanosPerDay))
    dsimp only [Fields.ofClock]
    omega
  · dsimp only [Fields.ofClock]
    omega
  · dsimp only [Fields.ofClock]
    omega
  · dsimp only [Fields.ofClock]
    omega
  · exact Nat.mod_lt _ (by decide)

/-- The date of a day is as many days after the start. -/
theorem days_ofClock (days : ℕ) :
    daysBeforeYear (Fields.yearOf days) +
      daysBeforeMonth (Fields.yearOf days) (Fields.monthOf (Fields.yearOf days) (Fields.yearDay days)) +
      (Fields.yearDay days -
        daysBeforeMonth (Fields.yearOf days)
          (Fields.monthOf (Fields.yearOf days) (Fields.yearDay days)) + 1 - 1) = days := by
  have hyear : daysBeforeYear (Fields.yearOf days) ≤ days := daysBeforeYear_yearOf
  have hmonth := @daysBeforeMonth_monthOf (Fields.yearOf days) (Fields.yearDay days)
  have hday : daysBeforeYear (Fields.yearOf days) + Fields.yearDay days = days :=
    Nat.add_sub_cancel' hyear
  omega

theorem clock_ofClock (t : ℕ) : (Fields.ofClock t).clock = t := by
  have hnanos : t % nanosPerDay % 10 ^ 9 = t % 10 ^ 9 := Nat.mod_mod_of_dvd t ⟨86400,by decide⟩
  have hday := Nat.div_add_mod t nanosPerDay
  have hsecond := Nat.div_add_mod (t % nanosPerDay) (10 ^ 9)
  rw [hnanos] at hsecond
  dsimp only [Fields.clock,Fields.ofClock]
  rw [days_ofClock]
  generalize t % nanosPerDay / 10 ^ 9 = seconds at hsecond ⊢
  have htime : (seconds / 3600 * 60 + seconds / 60 % 60) * 60 + seconds % 60 = seconds := by omega
  rw [htime,mul_comm (t / nanosPerDay),mul_comm seconds]
  omega

end Calendar
