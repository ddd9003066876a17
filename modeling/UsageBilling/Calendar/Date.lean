import UsageBilling.Calendar.Month
import UsageBilling.Text.Digits

/-! Calendar dates of the years 1 to 9999. A date is its day number, counted from 1 for the first day
of year 1, so that order and addition of days are those of the number; the year, month and day of a
date are read off the month that holds it. The year and the month found for a day are those that hold
it (`daysBeforeYear_yearOf_lt`, `le_daysBeforeYear_yearOf`, `month_bounds`). -/

namespace UsageBilling

/-- Why a date cannot be formed. -/
inductive Calendar.Fault where
  | dateOutOfRange
  | yearOutOfRange (year : Nat)
  deriving DecidableEq

/-- The day number of the last date, 9999-12-31. -/
def lastDay : Nat := 3652059

structure Date where
  ordinal : Nat
  pos : 0 < ordinal
  le_last : ordinal ≤ lastDay
  deriving DecidableEq

namespace Date

instance : LE Date := ⟨fun a b => a.ordinal ≤ b.ordinal⟩
instance : LT Date := ⟨fun a b => a.ordinal < b.ordinal⟩
instance (a b : Date) : Decidable (a ≤ b) := inferInstanceAs (Decidable (a.ordinal ≤ b.ordinal))
instance (a b : Date) : Decidable (a < b) := inferInstanceAs (Decidable (a.ordinal < b.ordinal))
instance : Max Date := ⟨fun a b => if a ≤ b then b else a⟩
instance : Min Date := ⟨fun a b => if a ≤ b then a else b⟩

def ofOrdinal (n : Nat) : Except Calendar.Fault Date :=
  if h : 0 < n ∧ n ≤ lastDay then .ok ⟨n, h.1, h.2⟩ else .error .dateOutOfRange

def addDays (d : Date) (n : Nat) : Except Calendar.Fault Date := ofOrdinal (d.ordinal + n)

/-- The year of a day number. An average year has 146097 / 400 days, and the year found by that is
off by one at most. -/
def yearOf (ordinal : Nat) : Nat :=
  let guess := (ordinal - 1) * 400 / 146097 + 1
  if ordinal ≤ daysBeforeYear guess then guess - 1
  else if daysBeforeYear (guess + 1) < ordinal then guess + 1
  else guess

theorem daysBeforeYear_yearOf_lt {n : Nat} (h : 0 < n) : daysBeforeYear (yearOf n) < n := by
  unfold yearOf daysBeforeYear
  dsimp only
  split
  · omega
  · split <;> omega

theorem le_daysBeforeYear_yearOf {n : Nat} (h : 0 < n) : n ≤ daysBeforeYear (yearOf n + 1) := by
  unfold yearOf daysBeforeYear
  dsimp only
  split
  · omega
  · split <;> omega

def year (d : Date) : Nat := yearOf d.ordinal

/-- The day of the year, from 1. -/
def dayOfYear (d : Date) : Nat := d.ordinal - daysBeforeYear d.year

/-- The month that holds a date: after January, one for each later month begun by that day. -/
def month (d : Date) : Month :=
  let begun := (List.range 11).filter fun k => Month.daysBefore (leapYear d.year) (k + 2) < d.dayOfYear
  .of d.year (begun.length + 1)

/-- The months begun by a day are the first ones. -/
theorem begun_bounds (leap : Bool) (day n : Nat) :
    let count := ((List.range n).filter fun k => Month.daysBefore leap (k + 2) < day).length
    count ≤ n ∧ (∀ k < count, Month.daysBefore leap (k + 2) < day) ∧
      ∀ k < n, count ≤ k → day ≤ Month.daysBefore leap (k + 2) := by
  dsimp only
  induction n with
  | zero => simp
  | succ n ih =>
      obtain ⟨hle, hbegun, hlater⟩ := ih
      rw [List.range_succ, List.filter_append, List.length_append]
      by_cases hn : Month.daysBefore leap (n + 2) < day
      · have hall : ∀ k ≤ n, Month.daysBefore leap (k + 2) < day := fun k hk =>
          Nat.lt_of_le_of_lt (Month.daysBefore_le_daysBefore leap hk) hn
        have hcount : n ≤ ((List.range n).filter fun k => Month.daysBefore leap (k + 2) < day).length := by
          refine Nat.not_lt.mp fun hlt => ?_
          exact Nat.not_lt.mpr (hlater _ hlt (Nat.le_refl _)) (hall _ hle)
        rw [List.filter_cons_of_pos (by simpa using hn), List.filter_nil, List.length_singleton]
        exact ⟨by omega, fun k hk => hall k (by omega), fun k hk hge => by omega⟩
      · rw [List.filter_cons_of_neg (by simpa using hn), List.filter_nil, List.length_nil, Nat.add_zero]
        refine ⟨by omega, hbegun, fun k hk hge => ?_⟩
        rcases Nat.lt_succ_iff_lt_or_eq.mp hk with hlt | rfl
        · exact hlater k hlt hge
        · exact Nat.not_lt.mp hn

theorem year_pos (d : Date) : 0 < d.year := by
  refine Nat.pos_of_ne_zero fun h => ?_
  have hle := le_daysBeforeYear_yearOf d.pos
  have hd := d.pos
  rw [show yearOf d.ordinal = 0 from h] at hle
  simp [daysBeforeYear] at hle
  omega

/-- The months begun after January by a day of the year. -/
theorem month_eq (d : Date) : ∃ begun ≤ 11, d.month = ⟨d.year * 12 + begun⟩ ∧
    (∀ k < begun, Month.daysBefore (leapYear d.year) (k + 2) < d.dayOfYear) ∧
      ∀ k < 11, begun ≤ k → d.dayOfYear ≤ Month.daysBefore (leapYear d.year) (k + 2) := by
  obtain ⟨hle, hbegun, hlater⟩ := begun_bounds (leapYear d.year) d.dayOfYear 11
  exact ⟨_, hle, rfl, hbegun, hlater⟩

theorem year_month (d : Date) : d.month.year = d.year := by
  obtain ⟨begun, hle, hm, -⟩ := d.month_eq
  rw [hm, Month.year]
  dsimp only
  omega

theorem month_bounds (d : Date) :
    d.month.start ≤ d.ordinal ∧ d.ordinal < d.month.start + d.month.length := by
  obtain ⟨begun, hle, hm, hbegun, hlater⟩ := d.month_eq
  have hyear := d.year_month
  have hnumber : d.month.number = begun + 1 := by
    rw [hm, Month.number]
    dsimp only
    omega
  have hafter : daysBeforeYear d.year < d.ordinal := daysBeforeYear_yearOf_lt d.pos
  have hbefore : d.ordinal ≤ daysBeforeYear (d.year + 1) := le_daysBeforeYear_yearOf d.pos
  rw [daysBeforeYear_succ d.year_pos] at hbefore
  have hday : d.dayOfYear = d.ordinal - daysBeforeYear d.year := rfl
  rw [Month.start, hyear, hnumber]
  constructor
  · cases begun with
    | zero => simp [Month.daysBefore]; omega
    | succ k =>
        have : Month.daysBefore (leapYear d.year) (k + 1 + 1) < d.dayOfYear := hbegun k (Nat.lt_succ_self k)
        omega
  · rcases Nat.lt_or_ge begun 11 with hlt | hge
    · have hnext : d.dayOfYear ≤ Month.daysBefore (leapYear d.year) (begun + 1 + 1) :=
        hlater begun hlt (Nat.le_refl _)
      have hstep := Month.daysBefore_number_succ (show d.month.number < 12 by omega)
      rw [hyear, hnumber] at hstep
      omega
    · obtain rfl : begun = 11 := Nat.le_antisymm hle hge
      rw [Month.length, hnumber]
      revert hbefore
      cases leapYear d.year <;> simp [Month.daysBefore] <;> omega

/-- The day of the month, from 1. -/
def day (d : Date) : Nat := d.ordinal + 1 - d.month.start

/-- The day `n` of a month, or its last day where the month is shorter. -/
def inMonth (m : Month) (n : Nat) : Except Calendar.Fault Date :=
  if 9999 < m.year then .error (.yearOutOfRange m.year)
  else ofOrdinal (m.start + min n m.length - 1)

/-- The date of a year, a month and a day, if there is such a day. -/
def of? (year number day : Nat) : Option Date :=
  let m := Month.of year number
  if 1 ≤ year ∧ 1 ≤ number ∧ number ≤ 12 ∧ 1 ≤ day ∧ day ≤ m.length then
    (inMonth m day).toOption
  else none

/-! ### Text -/

/-- A number in digits, filled up with zeros to a width. -/
def padded (width n : Nat) : List Char := Digits.filled width (Digits.decimal n)

def toChars (d : Date) : List Char :=
  padded 4 d.year ++ '-' :: padded 2 d.month.number ++ '-' :: padded 2 d.day

def toText (d : Date) : String := String.ofList d.toChars

/-- Reads `YYYY-MM-DD`. -/
def ofChars? : List Char → Option Date
  | [y₁, y₂, y₃, y₄, '-', m₁, m₂, '-', d₁, d₂] => do
      of? (← Digits.number? [y₁, y₂, y₃, y₄]) (← Digits.number? [m₁, m₂]) (← Digits.number? [d₁, d₂])
  | _ => none

def ofText? (text : String) : Option Date := ofChars? text.toList

end Date
end UsageBilling
