/-! Years and months. Months are counted without a break across years, and a month begins when the one
before it is over (`start_plus_one`). -/

namespace UsageBilling

/-- Whether a year has a 29 February. -/
def leapYear (year : Nat) : Bool := year % 4 == 0 && (year % 100 != 0 || year % 400 == 0)

def daysBeforeYear (year : Nat) : Nat :=
  365 * (year - 1) + (year - 1) / 4 - (year - 1) / 100 + (year - 1) / 400

theorem daysBeforeYear_succ {year : Nat} (h : 0 < year) :
    daysBeforeYear (year + 1) = daysBeforeYear year + if leapYear year then 366 else 365 := by
  have h4 : year / 4 = (year - 1) / 4 + if year % 4 = 0 then 1 else 0 := by split <;> omega
  have h100 : year / 100 = (year - 1) / 100 + if year % 100 = 0 then 1 else 0 := by split <;> omega
  have h400 : year / 400 = (year - 1) / 400 + if year % 400 = 0 then 1 else 0 := by split <;> omega
  have hle : (year - 1) / 100 ≤ (year - 1) / 4 := by omega
  have hc : year % 100 = 0 → year % 4 = 0 := by omega
  have hcc : year % 400 = 0 → year % 100 = 0 := by omega
  unfold daysBeforeYear leapYear
  rw [Nat.add_sub_cancel, h4, h100, h400]
  generalize (year - 1) / 4 = a, (year - 1) / 100 = b, (year - 1) / 400 = c at hle ⊢
  by_cases h4 : year % 4 = 0
  · by_cases h100 : year % 100 = 0
    · by_cases h400 : year % 400 = 0 <;> simp [h4, h100, h400] <;> omega
    · have h400 : ¬ year % 400 = 0 := fun h => h100 (hcc h)
      simp [h4, h100, h400]
      omega
  · have h100 : ¬ year % 100 = 0 := fun h => h4 (hc h)
    have h400 : ¬ year % 400 = 0 := fun h => h100 (hcc h)
    simp [h4, h100, h400]
    omega

/-- A month of some year, by its number since year 0. -/
structure Month where
  index : Nat
  deriving DecidableEq

namespace Month

/-- The month of a year, numbered 1 to 12. -/
def of (year number : Nat) : Month := ⟨year * 12 + (number - 1)⟩

def year (m : Month) : Nat := m.index / 12

/-- The number of the month in its year, 1 to 12. -/
def number (m : Month) : Nat := m.index % 12 + 1

def plus (m : Month) (n : Nat) : Month := ⟨m.index + n⟩

def length (m : Month) : Nat :=
  match m.number with
  | 2 => if leapYear m.year then 29 else 28
  | 4 | 6 | 9 | 11 => 30
  | _ => 31

/-- The number of days of a year before its month `number`. -/
def daysBefore (leap : Bool) (number : Nat) : Nat :=
  let common := match number with
    | 1 => 0 | 2 => 31 | 3 => 59 | 4 => 90 | 5 => 120 | 6 => 151
    | 7 => 181 | 8 => 212 | 9 => 243 | 10 => 273 | 11 => 304 | _ => 334
  if leap && 2 < number then common + 1 else common

/-- The day number of the first day of a month. -/
def start (m : Month) : Nat := daysBeforeYear m.year + daysBefore (leapYear m.year) m.number + 1

theorem number_plus_one (m : Month) :
    (m.plus 1).number = if m.number = 12 then 1 else m.number + 1 := by
  unfold plus number
  dsimp only
  split <;> omega

theorem year_plus_one (m : Month) : (m.plus 1).year = if m.number = 12 then m.year + 1 else m.year := by
  unfold plus number year
  dsimp only
  split <;> omega

theorem daysBefore_le_succ (leap : Bool) : ∀ k, daysBefore leap (k + 2) ≤ daysBefore leap (k + 3)
  | 0 | 1 | 2 | 3 | 4 | 5 | 6 | 7 | 8 | 9 => by cases leap <;> decide
  | k + 10 => by cases leap <;> simp [daysBefore]

theorem daysBefore_le_daysBefore (leap : Bool) {j k : Nat} (h : j ≤ k) :
    daysBefore leap (j + 2) ≤ daysBefore leap (k + 2) := by
  induction h with
  | refl => exact Nat.le_refl _
  | step _ ih => exact Nat.le_trans ih (daysBefore_le_succ leap _)

theorem number_bounds (m : Month) : 1 ≤ m.number ∧ m.number ≤ 12 := by
  unfold number
  omega

theorem daysBefore_number_succ {m : Month} (h : m.number < 12) :
    daysBefore (leapYear m.year) (m.number + 1) = daysBefore (leapYear m.year) m.number + m.length := by
  have hlow := m.number_bounds.1
  unfold length
  generalize m.number = n at *
  have : n = 1 ∨ n = 2 ∨ n = 3 ∨ n = 4 ∨ n = 5 ∨ n = 6 ∨ n = 7 ∨ n = 8 ∨ n = 9 ∨ n = 10 ∨ n = 11 := by
    omega
  rcases this with rfl | rfl | rfl | rfl | rfl | rfl | rfl | rfl | rfl | rfl | rfl <;>
    cases leapYear m.year <;> rfl

theorem start_plus_one {m : Month} (h : 0 < m.year) : (m.plus 1).start = m.start + m.length := by
  rw [start, start, number_plus_one, year_plus_one]
  by_cases hlast : m.number = 12
  · rw [if_pos hlast, if_pos hlast, daysBeforeYear_succ h, length, hlast]
    cases leapYear m.year <;> simp [daysBefore]
  · rw [if_neg hlast, if_neg hlast, daysBefore_number_succ (by have := m.number_bounds.2; omega)]
    omega

theorem length_pos (m : Month) : 0 < m.length := by
  unfold length
  split <;> try omega
  split <;> omega

end Month

end UsageBilling
