import Mathlib.Order.Bounds.Defs
import UsageBilling.Proofs.Calendar.Restart

/-! Dates that are aligned with a cycle day. A date is aligned if it is the cycle day of its month or, in a
shorter month, the last day. Each month of the calendar has one aligned date (`Date.inMonth_eq_ok_iff`), and
aligned dates are ordered as their months are (`AlignedTo.month_lt_month`). Boundary number `k` of a cycle counted
in months is the aligned date `k` periods of months after the month of the first one, with no regard to the
months in between (`date_eq_ok_iff_alignedTo`), and no aligned date lies between the start and a first boundary
that is not a whole period away (`isLeast_first`). -/

namespace UsageBilling

namespace Month

theorem lastDay_lt_start {m : Month} (h : 9999 < m.year) : lastDay < m.start := by
  have hindex : (⟨9999 * 12 + 11⟩ : Month).index < m.index := by
    unfold year at h
    dsimp only
    omega
  calc lastDay < (⟨9999 * 12 + 11⟩ : Month).start + (⟨9999 * 12 + 11⟩ : Month).length := by decide
    _ ≤ m.start := start_add_length_le (by decide) hindex

theorem year_le_of_index_le {m n : Month} (h : m.index ≤ n.index) : m.year ≤ n.year := Nat.div_le_div_right h

end Month

namespace Date

/-- The cycle day of the month, or the last day of a shorter month. -/
def AlignedTo (cycleDay : Int) (d : Date) : Prop := (d.day : Int) = min cycleDay d.month.length

instance (cycleDay : Int) (d : Date) : Decidable (d.AlignedTo cycleDay) :=
  inferInstanceAs (Decidable (_ = _))

variable {a b d : Date} {m : Month} {cycleDay : Int}

theorem year_le (d : Date) : d.month.year ≤ 9999 := by
  refine Nat.not_lt.mp fun h => ?_
  have hstart := Month.lastDay_lt_start h
  have hlow := d.month_bounds.1
  have hlast := d.le_last
  omega

/-- A month of the calendar has one aligned date. -/
theorem inMonth_eq_ok_iff (hm : 0 < m.year) (hday : 1 ≤ cycleDay) :
    inMonth m cycleDay.toNat = .ok d ↔ d.AlignedTo cycleDay ∧ d.month = m := by
  have hlength := m.length_pos
  have hstart := m.start_pos
  constructor
  · intro h
    obtain rfl : d.month = m := month_inMonth hm (by omega) h
    have hd := inMonth_eq_ok h
    refine ⟨?_, rfl⟩
    rw [AlignedTo, day]
    omega
  · rintro ⟨haligned, rfl⟩
    have hlow := d.month_bounds.1
    rw [AlignedTo, day] at haligned
    rw [inMonth, if_neg (Nat.not_lt.mpr d.year_le)]
    exact ofOrdinal_eq_ok.mpr (by omega)

theorem lt_of_month_lt (h : a.month.index < b.month.index) : a < b := by
  have hmonths := Month.start_add_length_le a.year_month_pos h
  have hhigh := a.month_bounds.2
  have hlow := b.month_bounds.1
  exact show a.ordinal < b.ordinal by omega

theorem month_le_month (h : a < b) : a.month.index ≤ b.month.index :=
  Nat.not_lt.mp fun hlt => Nat.lt_asymm h (lt_of_month_lt hlt)

theorem month_eq_iff : a.month = b.month ↔ a.month.index = b.month.index :=
  ⟨congrArg Month.index, congrArg Month.mk⟩

theorem lt_iff_day_lt (h : a.month = b.month) : a < b ↔ a.day < b.day := by
  have ha := a.month_bounds.1
  have hb := b.month_bounds.1
  rw [h] at ha
  rw [lt_def, day, day, h]
  omega

theorem AlignedTo.month_lt_month (ha : a.AlignedTo cycleDay) (hb : b.AlignedTo cycleDay) (h : a < b) :
    a.month.index < b.month.index := by
  refine Nat.lt_of_le_of_ne (month_le_month h) fun heq => ?_
  have hmonth := month_eq_iff.mpr heq
  have hday := (lt_iff_day_lt hmonth).mp h
  rw [AlignedTo] at ha hb
  rw [hmonth] at ha
  omega

end Date

namespace BillingCycle

variable {start d f : Date} {cycleDay : Int} {period : BillingPeriod} {k n : Nat}

theorem days?_eq_none (hmonths : period.months? = some n) : period.days? = none := by
  cases period <;> first | rfl | cases hmonths

/-- The month of the first boundary of a cycle that is counted in months: the month of the start while its
aligned date is still to come, the month after a whole period from an aligned start, the next month otherwise. -/
def firstMonth (start : Date) (cycleDay : Int) (n : Nat) : Month :=
  if (start.day : Int) < min cycleDay start.month.length then start.month
  else if start.AlignedTo cycleDay then start.month.plus n
  else start.month.plus 1

theorem firstMonth_of_alignedTo (h : start.AlignedTo cycleDay) : firstMonth start cycleDay n = start.month.plus n := by
  have hnot : ¬ (start.day : Int) < min cycleDay start.month.length := by
    rw [← h]
    exact Int.lt_irrefl _
  rw [firstMonth, if_neg hnot, if_pos h]

theorem firstMonth_year_pos : 0 < (firstMonth start cycleDay n).year := by
  have hstart := start.year_month_pos
  unfold firstMonth
  split
  · exact hstart
  · split
    · exact Month.year_plus_pos hstart n
    · exact Month.year_plus_pos hstart 1

theorem first_eq_inMonth (hmonths : period.months? = some n) (hlow : 1 ≤ cycleDay) (hhigh : cycleDay ≤ 31) :
    first start cycleDay period = liftM (Date.inMonth (firstMonth start cycleDay n) cycleDay.toNat) := by
  have hpos := start.year_month_pos
  obtain ⟨candidate, hcandidate⟩ := Date.exists_inMonth hpos start.year_le (show 1 ≤ cycleDay.toNat by omega)
  obtain ⟨haligned, hmonth⟩ := (Date.inMonth_eq_ok_iff hpos hlow).mp hcandidate
  have hday : (candidate.day : Int) = min cycleDay start.month.length := hmonth ▸ haligned
  have hlt := Date.lt_iff_day_lt hmonth
  have hgt := Date.lt_iff_day_lt hmonth.symm
  rw [first, days?_eq_none hmonths]
  dsimp only
  rw [hmonths]
  dsimp only
  rw [if_neg (by omega), hcandidate, firstMonth, ← hday]
  change (if candidate < start then _ else if candidate = start then _ else _) = _
  by_cases hbefore : candidate < start
  · have hpassed := hlt.mp hbefore
    have hunaligned : ¬ start.AlignedTo cycleDay := by
      rw [Date.AlignedTo, ← hday]
      omega
    rw [if_pos hbefore, if_neg (by omega), if_neg hunaligned]
  · rw [if_neg hbefore]
    by_cases hsame : candidate = start
    · obtain rfl := hsame
      rw [if_pos rfl, if_neg (Int.lt_irrefl _), if_pos haligned]
    · have hafter : start < candidate := by
        refine Nat.lt_of_le_of_ne (Nat.not_lt.mp hbefore) fun h => hsame (Date.ext h.symm)
      rw [if_neg hsame, if_pos (Int.ofNat_lt.mpr (hgt.mp hafter)), hcandidate]
      rfl

theorem start_lt_date (h : date start cycleDay period k = .ok d) : start < d :=
  Nat.lt_of_le_of_lt (Nat.le_add_right _ k) (start_add_lt_date h)

/-- Boundary number `k` is the aligned date `k` periods after the month of the first one. -/
theorem date_eq_ok_iff_alignedTo (hmonths : period.months? = some n) (hlow : 1 ≤ cycleDay) (hhigh : cycleDay ≤ 31) :
    date start cycleDay period k = .ok d ↔
      d.AlignedTo cycleDay ∧ d.month = (firstMonth start cycleDay n).plus (n * k) := by
  have hpos (k : Nat) := Month.year_plus_pos (@firstMonth_year_pos start cycleDay n) k
  have hfirst {f : Date} : first start cycleDay period = .ok f ↔
      f.AlignedTo cycleDay ∧ f.month = firstMonth start cycleDay n := by
    rw [first_eq_inMonth hmonths hlow hhigh, liftM_calendar_eq_ok]
    exact Date.inMonth_eq_ok_iff (hpos 0) hlow
  have hdate {f : Date} (hf : first start cycleDay period = .ok f) : date start cycleDay period k = .ok d ↔
      d.AlignedTo cycleDay ∧ d.month = (firstMonth start cycleDay n).plus (n * k) := by
    rw [date_eq_ok_of_months (days?_eq_none hmonths) hmonths hf, (hfirst.mp hf).2]
    exact Date.inMonth_eq_ok_iff (hpos _) hlow
  constructor
  · intro h
    obtain ⟨f, hf, -⟩ := bind_eq_ok.mp h
    exact (hdate hf).mp h
  · intro h
    have hyear : (firstMonth start cycleDay n).year ≤ 9999 := by
      refine Nat.le_trans (Month.year_le_of_index_le ?_) d.year_le
      rw [h.2]
      exact Nat.le_add_right _ _
    obtain ⟨f, hf⟩ := Date.exists_inMonth (hpos 0) hyear (show 1 ≤ cycleDay.toNat by omega)
    exact (hdate (hfirst.mpr ((Date.inMonth_eq_ok_iff (hpos 0) hlow).mp hf))).mpr h

/-- No aligned date after the start lies in a month before that of the first boundary, unless a period of
several months begins with an aligned start. -/
theorem firstMonth_le (hstart : ¬ start.AlignedTo cycleDay ∨ n = 1) (haligned : d.AlignedTo cycleDay) (h : start < d) :
    (firstMonth start cycleDay n).index ≤ d.month.index := by
  have hmonth := Date.month_le_month h
  unfold firstMonth
  split
  · exact hmonth
  next hlate =>
    have hnext : start.month.index + 1 ≤ d.month.index := by
      refine Nat.lt_of_le_of_ne hmonth fun heq => ?_
      have hsame := Date.month_eq_iff.mpr heq
      have hday := (Date.lt_iff_day_lt hsame).mp h
      rw [Date.AlignedTo, ← hsame] at haligned
      omega
    split
    next hmet =>
      obtain rfl := hstart.resolve_left fun hnot => hnot hmet
      exact hnext
    next => exact hnext

/-- The first boundary is the least aligned date after the start, unless a period of several months begins with
an aligned start. -/
theorem isLeast_first (hmonths : period.months? = some n) (hlow : 1 ≤ cycleDay) (hhigh : cycleDay ≤ 31)
    (hstart : ¬ start.AlignedTo cycleDay ∨ n = 1) (h : date start cycleDay period 0 = .ok f) :
    IsLeast {d : Date | d.AlignedTo cycleDay ∧ start < d} f := by
  obtain ⟨haligned, hmonth⟩ := (date_eq_ok_iff_alignedTo hmonths hlow hhigh).mp h
  refine ⟨⟨haligned, start_lt_date h⟩, fun d hd => Nat.not_lt.mp fun hlt => ?_⟩
  have hbefore := hd.1.month_lt_month haligned hlt
  have hfirst := firstMonth_le hstart hd.1 hd.2
  rw [hmonth] at hbefore
  exact absurd hbefore (Nat.not_lt.mpr hfirst)

/-- A cycle of single months meets every aligned date after the start. -/
theorem exists_date_iff (hmonths : period.months? = some 1) (hlow : 1 ≤ cycleDay) (hhigh : cycleDay ≤ 31) :
    (∃ k, date start cycleDay period k = .ok d) ↔ d.AlignedTo cycleDay ∧ start < d := by
  constructor
  · rintro ⟨k, hk⟩
    exact ⟨((date_eq_ok_iff_alignedTo hmonths hlow hhigh).mp hk).1, start_lt_date hk⟩
  · rintro ⟨haligned, hlt⟩
    have hle := firstMonth_le (.inr rfl) haligned hlt
    refine ⟨d.month.index - (firstMonth start cycleDay 1).index, ?_⟩
    rw [date_eq_ok_iff_alignedTo hmonths hlow hhigh, Nat.one_mul, Month.plus, Nat.add_sub_cancel' hle]
    exact ⟨haligned, rfl⟩

end BillingCycle
end UsageBilling
