import UsageBilling.Calendar.Zone
import UsageBilling.Proofs.Sequencing

/-! Local dates never go backwards. Where the clocks of a zone are turned back they show the same date
before and after (`Saving.IsRegular`), so of two instants the later one has the same or a later date in
every zone that is covered (`Zone.localDate_mono`). -/

namespace UsageBilling

/-! ### Years -/

theorem daysBeforeYear_mono {x y : Nat} (h : x ≤ y) : daysBeforeYear x ≤ daysBeforeYear y := by
  induction h with
  | refl => exact Nat.le_refl _
  | @step y _ ih =>
      refine Nat.le_trans ih ?_
      rcases Nat.eq_zero_or_pos y with rfl | hpos
      · exact Nat.le_refl _
      · rw [daysBeforeYear_succ hpos]
        exact Nat.le_add_right _ _

namespace Date

theorem yearOf_mono {m n : Nat} (hm : 0 < m) (h : m ≤ n) : yearOf m ≤ yearOf n := by
  have hbefore := daysBeforeYear_yearOf_lt hm
  have hafter := le_daysBeforeYear_yearOf (show 0 < n by omega)
  rcases Nat.lt_or_ge (yearOf n) (yearOf m) with hlt | hge
  · have := daysBeforeYear_mono (show yearOf n + 1 ≤ yearOf m by omega)
    omega
  · exact hge

theorem yearOf_pos {n : Nat} (h : 0 < n) : 0 < yearOf n := by
  have hafter := le_daysBeforeYear_yearOf h
  refine Nat.pos_of_ne_zero fun h0 => ?_
  rw [h0] at hafter
  have : daysBeforeYear (0 + 1) = 0 := rfl
  omega

end Date

/-! ### Changes of the clocks -/

/-- The Sunday on which the clocks are turned back lies well within its year, the changes of every year
come in the same order, and the clock of a zone with an offset of `minutes` shows the same day just
before and just after it is turned back. -/
structure Saving.IsRegular (s : Saving) (minutes : Int) : Prop where
  after_newYear : ∀ year, 0 < year → daysBeforeYear year + 3 ≤ s.finish.sunday.ordinal year
  before_newYear : ∀ year, 0 < year → s.finish.sunday.ordinal year + 3 ≤ daysBeforeYear (year + 1)
  ordered : (∀ year, 0 < year → s.start.instant year < s.finish.instant year) ∨
    ∀ year, 0 < year → s.finish.instant year < s.start.instant year
  minute_low : -1440 ≤ s.finish.minute
  minute_high : s.finish.minute ≤ 1440
  after_midnight : 0 ≤ s.finish.minute + minutes
  before_midnight : s.finish.minute + minutes + 60 ≤ 1440

theorem Month.start_of (year : Nat) {number : Nat} (h : 1 ≤ number) (h' : number ≤ 12) :
    (of year number).start = daysBeforeYear year + daysBefore (leapYear year) number + 1 := by
  have hyear : (of year number).year = year := by
    rw [of, Month.year]
    dsimp only
    omega
  have hnumber : (of year number).number = number := by
    rw [of, Month.number]
    dsimp only
    omega
  rw [start, hyear, hnumber]

namespace SundayOf

theorem onOrAfter_bounds (n : Nat) : n ≤ onOrAfter n ∧ onOrAfter n ≤ n + 6 := by
  unfold onOrAfter
  omega

/-- A Sunday counted from the start of a month lies in the week of that number. -/
theorem ordinal_nth (year week number : Nat) (h : 1 ≤ number) (h' : number ≤ 12) :
    daysBeforeYear year + Month.daysBefore (leapYear year) number + 7 * (week - 1) < (nth week number).ordinal year ∧
      (nth week number).ordinal year ≤
        daysBeforeYear year + Month.daysBefore (leapYear year) number + 7 * (week - 1) + 7 := by
  have hnear := onOrAfter_bounds (Month.of year number).start
  rw [Month.start_of year h h'] at hnear
  rw [ordinal, Month.start_of year h h']
  omega

/-- The last Sunday of a month of 31 days lies in the last week of the month. -/
theorem ordinal_last (year number : Nat) (h : 1 ≤ number) (h' : number ≤ 12)
    (hlength : (Month.of year number).length = 31) :
    daysBeforeYear year + Month.daysBefore (leapYear year) number + 24 < (last number).ordinal year ∧
      (last number).ordinal year ≤ daysBeforeYear year + Month.daysBefore (leapYear year) number + 31 := by
  have hnear := onOrAfter_bounds ((Month.of year number).start + 24)
  rw [Month.start_of year h h'] at hnear
  rw [ordinal, hlength, Month.start_of year h h', Nat.add_sub_assoc (by decide), show 31 - 7 = 24 from rfl]
  omega

end SundayOf

namespace Zone

theorem isRegular_northAmerican {west : Int} (h : 0 ≤ west) (h' : west ≤ 720) :
    (northAmerican west).IsRegular (-west) := by
  have hbounds (year : Nat) (hyear : 0 < year) :
      daysBeforeYear year + 3 ≤ (SundayOf.nth 1 11).ordinal year ∧
      (SundayOf.nth 1 11).ordinal year + 3 ≤ daysBeforeYear (year + 1) ∧
      (SundayOf.nth 2 3).ordinal year + 3 ≤ (SundayOf.nth 1 11).ordinal year := by
    have hmarch := SundayOf.ordinal_nth year 2 3 (by decide) (by decide)
    have hnovember := SundayOf.ordinal_nth year 1 11 (by decide) (by decide)
    rw [daysBeforeYear_succ hyear]
    generalize leapYear year = leap at hmarch hnovember ⊢
    cases leap <;> simp [Month.daysBefore] at hmarch hnovember ⊢ <;> omega
  refine ⟨fun year hy => (hbounds year hy).1, fun year hy => (hbounds year hy).2.1,
    Or.inl fun year hy => ?_, ?_, ?_, ?_, ?_⟩
  · have := (hbounds year hy).2.2
    simp only [northAmerican, ClockChange.instant, dayLength]
    omega
  all_goals
    simp only [northAmerican]
    omega

theorem isRegular_european {minutes : Int} (h : 0 ≤ minutes) (h' : minutes ≤ 720) :
    european.IsRegular minutes := by
  have hlength (year : Nat) : (Month.of year 3).length = 31 ∧ (Month.of year 10).length = 31 := by
    simp [Month.length, Month.number, Month.of, Nat.add_mod]
  have hbounds (year : Nat) (hyear : 0 < year) :
      daysBeforeYear year + 3 ≤ (SundayOf.last 10).ordinal year ∧
      (SundayOf.last 10).ordinal year + 3 ≤ daysBeforeYear (year + 1) ∧
      (SundayOf.last 3).ordinal year + 3 ≤ (SundayOf.last 10).ordinal year := by
    have hmarch := SundayOf.ordinal_last year 3 (by decide) (by decide) (hlength year).1
    have hoctober := SundayOf.ordinal_last year 10 (by decide) (by decide) (hlength year).2
    rw [daysBeforeYear_succ hyear]
    generalize leapYear year = leap at hmarch hoctober ⊢
    cases leap <;> simp [Month.daysBefore] at hmarch hoctober ⊢ <;> omega
  refine ⟨fun year hy => (hbounds year hy).1, fun year hy => (hbounds year hy).2.1,
    Or.inl fun year hy => ?_, ?_, ?_, ?_, ?_⟩
  · have := (hbounds year hy).2.2
    simp only [european, ClockChange.instant, dayLength]
    omega
  all_goals
    simp only [european]
    omega

theorem isRegular_australian : australian.IsRegular 600 := by
  have hbounds (year : Nat) (hyear : 0 < year) :
      daysBeforeYear year + 3 ≤ (SundayOf.nth 1 4).ordinal year ∧
      (SundayOf.nth 1 4).ordinal year + 3 ≤ daysBeforeYear (year + 1) ∧
      (SundayOf.nth 1 4).ordinal year + 3 ≤ (SundayOf.nth 1 10).ordinal year := by
    have hapril := SundayOf.ordinal_nth year 1 4 (by decide) (by decide)
    have hoctober := SundayOf.ordinal_nth year 1 10 (by decide) (by decide)
    rw [daysBeforeYear_succ hyear]
    generalize leapYear year = leap at hapril hoctober ⊢
    cases leap <;> simp [Month.daysBefore] at hapril hoctober ⊢ <;> omega
  refine ⟨fun year hy => (hbounds year hy).1, fun year hy => (hbounds year hy).2.1,
    Or.inr fun year hy => ?_, ?_, ?_, ?_, ?_⟩
  · have := (hbounds year hy).2.2
    simp only [australian, ClockChange.instant, dayLength]
    omega
  all_goals
    simp only [australian]
    omega

/-- The zones that local dates are computed in: fixed offsets and the zones known by name. -/
def Covered (z : Zone) : Prop := (∃ minutes, z = fixed minutes) ∨ z ∈ known

theorem covered_utc : utc.Covered := Or.inr (by decide)

theorem Covered.isRegular {name : String} {minutes : Int} {s : Saving}
    (h : (named name minutes (some s)).Covered) : s.IsRegular minutes := by
  rcases h with ⟨m, hm⟩ | h
  · cases hm
  · simp only [known, utc, List.mem_cons, named.injEq, List.not_mem_nil, or_false, reduceCtorEq, and_false,
      false_or, or_self, Option.some.injEq] at h
    rcases h with ⟨-, rfl, rfl⟩ | ⟨-, rfl, rfl⟩ | ⟨-, rfl, rfl⟩ | ⟨-, rfl, rfl⟩ | ⟨-, rfl, rfl⟩
    · exact isRegular_northAmerican (by decide) (by decide)
    · exact isRegular_northAmerican (by decide) (by decide)
    · exact isRegular_european (by decide) (by decide)
    · exact isRegular_european (by decide) (by decide)
    · exact isRegular_australian

end Zone

namespace Saving

variable {s : Saving} {minutes : Int}

/-- The instant at which the clocks are turned back lies in its year. -/
theorem IsRegular.finish_bounds (h : s.IsRegular minutes) {year : Nat} (hyear : 0 < year) :
    (daysBeforeYear year + 1) * (dayLength : Int) ≤ s.finish.instant year ∧
      s.finish.instant year < (daysBeforeYear (year + 1) + 1) * (dayLength : Int) := by
  have hafter := h.after_newYear year hyear
  have hbefore := h.before_newYear year hyear
  have hlow := h.minute_low
  have hhigh := h.minute_high
  rw [ClockChange.instant, dayLength]
  omega

def yearAt (t : Int) : Nat := Date.yearOf (t / dayLength).toNat

theorem inForce_eq (s : Saving) (t : Int) : s.inForce t =
    if lastYear < yearAt t then decide (s.finish.instant lastYear < s.start.instant lastYear)
    else if s.start.instant (yearAt t) < s.finish.instant (yearAt t) then
      s.start.instant (yearAt t) ≤ t && t < s.finish.instant (yearAt t)
    else s.start.instant (yearAt t) ≤ t || t < s.finish.instant (yearAt t) := rfl

theorem yearAt_le_iff {t : Int} (ht : (dayLength : Int) ≤ t) (year : Nat) :
    yearAt t ≤ year ↔ t < (daysBeforeYear (year + 1) + 1) * (dayLength : Int) := by
  have hday : (0 : Int) < dayLength := by decide
  have hdiv : 1 ≤ t / dayLength := (Int.le_ediv_iff_mul_le hday).mpr (by omega)
  have hpos : 0 < (t / dayLength).toNat := by omega
  have hbefore := Date.daysBeforeYear_yearOf_lt hpos
  have hafter := Date.le_daysBeforeYear_yearOf hpos
  rw [← Int.ediv_lt_iff_lt_mul hday, yearAt]
  constructor
  · intro h
    have := daysBeforeYear_mono (show Date.yearOf (t / dayLength).toNat + 1 ≤ year + 1 by omega)
    omega
  · intro h
    by_contra hlt
    have := daysBeforeYear_mono (show year + 1 ≤ Date.yearOf (t / dayLength).toNat by omega)
    omega

theorem IsRegular.yearAt_le (h : s.IsRegular minutes) {t : Int} (ht : (dayLength : Int) ≤ t) {year : Nat}
    (hyear : 0 < year) (hlt : t < s.finish.instant year) : yearAt t ≤ year :=
  (yearAt_le_iff ht year).mpr (Int.lt_trans hlt (h.finish_bounds hyear).2)

theorem IsRegular.le_yearAt (h : s.IsRegular minutes) {t : Int} (ht : (dayLength : Int) ≤ t) {year : Nat}
    (hyear : 0 < year) (hle : s.finish.instant year ≤ t) : year ≤ yearAt t := by
  by_contra hlt
  have hbefore := (yearAt_le_iff ht (year - 1)).mp (by omega)
  rw [Nat.sub_add_cancel hyear] at hbefore
  have := (h.finish_bounds hyear).1
  omega

/-- Between an instant at which daylight saving is in force and a later one at which it is not, the
clocks are turned back. -/
theorem IsRegular.exists_finish (h : s.IsRegular minutes) {a b : Int} (ha : (dayLength : Int) ≤ a)
    (hab : a ≤ b) (hina : s.inForce a = true) (hinb : s.inForce b = false) :
    ∃ year, a < s.finish.instant year ∧ s.finish.instant year ≤ b := by
  have hday : (0 : Int) < dayLength := by decide
  have hone : 1 ≤ a / dayLength := (Int.le_ediv_iff_mul_le hday).mpr (by omega)
  have hdiv : a / dayLength ≤ b / dayLength := Int.ediv_le_ediv hday hab
  have hyears : yearAt a ≤ yearAt b := Date.yearOf_mono (by omega) (by omega)
  have hposa : 0 < yearAt a := Date.yearOf_pos (by omega)
  have hposb : 0 < yearAt b := Date.yearOf_pos (by omega)
  rw [inForce_eq] at hina hinb
  rcases h.ordered with hsummer | hwinter
  · have hL := hsummer lastYear (by decide)
    have hya := hsummer (yearAt a) hposa
    have hyb := hsummer (yearAt b) hposb
    refine ⟨yearAt a, ?_, ?_⟩
    · by_cases hlast : lastYear < yearAt a
      · simp [hlast, Int.not_lt.mpr (Int.le_of_lt hL)] at hina
      · simp [hlast, hya] at hina
        exact hina.2
    · by_contra hlt
      have heq : yearAt b = yearAt a := Nat.le_antisymm (h.yearAt_le (Int.le_trans ha hab) hposa (by omega)) hyears
      by_cases hlast : lastYear < yearAt a
      · simp [hlast, Int.not_lt.mpr (Int.le_of_lt hL)] at hina
      · simp [hlast, hya] at hina
        simp [heq, hlast, hya] at hinb
        omega
  · have hL := hwinter lastYear (by decide)
    have hya := hwinter (yearAt a) hposa
    have hyb := hwinter (yearAt b) hposb
    have hlast : ¬ lastYear < yearAt b := by
      intro hlast
      simp [hlast, hL] at hinb
    simp [hlast, Int.not_lt.mpr (Int.le_of_lt hyb)] at hinb
    refine ⟨yearAt b, ?_, hinb.2⟩
    by_contra hge
    have heq : yearAt a = yearAt b := Nat.le_antisymm hyears (h.le_yearAt ha hposb (by omega))
    simp [heq, hlast, Int.not_lt.mpr (Int.le_of_lt hyb)] at hina
    omega

end Saving

/-! ### Local dates -/

theorem Instant.dateAt_eq_ok {clock : Int} {d : Date} (h : dateAt clock = .ok d) :
    1 ≤ clock / dayLength ∧ d.ordinal = (clock / dayLength).toNat := by
  rw [dateAt, Date.ofOrdinal] at h
  split at h
  · obtain rfl := Except.ok.inj h
    dsimp only
    omega
  · cases h

namespace Zone

def clockAt (z : Zone) (utc : Int) : Int := utc + z.offsetAt utc * 60000000

theorem localDate_eq_ok {z : Zone} {i : Instant} {d : Date} (h : z.localDate i = .ok d) :
    (dayLength : Int) ≤ i.utc ∧ d.ordinal = (z.clockAt i.utc / dayLength).toNat := by
  obtain ⟨t, ht, h⟩ := bind_eq_ok.mp h
  obtain ⟨shown, hshown, ht⟩ := bind_eq_ok.mp ht
  obtain rfl := pure_eq_ok.mp ht
  have hday : (0 : Int) < dayLength := by decide
  have hone := (Int.le_ediv_iff_mul_le hday).mp (Instant.dateAt_eq_ok hshown).1
  exact ⟨by omega, (Instant.dateAt_eq_ok h).2⟩

/-- The clock of a covered zone may be turned back, but not to an earlier day. -/
theorem clockAt_day_mono {z : Zone} (hz : z.Covered) {a b : Int} (ha : (dayLength : Int) ≤ a) (hab : a ≤ b) :
    z.clockAt a / dayLength ≤ z.clockAt b / dayLength := by
  have hday : (0 : Int) < dayLength := by decide
  have hsame (m : Int) : (a + m * 60000000) / dayLength ≤ (b + m * 60000000) / dayLength :=
    Int.ediv_le_ediv hday (by omega)
  match z with
  | .fixed m => exact hsame m
  | .named _ m none => exact hsame m
  | .named _ m (some s) =>
      have hregular := hz.isRegular
      rw [clockAt, clockAt, offsetAt, offsetAt]
      cases hina : s.inForce a with
      | false =>
          rw [if_neg Bool.false_ne_true]
          refine Int.ediv_le_ediv hday ?_
          split <;> omega
      | true =>
          cases hinb : s.inForce b with
          | true =>
              exact hsame (m + 60)
          | false =>
              -- The clocks are turned back in between, and show one day before and after that.
              obtain ⟨year, hlt, hle⟩ := hregular.exists_finish ha hab hina hinb
              have hmidnight := hregular.after_midnight
              have hmidnight' := hregular.before_midnight
              rw [ClockChange.instant] at hlt hle
              simp only [if_true, if_false, Bool.false_eq_true]
              have hbefore : (a + (m + 60) * 60000000) / dayLength < s.finish.sunday.ordinal year + 1 :=
                Int.ediv_lt_of_lt_mul hday (by rw [dayLength] at *; omega)
              have hafter : (s.finish.sunday.ordinal year : Int) ≤ (b + m * 60000000) / dayLength :=
                (Int.le_ediv_iff_mul_le hday).mpr (by rw [dayLength] at *; omega)
              omega

/-- Daylight saving moves the clock of a zone by an hour, and nothing else does. -/
theorem offsetAt_le (z : Zone) (a b : Int) : z.offsetAt b ≤ z.offsetAt a + 60 := by
  match z with
  | .fixed m | .named _ m none =>
      show m ≤ m + 60
      omega
  | .named _ m (some s) =>
      rw [offsetAt, offsetAt]
      split <;> split <;> omega

/-- Less than twenty-three hours later the clock of a zone shows the next day at most. -/
theorem clockAt_day_le_succ (z : Zone) {a b : Int} (h : b - a < 23 * 3600000000) :
    z.clockAt b / dayLength ≤ z.clockAt a / dayLength + 1 := by
  have hday : (0 : Int) < dayLength := by decide
  have hoffset := z.offsetAt_le a b
  calc z.clockAt b / dayLength
      ≤ (z.clockAt a + dayLength) / dayLength := Int.ediv_le_ediv hday (by
        rw [clockAt, clockAt, dayLength]
        omega)
    _ = z.clockAt a / dayLength + 1 := by
        rw [Int.add_ediv_of_dvd_right (Int.dvd_refl _), Int.ediv_self (Int.ne_of_gt hday)]

/-- In a covered zone, a later instant has the same or a later local date. -/
theorem localDate_mono {z : Zone} (hz : z.Covered) {a b : Instant} (hab : a.utc ≤ b.utc) {d d' : Date}
    (ha : z.localDate a = .ok d) (hb : z.localDate b = .ok d') : d ≤ d' := by
  obtain ⟨hone, hd⟩ := localDate_eq_ok ha
  obtain ⟨-, hd'⟩ := localDate_eq_ok hb
  have hmono := clockAt_day_mono hz hone hab
  show d.ordinal ≤ d'.ordinal
  omega

/-- An instant less than twenty-three hours later has a local date one day later at most. -/
theorem localDate_le_succ {z : Zone} {a b : Instant} (h : b.utc - a.utc < 23 * 3600000000) {d d' : Date}
    (ha : z.localDate a = .ok d) (hb : z.localDate b = .ok d') : d'.ordinal ≤ d.ordinal + 1 := by
  obtain ⟨-, hd⟩ := localDate_eq_ok ha
  obtain ⟨-, hd'⟩ := localDate_eq_ok hb
  have hnear := z.clockAt_day_le_succ h
  omega

end Zone
end UsageBilling
