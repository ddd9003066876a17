import UsageBilling.Proofs.Calendar.Cycle
import UsageBilling.Proofs.Calendar.LocalDate

/-! Cycles that start anew. A cycle that starts on a boundary of another one goes on with the boundaries that
follow there (`date_restart`). A boundary before the last year has a next one (`exists_date_succ`), so that up to
a target before the last year the boundaries can be listed, and the first one after it be found
(`exists_datesUpTo`, `exists_firstAfter`). -/

namespace UsageBilling

/-! ### Months of the calendar -/

namespace Month

/-- The months up to the last year are over by the last day. -/
theorem start_add_length_le_last {m : Month} (hpos : 0 < m.year) (hyear : m.year ≤ 9999) :
    m.start + m.length ≤ lastDay + 1 := by
  have hindex : m.index ≤ 9999 * 12 + 11 := by
    unfold year at hyear
    omega
  rcases Nat.lt_or_eq_of_le hindex with hlt | heq
  · calc m.start + m.length ≤ (⟨9999 * 12 + 11⟩ : Month).start := start_add_length_le hpos hlt
      _ ≤ lastDay + 1 := by decide
  · obtain rfl : m = ⟨9999 * 12 + 11⟩ := congrArg Month.mk heq
    decide

theorem start_pos (m : Month) : 0 < m.start := Nat.succ_pos _

theorem plus_plus (m : Month) (k n : Nat) : (m.plus k).plus n = m.plus (k + n) := by
  rw [plus, plus, plus, Nat.add_assoc]

end Month

namespace Date

theorem year_mono {d e : Date} (h : d ≤ e) : d.year ≤ e.year := yearOf_mono d.pos h

theorem exists_inMonth {m : Month} (hpos : 0 < m.year) (hyear : m.year ≤ 9999) {n : Nat} (hn : 1 ≤ n) :
    ∃ d, inMonth m n = .ok d := by
  have hlast := m.start_add_length_le_last hpos hyear
  have hstart := m.start_pos
  have hlength := m.length_pos
  refine ⟨⟨m.start + min n m.length - 1, by omega, by omega⟩, ?_⟩
  rw [inMonth, if_neg (Nat.not_lt.mpr hyear)]
  exact ofOrdinal_eq_ok.mpr rfl

theorem year_of_inMonth {m : Month} {n : Nat} {d : Date} (h : inMonth m n = .ok d) : m.year ≤ 9999 := by
  rw [inMonth] at h
  split at h
  · cases h
  next hyear => exact Nat.not_lt.mp hyear

theorem add_le_lastDay {d : Date} (h : d.year < 9999) {n : Nat} (hn : n ≤ 365) : d.ordinal + n ≤ lastDay := by
  have hafter : d.ordinal ≤ daysBeforeYear (d.year + 1) := le_daysBeforeYear_yearOf d.pos
  have hmono : daysBeforeYear (d.year + 1) ≤ daysBeforeYear 9999 := daysBeforeYear_mono h
  have hlast : daysBeforeYear 9999 + 365 ≤ lastDay := by decide
  omega

end Date

namespace BillingCycle

variable {start target b d f : Date} {cycleDay : Int} {period : BillingPeriod} {m k n : Nat}

theorem days?_le (h : period.days? = some n) : n ≤ 365 := by
  cases period <;> simp [BillingPeriod.days?] at h <;> omega

theorem months?_le (h : period.months? = some n) : n ≤ 12 := by
  cases period <;> simp [BillingPeriod.months?] at h <;> omega

/-! ### Boundaries counted in days and in months -/

theorem date_eq_ok_of_days (hdays : period.days? = some n) (hf : first start cycleDay period = .ok f) :
    date start cycleDay period k = .ok d ↔ d.ordinal = f.ordinal + n * k := by
  rw [date, hf, ok_bind, after, hdays]
  exact liftM_calendar_eq_ok.trans Date.ofOrdinal_eq_ok

theorem date_eq_ok_of_months (hdays : period.days? = none) (hmonths : period.months? = some n)
    (hf : first start cycleDay period = .ok f) :
    date start cycleDay period k = .ok d ↔ Date.inMonth (f.month.plus (n * k)) cycleDay.toNat = .ok d := by
  rw [date, hf, ok_bind, after, hdays]
  dsimp only
  rw [hmonths]
  exact liftM_calendar_eq_ok

/-- A cycle that starts on a cycle day counts its months from there. -/
theorem first_eq_of_months (hdays : period.days? = none) (hmonths : period.months? = some n)
    (hrange : ¬ (cycleDay < 1 ∨ 31 < cycleDay)) (hday : Date.inMonth b.month cycleDay.toNat = .ok b) :
    first b cycleDay period = liftM (Date.inMonth (b.month.plus n) cycleDay.toNat) := by
  have hsame : ¬ b < b := Nat.lt_irrefl b.ordinal
  rw [first, hdays]
  dsimp only
  rw [hmonths]
  dsimp only
  rw [if_neg hrange, hday]
  exact (if_neg hsame).trans (if_pos rfl)

/-- The months of a cycle have a cycle day in range. -/
theorem cycleDay_of_first (hdays : period.days? = none) (hf : first start cycleDay period = .ok f) :
    ∃ n, period.months? = some n ∧ ¬ (cycleDay < 1 ∨ 31 < cycleDay) := by
  rw [first, hdays] at hf
  dsimp only at hf
  cases hmonths : period.months? with
  | none =>
      rw [hmonths] at hf
      cases hf
  | some n =>
      rw [hmonths] at hf
      dsimp only at hf
      split at hf
      · cases hf
      next hrange => exact ⟨n, rfl, hrange⟩

/-! ### Restarting -/

theorem date_restart_of_days (hdays : period.days? = some n) (hf : first start cycleDay period = .ok f)
    (h : date start cycleDay period m = .ok b) :
    date b cycleDay period k = .ok d ↔ date start cycleDay period (m + 1 + k) = .ok d := by
  rw [date_eq_ok_of_days hdays hf] at h ⊢
  have hcount : n * (m + 1 + k) = n * m + n + n * k := by rw [Nat.mul_add, Nat.mul_succ]
  constructor
  · intro hd
    obtain ⟨g, hg, -⟩ := bind_eq_ok.mp hd
    rw [date_eq_ok_of_days hdays hg, first_days hdays hg] at hd
    omega
  · intro hd
    have hle : b.ordinal + n ≤ lastDay := Nat.le_trans (by omega) d.le_last
    have hg : first b cycleDay period = .ok ⟨b.ordinal + n, Nat.add_pos_left b.pos n, hle⟩ := by
      rw [first, hdays]
      exact liftM_calendar_eq_ok.mpr (Date.ofOrdinal_eq_ok.mpr rfl)
    rw [date_eq_ok_of_days hdays hg]
    dsimp only
    omega

theorem date_restart_of_months (hdays : period.days? = none) (hf : first start cycleDay period = .ok f)
    (h : date start cycleDay period m = .ok b) :
    date b cycleDay period k = .ok d ↔ date start cycleDay period (m + 1 + k) = .ok d := by
  obtain ⟨n, hmonths, hrange⟩ := cycleDay_of_first hdays hf
  have hday : 1 ≤ cycleDay.toNat := by omega
  have hpos (k : Nat) : 0 < (f.month.plus k).year := Month.year_plus_pos f.year_month_pos k
  have hcount : n * (m + 1 + k) = n * m + n + n * k := by rw [Nat.mul_add, Nat.mul_succ]
  rw [date_eq_ok_of_months hdays hmonths hf] at h ⊢
  have hmonth : b.month = f.month.plus (n * m) := Date.month_inMonth (hpos _) hday h
  have hfirst := first_eq_of_months hdays hmonths hrange (hmonth ▸ h)
  rw [hmonth, Month.plus_plus] at hfirst
  have hnext {g : Date} (hg : Date.inMonth (f.month.plus (n * m + n)) cycleDay.toNat = .ok g) :
      date b cycleDay period k = .ok d ↔
        Date.inMonth (f.month.plus (n * (m + 1 + k))) cycleDay.toNat = .ok d := by
    have hgf : first b cycleDay period = .ok g := hfirst.trans (liftM_calendar_eq_ok.mpr hg)
    have hgmonth : g.month = f.month.plus (n * m + n) := Date.month_inMonth (hpos _) hday hg
    rw [date_eq_ok_of_months hdays hmonths hgf, hgmonth, Month.plus_plus, hcount]
  constructor
  · intro hd
    obtain ⟨g, hg, -⟩ := bind_eq_ok.mp hd
    exact (hnext (liftM_calendar_eq_ok.mp (hfirst.symm.trans hg))).mp hd
  · intro hd
    have hyear : (f.month.plus (n * m + n)).year ≤ 9999 := by
      have hlater := Date.year_of_inMonth hd
      unfold Month.plus Month.year at *
      dsimp only at *
      omega
    obtain ⟨g, hg⟩ := Date.exists_inMonth (hpos _) hyear hday
    exact (hnext hg).mpr hd

/-- A cycle that starts on a boundary of another cycle has the boundaries that follow there. -/
theorem date_restart (h : date start cycleDay period m = .ok b) :
    date b cycleDay period k = .ok d ↔ date start cycleDay period (m + 1 + k) = .ok d := by
  obtain ⟨f, hf, -⟩ := bind_eq_ok.mp h
  cases hdays : period.days? with
  | some n => exact date_restart_of_days hdays hf h
  | none => exact date_restart_of_months hdays hf h

theorem exists_date_zero (h : date start cycleDay period m = .ok d) : ∃ e, date start cycleDay period 0 = .ok e := by
  obtain ⟨f, hf, -⟩ := bind_eq_ok.mp h
  cases hdays : period.days? with
  | some n =>
      refine ⟨f, (date_eq_ok_of_days hdays hf).mpr ?_⟩
      rw [Nat.mul_zero, Nat.add_zero]
  | none =>
      obtain ⟨n, hmonths, hrange⟩ := cycleDay_of_first hdays hf
      have hday : 1 ≤ cycleDay.toNat := by omega
      have hyear : (f.month.plus (n * 0)).year ≤ 9999 := by
        have hlater := Date.year_of_inMonth ((date_eq_ok_of_months hdays hmonths hf).mp h)
        unfold Month.plus Month.year at *
        dsimp only at *
        omega
      obtain ⟨e, he⟩ := Date.exists_inMonth (Month.year_plus_pos f.year_month_pos _) hyear hday
      exact ⟨e, (date_eq_ok_of_months hdays hmonths hf).mpr he⟩

/-! ### Boundaries before the last year -/

theorem exists_date_succ (h : date start cycleDay period k = .ok d) (hyear : d.year < 9999) :
    ∃ e, date start cycleDay period (k + 1) = .ok e := by
  obtain ⟨f, hf, -⟩ := bind_eq_ok.mp h
  cases hdays : period.days? with
  | some n =>
      rw [date_eq_ok_of_days hdays hf] at h
      have hlast : d.ordinal + n ≤ lastDay := Date.add_le_lastDay hyear (days?_le hdays)
      refine ⟨⟨d.ordinal + n, Nat.add_pos_left d.pos n, hlast⟩, ?_⟩
      rw [date_eq_ok_of_days hdays hf, Nat.mul_succ]
      dsimp only
      omega
  | none =>
      obtain ⟨n, hmonths, hrange⟩ := cycleDay_of_first hdays hf
      have hday : 1 ≤ cycleDay.toNat := by omega
      have hpos (k : Nat) : 0 < (f.month.plus k).year := Month.year_plus_pos f.year_month_pos k
      rw [date_eq_ok_of_months hdays hmonths hf] at h
      have hmonth : d.month = f.month.plus (n * k) := Date.month_inMonth (hpos _) hday h
      have hnext : (f.month.plus (n * (k + 1))).year ≤ 9999 := by
        have hn := months?_le hmonths
        have hbefore : (f.month.plus (n * k)).year < 9999 := by
          rw [← hmonth, d.year_month]
          exact hyear
        rw [Nat.mul_succ]
        unfold Month.plus Month.year at *
        dsimp only at *
        omega
      obtain ⟨e, he⟩ := Date.exists_inMonth (hpos _) hnext hday
      exact ⟨e, (date_eq_ok_of_months hdays hmonths hf).mpr he⟩

/-- Boundaries can be taken as long as each one that is kept has a next one. -/
theorem exists_takeWhile {boundary : Nat → Except Error Date} {keep : Date → Bool}
    (hnext : ∀ j d, boundary j = .ok d → keep d = true → ∃ e, boundary (j + 1) = .ok e) {steps k : Nat}
    {found : List Date} (hfirst : ∃ d, boundary k = .ok d) : ∃ ds, takeWhile boundary keep steps k found = .ok ds := by
  induction steps generalizing k found with
  | zero => exact ⟨found.reverse, rfl⟩
  | succ steps ih =>
      obtain ⟨d, hd⟩ := hfirst
      rw [takeWhile, hd, ok_bind]
      cases hkeep : keep d with
      | false => exact ⟨found.reverse, rfl⟩
      | true => exact ih (hnext k d hd hkeep)

/-- Up to a target before the last year the boundaries can be listed. -/
theorem exists_datesUpTo (hfirst : ∃ d, date start cycleDay period 0 = .ok d) (htarget : target.year < 9999)
    (keep : Date → Bool) : ∃ ds, datesUpTo start cycleDay period target keep = .ok ds := by
  apply exists_takeWhile _ hfirst
  intro j d hd hkeep
  have hle : d ≤ target := of_decide_eq_true (Bool.and_eq_true_iff.mp hkeep).1
  exact exists_date_succ hd (Nat.lt_of_le_of_lt (Date.year_mono hle) htarget)

/-- After a target before the last year there is a boundary. -/
theorem exists_firstAfter (hfirst : ∃ d, date start cycleDay period 0 = .ok d) (htarget : target.year < 9999) :
    ∃ d, firstAfter start cycleDay period target = .ok d := by
  by_cases hearly : target < start
  · obtain ⟨d, hd⟩ := hfirst
    have hlt : target < d := Nat.lt_of_lt_of_le hearly (Nat.le_of_lt (start_add_lt_date hd))
    exact ⟨d, firstAfter_eq_ok.mpr ⟨0, hd, hlt, fun j hj => absurd hj (Nat.not_lt_zero j)⟩⟩
  · obtain ⟨ds, hds⟩ := exists_datesUpTo hfirst htarget fun _ => true
    obtain ⟨d, hbefore, hd, hstop⟩ := (datesUpTo_eq_ok (Nat.not_lt.mp hearly)).mp hds
    have hlt : target < d := Nat.not_le.mp fun hle => hstop ⟨hle, rfl⟩
    refine ⟨d, firstAfter_eq_ok.mpr ⟨ds.length, hd, hlt, fun j hj => ?_⟩⟩
    obtain ⟨hx, hle, -⟩ := hbefore j _ (List.getElem?_eq_getElem hj)
    exact ⟨ds[j], hx, hle⟩

end BillingCycle
end UsageBilling
