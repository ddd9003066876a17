import UsageBilling.Proofs.Calendar.Alignment

/-! The list of the boundaries of a cycle. The list holds the first boundaries in order, and is cut short only by
the error of the next one (`dates_eq_iff`). Every boundary takes the place of the first one for those that follow
(`after_date`) and of the start as well (`first_date`), errors included, so that a list that starts anew on a
boundary is the rest of the list (`dates_restart`). A next boundary fails only past the last day of the calendar
(`pastLastDay_of_error`). -/

namespace UsageBilling.BillingCycle

variable {start b d f : Date} {cycleDay : Int} {period : BillingPeriod} {j k m n count : Nat} {ds : List Date}
  {stop : Option Error}

/-! ### Listing -/

/-- `ds` holds the first `count` boundaries, or those before the first that fails. -/
structure Enumerated (boundary : Nat → Except Error Date) (count : Nat) (ds : List Date) (stop : Option Error) :
    Prop where
  listed : ∀ j d, ds[j]? = some d → boundary j = .ok d
  complete : stop = none → ds.length = count
  stopped : ∀ e, stop = some e → ds.length < count ∧ boundary ds.length = .error e

theorem enumerated_cons {boundary : Nat → Except Error Date} :
    Enumerated boundary (count + 1) (d :: ds) stop ↔
      boundary 0 = .ok d ∧ Enumerated (fun j => boundary (j + 1)) count ds stop := by
  constructor
  · intro h
    refine ⟨h.listed 0 d rfl, fun j e he => h.listed (j + 1) e he, fun hstop => ?_, fun e hstop => ?_⟩
    · exact Nat.succ_inj.mp (h.complete hstop)
    · obtain ⟨hlt, he⟩ := h.stopped e hstop
      exact ⟨Nat.lt_of_succ_lt_succ hlt, he⟩
  · rintro ⟨hd, h⟩
    refine ⟨fun j e he => ?_, fun hstop => congrArg Nat.succ (h.complete hstop), fun e hstop => ?_⟩
    · cases j with
      | zero => exact Option.some.inj he ▸ hd
      | succ j => exact h.listed j e he
    · obtain ⟨hlt, he⟩ := h.stopped e hstop
      exact ⟨Nat.succ_lt_succ hlt, he⟩

theorem enumerated_zero {boundary : Nat → Except Error Date} :
    Enumerated boundary 0 ds stop ↔ ds = [] ∧ stop = none := by
  constructor
  · intro h
    cases stop with
    | none => exact ⟨List.eq_nil_of_length_eq_zero (h.complete rfl), rfl⟩
    | some e => exact absurd (h.stopped e rfl).1 (Nat.not_lt_zero _)
  · rintro ⟨rfl, rfl⟩
    exact ⟨nofun, fun _ => rfl, nofun⟩

/-- A list of boundaries of which there are some begins with the first one, or stops before it. -/
theorem enumerated_succ {boundary : Nat → Except Error Date} : Enumerated boundary (count + 1) ds stop ↔
    (∃ d rest, ds = d :: rest ∧ boundary 0 = .ok d ∧ Enumerated (fun j => boundary (j + 1)) count rest stop) ∨
      ∃ e, ds = [] ∧ stop = some e ∧ boundary 0 = .error e := by
  cases ds with
  | cons d rest =>
      rw [enumerated_cons]
      simp
  | nil =>
      constructor
      · intro h
        cases stop with
        | none => exact absurd (h.complete rfl) (Nat.succ_ne_zero count).symm
        | some e => exact Or.inr ⟨e, rfl, rfl, (h.stopped e rfl).2⟩
      · rintro (⟨d, rest, hds, -⟩ | ⟨e, -, rfl, he⟩)
        · cases hds
        · refine ⟨nofun, nofun, fun e' he' => ?_⟩
          obtain rfl := Option.some.inj he'
          exact ⟨Nat.succ_pos count, he⟩

theorem go_eq_iff {found : List Date} : dates.go start cycleDay period count k found = (ds, stop) ↔
    ∃ rest, ds = found.reverse ++ rest ∧ Enumerated (fun j => date start cycleDay period (j + k)) count rest stop := by
  induction count generalizing k found with
  | zero =>
      simp only [dates.go, Prod.mk.injEq, enumerated_zero]
      constructor
      · rintro ⟨rfl, rfl⟩
        exact ⟨[], (List.append_nil _).symm, rfl, rfl⟩
      · rintro ⟨_, rfl, rfl, rfl⟩
        exact ⟨(List.append_nil _).symm, rfl⟩
  | succ count ih =>
      have hnext (d : Date) (rest : List Date) : (d :: found).reverse ++ rest = found.reverse ++ d :: rest := by
        rw [List.reverse_cons, List.append_assoc]
        rfl
      simp only [dates.go, enumerated_succ, Nat.zero_add, Nat.add_right_comm _ 1 k]
      cases hd : date start cycleDay period k with
      | ok d =>
          dsimp only
          rw [ih]
          constructor
          · rintro ⟨rest, rfl, h⟩
            exact ⟨d :: rest, hnext d rest, Or.inl ⟨d, rest, rfl, rfl, h⟩⟩
          · rintro ⟨_, rfl, ⟨_, rest, rfl, hd, h⟩ | ⟨e, -, -, he⟩⟩
            · obtain rfl := Except.ok.inj hd
              exact ⟨rest, (hnext d rest).symm, h⟩
            · cases he
      | error e =>
          dsimp only
          rw [Prod.mk.injEq]
          constructor
          · rintro ⟨rfl, rfl⟩
            exact ⟨[], (List.append_nil _).symm, Or.inr ⟨e, rfl, rfl, rfl⟩⟩
          · rintro ⟨_, rfl, ⟨d, -, -, hok, -⟩ | ⟨e', rfl, rfl, he⟩⟩
            · cases hok
            · rw [Except.error.inj he]
              exact ⟨(List.append_nil _).symm, rfl⟩

/-- The list of the boundaries holds the first ones, up to one that fails. -/
theorem dates_eq_iff :
    dates start cycleDay period count = (ds, stop) ↔ Enumerated (date start cycleDay period) count ds stop := by
  rw [dates, go_eq_iff]
  simp

theorem enumerated_dates : Enumerated (date start cycleDay period) count
    (dates start cycleDay period count).1 (dates start cycleDay period count).2 := dates_eq_iff.mp rfl

theorem exists_date_of_le (h : date start cycleDay period k = .ok d) (hjk : j ≤ k) :
    ∃ e, date start cycleDay period j = .ok e := by
  obtain ⟨f, hf, -⟩ := bind_eq_ok.mp h
  cases hdays : period.days? with
  | some n =>
      rw [date_eq_ok_of_days hdays hf] at h
      have hle : f.ordinal + n * j ≤ lastDay := by
        calc f.ordinal + n * j ≤ f.ordinal + n * k := Nat.add_le_add_left (Nat.mul_le_mul_left n hjk) _
          _ = d.ordinal := h.symm
          _ ≤ lastDay := d.le_last
      exact ⟨⟨f.ordinal + n * j, Nat.add_pos_left f.pos _, hle⟩, (date_eq_ok_of_days hdays hf).mpr rfl⟩
  | none =>
      obtain ⟨n, hmonths, hrange⟩ := cycleDay_of_first hdays hf
      rw [date_eq_ok_of_months hdays hmonths hf] at h
      have hyear : (f.month.plus (n * j)).year ≤ 9999 := by
        refine Nat.le_trans (Month.year_le_of_index_le ?_) (Date.year_of_inMonth h)
        exact Nat.add_le_add_left (Nat.mul_le_mul_left n hjk) _
      obtain ⟨e, he⟩ := Date.exists_inMonth (Month.year_plus_pos f.year_month_pos _) hyear
        (show 1 ≤ cycleDay.toNat by omega)
      exact ⟨e, (date_eq_ok_of_months hdays hmonths hf).mpr he⟩

theorem getElem?_dates : (dates start cycleDay period count).1[k]? = some d ↔
    k < count ∧ date start cycleDay period k = .ok d := by
  have h := @enumerated_dates start cycleDay period count
  have hlength : (dates start cycleDay period count).1.length ≤ count := by
    cases hstop : (dates start cycleDay period count).2 with
    | none => exact Nat.le_of_eq (h.complete hstop)
    | some e => exact Nat.le_of_lt (h.stopped e hstop).1
  constructor
  · intro hk
    exact ⟨Nat.lt_of_lt_of_le (List.getElem?_eq_some_iff.mp hk).1 hlength, h.listed k d hk⟩
  · rintro ⟨hlt, hd⟩
    have hk : k < (dates start cycleDay period count).1.length := by
      cases hstop : (dates start cycleDay period count).2 with
      | none => exact Nat.lt_of_lt_of_eq hlt (h.complete hstop).symm
      | some e =>
          refine Nat.not_le.mp fun hle => ?_
          obtain ⟨f, hf⟩ := exists_date_of_le hd hle
          rw [(h.stopped e hstop).2] at hf
          cases hf
    have hlisted := List.getElem?_eq_getElem hk
    rw [hlisted, Except.ok.inj ((h.listed k _ hlisted).symm.trans hd)]

/-! ### Starting anew -/

theorem date_of_days (hdays : period.days? = some n) (hf : first start cycleDay period = .ok f) :
    date start cycleDay period k = liftM (f.addDays (n * k)) := by
  rw [date, hf, ok_bind, after, hdays]

theorem date_of_months (hdays : period.days? = none) (hmonths : period.months? = some n)
    (hf : first start cycleDay period = .ok f) :
    date start cycleDay period k = liftM (Date.inMonth (f.month.plus (n * k)) cycleDay.toNat) := by
  rw [date, hf, ok_bind, after, hdays]
  dsimp only
  rw [hmonths]

/-- The boundaries after one of them are counted from it. -/
theorem after_date (h : date start cycleDay period j = .ok b) :
    after b cycleDay period k = date start cycleDay period (j + k) := by
  obtain ⟨f, hf, -⟩ := bind_eq_ok.mp h
  cases hdays : period.days? with
  | some n =>
      have hb := (date_eq_ok_of_days hdays hf).mp h
      rw [date_of_days hdays hf, after, hdays]
      dsimp only
      rw [Date.addDays, Date.addDays, hb, Nat.mul_add, Nat.add_assoc]
  | none =>
      obtain ⟨n, hmonths, hrange⟩ := cycleDay_of_first hdays hf
      have hb : b.month = f.month.plus (n * j) :=
        Date.month_inMonth (Month.year_plus_pos f.year_month_pos _) (by omega)
          ((date_eq_ok_of_months hdays hmonths hf).mp h)
      rw [date_of_months hdays hmonths hf, after, hdays]
      dsimp only
      rw [hmonths]
      dsimp only
      rw [hb, Month.plus_plus, Nat.mul_add]

theorem first_date (h : date start cycleDay period m = .ok b) :
    first b cycleDay period = date start cycleDay period (m + 1) := by
  rw [← after_date h]
  obtain ⟨f, hf, -⟩ := bind_eq_ok.mp h
  cases hdays : period.days? with
  | some n =>
      rw [first, after, hdays]
      dsimp only
      rw [Nat.mul_one]
  | none =>
      obtain ⟨n, hmonths, hrange⟩ := cycleDay_of_first hdays hf
      have hday : 1 ≤ cycleDay.toNat := by omega
      have hb := (date_eq_ok_of_months hdays hmonths hf).mp h
      have hmonth := Date.month_inMonth (Month.year_plus_pos f.year_month_pos _) hday hb
      rw [first_eq_of_months hdays hmonths hrange (hmonth ▸ hb), after, hdays]
      dsimp only
      rw [hmonths]
      dsimp only
      rw [Nat.mul_one]

/-- A list that starts on a boundary is the rest of the list that led there. -/
theorem dates_restart (h : date start cycleDay period m = .ok b) :
    dates b cycleDay period count = ((dates start cycleDay period (m + 1 + count)).1.drop (m + 1),
      (dates start cycleDay period (m + 1 + count)).2) := by
  have hlist := @enumerated_dates start cycleDay period (m + 1 + count)
  generalize (dates start cycleDay period (m + 1 + count)).1 = ds at *
  generalize (dates start cycleDay period (m + 1 + count)).2 = stop at *
  have hreached {e : Error} (he : stop = some e) : m + 1 ≤ ds.length := by
    refine Nat.not_lt.mp fun hlt => ?_
    obtain ⟨d, hd⟩ := exists_date_of_le h (Nat.le_of_lt_succ hlt)
    rw [(hlist.stopped e he).2] at hd
    cases hd
  refine dates_eq_iff.mpr ⟨fun j d hd => ?_, fun hstop => ?_, fun e he => ?_⟩
  · rw [List.getElem?_drop] at hd
    exact (date_restart h).mpr (hlist.listed _ d hd)
  · rw [List.length_drop, hlist.complete hstop, Nat.add_sub_cancel_left]
  · obtain ⟨hlt, hfail⟩ := hlist.stopped e he
    have hle := hreached he
    rw [List.length_drop]
    refine ⟨by omega, ?_⟩
    rw [date, first_date h]
    rcases Nat.lt_or_eq_of_le hle with hmore | hnone
    · obtain ⟨g, hg⟩ : ∃ g, ds[m + 1]? = some g := ⟨_, List.getElem?_eq_getElem hmore⟩
      have hdate := hlist.listed _ g hg
      rw [hdate, ok_bind, after_date hdate, Nat.add_sub_cancel' hle, hfail]
    · rw [hnone, hfail]
      rfl

/-! ### The end of the calendar -/

/-- The period is counted in days, or in months with a cycle day that months have. -/
def HasBoundaries (cycleDay : Int) (period : BillingPeriod) : Prop :=
  period.days?.isSome ∨ period.months?.isSome ∧ 1 ≤ cycleDay ∧ cycleDay ≤ 31

instance (cycleDay : Int) (period : BillingPeriod) : Decidable (HasBoundaries cycleDay period) :=
  inferInstanceAs (Decidable (_ ∨ _))

theorem HasBoundaries.range (h : HasBoundaries cycleDay period) (hmonths : period.months? = some n) :
    1 ≤ cycleDay ∧ cycleDay ≤ 31 := by
  rcases h with hdays | ⟨-, hrange⟩
  · rw [days?_eq_none hmonths] at hdays
    cases hdays
  · exact hrange

theorem date_eq_ok_iff_of_days (hdays : period.days? = some n) :
    date start cycleDay period k = .ok d ↔ d.ordinal = start.ordinal + (k + 1) * n := by
  have hcount : (k + 1) * n = n + n * k := by rw [Nat.succ_mul, Nat.mul_comm, Nat.add_comm]
  constructor
  · intro h
    obtain ⟨f, hf, -⟩ := bind_eq_ok.mp h
    rw [(date_eq_ok_of_days hdays hf).mp h, first_days hdays hf, hcount, Nat.add_assoc]
  · intro h
    rw [hcount, ← Nat.add_assoc] at h
    have hle : start.ordinal + n ≤ lastDay := Nat.le_trans (h ▸ Nat.le_add_right _ _) d.le_last
    have hf : first start cycleDay period = .ok ⟨start.ordinal + n, Nat.add_pos_left start.pos n, hle⟩ := by
      rw [first, hdays]
      exact liftM_calendar_eq_ok.mpr (Date.ofOrdinal_eq_ok.mpr rfl)
    exact (date_eq_ok_of_days hdays hf).mpr h

/-- The boundary that would follow `ds` lies after the last day of the calendar. -/
def PastLastDay (start : Date) (cycleDay : Int) (period : BillingPeriod) (ds : List Date) : Prop :=
  (∀ n, period.days? = some n → lastDay < start.ordinal + (ds.length + 1) * n) ∧
    ∀ n, period.months? = some n →
      (∀ f, ds.head? = some f → lastDay < (f.month.plus (ds.length * n)).start) ∧
      (ds = [] → start.AlignedTo cycleDay → lastDay < (start.month.plus n).start) ∧
      (ds = [] → ¬ start.AlignedTo cycleDay → ∀ d : Date, d.AlignedTo cycleDay → d ≤ start)

/-- The aligned date of a boundary's month fails to be a boundary only after the last year. -/
theorem lastDay_lt_start_of_error (hmonths : period.months? = some n) (hlow : 1 ≤ cycleDay) (hhigh : cycleDay ≤ 31)
    {e : Error} (h : date start cycleDay period k = .error e) :
    lastDay < ((firstMonth start cycleDay n).plus (n * k)).start := by
  have hpos := Month.year_plus_pos (@firstMonth_year_pos start cycleDay n) (n * k)
  refine Month.lastDay_lt_start (Nat.not_le.mp fun hyear => ?_)
  obtain ⟨d, hd⟩ := Date.exists_inMonth hpos hyear (show 1 ≤ cycleDay.toNat by omega)
  have hok := (date_eq_ok_iff_alignedTo hmonths hlow hhigh).mpr ((Date.inMonth_eq_ok_iff hpos hlow).mp hd)
  rw [h] at hok
  cases hok

/-- A list of boundaries stops with an error only before one that lies past the last day. -/
theorem pastLastDay_of_error (hcount : HasBoundaries cycleDay period) {e : Error}
    (h : dates start cycleDay period count = (ds, some e)) : PastLastDay start cycleDay period ds := by
  have hlist := dates_eq_iff.mp h
  have hfail := (hlist.stopped e rfl).2
  refine ⟨fun n hdays => Nat.not_le.mp fun hle => ?_, fun n hmonths => ?_⟩
  · have hok : date start cycleDay period ds.length = .ok ⟨_, Nat.add_pos_left start.pos _, hle⟩ :=
      (date_eq_ok_iff_of_days hdays).mpr rfl
    rw [hfail] at hok
    cases hok
  · obtain ⟨hlow, hhigh⟩ := hcount.range hmonths
    have hpast := lastDay_lt_start_of_error hmonths hlow hhigh hfail
    refine ⟨fun f hf => ?_, ?_, ?_⟩
    · rw [List.head?_eq_getElem?] at hf
      have hmonth := ((date_eq_ok_iff_alignedTo hmonths hlow hhigh).mp (hlist.listed 0 f hf)).2
      rwa [hmonth, Month.plus_plus, Nat.mul_zero, Nat.zero_add, Nat.mul_comm]
    · rintro rfl haligned
      rwa [firstMonth_of_alignedTo haligned] at hpast
    · rintro rfl hunaligned d haligned
      refine Nat.not_lt.mp fun hlt => ?_
      have hmonth : (firstMonth start cycleDay n).index ≤ d.month.index := firstMonth_le (.inl hunaligned) haligned hlt
      have hyear := Nat.le_trans (Month.year_le_of_index_le hmonth) d.year_le
      have hlast := Month.start_add_length_le_last firstMonth_year_pos hyear
      have hlength := (firstMonth start cycleDay n).length_pos
      have hpast : lastDay < (firstMonth start cycleDay n).start := hpast
      omega

/-! ### The boundaries of a cycle -/

/-- What the list of the boundaries holds: every so many days one, or the aligned dates of every so many months
from the first on, which is the least aligned date after the start unless the start is aligned itself. The
boundaries grow from the start on, those of single months are all the aligned dates after the start, a list that
starts anew on a boundary is the rest of the list, and a list stops with an error only where the next boundary
lies past the last day of the calendar. -/
theorem dates_enumerate (start : Date) (cycleDay : Int) (period : BillingPeriod)
    (hcount : HasBoundaries cycleDay period) :
    (∀ n, period.days? = some n → ∀ count k d,
      (dates start cycleDay period count).1[k]? = some d ↔ k < count ∧ d.ordinal = start.ordinal + (k + 1) * n) ∧
    (∀ n, period.months? = some n → ∀ count f, (dates start cycleDay period count).1.head? = some f →
      (¬ start.AlignedTo cycleDay → IsLeast {d : Date | d.AlignedTo cycleDay ∧ start < d} f) ∧
      (start.AlignedTo cycleDay → f.AlignedTo cycleDay ∧ f.month = start.month.plus n) ∧
      ∀ k d, (dates start cycleDay period count).1[k]? = some d ↔
        k < count ∧ d.AlignedTo cycleDay ∧ d.month = f.month.plus (k * n)) ∧
    (∀ count, (start :: (dates start cycleDay period count).1).Pairwise (· < ·)) ∧
    (period.months? = some 1 → ∀ d, (∃ count, d ∈ (dates start cycleDay period count).1) ↔
      d.AlignedTo cycleDay ∧ start < d) ∧
    (∀ count m b, (dates start cycleDay period count).1[m]? = some b → ∀ more,
      dates b cycleDay period more = ((dates start cycleDay period (m + 1 + more)).1.drop (m + 1),
        (dates start cycleDay period (m + 1 + more)).2)) ∧
    ∀ count ds stop, dates start cycleDay period count = (ds, stop) →
      (stop = none ∧ ds.length = count) ∨ (stop.isSome ∧ PastLastDay start cycleDay period ds) := by
  refine ⟨fun n hdays count k d => ?_, fun n hmonths count f hf => ?_, fun count => ?_, fun hmonths d => ?_,
    fun count m b hb more => dates_restart (getElem?_dates.mp hb).2, fun count ds stop h => ?_⟩
  · rw [getElem?_dates, date_eq_ok_iff_of_days hdays]
  · obtain ⟨hlow, hhigh⟩ := hcount.range hmonths
    rw [List.head?_eq_getElem?] at hf
    have hfirst := (getElem?_dates.mp hf).2
    obtain ⟨haligned, hmonth⟩ := (date_eq_ok_iff_alignedTo hmonths hlow hhigh).mp hfirst
    refine ⟨fun hstart => isLeast_first hmonths hlow hhigh (.inl hstart) hfirst, fun hstart => ⟨haligned, ?_⟩,
      fun k d => ?_⟩
    · rw [hmonth, firstMonth_of_alignedTo hstart]
      rfl
    · rw [getElem?_dates, date_eq_ok_iff_alignedTo hmonths hlow hhigh, hmonth, Month.plus_plus, Nat.mul_zero,
        Nat.zero_add, Nat.mul_comm k]
  · refine List.pairwise_cons.mpr ⟨fun d hd => ?_, List.pairwise_iff_getElem.mpr fun j k hj hk hjk => ?_⟩
    · obtain ⟨k, hk⟩ := List.mem_iff_getElem?.mp hd
      exact start_lt_date (getElem?_dates.mp hk).2
    · exact date_lt_date hjk (getElem?_dates.mp (List.getElem?_eq_getElem hj)).2
        (getElem?_dates.mp (List.getElem?_eq_getElem hk)).2
  · obtain ⟨hlow, hhigh⟩ := hcount.range hmonths
    rw [← exists_date_iff hmonths hlow hhigh]
    constructor
    · rintro ⟨count, hd⟩
      obtain ⟨k, hk⟩ := List.mem_iff_getElem?.mp hd
      exact ⟨k, (getElem?_dates.mp hk).2⟩
    · rintro ⟨k, hk⟩
      exact ⟨k + 1, List.mem_of_getElem? (getElem?_dates.mpr ⟨Nat.lt_succ_self k, hk⟩)⟩
  · cases stop with
    | none => exact .inl ⟨rfl, (dates_eq_iff.mp h).complete rfl⟩
    | some e => exact .inr ⟨rfl, pastLastDay_of_error hcount h⟩

/-- The last days of the months of 2024 follow the last day of January, and follow 29 February as well. -/
theorem dates_enumerate_leapYear :
    (dates ⟨738916, by decide, by decide⟩ 31 .monthly 3).1 =
      [⟨738945, by decide, by decide⟩, ⟨738976, by decide, by decide⟩, ⟨739006, by decide, by decide⟩] ∧
    dates ⟨738945, by decide, by decide⟩ 31 .monthly 2 =
      ((dates ⟨738916, by decide, by decide⟩ 31 .monthly 3).1.drop 1,
        (dates ⟨738916, by decide, by decide⟩ 31 .monthly 3).2) := by
  refine ⟨by decide +kernel, ?_⟩
  obtain ⟨-, -, -, -, hrestart, -⟩ := dates_enumerate ⟨738916, by decide, by decide⟩ 31 .monthly (by decide)
  exact hrestart 1 0 _ (by decide +kernel) 2

end UsageBilling.BillingCycle
