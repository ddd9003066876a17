import UsageBilling.Calendar.Cycle
import UsageBilling.Proofs.Sequencing

/-! Billing cycle dates grow. A date lies in one month only (`Date.month_eq_of_bounds`), so each boundary
lies after the one before it, and boundary number `k` more than `k` days after the start
(`date_lt_date`, `start_add_lt_date`). The search for the boundaries up to a target therefore stops at
the first one that is not wanted (`datesUpTo_eq_ok`), and the search for the first boundary after a target does
not run out of steps (`firstAfter_eq_ok`). -/

namespace UsageBilling

/-! ### Months -/

namespace Month

theorem year_plus_pos {m : Month} (h : 0 < m.year) (n : Nat) : 0 < (m.plus n).year := by
  unfold plus year at *
  dsimp only
  omega

/-- A later month begins after the end of an earlier one, and a day later for each month in between. -/
theorem start_plus {m : Month} (h : 0 < m.year) (n : Nat) :
    m.start + m.length + n ≤ (m.plus (n + 1)).start := by
  induction n with
  | zero => exact Nat.le_of_eq (start_plus_one h).symm
  | succ n ih =>
      have hnext := start_plus_one (year_plus_pos h (n + 1))
      have hplus : (m.plus (n + 1)).plus 1 = m.plus (n + 1 + 1) := rfl
      have hlength := (m.plus (n + 1)).length_pos
      rw [hplus] at hnext
      omega

theorem start_add_length_le {m n : Month} (h : 0 < m.year) (hlt : m.index < n.index) :
    m.start + m.length ≤ n.start := by
  have hn : n = m.plus (n.index - m.index - 1 + 1) := by
    cases n
    rw [plus]
    dsimp only at *
    congr 1
    omega
  rw [hn]
  exact Nat.le_trans (Nat.le_add_right _ _) (start_plus h _)

end Month

namespace Date

/-- The month of a date is the one that holds it. -/
theorem month_eq_of_bounds {d : Date} {m : Month} (h : 0 < m.year) (hlow : m.start ≤ d.ordinal)
    (hhigh : d.ordinal < m.start + m.length) : d.month = m := by
  have hbounds := d.month_bounds
  have hyear : 0 < d.month.year := d.year_month ▸ d.year_pos
  have hindex : d.month.index = m.index := by
    rcases Nat.lt_trichotomy d.month.index m.index with hlt | heq | hgt
    · have := Month.start_add_length_le hyear hlt
      omega
    · exact heq
    · have := Month.start_add_length_le h hgt
      omega
  calc d.month = ⟨d.month.index⟩ := rfl
    _ = ⟨m.index⟩ := by rw [hindex]

theorem lt_def {a b : Date} : a < b ↔ a.ordinal < b.ordinal := Iff.rfl

theorem le_def {a b : Date} : a ≤ b ↔ a.ordinal ≤ b.ordinal := Iff.rfl

theorem le_max_left (a b : Date) : a ≤ max a b := by
  change a ≤ if a ≤ b then b else a
  split
  · assumption
  · exact Nat.le_refl _

theorem max_lt {a b c : Date} (ha : a < c) (hb : b < c) : max a b < c := by
  show (if a ≤ b then b else a) < c
  split
  · exact hb
  · exact ha

theorem max_le_iff {a b c : Date} : max a b ≤ c ↔ a ≤ c ∧ b ≤ c := by
  show (if a ≤ b then b else a) ≤ c ↔ a ≤ c ∧ b ≤ c
  simp only [le_def]
  split <;> omega

theorem max_eq_left {a b : Date} (h : b < a) : max a b = a := by
  have hnot : ¬ a ≤ b := Nat.not_le.mpr h
  exact if_neg hnot

theorem max_le_max_left (a : Date) {b c : Date} (h : b ≤ c) : max a b ≤ max a c := by
  show (if a ≤ b then b else a) ≤ (if a ≤ c then c else a)
  simp only [le_def] at *
  split <;> split <;> omega

theorem min_cases (a b : Date) : min a b = a ∨ min a b = b := by
  change (if a ≤ b then a else b) = a ∨ (if a ≤ b then a else b) = b
  split
  · exact Or.inl rfl
  · exact Or.inr rfl

theorem min_le_left (a b : Date) : min a b ≤ a := by
  change (if a ≤ b then a else b) ≤ a
  split
  · exact Nat.le_refl _
  next h => exact Nat.le_of_not_le h

theorem min_le_right (a b : Date) : min a b ≤ b := by
  change (if a ≤ b then a else b) ≤ b
  split
  · assumption
  · exact Nat.le_refl _

protected theorem ext {a b : Date} (h : a.ordinal = b.ordinal) : a = b := by
  obtain ⟨n, hn, hn'⟩ := a
  obtain ⟨m, hm, hm'⟩ := b
  obtain rfl : n = m := h
  rfl

theorem ofOrdinal_eq_ok {n : Nat} {d : Date} : ofOrdinal n = .ok d ↔ d.ordinal = n := by
  rw [ofOrdinal]
  constructor
  · intro h
    split at h
    · obtain rfl := Except.ok.inj h
      rfl
    · cases h
  · rintro rfl
    rw [dif_pos ⟨d.pos, d.le_last⟩]

theorem inMonth_eq_ok {m : Month} {n : Nat} {d : Date} (h : inMonth m n = .ok d) :
    d.ordinal = m.start + min n m.length - 1 := by
  rw [inMonth] at h
  split at h
  · cases h
  · exact ofOrdinal_eq_ok.mp h

theorem inMonth_bounds {m : Month} {n : Nat} {d : Date} (hn : 1 ≤ n) (h : inMonth m n = .ok d) :
    m.start ≤ d.ordinal ∧ d.ordinal < m.start + m.length := by
  have hd := inMonth_eq_ok h
  have hlength := m.length_pos
  omega

theorem month_inMonth {m : Month} {n : Nat} {d : Date} (hm : 0 < m.year) (hn : 1 ≤ n)
    (h : inMonth m n = .ok d) : d.month = m :=
  month_eq_of_bounds hm (inMonth_bounds hn h).1 (inMonth_bounds hn h).2

theorem year_month_pos (d : Date) : 0 < d.month.year := d.year_month ▸ d.year_pos

end Date

namespace BillingCycle

variable {start target : Date} {cycleDay : Int} {period : BillingPeriod} {a b d : Date}

theorem days?_pos {n : Nat} (h : period.days? = some n) : 1 ≤ n := by
  cases period <;> simp [BillingPeriod.days?] at h <;> omega

theorem months?_pos {n : Nat} (h : period.months? = some n) : 1 ≤ n := by
  cases period <;> simp [BillingPeriod.months?] at h <;> omega

/-! ### The first boundary -/

theorem first_days {n : Nat} (hdays : period.days? = some n) (h : first start cycleDay period = .ok d) :
    d.ordinal = start.ordinal + n := by
  rw [first, hdays] at h
  exact Date.ofOrdinal_eq_ok.mp (liftM_calendar_eq_ok.mp h)

/-- A cycle day of a later month lies after the start, in that month. -/
theorem laterMonth_eq_ok {k : Nat} (hk : 1 ≤ k) (hday : 1 ≤ cycleDay.toNat)
    (h : Date.inMonth (start.month.plus k) cycleDay.toNat = .ok d) :
    start < d ∧ Date.inMonth d.month cycleDay.toNat = .ok d := by
  have hyear := start.year_month_pos
  have hmonth := Date.month_inMonth (Month.year_plus_pos hyear k) hday h
  have hlow := (Date.inMonth_bounds hday h).1
  have hhigh := start.month_bounds.2
  have hgrow := Month.start_plus hyear (k - 1)
  rw [Nat.sub_add_cancel hk] at hgrow
  exact ⟨show start.ordinal < d.ordinal by omega, by rw [hmonth, h]⟩

/-- Counted in months, the first boundary lies after the start and is the cycle day of its month. -/
theorem first_months (hdays : period.days? = none) (h : first start cycleDay period = .ok d) :
    start < d ∧ 1 ≤ cycleDay.toNat ∧ Date.inMonth d.month cycleDay.toNat = .ok d := by
  rw [first, hdays] at h
  dsimp only at h
  cases hmonths : period.months? with
  | none =>
      rw [hmonths] at h
      cases h
  | some n =>
      rw [hmonths] at h
      dsimp only at h
      split at h
      · cases h
      next hrange =>
        have hday : 1 ≤ cycleDay.toNat := by omega
        obtain ⟨candidate, hcandidate, h⟩ := bind_eq_ok.mp h
        have hcandidate := liftM_calendar_eq_ok.mp hcandidate
        split at h
        · obtain ⟨hlt, hd⟩ := laterMonth_eq_ok (Nat.le_refl 1) hday (liftM_calendar_eq_ok.mp h)
          exact ⟨hlt, hday, hd⟩
        next hge =>
          split at h
          · obtain ⟨hlt, hd⟩ := laterMonth_eq_ok (months?_pos hmonths) hday (liftM_calendar_eq_ok.mp h)
            exact ⟨hlt, hday, hd⟩
          next hne =>
            obtain rfl := pure_eq_ok.mp h
            have hmonth := Date.month_inMonth start.year_month_pos hday hcandidate
            refine ⟨?_, hday, by rw [hmonth, hcandidate]⟩
            have hge : ¬ candidate.ordinal < start.ordinal := hge
            have hne : candidate.ordinal ≠ start.ordinal := fun h => hne (Date.ext h)
            show start.ordinal < candidate.ordinal
            omega

theorem start_lt_first (h : first start cycleDay period = .ok d) : start < d := by
  cases hdays : period.days? with
  | none => exact (first_months hdays h).1
  | some n =>
      have hd := first_days hdays h
      have hn := days?_pos hdays
      exact show start.ordinal < d.ordinal by omega

/-! ### The boundaries -/

/-- Boundary number `k` after the first one lies `k` days after it or more. -/
theorem add_le_after {k : Nat} {f : Date} (hf : first start cycleDay period = .ok f)
    (h : after f cycleDay period k = .ok d) : f.ordinal + k ≤ d.ordinal := by
  rw [after] at h
  cases hdays : period.days? with
  | some n =>
      rw [hdays] at h
      have hd := Date.ofOrdinal_eq_ok.mp (liftM_calendar_eq_ok.mp h)
      have hk := Nat.le_mul_of_pos_left k (days?_pos hdays)
      omega
  | none =>
      rw [hdays] at h
      dsimp only at h
      obtain ⟨-, hday, hmonth⟩ := first_months hdays hf
      cases hmonths : period.months? with
      | none =>
          rw [hmonths] at h
          cases h
      | some n =>
          rw [hmonths] at h
          have h := liftM_calendar_eq_ok.mp h
          cases k with
          | zero =>
              have hsame : f.month.plus (n * 0) = f.month := rfl
              rw [hsame, hmonth] at h
              obtain rfl := Except.ok.inj h
              exact Nat.le_refl _
          | succ k =>
              have hlow := (Date.inMonth_bounds hday h).1
              have hhigh := f.month_bounds.2
              have hk := Nat.le_mul_of_pos_left (k + 1) (months?_pos hmonths)
              have hgrow := Month.start_plus f.year_month_pos (n * (k + 1) - 1)
              rw [Nat.sub_add_cancel (by omega)] at hgrow
              omega

theorem after_lt_after {j k : Nat} (hjk : j < k) {f : Date} (hf : first start cycleDay period = .ok f)
    (hj : after f cycleDay period j = .ok a) (hk : after f cycleDay period k = .ok b) : a < b := by
  rw [after] at hj hk
  cases hdays : period.days? with
  | some n =>
      rw [hdays] at hj hk
      have ha := Date.ofOrdinal_eq_ok.mp (liftM_calendar_eq_ok.mp hj)
      have hb := Date.ofOrdinal_eq_ok.mp (liftM_calendar_eq_ok.mp hk)
      have hlt := Nat.mul_lt_mul_of_pos_left hjk (days?_pos hdays)
      exact show a.ordinal < b.ordinal by omega
  | none =>
      rw [hdays] at hj hk
      dsimp only at hj hk
      obtain ⟨-, hday, -⟩ := first_months hdays hf
      cases hmonths : period.months? with
      | none =>
          rw [hmonths] at hj
          cases hj
      | some n =>
          rw [hmonths] at hj hk
          have ha := (Date.inMonth_bounds hday (liftM_calendar_eq_ok.mp hj)).2
          have hb := (Date.inMonth_bounds hday (liftM_calendar_eq_ok.mp hk)).1
          have hlt := Nat.mul_lt_mul_of_pos_left hjk (months?_pos hmonths)
          have hgrow := Month.start_add_length_le (Month.year_plus_pos f.year_month_pos (n * j))
            (show (f.month.plus (n * j)).index < (f.month.plus (n * k)).index from Nat.add_lt_add_left hlt _)
          exact show a.ordinal < b.ordinal by omega

theorem date_lt_date {j k : Nat} (hjk : j < k) (hj : date start cycleDay period j = .ok a)
    (hk : date start cycleDay period k = .ok b) : a < b := by
  obtain ⟨f, hf, hj⟩ := bind_eq_ok.mp hj
  obtain ⟨f', hf', hk⟩ := bind_eq_ok.mp hk
  obtain rfl : f = f' := Except.ok.inj (hf.symm.trans hf')
  exact after_lt_after hjk hf hj hk

theorem start_add_lt_date {k : Nat} (h : date start cycleDay period k = .ok d) :
    start.ordinal + k < d.ordinal := by
  obtain ⟨f, hf, h⟩ := bind_eq_ok.mp h
  have hstart : start.ordinal < f.ordinal := start_lt_first hf
  have hk := add_le_after hf h
  omega

/-! ### The boundaries up to a target -/

/-- Taking boundaries goes on to the first that is not kept, if the steps lead that far. -/
theorem takeWhile_eq_ok {boundary : Nat → Except Error Date} {keep : Date → Bool} {steps k : Nat}
    {found ds : List Date} (hpos : 0 < steps)
    (hstop : ∀ j d, steps ≤ j + 1 → boundary (k + j) = .ok d → keep d = false) :
    takeWhile boundary keep steps k found = .ok ds ↔ ∃ kept d, ds = found.reverse ++ kept ∧
      (∀ j x, kept[j]? = some x → boundary (k + j) = .ok x ∧ keep x = true) ∧
      boundary (k + kept.length) = .ok d ∧ keep d = false := by
  induction steps generalizing k found with
  | zero => exact absurd hpos (Nat.lt_irrefl 0)
  | succ steps ih =>
      have hsteps {x : Date} (hx : boundary k = .ok x) (hkeep : keep x = true) : 0 < steps := by
        refine Nat.pos_of_ne_zero fun h0 => ?_
        rw [hstop 0 x (by omega) hx] at hkeep
        cases hkeep
      have hstop (j : Nat) (d : Date) (hj : steps ≤ j + 1) (hd : boundary (k + 1 + j) = .ok d) : keep d = false :=
        hstop (j + 1) d (by omega) (by rwa [Nat.add_assoc, Nat.add_comm 1] at hd)
      rw [takeWhile, bind_eq_ok]
      constructor
      · rintro ⟨x, hx, h⟩
        cases hkeep : keep x with
        | false =>
            rw [hkeep] at h
            exact ⟨[], x, by rw [List.append_nil]; exact (pure_eq_ok.mp h).symm, by simp, hx, hkeep⟩
        | true =>
            rw [hkeep] at h
            obtain ⟨kept, d, rfl, hkept, hd, hnot⟩ := (ih (hsteps hx hkeep) hstop).mp h
            refine ⟨x :: kept, d, by simp, fun j y hy => ?_, ?_, hnot⟩
            · cases j with
              | zero =>
                  obtain rfl := Option.some.inj hy
                  exact ⟨hx, hkeep⟩
              | succ j =>
                  rw [← Nat.add_assoc, Nat.add_right_comm]
                  exact hkept j y hy
            · rwa [List.length_cons, ← Nat.add_assoc, Nat.add_right_comm]
      · rintro ⟨kept, d, rfl, hkept, hd, hnot⟩
        cases kept with
        | nil => exact ⟨d, hd, by rw [hnot, List.append_nil]; rfl⟩
        | cons x kept =>
            obtain ⟨hx, hkeep⟩ := hkept 0 x rfl
            refine ⟨x, hx, ?_⟩
            rw [hkeep]
            refine (ih (hsteps hx hkeep) hstop).mpr ⟨kept, d, by simp, fun j y hy => ?_, ?_, hnot⟩
            · rw [Nat.add_assoc, Nat.add_comm 1]
              exact hkept (j + 1) y hy
            · rwa [Nat.add_assoc, Nat.add_comm 1]

/-- The boundaries up to a target are the first ones, as long as they are wanted. -/
theorem datesUpTo_eq_ok {keep : Date → Bool} {ds : List Date} (hle : start ≤ target) :
    datesUpTo start cycleDay period target keep = .ok ds ↔ ∃ d,
      (∀ j x, ds[j]? = some x → date start cycleDay period j = .ok x ∧ x ≤ target ∧ keep x = true) ∧
      date start cycleDay period ds.length = .ok d ∧ ¬ (d ≤ target ∧ keep d = true) := by
  have hle : start.ordinal ≤ target.ordinal := hle
  rw [datesUpTo, takeWhile_eq_ok]
  · simp
  · rw [reach]
    omega
  · intro j d hj hd
    rw [Nat.zero_add] at hd
    have hgrow := start_add_lt_date hd
    have hpast : ¬ d ≤ target := by
      rw [reach] at hj
      exact fun h : d.ordinal ≤ target.ordinal => by omega
    rw [decide_eq_false hpast, Bool.false_and]

/-- The boundaries up to a target are the first ones of those up to a later target. -/
theorem datesUpTo_grow {target' : Date} {keep keep' : Date → Bool} {ds ds' : List Date} (hle : start ≤ target)
    (htarget : target ≤ target') (hkeep : ∀ d, d ≤ target → keep' d = keep d)
    (h : datesUpTo start cycleDay period target keep = .ok ds)
    (h' : datesUpTo start cycleDay period target' keep' = .ok ds') :
    ∃ more, ds' = ds ++ more ∧ ∀ d ∈ more, target < d ∧ keep' d = true := by
  obtain ⟨e, hds, he, hstop⟩ := (datesUpTo_eq_ok hle).mp h
  obtain ⟨e', hds', he', hstop'⟩ := (datesUpTo_eq_ok (Nat.le_trans hle htarget)).mp h'
  have hlength : ds.length ≤ ds'.length := by
    by_contra hlt
    have hx := List.getElem?_eq_getElem (Nat.not_le.mp hlt)
    obtain ⟨hdate, hreached, hkept⟩ := hds _ _ hx
    obtain rfl := Except.ok.inj (he'.symm.trans hdate)
    exact hstop' ⟨Nat.le_trans hreached htarget, (hkeep _ hreached).trans hkept⟩
  have hprefix : ds'.take ds.length = ds := by
    refine List.ext_getElem? fun j => ?_
    rw [List.getElem?_take]
    split
    next hj =>
      have hx := List.getElem?_eq_getElem hj
      have hx' := List.getElem?_eq_getElem (Nat.lt_of_lt_of_le hj hlength)
      rw [hx, hx', Except.ok.inj ((hds' _ _ hx').1.symm.trans (hds _ _ hx).1)]
    next hj => rw [List.getElem?_eq_none (Nat.not_lt.mp hj)]
  refine ⟨ds'.drop ds.length, ?_, fun d hd => ?_⟩
  · conv_lhs => rw [← List.take_append_drop ds.length ds', hprefix]
  · obtain ⟨j, hj⟩ := List.mem_iff_getElem?.mp hd
    rw [List.getElem?_drop] at hj
    obtain ⟨hdate, -, hkept⟩ := hds' _ _ hj
    refine ⟨Nat.not_le.mp fun hreached => hstop ?_, hkept⟩
    have hlt : ds.length < ds'.length := Nat.lt_of_le_of_lt (Nat.le_add_right _ j) (List.getElem?_eq_some_iff.mp hj).1
    obtain ⟨hdate', -, hkept'⟩ := hds' _ _ (List.getElem?_eq_getElem hlt)
    obtain rfl := Except.ok.inj (he.symm.trans hdate')
    have hbefore : ds'[ds.length] ≤ target := by
      rcases Nat.eq_zero_or_pos j with rfl | hpos
      · rw [Nat.add_zero, List.getElem?_eq_getElem hlt, Option.some.injEq] at hj
        exact hj ▸ hreached
      · exact Nat.le_trans (Nat.le_of_lt (date_lt_date (by omega) he hdate)) hreached
    exact ⟨hbefore, (hkeep _ hbefore).symm.trans hkept'⟩

/-! ### The first boundary after a target -/

/-- The search finds the first boundary that is wanted, those before it being unwanted. -/
theorem firstThat_eq_ok {boundary : Nat → Except Error Date} {found : Date → Bool} {steps k : Nat} :
    firstThat boundary found steps k = .ok d ↔ ∃ j < steps, boundary (k + j) = .ok d ∧ found d = true ∧
      ∀ m < j, ∃ x, boundary (k + m) = .ok x ∧ found x = false := by
  induction steps generalizing k with
  | zero =>
      rw [firstThat]
      refine iff_of_false error_ne_ok ?_
      rintro ⟨j, hj, -⟩
      exact Nat.not_lt_zero j hj
  | succ steps ih =>
      rw [firstThat, bind_eq_ok]
      constructor
      · rintro ⟨x, hx, h⟩
        cases hfound : found x with
        | true =>
            rw [hfound] at h
            obtain rfl := pure_eq_ok.mp h
            exact ⟨0, Nat.succ_pos steps, hx, hfound, fun m hm => absurd hm (Nat.not_lt_zero m)⟩
        | false =>
            rw [hfound] at h
            obtain ⟨j, hj, hd, hwanted, hbefore⟩ := ih.mp h
            refine ⟨j + 1, Nat.succ_lt_succ hj, ?_, hwanted, fun m hm => ?_⟩
            · rwa [← Nat.add_assoc, Nat.add_right_comm]
            · cases m with
              | zero => exact ⟨x, hx, hfound⟩
              | succ m =>
                  rw [← Nat.add_assoc, Nat.add_right_comm]
                  exact hbefore m (Nat.lt_of_succ_lt_succ hm)
      · rintro ⟨j, hj, hd, hwanted, hbefore⟩
        cases j with
        | zero =>
            refine ⟨d, hd, ?_⟩
            rw [if_pos hwanted]
            rfl
        | succ j =>
            obtain ⟨x, hx, hfound⟩ := hbefore 0 (Nat.succ_pos j)
            refine ⟨x, hx, ?_⟩
            rw [hfound]
            refine ih.mpr ⟨j, Nat.lt_of_succ_lt_succ hj, ?_, hwanted, fun m hm => ?_⟩
            · rwa [Nat.add_assoc, Nat.add_comm 1]
            · rw [Nat.add_assoc, Nat.add_comm 1]
              exact hbefore (m + 1) (Nat.succ_lt_succ hm)

/-- The first boundary after a target follows boundaries that reach up to the target; the steps of the
search suffice. -/
theorem firstAfter_eq_ok : firstAfter start cycleDay period target = .ok d ↔
    ∃ j, date start cycleDay period j = .ok d ∧ target < d ∧
      ∀ m < j, ∃ x, date start cycleDay period m = .ok x ∧ x ≤ target := by
  rw [firstAfter, firstThat_eq_ok]
  simp only [Nat.zero_add, decide_eq_true_eq, decide_eq_false_iff_not]
  constructor
  · rintro ⟨j, -, hd, hafter, hbefore⟩
    refine ⟨j, hd, hafter, fun m hm => ?_⟩
    obtain ⟨x, hx, hle⟩ := hbefore m hm
    exact ⟨x, hx, Nat.not_lt.mp hle⟩
  · rintro ⟨j, hd, hafter, hbefore⟩
    have hsteps : j < reach start target + 1 := by
      cases j with
      | zero => exact Nat.succ_pos _
      | succ j =>
          obtain ⟨x, hx, hle⟩ := hbefore j (Nat.lt_succ_self j)
          have hgrow := start_add_lt_date hx
          have hle : x.ordinal ≤ target.ordinal := hle
          rw [reach]
          omega
    refine ⟨j, hsteps, hd, hafter, fun m hm => ?_⟩
    obtain ⟨x, hx, hle⟩ := hbefore m hm
    exact ⟨x, hx, Nat.not_lt.mpr hle⟩

/-- No boundary lies between a target and the first one after it. -/
theorem firstAfter_le {k : Nat} {e : Date} (h : firstAfter start cycleDay period target = .ok d)
    (he : date start cycleDay period k = .ok e) (hafter : target < e) : d ≤ e := by
  obtain ⟨j, hd, -, hbefore⟩ := firstAfter_eq_ok.mp h
  rcases Nat.lt_trichotomy k j with hlt | rfl | hgt
  · obtain ⟨x, hx, hle⟩ := hbefore k hlt
    obtain rfl : e = x := Except.ok.inj (he.symm.trans hx)
    exact absurd hafter (Nat.not_lt.mpr hle)
  · obtain rfl : d = e := Except.ok.inj (hd.symm.trans he)
    exact Nat.le_refl _
  · exact Nat.le_of_lt (date_lt_date hgt hd he)

end BillingCycle
end UsageBilling
