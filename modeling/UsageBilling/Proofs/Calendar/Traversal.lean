import UsageBilling.Proofs.Calendar.Enumeration

/-! Going through the boundaries of a cycle. The boundaries do not end, so that going through them ends only at one
that is not wanted; `Traverses` is such a pass without a bound on its steps. The searches that count their steps have
its result wherever the count is larger than the number of boundaries taken (`takeWhile_of_traverses`,
`firstThat_of_traverses`). A pass ends if the boundaries that are wanted are numbered below a bound and each of them
has a next one (`exists_traverses`). The boundaries up to a target before the last year are so, since each lies a day
or more after the one before it (`exists_traverses_target`). -/

namespace UsageBilling

theorem Month.year_plus_le {m : Month} {n : Nat} (hn : n ≤ 12) : (m.plus n).year ≤ m.year + 1 := by
  unfold plus year
  dsimp only
  omega

namespace BillingCycle

/-- Going through the boundaries from number `k` on, each of which is a date, takes those that are wanted and ends at
the first that is not. -/
inductive Traverses (boundary : Nat → Except Error Date) (keep : Date → Bool) : Nat → List Date → Date → Prop where
  | stop {k : Nat} {d : Date} (hd : boundary k = .ok d) (hkeep : keep d = false) : Traverses boundary keep k [] d
  | take {k : Nat} {d next : Date} {taken : List Date} (hd : boundary k = .ok d) (hkeep : keep d = true)
      (hrest : Traverses boundary keep (k + 1) taken next) : Traverses boundary keep k (d :: taken) next

section

variable {boundary : Nat → Except Error Date} {keep found : Date → Bool} {k steps bound : Nat}
  {taken : List Date} {next : Date}

/-- Counted steps take the same boundaries once there are more of them than boundaries to take. -/
theorem takeWhile_of_traverses (h : Traverses boundary keep k taken next) (hsteps : taken.length < steps)
    (before : List Date) : takeWhile boundary keep steps k before = .ok (before.reverse ++ taken) := by
  induction h generalizing steps before with
  | stop hd hkeep =>
      cases steps with
      | zero => exact absurd hsteps (Nat.not_lt_zero _)
      | succ steps =>
          rw [takeWhile, hd, ok_bind, hkeep, List.append_nil]
          rfl
  | @take k d next taken hd hkeep hrest ih =>
      cases steps with
      | zero => exact absurd hsteps (Nat.not_lt_zero _)
      | succ steps =>
          rw [takeWhile, hd, ok_bind, if_pos hkeep, ih (Nat.lt_of_succ_lt_succ hsteps), List.reverse_cons,
            List.append_assoc]
          rfl

/-- Counted steps find the boundary at which the pass ends once there are more of them than boundaries before it. -/
theorem firstThat_of_traverses (h : Traverses boundary keep k taken next) (hfound : ∀ d, found d = !keep d)
    (hsteps : taken.length < steps) : firstThat boundary found steps k = .ok next := by
  induction h generalizing steps with
  | stop hd hkeep =>
      cases steps with
      | zero => exact absurd hsteps (Nat.not_lt_zero _)
      | succ steps =>
          rw [firstThat, hd, ok_bind, hfound, hkeep]
          rfl
  | take hd hkeep hrest ih =>
      cases steps with
      | zero => exact absurd hsteps (Nat.not_lt_zero _)
      | succ steps =>
          rw [firstThat, hd, ok_bind, hfound, hkeep]
          exact ih (Nat.lt_of_succ_lt_succ hsteps)

/-- A pass ends below a bound on the numbers of the boundaries that are wanted. -/
theorem exists_traverses (hbound : ∀ k d, boundary k = .ok d → keep d = true → k < bound)
    (hnext : ∀ k d, boundary k = .ok d → keep d = true → ∃ e, boundary (k + 1) = .ok e)
    (hfirst : ∃ d, boundary k = .ok d) : ∃ taken next, Traverses boundary keep k taken next ∧
      taken.length ≤ bound - k := by
  obtain ⟨d, hd⟩ := hfirst
  -- The numbers that are left below the bound become fewer with each boundary that is taken.
  induction hleft : bound - k generalizing k d with
  | zero =>
      refine ⟨[], d, .stop hd (Bool.eq_false_iff.mpr fun hkeep => ?_), Nat.le_refl 0⟩
      have := hbound k d hd hkeep
      omega
  | succ left ih =>
      cases hkeep : keep d with
      | false => exact ⟨[], d, .stop hd hkeep, Nat.zero_le _⟩
      | true =>
          obtain ⟨e, he⟩ := hnext k d hd hkeep
          obtain ⟨taken, next, hrest, hlength⟩ := ih e he (by omega)
          exact ⟨d :: taken, next, .take hd hkeep hrest, Nat.succ_le_succ hlength⟩

end

/-! ### The boundaries of a cycle -/

variable {start target next : Date} {cycleDay : Int} {period : BillingPeriod} {keep : Date → Bool} {taken : List Date}

theorem exists_date_zero_of_year (hcount : HasBoundaries cycleDay period) (hyear : start.year < 9999) :
    ∃ d, date start cycleDay period 0 = .ok d := by
  cases hdays : period.days? with
  | some n =>
      have hlast : start.ordinal + n ≤ lastDay := Date.add_le_lastDay hyear (days?_le hdays)
      refine ⟨⟨start.ordinal + n, Nat.add_pos_left start.pos n, hlast⟩, (date_eq_ok_iff_of_days hdays).mpr ?_⟩
      rw [Nat.zero_add, Nat.one_mul]
  | none =>
      obtain ⟨hmonths, hlow, hhigh⟩ := hcount.resolve_left (by rw [hdays]; exact Bool.false_ne_true)
      obtain ⟨n, hmonths⟩ := Option.isSome_iff_exists.mp hmonths
      have hfirst : (firstMonth start cycleDay n).year ≤ 9999 := by
        have hn := months?_le hmonths
        rw [← start.year_month] at hyear
        unfold firstMonth
        split
        · exact Nat.le_of_lt hyear
        · split
          · exact Nat.le_trans (Month.year_plus_le hn) hyear
          · exact Nat.le_trans (Month.year_plus_le (by decide)) hyear
      obtain ⟨d, hd⟩ := Date.exists_inMonth firstMonth_year_pos hfirst (show 1 ≤ cycleDay.toNat by omega)
      exact ⟨d, (date_eq_ok_iff_alignedTo hmonths hlow hhigh).mpr
        ((Date.inMonth_eq_ok_iff firstMonth_year_pos hlow).mp hd)⟩

/-- A pass up to a target before the last year ends, and takes no more boundaries than there are days up to it. -/
theorem exists_traverses_target (hcount : HasBoundaries cycleDay period) (hstart : start.year < 9999)
    (htarget : target.year < 9999) (hkeep : ∀ d, keep d = true → d ≤ target) : ∃ taken next,
      Traverses (date start cycleDay period) keep 0 taken next ∧ taken.length ≤ target.ordinal - start.ordinal := by
  have hbound (k : Nat) (d : Date) (hd : date start cycleDay period k = .ok d) (hwanted : keep d = true) :
      k < target.ordinal - start.ordinal := by
    have hgrow := start_add_lt_date hd
    have hreached : d.ordinal ≤ target.ordinal := hkeep d hwanted
    omega
  refine exists_traverses hbound (fun k d hd hwanted => ?_) (exists_date_zero_of_year hcount hstart)
  exact exists_date_succ hd (Nat.lt_of_le_of_lt (Date.year_mono (hkeep d hwanted)) htarget)

theorem datesUpTo_of_traverses (hle : start ≤ target)
    (h : Traverses (date start cycleDay period) (fun d => d ≤ target && keep d) 0 taken next)
    (hlength : taken.length ≤ target.ordinal - start.ordinal) :
    datesUpTo start cycleDay period target keep = .ok taken := by
  have hle : start.ordinal ≤ target.ordinal := hle
  refine takeWhile_of_traverses h ?_ []
  rw [reach]
  omega

theorem firstAfter_of_traverses (h : Traverses (date start cycleDay period) (fun d => d ≤ target) 0 taken next)
    (hlength : taken.length ≤ target.ordinal - start.ordinal) :
    firstAfter start cycleDay period target = .ok next := by
  refine firstThat_of_traverses h (fun d => ?_) ?_
  · rw [← decide_not]
    exact decide_eq_decide.mpr Nat.not_le.symm
  · rw [reach]
    omega

end BillingCycle
end UsageBilling
