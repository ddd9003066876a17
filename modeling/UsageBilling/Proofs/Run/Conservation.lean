import UsageBilling.Proofs.Interval.Quantities
import UsageBilling.Proofs.Run.Reconciliation

/-! Metered units are billed once. The buckets of one usage name do not overlap, so that a record is counted
in one of them at most; where nothing was invoiced before, the lines of a usage name have all units of the
records that its buckets count, and no others (`units_billed_once`). -/

namespace UsageBilling

/-! ### Sums of selections -/

section

variable {α β : Type} (v : α → ℚ)

theorem sum_filter_or {f g : α → Bool} (xs : List α) (h : ∀ x ∈ xs, f x = true → g x = false) :
    ((xs.filter fun x => f x || g x).map v).sum = ((xs.filter f).map v).sum + ((xs.filter g).map v).sum := by
  induction xs with
  | nil => simp
  | cons x xs ih =>
      obtain ⟨hx, hxs⟩ := List.forall_mem_cons.mp h
      have hrest := ih hxs
      cases hf : f x with
      | true =>
          simp only [List.filter_cons, hf, hx hf, Bool.or_false, if_true, Bool.false_eq_true, if_false,
            List.map_cons, List.sum_cons, hrest, add_assoc]
      | false =>
          cases hg : g x with
          | true =>
              simp only [List.filter_cons, hf, hg, Bool.or_true, if_true, Bool.false_eq_true, if_false,
                List.map_cons, List.sum_cons, hrest]
              ring
          | false =>
              simpa only [List.filter_cons, hf, hg, Bool.or_false, Bool.false_eq_true, if_false] using hrest

/-- Selections that exclude each other add up to the selection of what is in any of them. -/
theorem sum_filter_any {f : β → α → Bool} {ps : List β} (xs : List α)
    (h : ps.Pairwise fun p q => ∀ x ∈ xs, f p x = true → f q x = false) :
    ((xs.filter fun x => ps.any (f · x)).map v).sum = (ps.map fun p => ((xs.filter (f p)).map v).sum).sum := by
  induction ps with
  | nil => simp
  | cons p ps ih =>
      obtain ⟨hp, hps⟩ := List.pairwise_cons.mp h
      have hor := sum_filter_or v xs (f := f p) (g := fun x => ps.any (f · x)) fun x hx hpx => by
        rw [List.any_eq_false]
        intro q hq
        rw [hp q hq x hx hpx]
        exact Bool.false_ne_true
      simp only [List.any_cons, List.map_cons, List.sum_cons, hor, ih hps]

end

namespace Run

/-! ### The units of a bucket -/

/-- The units that a run reports for a unit type in a bucket. -/
def unitsIn (run : Run) (unitType : String) (p : Interval × Bucket) : List Decimal :=
  RawUsage.amountsOf unitType (run.terms.rawUsage.filter (Interval.bills p))

variable {request : RunRequest} {given : Option Settings} {inUse : Except Error Settings} {run : Run}
  {is : List Interval}

/-- The lines of a bucket that nothing was invoiced for have the units that it counts. -/
theorem quantities_of_outcome {subscriptionId : String} {p : Interval × Bucket}
    (hsub : ∀ e ∈ p.1.events, e.event.subscriptionId = subscriptionId) (hterms : p.1.terms = run.terms)
    (hmode : run.terms.detailMode = .aggregate) (hzero : run.terms.zeroAmountDisabled = false)
    (hpricing : p.1.usage.pricing = .consumable)
    (hprices : ∀ t ∈ p.1.usage.tiers, ∀ b ∈ t.blocks, b.price.below .zero = .ok false)
    {out : List InvoiceLine × List TrackingId} (h : Interval.outcome subscriptionId [] p = .ok out) (unitType : String)
    (hfinite : ∀ r ∈ run.terms.rawUsage, r.amount.IsFinite)
    (hexact : ∀ n, Decimal.money.Holds (((run.unitsIn unitType p).take n).map Decimal.value).sum) :
    ∃ units : List Decimal, (out.1.filter (·.unitType = some unitType)).map (·.quantity) = units.map some ∧
      (∀ q ∈ units, q.IsFinite) ∧ (units.map Decimal.value).sum = ((run.unitsIn unitType p).map Decimal.value).sum := by
  obtain ⟨i, b⟩ := p
  obtain ⟨types, htypes, hout⟩ := Interval.reconcileBucket_nil_eq_ok.mp h
  have hbills : Interval.bills (i, b) = RolledUsage.counts b.start b.finish types := by
    funext r
    rw [Interval.bills, htypes]
  rw [unitsIn, hbills] at hexact ⊢
  dsimp only at hterms
  rcases hout with ⟨rfl, rfl⟩ | ⟨-, rolled, lines, hrolled, hlines, rfl⟩
  · rw [RolledUsage.amountsOf_counts_eq_nil List.not_mem_nil]
    exact ⟨[], rfl, by simp, rfl⟩
  · rw [← hterms] at hfinite hexact hmode hzero ⊢
    exact Interval.quantities_of_bucketLines hsub hmode hzero hpricing hprices hrolled hlines unitType
      (fun r hr _ => hfinite r hr) hexact

/-! ### The units of a run -/

/-- The units of the lines of a usage name are those that the buckets of the name count. -/
theorem quantities_of_outcomes {subscriptionId name : String} {ps : List (Interval × Bucket)}
    {outs : List (List InvoiceLine × List TrackingId)} {unitType : String}
    (h : ps.mapM (Interval.outcome subscriptionId []) = .ok outs)
    (hsub : ∀ p ∈ ps, ∀ e ∈ p.1.events, e.event.subscriptionId = subscriptionId)
    (hunits : ∀ p ∈ ps, p.1.usage.name = name → ∀ out, Interval.outcome subscriptionId [] p = .ok out →
      ∃ units : List Decimal, (out.1.filter (·.unitType = some unitType)).map (·.quantity) = units.map some ∧
        (∀ q ∈ units, q.IsFinite) ∧
        (units.map Decimal.value).sum = ((run.unitsIn unitType p).map Decimal.value).sum) :
    ∃ units : List Decimal,
      ((outs.flatMap (·.1)).filter fun l => l.usageName = name ∧ l.unitType = some unitType).map (·.quantity) =
        units.map some ∧
      (∀ q ∈ units, q.IsFinite) ∧
      (units.map Decimal.value).sum = ((ps.filter (·.1.usage.name = name)).map fun p =>
        ((run.unitsIn unitType p).map Decimal.value).sum).sum := by
  induction ps generalizing outs with
  | nil =>
      obtain rfl := pure_eq_ok.mp h
      exact ⟨[], rfl, by simp, rfl⟩
  | cons p ps ih =>
      rw [List.mapM_cons] at h
      obtain ⟨out, hout, h⟩ := bind_eq_ok.mp h
      obtain ⟨rest, hrest, h⟩ := bind_eq_ok.mp h
      obtain rfl := pure_eq_ok.mp h
      obtain ⟨hsubp, hsub⟩ := List.forall_mem_cons.mp hsub
      obtain ⟨hunitsp, hunits⟩ := List.forall_mem_cons.mp hunits
      obtain ⟨units, hquantities, hfinite, hvalue⟩ := ih hrest hsub hunits
      have hname (l : InvoiceLine) (hl : l ∈ out.1) := (Interval.forBucket_of_outcome hsubp hout l hl).usageName
      rw [List.flatMap_cons, List.filter_append, List.map_append]
      by_cases hp : p.1.usage.name = name
      · obtain ⟨units', hquantities', hfinite', hvalue'⟩ := hunitsp hp out hout
        have hown : out.1.filter (fun l => l.usageName = name ∧ l.unitType = some unitType) =
            out.1.filter (·.unitType = some unitType) :=
          List.filter_congr fun l hl => by simp [hname l hl, hp]
        refine ⟨units' ++ units, ?_, ?_, ?_⟩
        · rw [hown, hquantities, hquantities', List.map_append]
        · intro q hq
          rcases List.mem_append.mp hq with hq | hq
          · exact hfinite' q hq
          · exact hfinite q hq
        · rw [List.map_append, List.sum_append, hvalue, hvalue', List.filter_cons_of_pos (by simpa using hp),
            List.map_cons, List.sum_cons]
      · have hnone : out.1.filter (fun l => l.usageName = name ∧ l.unitType = some unitType) = [] :=
          List.filter_eq_nil_iff.mpr fun l hl => by simp [hname l hl, hp]
        rw [hnone, List.filter_cons_of_neg (by simpa using hp)]
        exact ⟨units, hquantities, hfinite, hvalue⟩

theorem dated_of_bills {p : Interval × Bucket} {r : RawUsage} (h : Interval.bills p r = true) :
    p.2.start ≤ r.date ∧ r.date < p.2.finish := by
  rw [Interval.bills] at h
  split at h
  · simp only [RolledUsage.counts, Bool.and_eq_true, decide_eq_true_eq] at h
    exact h.1
  · cases h

/-- No record is counted by two buckets of one usage name. -/
theorem bills_apart (hcreate : create request given inUse = .ok run) (hzone : run.terms.zone.Covered)
    (his : run.intervals = .ok is) (name : String) :
    ((schedule is).filter (·.1.usage.name = name)).Pairwise fun p q =>
      ∀ r, Interval.bills p r = true → Interval.bills q r = false := by
  refine ((schedule_apart hcreate hzone his).filter _).imp_of_mem fun {p q} hp hq h r hpr => ?_
  obtain ⟨hp, hpn⟩ := List.mem_filter.mp hp
  obtain ⟨hq, hqn⟩ := List.mem_filter.mp hq
  obtain ⟨start, finish, -, -, hwithin⟩ := within_of_mem_schedule hcreate his hq
  have hle := h ((of_decide_eq_true hpn).trans (of_decide_eq_true hqn).symm)
  have hclip : q.2.alignedStart ≤ q.2.start := hwithin.clipped ▸ Date.le_max_left _ _
  rw [Bool.eq_false_iff]
  intro hqr
  have hpd := (dated_of_bills hpr).2
  have hqd := (dated_of_bills hqr).1
  rw [Date.le_def, Date.lt_def] at *
  omega

/-- The units that the buckets of a usage name count are those of the records that any of them counts. -/
theorem sum_unitsIn (hcreate : create request given inUse = .ok run) (hzone : run.terms.zone.Covered)
    (his : run.intervals = .ok is) (name unitType : String) :
    (((schedule is).filter (·.1.usage.name = name)).map fun p =>
      ((run.unitsIn unitType p).map Decimal.value).sum).sum =
    ((request.rawUsage.filter fun r => r.subscriptionId = run.subscriptionId ∧ r.unitType = unitType ∧
      ∃ p ∈ schedule is, p.1.usage.name = name ∧ Interval.bills p r = true).map (·.amount.value)).sum := by
  obtain ⟨-, -, -, settings, -, hterms⟩ := create_eq_ok.mp hcreate
  have hunits (p : Interval × Bucket) : ((run.unitsIn unitType p).map Decimal.value).sum =
      ((run.terms.rawUsage.filter fun r => Interval.bills p r && decide (r.unitType = unitType)).map
        (·.amount.value)).sum := by
    rw [unitsIn, RawUsage.amountsOf, List.filter_filter, List.map_map]
    congr 3
    funext r
    rw [Bool.and_comm]
  have hany := sum_filter_any (fun r : RawUsage => r.amount.value) run.terms.rawUsage
    (f := fun p r => Interval.bills p r && decide (r.unitType = unitType))
    ((bills_apart hcreate hzone his name).imp fun h r _ hp => by
      rw [h r (Bool.and_eq_true_iff.mp hp).1, Bool.false_and])
  simp only [hunits]
  rw [← hany, hterms]
  dsimp only [termsOf]
  rw [RawUsage.filter_ofSubscription, List.filter_filter]
  refine (((List.mergeSort_perm _ _).map _).sum_eq).trans ?_
  congr 2
  refine List.filter_congr fun r _ => ?_
  rw [Bool.eq_iff_iff]
  simp only [Bool.and_eq_true, List.any_eq_true, List.mem_filter, decide_eq_true_eq]
  constructor
  · rintro ⟨⟨p, ⟨hp, hname⟩, hbills, hunit⟩, hsub⟩
    exact ⟨hsub, hunit, p, hp, hname, hbills⟩
  · rintro ⟨hsub, hunit, p, hp, hname, hbills⟩
    exact ⟨⟨p, ⟨hp, hname⟩, hbills, hunit⟩, hsub⟩

/-- Every metered unit is billed once for each usage name. The buckets of a usage name do not overlap. Where a
run that breaks nothing down and leaves no zero out finds no items, and its prices are not below zero and
its sums exact, the new items of a consumable usage name have in each unit type the units of the records
of that type that a bucket of the name counts. -/
theorem units_billed_once (hcreate : create request given inUse = .ok run) (hzone : run.terms.zone.Covered)
    (his : run.intervals = .ok is) :
    ((schedule is).Pairwise fun p q => p.1.usage.name = q.1.usage.name → ∀ d,
      ¬ ((p.2.alignedStart ≤ d ∧ d < p.2.finish) ∧ q.2.alignedStart ≤ d ∧ d < q.2.finish)) ∧
    ∀ s, (run.reconcile []).result = .ok s → run.terms.detailMode = .aggregate →
      run.terms.zeroAmountDisabled = false →
      (∀ i ∈ is, ∀ t ∈ i.usage.tiers, ∀ b ∈ t.blocks, b.price.below .zero = .ok false) →
      (∀ r ∈ run.terms.rawUsage, r.amount.IsFinite) →
      (∀ p ∈ schedule is, ∀ unitType n,
        Decimal.money.Holds (((run.unitsIn unitType p).take n).map Decimal.value).sum) →
      ∀ name, (∀ i ∈ is, i.usage.name = name → i.usage.pricing = .consumable) → ∀ unitType,
        ∃ units : List Decimal,
          (s.items.filter fun l => l.usageName = name ∧ l.unitType = some unitType).map (·.quantity) =
            units.map some ∧
          (∀ q ∈ units, q.IsFinite) ∧
          (units.map Decimal.value).sum =
            ((request.rawUsage.filter fun r => r.subscriptionId = run.subscriptionId ∧ r.unitType = unitType ∧
              ∃ p ∈ schedule is, p.1.usage.name = name ∧ Interval.bills p r = true).map (·.amount.value)).sum := by
  constructor
  · refine (schedule_apart hcreate hzone his).imp fun h hname d ⟨⟨_, hd⟩, hd', _⟩ => ?_
    have hle := h hname
    rw [Date.le_def, Date.lt_def] at *
    omega
  · intro s hs hmode hzero hprices hfinite hexact name hpricing unitType
    obtain ⟨is', outs, his', houts, hsummary⟩ := reconcile_spec hcreate hs
    obtain rfl : is = is' := Except.ok.inj (his.symm.trans his')
    rw [hsummary.items, ← sum_unitsIn hcreate hzone his]
    refine quantities_of_outcomes houts (fun p hp => subscription_of_mem_schedule hcreate his hp)
      fun p hp hname out hout => ?_
    have hi := (mem_schedule.mp hp).1
    exact quantities_of_outcome (subscription_of_mem_schedule hcreate his hp)
      (terms_of_mem_schedule hcreate his hp) hmode hzero
      (hpricing p.1 hi hname) (hprices p.1 hi) hout unitType hfinite (hexact p hp unitType)

/-- The intervals of the cancelled subscription with the reported calls. -/
def Sample.reported : List Interval :=
  [{ Sample.cancelled with terms := (Sample.run [] [report] april).terms }]

theorem units_billed_once_reported : ∃ s, ∃ units : List Decimal,
    ((Sample.run [Sample.opening, Sample.cancellation] [Sample.report] Sample.april).reconcile []).result = .ok s ∧
      (s.items.filter fun l => l.usageName = "api" ∧ l.unitType = some "calls").map (·.quantity) =
        units.map some ∧ (units.map Decimal.value).sum = 5 := by
  have hcreate : create (Sample.request [Sample.opening, Sample.cancellation] [Sample.report] Sample.april)
      (some Sample.settings) (.ok Sample.settings) =
      .ok (Sample.run [Sample.opening, Sample.cancellation] [Sample.report] Sample.april) := by decide +kernel
  have hintervals : (Sample.run [Sample.opening, Sample.cancellation] [Sample.report] Sample.april).intervals =
      .ok Sample.reported := by decide +kernel
  obtain ⟨s, hs⟩ : ∃ s, ((Sample.run [Sample.opening, Sample.cancellation] [Sample.report]
      Sample.april).reconcile []).result = .ok s := by
    refine exists_ok_of_isOk ?_
    decide +kernel
  have hfive : Decimal.money.Holds (5 : ℚ) := by
    refine ⟨⟨5, 0, by norm_num [Decimal.scaled], by decide, by decide⟩, ?_⟩
    calc |(5 : ℚ)| < 10 ^ (1 : ℤ) := by norm_num
      _ ≤ 10 ^ (Decimal.money.maxExponent + 1) := zpow_le_zpow_right₀ (by norm_num) (by decide)
  have hvalue : Sample.report.amount.value = 5 := by
    norm_num [Sample.report, Decimal.ofNat, Decimal.value, Decimal.signed]
  have hsingle (f : RawUsage → Bool) (unitType : String) (n : Nat) : Decimal.money.Holds
      (((RawUsage.amountsOf unitType ([Sample.report].filter f)).take n).map Decimal.value).sum := by
    have hcases : (RawUsage.amountsOf unitType ([Sample.report].filter f)).take n = [] ∨
        (RawUsage.amountsOf unitType ([Sample.report].filter f)).take n = [Sample.report.amount] := by
      rw [RawUsage.amountsOf, List.filter_filter, List.filter_singleton]
      cases decide (Sample.report.unitType = unitType) && f Sample.report with
      | true => cases n <;> simp
      | false => simp
    rcases hcases with h | h
    · rw [h]
      exact Decimal.holds_zero
    · rw [h, List.map_singleton, List.sum_singleton, hvalue]
      exact hfive
  obtain ⟨units, hquantity, -, hsum⟩ := (units_billed_once hcreate Zone.covered_utc hintervals).2 s hs rfl rfl
    (by decide +kernel) (List.forall_mem_singleton.mpr (Decimal.isFinite_finite _ _ _))
    (fun p _ unitType n => hsingle (Interval.bills p) unitType n) "api" (by decide +kernel) "calls"
  refine ⟨s, units, hs, hquantity, hsum.trans ?_⟩
  have hcounted : ((Sample.request [Sample.opening, Sample.cancellation] [Sample.report]
      Sample.april).rawUsage.filter fun r => r.subscriptionId =
        (Sample.run [Sample.opening, Sample.cancellation] [Sample.report] Sample.april).subscriptionId ∧
        r.unitType = "calls" ∧ ∃ p ∈ schedule Sample.reported, p.1.usage.name = "api" ∧
          Interval.bills p r = true) = [Sample.report] := by decide +kernel
  rw [hcounted, List.map_singleton, List.sum_singleton, hvalue]

end Run
end UsageBilling
