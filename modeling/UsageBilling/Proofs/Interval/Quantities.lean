import UsageBilling.Proofs.Interval.Reconciliation
import UsageBilling.Proofs.Metering.Totals
import UsageBilling.Proofs.Pricing.Charges

/-! The quantities of the lines of a bucket. Where nothing was invoiced before, a bucket of consumable usage has
one line for each of its unit types, and the line has the units reported for that type in the bucket
(`quantities_of_bucketLines`). -/

namespace UsageBilling.Interval

variable {i : Interval} {b : Bucket} {subscriptionId : String}

/-- Whether a bucket counts a record: one that is dated in it, of a unit type that it bills. -/
def bills (p : Interval × Bucket) (r : RawUsage) : Bool :=
  match p.1.governingUnitTypes p.2 with
  | .ok types => RolledUsage.counts p.2.start p.2.finish types r
  | .error _ => false

/-- The line for a unit type that nothing was invoiced for has the units of that type. -/
theorem unitTypeLines_aggregate (hsub : ∀ e ∈ i.events, e.event.subscriptionId = subscriptionId)
    (hmode : i.terms.detailMode = .aggregate) (hzero : i.terms.zeroAmountDisabled = false)
    (hprices : ∀ t ∈ i.usage.tiers, ∀ b ∈ t.blocks, b.price.below .zero = .ok false) {unitType : String}
    {quantity : Decimal} {lines : List InvoiceLine}
    (h : (i.unitTypeLines b unitType quantity []).result = .ok lines) : ∃ line rest,
      lines = [line] ∧ line.unitType = some unitType ∧ line.quantity = some rest ∧ quantity.sub .zero = .ok rest := by
  obtain ⟨charges, due, owed, hcharges, hdue, howed, h⟩ := unitTypeLines_eq_ok.mp h
  obtain ⟨amounts, hamounts, hsum⟩ := Charge.total_eq_ok.mp hdue
  have hbelow := Decimal.nonneg_iff.mp (nonneg_total hcharges hprices hamounts hsum)
  obtain ⟨rest, rfl⟩ : ∃ rest, owed = some rest := by
    obtain ⟨billed, hbilled, howes⟩ := Decimal.owes_of_owed howed
    obtain rfl : Decimal.zero = billed := Except.ok.inj hbilled
    cases howes with
    | settled hne _ => exact absurd rfl hne
    | exceeded hexceeded => cases hbelow.symm.trans hexceeded
    | zero _ _ _ hdisabled => cases hzero.symm.trans hdisabled
    | @rest rest _ _ _ _ => exact ⟨rest, rfl⟩
  cases h with
  | itemized hdetail _ => cases hmode.symm.trans hdetail.1
  | @aggregate _ line _ hline =>
      obtain ⟨details, units, rate, -, hunits, hline⟩ := aggregateLine_eq_ok hline
      obtain ⟨-, -, hu, hq⟩ := forBucket_of_newLine hsub hline
      obtain ⟨total, htotal, hunits⟩ := bind_eq_ok.mp hunits
      obtain rfl : Decimal.zero = total := Except.ok.inj htotal
      obtain ⟨rest', hrest', hunits⟩ := bind_eq_ok.mp hunits
      refine ⟨line, rest', rfl, hu, ?_, hrest'⟩
      rw [hq, ← pure_eq_ok.mp hunits]

/-- The lines of a bucket that nothing was invoiced for have the units that the bucket counts. -/
theorem quantities_of_bucketLines (hsub : ∀ e ∈ i.events, e.event.subscriptionId = subscriptionId)
    (hmode : i.terms.detailMode = .aggregate) (hzero : i.terms.zeroAmountDisabled = false)
    (hpricing : i.usage.pricing = .consumable)
    (hprices : ∀ t ∈ i.usage.tiers, ∀ b ∈ t.blocks, b.price.below .zero = .ok false) {types : List String}
    {rolled : RolledUsage} (hrolled : RolledUsage.ofRecords i.terms.rawUsage subscriptionId b.start b.finish types
      i.terms.invoiceId = .ok rolled) {lines : List InvoiceLine}
    (h : (i.bucketLines b rolled []).result = .ok lines) (unitType : String)
    (hfinite : ∀ r ∈ i.terms.rawUsage, r.unitType = unitType → r.amount.IsFinite)
    (hexact : ∀ n, Decimal.money.Holds (((RawUsage.amountsOf unitType
      (i.terms.rawUsage.filter (RolledUsage.counts b.start b.finish types))).take n).map Decimal.value).sum) :
    ∃ units : List Decimal, (lines.filter (·.unitType = some unitType)).map (·.quantity) = units.map some ∧
      (∀ q ∈ units, q.IsFinite) ∧ (units.map Decimal.value).sum = ((RawUsage.amountsOf unitType
        (i.terms.rawUsage.filter (RolledUsage.counts b.start b.finish types))).map Decimal.value).sum := by
  have hnames := RolledUsage.map_fst_amounts hrolled
  have hnodup := RolledUsage.nodup_amounts hrolled
  obtain ⟨amounts, hamounts, rfl⟩ := RolledUsage.ofRecords_eq_ok.mp hrolled
  rw [bucketLines, hpricing] at h
  obtain ⟨-, parts, hparts, rfl⟩ := consumableLines_eq_ok.mp h
  by_cases hu : unitType ∈ types
  · obtain ⟨⟨u, total⟩, hp, rfl, htotal⟩ := exists_of_forall₂_left hamounts ((UnitTypes.mem_ofList _ _).mpr hu)
    have hboth := (filter_unitType_flatten hsub hnodup hparts).mp (fun p ls hown h => And.intro hown h) hparts
    obtain ⟨ls, -, hown, hls⟩ := exists_of_forall₂_left hboth hp
    obtain ⟨line, rest, rfl, -, hquantity, hrest⟩ := unitTypeLines_aggregate hsub hmode hzero hprices hls
    obtain ⟨t, ht, htfinite, htvalue⟩ := Decimal.sum_of_holds (fun x hx => by
      obtain ⟨r, hr, rfl⟩ := List.mem_map.mp hx
      obtain ⟨hr, hru⟩ := List.mem_filter.mp hr
      exact hfinite r (List.mem_filter.mp hr).1 (of_decide_eq_true hru)) hexact
    obtain rfl : t = total := Except.ok.inj (ht.symm.trans htotal)
    have hsettled : t.Settled :=
      Decimal.settled_foldlM_add Decimal.settled_zero ht (Decimal.ne_nan_of_isFinite htfinite)
    obtain ⟨hrestfinite, hrestvalue⟩ := Decimal.sub_zero_value hsettled htfinite hrest
    refine ⟨[rest], ?_, by simpa using hrestfinite, ?_⟩
    · rw [hown, List.map_singleton, hquantity, List.map_singleton]
    · rw [List.map_singleton, List.sum_singleton, hrestvalue, htvalue]
  · have hunlisted : unitType ∉ amounts.map (·.1) := by
      rw [hnames]
      exact fun hmem => hu ((UnitTypes.mem_ofList _ _).mp hmem)
    refine ⟨[], ?_, by simp, by rw [RolledUsage.amountsOf_counts_eq_nil hu]⟩
    rw [filter_unitType_eq_nil hsub hunlisted hparts, List.map_nil, List.map_nil]

end UsageBilling.Interval
