import UsageBilling.Proofs.Decimal.Exact
import UsageBilling.Proofs.Metering.Totals
import UsageBilling.Proofs.Run.Reconciliation

/-! The total of a bucket. What was invoiced for a unit type of a bucket, or for a bucket of a capacity section, is
compared with what is due for it (`Interval.Due`), and only what is missing is added. Where the sums are
exact, the total becomes the larger one of what it was and what is due (`Interval.catchesUp_of_outcome`). -/

namespace UsageBilling

namespace Decimal

variable {k : Int} {invoiced amounts added : List Decimal} {due : Decimal} {zeroDisabled : Bool} {owed : Option Decimal}

/-! ### What is owed -/

/-- Of an amount due, what exceeds the amounts invoiced before is owed. -/
theorem Fits.owed_spec (hk : k ≤ 1000026) (h : Fits k invoiced)
    (hdue : due.IsFinite) (hduek : MultipleOf k due.value)
    (hrest : due.value - (invoiced.map value).sum < 10 ^ (28 - k))
    (howed : Decimal.owed zeroDisabled due invoiced = .ok owed) :
    (owed = none → due.value ≤ (invoiced.map value).sum) ∧
    ∀ rest, owed = some rest → rest.IsFinite ∧ rest.value = due.value - (invoiced.map value).sum ∧
      (invoiced.map value).sum ≤ due.value ∧ (invoiced ≠ [] → (invoiced.map value).sum < due.value) := by
  obtain ⟨billed, hbilled, howes⟩ := owes_of_owed howed
  obtain ⟨hfinite, hvalue⟩ := h.sum_eq hk hbilled
  rw [← hvalue] at hrest ⊢
  have hbelow := below_eq hdue hfinite
  have hsub : ∀ rest, due.below billed = .ok false → due.sub billed = .ok rest →
      billed.value ≤ due.value ∧ rest.IsFinite ∧ rest.value = due.value - billed.value := by
    intro rest habove hrest'
    have hle : billed.value ≤ due.value := by simpa [hbelow] using habove
    have hbounded : |due.value - billed.value| < 10 ^ (28 - k) := by
      rwa [abs_of_nonneg (sub_nonneg.mpr hle)]
    exact ⟨hle, sub_of_written hdue hfinite ((hduek.sub (hvalue ▸ h.multipleOf_sum)).written hk hbounded) hrest'⟩
  cases howes with
  | settled _ hequal => exact ⟨fun _ => ((equals_iff hfinite hdue).mp hequal).ge, nofun⟩
  | exceeded hexceeded =>
      have hlt : due.value < billed.value := by simpa [hbelow] using hexceeded
      exact ⟨fun _ => hlt.le, nofun⟩
  | zero habove hrest' hzero _ =>
      obtain ⟨-, hrestfinite, hrestvalue⟩ := hsub _ habove hrest'
      rw [equals_iff hrestfinite isFinite_zero, value_zero, hrestvalue] at hzero
      exact ⟨fun _ => (sub_eq_zero.mp hzero).le, nofun⟩
  | rest hdiffers habove hrest' _ =>
      obtain ⟨hle, hrestfinite, hrestvalue⟩ := hsub _ habove hrest'
      refine ⟨nofun, fun rest hsome => ?_⟩
      obtain rfl := Option.some.inj hsome
      refine ⟨hrestfinite, hrestvalue, hle, fun hne => hle.lt_of_ne fun heq => ?_⟩
      exact Bool.false_ne_true ((hdiffers hne).symm.trans ((equals_iff hfinite hdue).mpr heq))

/-- Amounts are added to those invoiced so that these come to what is due, if that is more. -/
structure CatchesUp (k : Int) (invoiced added : List Decimal) (due : ℚ) : Prop where
  fits : Fits k (invoiced ++ added)
  total : ((invoiced ++ added).map value).sum = max (invoiced.map value).sum due
  exceeds : added ≠ [] → invoiced ≠ [] → (invoiced.map value).sum < due

/-- What is owed is added, or the amounts that make up what is due where nothing was invoiced. -/
theorem Fits.catchesUp (hk : k ≤ 1000026) (hinvoiced : Fits k invoiced) (hamounts : Fits k amounts)
    (hdue : due.IsFinite) (hvalue : due.value = (amounts.map value).sum)
    (hrest : due.value - (invoiced.map value).sum < 10 ^ (28 - k))
    (howed : Decimal.owed zeroDisabled due invoiced = .ok owed)
    (hadded : added = owed.toList ∨ invoiced = [] ∧ owed.isSome ∧ ∃ keep : Decimal → Bool,
      (∀ x ∈ amounts, keep x = false → x.value = 0) ∧ added = amounts.filter keep) :
    CatchesUp k invoiced added due.value := by
  obtain ⟨hnone, hsome⟩ := hinvoiced.owed_spec hk hdue (hvalue ▸ hamounts.multipleOf_sum) hrest howed
  cases owed with
  | none =>
      obtain rfl : added = [] := by
        rcases hadded with h | ⟨-, h, -⟩
        · exact h
        · cases h
      refine ⟨?_, ?_, fun h => absurd rfl h⟩
      · rwa [List.append_nil]
      · rw [List.append_nil, max_eq_left (hnone rfl)]
  | some rest =>
      obtain ⟨hrest, hrestvalue, hle, hlt⟩ := hsome rest rfl
      rcases hadded with rfl | ⟨rfl, -, keep, hkeep, rfl⟩
      · refine ⟨hinvoiced.concat hrest ?_ ?_, ?_, fun _ => hlt⟩
        · rw [hrestvalue]
          exact (hvalue ▸ hamounts.multipleOf_sum).sub hinvoiced.multipleOf_sum
        · rw [hrestvalue, add_sub_cancel, hvalue]
          exact hamounts.sum_bounded
        · rw [max_eq_right hle, Option.toList_some, List.map_append, List.sum_append, List.map_singleton,
            List.sum_singleton, hrestvalue, add_sub_cancel]
      · refine ⟨hamounts.filter hkeep, ?_, fun _ => hlt⟩
        rw [max_eq_right hle, List.nil_append, sum_filter_of_zero hkeep, hvalue]

end Decimal

namespace Interval

/-- Whether a line is one for a unit type of a bucket, in a capacity section for the whole bucket. -/
def owns (subscriptionId : String) (p : Interval × Bucket) (unitType : String) (l : InvoiceLine) : Bool :=
  ((l.itemType = .usage && l.usageName = p.1.usage.name && l.subscriptionId = subscriptionId) &&
    (l.startDate = p.2.alignedStart && l.endDate = p.2.finish)) &&
    (p.1.usage.pricing = .capacity || l.unitType = some unitType)

/-- What a bucket finds due for a unit type, in a capacity section for the whole bucket, and the amounts that make
it up. -/
def Due (subscriptionId : String) (p : Interval × Bucket) (unitType : String) (amounts : List Decimal)
    (due : Decimal) : Prop :=
  ∃ types rolled, p.1.governingUnitTypes p.2 = .ok types ∧ types ≠ [] ∧
    RolledUsage.ofRecords p.1.terms.rawUsage subscriptionId p.2.start p.2.finish types p.1.terms.invoiceId =
      .ok rolled ∧
    match p.1.usage.pricing with
    | .consumable => ∃ quantity charges, (unitType, quantity) ∈ rolled.amounts ∧
        p.1.usage.consumableCharges unitType quantity = .ok charges ∧
        charges.mapM Charge.amount = .ok amounts ∧ Decimal.sum amounts = .ok due
    | .capacity => ∃ tier, p.1.usage.capacityTier rolled.amounts = .ok tier ∧ amounts = [tier.price] ∧ due = tier.price

def invoiced (subscriptionId : String) (p : Interval × Bucket) (unitType : String) (items : List InvoiceItem) :
    List Decimal :=
  (items.filter fun x => owns subscriptionId p unitType x.toInvoiceLine).map (·.amount)

/-- What was invoiced for a unit type of a bucket. -/
def total (subscriptionId : String) (p : Interval × Bucket) (unitType : String) (items : List InvoiceItem) : ℚ :=
  ((invoiced subscriptionId p unitType items).map Decimal.value).sum

variable {subscriptionId : String} {p : Interval × Bucket} {unitType : String} {items : List InvoiceItem}

theorem invoiced_append {new : List InvoiceItem} {lines : List InvoiceLine}
    (h : new.map (·.toInvoiceLine) = lines) : invoiced subscriptionId p unitType (items ++ new) =
      invoiced subscriptionId p unitType items ++
        (lines.filter (owns subscriptionId p unitType)).map (·.amount) := by
  rw [invoiced, List.filter_append, List.map_append, ← h, List.filter_map, List.map_map]
  rfl

theorem concerns_of_owns (hne : p.2.alignedStart < p.2.finish) {l : InvoiceLine}
    (h : owns subscriptionId p unitType l = true) : concerns subscriptionId p l = true := by
  rw [owns, Bool.and_eq_true, Bool.and_eq_true] at h
  obtain ⟨⟨hkind, hdates⟩, -⟩ := h
  rw [Bool.and_eq_true, decide_eq_true_eq, decide_eq_true_eq] at hdates
  rw [concerns, hkind, hdates.1, hdates.2, decide_eq_true hne]
  rfl

/-- Of items that coincide with a bucket, those for a unit type are selected by their unit type. -/
theorem filter_owns (hne : p.2.alignedStart < p.2.finish)
    (hall : ∀ x ∈ items.filter (fun x => concerns subscriptionId p x.toInvoiceLine),
      x.startDate = p.2.alignedStart ∧ x.endDate = p.2.finish) :
    (items.filter fun x => owns subscriptionId p unitType x.toInvoiceLine) =
      (items.filter fun x => concerns subscriptionId p x.toInvoiceLine).filter fun x =>
        p.1.usage.pricing = .capacity || x.unitType = some unitType := by
  rw [List.filter_filter]
  refine List.filter_congr fun x hx => ?_
  cases hc : concerns subscriptionId p x.toInvoiceLine with
  | true =>
      obtain ⟨hstart, hfinish⟩ := hall x (List.mem_filter.mpr ⟨hx, hc⟩)
      rw [concerns, Bool.and_eq_true] at hc
      rw [owns, hc.2, hstart, hfinish]
      simp
  | false =>
      rw [Bool.and_false, Bool.eq_false_iff]
      intro howns
      rw [concerns_of_owns hne howns] at hc
      cases hc

/-- Of the lines for a bucket, those for a unit type are selected by their unit type. -/
theorem filter_owns_lines {lines : List InvoiceLine} (h : ∀ l ∈ lines, l.ForBucket p.1 p.2 subscriptionId) :
    lines.filter (owns subscriptionId p unitType) =
      lines.filter fun l => p.1.usage.pricing = .capacity || l.unitType = some unitType := by
  refine List.filter_congr fun l hl => ?_
  obtain ⟨htype, hname, hsub, hstart, hfinish⟩ := h l hl
  simp [owns, htype, hname, hsub, hstart, hfinish]

/-- The items that a bucket finds invoiced for a unit type. -/
theorem invoiced_of_billedFor {p : Interval × Bucket} (hne : p.2.alignedStart < p.2.finish)
    {billed : List InvoiceItem} (h : p.1.billedFor p.2 (p.1.relevantItems subscriptionId items) = .ok billed) :
    invoiced subscriptionId p unitType items =
      (billed.filter fun x => p.1.usage.pricing = .capacity || x.unitType = some unitType).map (·.amount) := by
  obtain ⟨rfl, hall⟩ := billedFor_eq_ok.mp h
  rw [filter_overlaps] at hall ⊢
  rw [invoiced, filter_owns hne hall]

theorem value_of_keeps_eq_false {i : Interval} {x : Decimal} (hx : x.IsFinite) (h : i.keeps x = false) :
    x.value = 0 := by
  rw [keeps, Bool.not_eq_false', Bool.and_eq_true, Decimal.equals_iff hx Decimal.isFinite_zero,
    Decimal.value_zero] at h
  exact h.1

variable {k : Int} {amounts : List Decimal} {due : Decimal} {out : List InvoiceLine × List TrackingId}

theorem catchesUp_of_unitTypeLines (hk : k ≤ 1000026) {i : Interval} {b : Bucket}
    (hsub : ∀ e ∈ i.events, e.event.subscriptionId = subscriptionId) {quantity : Decimal} {lines : List InvoiceLine}
    (h : (i.unitTypeLines b unitType quantity items).result = .ok lines) {charges : List Charge}
    (hcharges : i.usage.consumableCharges unitType quantity = .ok charges)
    (hcomputed : charges.mapM Charge.amount = .ok amounts) (hsum : Decimal.sum amounts = .ok due)
    (hamounts : Decimal.Fits k amounts)
    (hinvoiced : Decimal.Fits k ((items.filter (·.unitType = some unitType)).map (·.amount)))
    (hrest : due.value - (((items.filter (·.unitType = some unitType)).map (·.amount)).map Decimal.value).sum <
      10 ^ (28 - k)) :
    Decimal.CatchesUp k ((items.filter (·.unitType = some unitType)).map (·.amount)) (lines.map (·.amount))
      due.value := by
  obtain ⟨charges', amounts', due', owed, hcharges', hcomputed', hsum', howed, hlines, -⟩ := unitTypeLines_spec hsub h
  obtain rfl : charges = charges' := Except.ok.inj (hcharges.symm.trans hcharges')
  obtain rfl : amounts = amounts' := Except.ok.inj (hcomputed.symm.trans hcomputed')
  obtain rfl : due = due' := Except.ok.inj (hsum.symm.trans hsum')
  obtain ⟨hfinite, hvalue⟩ := hamounts.sum_eq hk hsum
  refine hinvoiced.catchesUp hk hamounts hfinite hvalue hrest howed ?_
  rw [hlines]
  cases owed with
  | none => exact Or.inl rfl
  | some rest =>
      rw [lineAmounts]
      split
      next hdetail =>
        simp only [Bool.and_eq_true, List.isEmpty_iff] at hdetail
        refine Or.inr ⟨by rw [hdetail.1.2]; rfl, rfl, i.keeps, fun x hx => ?_, rfl⟩
        exact value_of_keeps_eq_false (hamounts.multiples x hx).1
      · exact Or.inl rfl

/-- One amount is due for a unit type of a bucket, and it is made up in one way. -/
theorem due_unique {amounts' : List Decimal} {due' : Decimal} (h : Due subscriptionId p unitType amounts due)
    (h' : Due subscriptionId p unitType amounts' due') : amounts = amounts' ∧ due = due' := by
  obtain ⟨types, rolled, htypes, -, hrolled, hdue⟩ := h
  obtain ⟨types', rolled', htypes', -, hrolled', hdue'⟩ := h'
  obtain rfl : types = types' := Except.ok.inj (htypes.symm.trans htypes')
  obtain rfl : rolled = rolled' := Except.ok.inj (hrolled.symm.trans hrolled')
  cases hpricing : p.1.usage.pricing with
  | consumable =>
      rw [hpricing] at hdue hdue'
      obtain ⟨quantity, charges, hquantity, hcharges, hamounts, hsum⟩ := hdue
      obtain ⟨quantity', charges', hquantity', hcharges', hamounts', hsum'⟩ := hdue'
      obtain rfl : quantity = quantity' :=
        (Prod.mk.inj (List.inj_on_of_nodup_map (RolledUsage.nodup_amounts hrolled) hquantity hquantity' rfl)).2
      obtain rfl : charges = charges' := Except.ok.inj (hcharges.symm.trans hcharges')
      obtain rfl : amounts = amounts' := Except.ok.inj (hamounts.symm.trans hamounts')
      exact ⟨rfl, Except.ok.inj (hsum.symm.trans hsum')⟩
  | capacity =>
      rw [hpricing] at hdue hdue'
      obtain ⟨tier, htier, rfl, rfl⟩ := hdue
      obtain ⟨tier', htier', rfl, rfl⟩ := hdue'
      obtain rfl : tier = tier' := Except.ok.inj (htier.symm.trans htier')
      exact ⟨rfl, rfl⟩

/-- What was invoiced for a unit type of a bucket is brought to what is due. -/
theorem catchesUp_of_outcome (hk : k ≤ 1000026) (hsub : ∀ e ∈ p.1.events, e.event.subscriptionId = subscriptionId)
    (hne : p.2.alignedStart < p.2.finish) (h : outcome subscriptionId items p = .ok out)
    (hdue : Due subscriptionId p unitType amounts due) (hamounts : Decimal.Fits k amounts)
    (hinvoiced : Decimal.Fits k (invoiced subscriptionId p unitType items))
    (hrest : due.value - total subscriptionId p unitType items < 10 ^ (28 - k)) :
    Decimal.CatchesUp k (invoiced subscriptionId p unitType items)
      ((out.1.filter (owns subscriptionId p unitType)).map (·.amount)) due.value := by
  rw [filter_owns_lines (forBucket_of_outcome hsub h)]
  obtain ⟨billed, types, hbilled, htypes, hout⟩ := reconcileBucket_eq_ok.mp h
  obtain ⟨types', rolled, htypes', hnonempty, hrolled, hdue⟩ := hdue
  obtain rfl : types = types' := Except.ok.inj (htypes.symm.trans htypes')
  rw [total] at hrest
  rw [invoiced_of_billedFor hne hbilled] at hinvoiced hrest ⊢
  obtain ⟨rolled', lines, hrolled', hbucket, rfl⟩ : ∃ rolled' lines, _ := (hout.resolve_left fun h => hnonempty h.1).2
  obtain rfl : rolled = rolled' := Except.ok.inj (hrolled.symm.trans hrolled')
  rw [bucketLines] at hbucket
  cases hpricing : p.1.usage.pricing with
  | consumable =>
      rw [hpricing] at hdue hbucket hinvoiced hrest
      simp only [reduceCtorEq, decide_false, Bool.false_or] at hinvoiced hrest ⊢
      obtain ⟨quantity, charges, hmem, hcharges, hcomputed, hsum⟩ := hdue
      obtain ⟨-, parts, hparts, rfl⟩ := consumableLines_eq_ok.mp hbucket
      have hown := (filter_unitType_flatten hsub (RolledUsage.nodup_amounts hrolled) hparts).mp
        (fun q ls hown h => And.intro hown h) hparts
      obtain ⟨ls, -, hown, hls⟩ := exists_of_forall₂_left hown hmem
      rw [hown]
      exact catchesUp_of_unitTypeLines hk hsub hls hcharges hcomputed hsum hamounts hinvoiced hrest
  | capacity =>
      rw [hpricing] at hdue hbucket hinvoiced hrest
      simp only [decide_true, Bool.true_or, List.filter_true] at hinvoiced hrest ⊢
      obtain ⟨tier, htier, rfl, rfl⟩ := hdue
      obtain ⟨tier', owed, -, htier', howed, hlines, -⟩ := capacityLines_spec hsub hbucket
      obtain rfl : tier = tier' := Except.ok.inj (htier.symm.trans htier')
      have hfinite := (hamounts.multiples tier.price List.mem_cons_self).1
      exact hinvoiced.catchesUp hk hamounts hfinite (by simp) hrest howed (Or.inl hlines)

/-- Where nothing is due for a unit type of a bucket, no line is added for it. -/
theorem filter_owns_of_not_due (hsub : ∀ e ∈ p.1.events, e.event.subscriptionId = subscriptionId)
    (h : outcome subscriptionId items p = .ok out) (hdue : ∀ amounts due, ¬ Due subscriptionId p unitType amounts due) :
    out.1.filter (owns subscriptionId p unitType) = [] := by
  rw [filter_owns_lines (forBucket_of_outcome hsub h)]
  obtain ⟨billed, types, -, htypes, hout⟩ := reconcileBucket_eq_ok.mp h
  rcases hout with ⟨-, rfl⟩ | ⟨hnonempty, rolled, lines, hrolled, hbucket, rfl⟩
  · rfl
  refine List.filter_eq_nil_iff.mpr fun l hl hu => ?_
  rw [bucketLines] at hbucket
  cases hpricing : p.1.usage.pricing with
  | consumable =>
      rw [hpricing] at hbucket hu
      obtain ⟨-, parts, hparts, rfl⟩ := consumableLines_eq_ok.mp hbucket
      obtain ⟨ls, hls, hl⟩ := List.mem_flatten.mp hl
      obtain ⟨⟨u, quantity⟩, hmem, hls⟩ := exists_of_forall₂_right hparts hls
      obtain ⟨charges, amounts, due, -, hcharges, hcomputed, hsum, -, -, hall⟩ := unitTypeLines_spec hsub hls
      have hunit : l.unitType = some unitType := by simpa using hu
      obtain rfl : u = unitType := Option.some.inj ((hall l hl).2.symm.trans hunit)
      refine hdue amounts due ⟨types, rolled, htypes, hnonempty, hrolled, ?_⟩
      rw [hpricing]
      exact ⟨quantity, charges, hmem, hcharges, hcomputed, hsum⟩
  | capacity =>
      rw [hpricing] at hbucket
      obtain ⟨tier, -, -, htier, -⟩ := capacityLines_spec hsub hbucket
      refine hdue [tier.price] tier.price ⟨types, rolled, htypes, hnonempty, hrolled, ?_⟩
      rw [hpricing]
      exact ⟨tier, htier, rfl, rfl⟩

end Interval
end UsageBilling
