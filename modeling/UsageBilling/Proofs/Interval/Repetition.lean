import UsageBilling.Proofs.Interval.Reconciliation
import UsageBilling.Proofs.Metering.Totals
import UsageBilling.Proofs.Pricing.Charges

/-! Billing a bucket again. Two intervals that have the same event in force in a bucket, the same terms and the
same records there bill it in the same way (`BillsAs.bucketLines_eq`). Once the lines that a bucket owes
were invoiced, it owes nothing more (`bucketLines_again`): what was invoiced adds up to a number that is
equal to what is due, rounding included. -/

namespace UsageBilling

/-! ### What was invoiced -/

namespace Decimal

theorem owed_nil {zeroDisabled : Bool} {due : Decimal} {owed : Option Decimal}
    (h : Decimal.owed zeroDisabled due [] = .ok owed) :
    due ≠ nan ∧ ∀ rest, owed = some rest → due.Settled → rest.equals due = true := by
  obtain ⟨billed, hbilled, howes⟩ := owes_of_owed h
  obtain rfl : zero = billed := Except.ok.inj hbilled
  constructor
  · rintro rfl
    rcases howes with ⟨hne, -⟩ | hbelow | ⟨hbelow, -⟩ | ⟨-, hbelow, -⟩
    · exact hne rfl
    all_goals cases hbelow
  · rintro rest rfl hdue
    obtain ⟨d, hd, hequals⟩ := sub_zero_equals hdue (equals_refl (a := zero) nofun)
    cases howes with
    | rest _ _ hrest _ => rwa [← Except.ok.inj (hd.symm.trans hrest)]

/-- Nothing is owed of an amount that was invoiced. -/
theorem owed_of_sum_equals {zeroDisabled : Bool} {due t : Decimal} {invoiced : List Decimal}
    (hne : invoiced ≠ []) (ht : sum invoiced = .ok t) (h : t.equals due = true) :
    Decimal.owed zeroDisabled due invoiced = .ok none := by
  rw [Decimal.owed, ht, ok_bind, h, List.isEmpty_eq_false_iff.mpr hne]
  rfl

/-- Nothing more is owed of an amount once all that was owed of it was invoiced. -/
theorem owed_again {zeroDisabled : Bool} {due rest : Decimal} (hdue : due.Settled)
    (h : Decimal.owed zeroDisabled due [] = .ok (some rest)) :
    Decimal.owed zeroDisabled due [rest] = .ok none := by
  have hrest := (owed_nil h).2 rest rfl hdue
  obtain ⟨t, ht, htr⟩ := sum_singleton_equals (hdue.congr (equals_symm hrest))
  exact owed_of_sum_equals (List.cons_ne_nil _ _) ht (equals_trans htr hrest)

end Decimal

namespace Interval

variable {i j : Interval} {b : Bucket} {subscriptionId : String} {items : List InvoiceItem}

/-! ### Intervals that bill a bucket in the same way -/

/-- Two intervals have all that the billing of a bucket looks at in common. -/
structure BillsAs (i j : Interval) (b : Bucket) : Prop where
  usage : i.usage = j.usage
  event : i.events[b.eventIndex]?.map (·.event) = j.events[b.eventIndex]?.map (·.event)
  unitTypes : i.governingUnitTypes b = j.governingUnitTypes b
  accountId : i.terms.accountId = j.terms.accountId
  invoiceId : i.terms.invoiceId = j.terms.invoiceId
  detailMode : i.terms.detailMode = j.terms.detailMode
  zeroAmountDisabled : i.terms.zeroAmountDisabled = j.terms.zeroAmountDisabled
  records : ∀ types, i.terms.rawUsage.filter (RolledUsage.counts b.start b.finish types) =
    j.terms.rawUsage.filter (RolledUsage.counts b.start b.finish types)

theorem BillsAs.newLine_eq (h : BillsAs i j b) : i.newLine b = j.newLine b := by
  funext amount unitType quantity rate details
  have hevent := h.event
  rw [newLine, newLine, h.accountId, h.invoiceId, h.usage]
  cases hi : i.events[b.eventIndex]? with
  | none =>
      rw [hi] at hevent
      rw [Option.map_eq_none_iff.mp hevent.symm]
  | some x =>
      rw [hi] at hevent
      obtain ⟨y, hy, hxy⟩ := Option.map_eq_some_iff.mp hevent.symm
      rw [hy]
      dsimp only
      rw [hxy]

/-- A bucket owes the same lines in both intervals. -/
theorem BillsAs.bucketLines_eq (h : BillsAs i j b) (rolled : RolledUsage) (items : List InvoiceItem) :
    i.bucketLines b rolled items = j.bucketLines b rolled items := by
  simp only [bucketLines, consumableLines, capacityLines, unitTypeLines, chargeLines, aggregateLine, amountOwed,
    aboveDue, checkUnitTypes, h.newLine_eq, h.usage, h.detailMode, h.zeroAmountDisabled]

theorem BillsAs.ofRecords_eq (h : BillsAs i j b) (subscriptionId : String) (types : List String) :
    RolledUsage.ofRecords i.terms.rawUsage subscriptionId b.start b.finish types i.terms.invoiceId =
      RolledUsage.ofRecords j.terms.rawUsage subscriptionId b.start b.finish types j.terms.invoiceId := by
  rw [RolledUsage.ofRecords, RolledUsage.ofRecords, h.records types, h.invoiceId]

/-! ### Consumable usage -/

theorem unitTypeLines_congr (others : List InvoiceItem) {unitType : String} (quantity : Decimal)
    (h : items.filter (·.unitType = some unitType) = others.filter (·.unitType = some unitType)) :
    i.unitTypeLines b unitType quantity items = i.unitTypeLines b unitType quantity others := by
  rw [unitTypeLines, unitTypeLines, h]

theorem unitTypeLines_again (hsub : ∀ e ∈ i.events, e.event.subscriptionId = subscriptionId) {unitType : String}
    {quantity : Decimal} {lines : List InvoiceLine}
    (h : (i.unitTypeLines b unitType quantity []).result = .ok lines)
    (hitems : (items.filter (·.unitType = some unitType)).map (·.toInvoiceLine) = lines) :
    (i.unitTypeLines b unitType quantity items).result = .ok [] := by
  obtain ⟨charges, amounts, due, owed, hcharges, hamounts, hsum, howed, hlines, -⟩ := unitTypeLines_spec hsub h
  have hamount : (items.filter (·.unitType = some unitType)).map (·.amount) = lines.map (·.amount) := by
    rw [← hitems, List.map_map]
    rfl
  cases lines with
  | nil =>
      rw [unitTypeLines_congr [] quantity (by simpa using hitems), h]
  | cons line lines =>
      refine unitTypeLines_eq_ok.mpr
        ⟨charges, due, none, hcharges, Charge.total_eq_ok.mpr ⟨amounts, hamounts, hsum⟩, ?_, .none⟩
      have hne : lines.length + 1 ≠ 0 := Nat.succ_ne_zero _
      rw [hamount, hlines]
      cases owed with
      | none => simp [lineAmounts] at hlines
      | some rest =>
          have hdue := Decimal.settled_foldlM_add Decimal.settled_zero hsum (Decimal.owed_nil howed).1
          rw [List.filter_nil] at howed hlines ⊢
          rw [lineAmounts] at hlines ⊢
          split at hlines
          next hdetail =>
            rw [if_pos hdetail]
            obtain ⟨t, ht, hequals⟩ := Decimal.sum_filter_equals i.keeps (fun x _ hx => by
              simp only [keeps, Bool.not_eq_false', Bool.and_eq_true] at hx
              exact hx.1) hsum (Decimal.owed_nil howed).1
            refine Decimal.owed_of_sum_equals ?_ ht (Decimal.equals_symm hequals)
            rw [← hlines]
            exact List.cons_ne_nil _ _
          next haggregate =>
            rw [if_neg haggregate]
            exact Decimal.owed_again hdue howed

/-! ### All usage -/

theorem checks_of_bucketLines (hsub : ∀ e ∈ i.events, e.event.subscriptionId = subscriptionId) {rolled : RolledUsage}
    (hknown : ∀ p ∈ rolled.amounts, p.1 ∈ i.usage.unitTypes) {lines : List InvoiceLine}
    (h : (i.bucketLines b rolled []).result = .ok lines) (hitems : items.map (·.toInvoiceLine) = lines) :
    (i.usage.pricing = .consumable → i.checkUnitTypes items = .ok ()) ∧
      (i.usage.pricing = .capacity → checkNoUnitTypes items = .ok ()) := by
  have hline : ∀ x ∈ items, x.toInvoiceLine ∈ lines := fun x hx => hitems ▸ List.mem_map_of_mem hx
  rw [bucketLines] at h
  constructor
  · intro hpricing
    rw [hpricing] at h
    obtain ⟨-, parts, hparts, rfl⟩ := consumableLines_eq_ok.mp h
    refine checkUnitTypes_eq_ok.mpr fun x hx => ?_
    obtain ⟨ls, hls, hx⟩ := List.mem_flatten.mp (hline x hx)
    obtain ⟨p, hp, hp'⟩ := exists_of_forall₂_right hparts hls
    obtain ⟨_, _, _, _, -, -, -, -, -, hall⟩ := unitTypeLines_spec hsub hp'
    exact ⟨p.1, hknown p hp, (hall _ hx).2⟩
  · intro hpricing
    rw [hpricing] at h
    obtain ⟨_, _, -, -, -, -, hall⟩ := capacityLines_spec hsub h
    exact checkNoUnitTypes_eq_ok.mpr fun x hx => (hall _ (hline x hx)).2

/-- A bucket owes nothing once its lines were invoiced. -/
theorem bucketLines_again (hsub : ∀ e ∈ i.events, e.event.subscriptionId = subscriptionId)
    {rolled : RolledUsage} (hnodup : (rolled.amounts.map (·.1)).Nodup)
    (hknown : ∀ p ∈ rolled.amounts, p.1 ∈ i.usage.unitTypes)
    (hprices : i.usage.pricing = .capacity → ∀ tier ∈ i.usage.tiers, ∀ p, tier.recurringPrice = some p → p.Settled)
    {lines : List InvoiceLine} (h : (i.bucketLines b rolled []).result = .ok lines)
    (hitems : items.map (·.toInvoiceLine) = lines) : (i.bucketLines b rolled items).result = .ok [] := by
  have hchecks := checks_of_bucketLines hsub hknown h hitems
  rw [bucketLines] at h ⊢
  cases hpricing : i.usage.pricing with
  | consumable =>
      rw [hpricing] at h
      obtain ⟨-, parts, hparts, rfl⟩ := consumableLines_eq_ok.mp h
      have hown := filter_unitType_flatten hsub hnodup hparts
      refine consumableLines_eq_ok.mpr ⟨hchecks.1 hpricing, parts.map fun _ => [], ?_, by simp⟩
      rw [List.forall₂_map_right_iff]
      refine hown.mp (fun p ls hown hp => unitTypeLines_again hsub hp ?_) hparts
      rw [← hown, ← hitems, List.filter_map]
      rfl
  | capacity =>
      rw [hpricing] at h
      obtain ⟨tier, owed, -, htier, howed, hamounts, -⟩ := capacityLines_spec hsub h
      obtain ⟨tier', htier', hprice⟩ := price_of_capacityTier htier
      have hprice := hprices hpricing tier' htier' tier.price hprice
      have hagain : Decimal.owed i.terms.zeroAmountDisabled tier.price (items.map (·.amount)) = .ok none := by
        have hitems : items.map (·.amount) = owed.toList := by
          rw [← hamounts, ← hitems, List.map_map]
          rfl
        rw [hitems]
        cases owed with
        | none => exact howed
        | some rest => exact Decimal.owed_again hprice howed
      exact capacityLines_eq_ok.mpr ⟨hchecks.2 hpricing, tier, none, htier, hagain, Or.inl ⟨rfl, rfl⟩⟩

end Interval
end UsageBilling
