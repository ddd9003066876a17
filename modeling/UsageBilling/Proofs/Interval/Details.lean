import UsageBilling.Proofs.Decimal.Counting
import UsageBilling.Proofs.Interval.CatchUp
import UsageBilling.Proofs.Text.JsonFields

/-! The details of a line. They are read back as what they were made of: the entry of a charge (`Charge.Entry`), the
entries of all charges for the units of a type (`InvoiceLine.ByTiers`), or the amounts that a capacity tier covers
(`InvoiceLine.ByCapacity`). Where the numbers are exact, the entries add up to what is due, and what was invoiced
before makes up the rest of it (`account_of_outcome`). -/

namespace UsageBilling

/-! ### Exact numbers -/

namespace Decimal

variable {due owed : Decimal} {invoiced : List Decimal} {zeroDisabled : Bool}

/-- What was invoiced of an amount due is finite, and the context holds the sums of it and what is left of the amount
due. -/
structure ExactlyOwed (due : ℚ) (invoiced : List Decimal) : Prop where
  finite : ∀ x ∈ invoiced, x.IsFinite
  sums : ∀ n, money.Holds ((invoiced.take n).map value).sum
  rest : money.Holds (due - (invoiced.map value).sum)

theorem ExactlyOwed.value_owed (h : ExactlyOwed due.value invoiced) (hdue : due.IsFinite)
    (howed : Decimal.owed zeroDisabled due invoiced = .ok (some owed)) :
    owed.IsFinite ∧ owed.value = due.value - (invoiced.map value).sum := by
  obtain ⟨billed, hbilled, howes⟩ := owes_of_owed howed
  obtain ⟨billed', hbilled', hfinite, hvalue⟩ := sum_of_holds h.finite h.sums
  obtain rfl : billed = billed' := Except.ok.inj (hbilled.symm.trans hbilled')
  cases howes with
  | rest _ _ hrest _ =>
      obtain ⟨rest, hrest', hrestfinite, hrestvalue⟩ := sub_of_holds hdue hfinite (hvalue ▸ h.rest)
      obtain rfl : owed = rest := Except.ok.inj (hrest.symm.trans hrest')
      exact ⟨hrestfinite, hvalue ▸ hrestvalue⟩

/-- What an amount due exceeds by what is owed of it was invoiced before. -/
theorem ExactlyOwed.value_before (h : ExactlyOwed due.value invoiced) (hdue : due.IsFinite)
    (howed : Decimal.owed zeroDisabled due invoiced = .ok (some owed)) {before : Decimal}
    (hbefore : due.sub owed = .ok before) : before.IsFinite ∧ before.value = (invoiced.map value).sum := by
  obtain ⟨hfinite, hvalue⟩ := h.value_owed hdue howed
  have hdifference : due.value - owed.value = (invoiced.map value).sum := by rw [hvalue, sub_sub_cancel]
  have hall : money.Holds (invoiced.map value).sum := by simpa using h.sums invoiced.length
  obtain ⟨before', hbefore', hresult⟩ := sub_of_holds hdue hfinite (hdifference ▸ hall)
  obtain rfl : before = before' := Except.ok.inj (hbefore.symm.trans hbefore')
  exact hdifference ▸ hresult

end Decimal

/-! ### What was invoiced before -/

/-- Details tell what was invoiced before, in a field that is there just where something was. -/
structure Json.TellsInvoiced (j : Json) (invoiced : List Decimal) : Prop where
  present : (j.field? "previously_billed").isSome ↔ invoiced ≠ []
  value : invoiced ≠ [] → ∃ d, j.decimalAt? "previously_billed" = some d ∧ d.IsFinite ∧
    d.value = (invoiced.map Decimal.value).sum

theorem Json.TellsInvoiced.valueAt_eq {j : Json} {invoiced : List Decimal} (h : j.TellsInvoiced invoiced) :
    j.valueAt "previously_billed" = (invoiced.map Decimal.value).sum := by
  by_cases hinvoiced : invoiced = []
  · have hnone : j.field? "previously_billed" = none := by
      simpa [hinvoiced] using h.present
    rw [Json.valueAt_of_field? hnone, hinvoiced, List.map_nil, List.sum_nil]
  · obtain ⟨d, hd, -, hvalue⟩ := h.value hinvoiced
    rw [Json.valueAt_of_decimalAt? hd, hvalue]

theorem previouslyBilled_eq_ok {billedBefore : Bool} {due owed : Decimal} {before : List (String × Json)} :
    previouslyBilled billedBefore due owed = .ok before ↔ billedBefore = false ∧ before = [] ∨
      billedBefore = true ∧ ∃ d, due.sub owed = .ok d ∧ before = [("previously_billed", .text d.toText)] := by
  cases billedBefore with
  | false => simpa [previouslyBilled] using pure_eq_ok.trans eq_comm
  | true =>
      rw [previouslyBilled, if_pos rfl, bind_eq_ok]
      simp only [pure_eq_ok, eq_comm (a := before), Bool.true_eq_false, false_and, true_and, false_or]

theorem tellsInvoiced_of_previouslyBilled {fields before : List (String × Json)} {due owed : Decimal}
    {invoiced : List Decimal} {zeroDisabled : Bool} (hexact : Decimal.ExactlyOwed due.value invoiced)
    (hdue : due.IsFinite) (howed : Decimal.owed zeroDisabled due invoiced = .ok (some owed))
    (hbefore : previouslyBilled (!invoiced.isEmpty) due owed = .ok before)
    (hnodup : ((fields ++ before).map (·.1)).Nodup) (hother : fields.lookup "previously_billed" = none) :
    (Json.object (fields ++ before)).ordered.TellsInvoiced invoiced := by
  have hlookup : (fields ++ before).lookup "previously_billed" = before.lookup "previously_billed" := by
    rw [List.lookup_append, hother, Option.none_or]
  rcases previouslyBilled_eq_ok.mp hbefore with ⟨hempty, rfl⟩ | ⟨hbilled, d, hd, rfl⟩
  · have hnone : invoiced = [] := by simpa using hempty
    refine ⟨?_, fun h => absurd hnone h⟩
    rw [Json.field?_ordered hnodup, hlookup]
    simp [hnone]
  · have hsome : invoiced ≠ [] := by simpa using hbilled
    refine ⟨?_, fun _ => ⟨d, Json.decimalAt?_ordered hnodup (hlookup.trans (by simp)),
      hexact.value_before hdue howed hd⟩⟩
    rw [Json.field?_ordered hnodup, hlookup]
    simp [hsome]

/-! ### Charges -/

namespace Charge

variable {c : Charge} {charges : List Charge}

/-- What the blocks come to, exactly. -/
def worth (c : Charge) : ℚ := c.blocks.value * c.price.value

/-- The numbers of a charge are finite, and the context holds its amount and its quantity. -/
structure Exact (c : Charge) : Prop where
  blocks : c.blocks.IsFinite
  price : c.price.IsFinite
  blockSize : c.blockSize.IsFinite
  amount : Decimal.money.Holds c.worth
  quantity : Decimal.money.Holds (c.blocks.value * c.blockSize.value)

/-- An entry for a charge tells its numbers, the units in its blocks and the amount that these come to. -/
structure Entry (c : Charge) (quantity amount : Decimal) (e : Json) : Prop where
  tier : e.field? "tier" = some (.text (toString c.tier))
  unitType : e.field? "unit_type" = some (.text c.unitType)
  blockSize : e.decimalAt? "block_size" = some c.blockSize
  blocks : e.decimalAt? "blocks" = some c.blocks
  quantity : e.decimalAt? "quantity" = some quantity
  price : e.decimalAt? "price" = some c.price
  amount : e.decimalAt? "amount" = some amount

def fields (c : Charge) (quantity amount : Decimal) : List (String × Json) := [
  ("tier", .text (toString c.tier)),
  ("unit_type", .text c.unitType),
  ("block_size", .text c.blockSize.toText),
  ("blocks", .text c.blocks.toText),
  ("quantity", .text quantity.toText),
  ("price", .text c.price.toText),
  ("amount", .text amount.toText)]

theorem entry_fields (c : Charge) (quantity amount : Decimal) :
    c.Entry quantity amount (Json.object (c.fields quantity amount)).ordered := by
  have hnodup : ((c.fields quantity amount).map (·.1)).Nodup := by simp [fields]
  have htext {key s : String} (h : (c.fields quantity amount).lookup key = some (.text s)) :
      (Json.object (c.fields quantity amount)).ordered.field? key = some (.text s) := by
    rw [Json.field?_ordered hnodup, h, Option.map_some, Json.ordered]
  have hnumber {key : String} {d : Decimal} (h : (c.fields quantity amount).lookup key = some (.text d.toText)) :
      (Json.object (c.fields quantity amount)).ordered.decimalAt? key = some d := Json.decimalAt?_ordered hnodup h
  exact ⟨htext rfl, htext rfl, hnumber rfl, hnumber rfl, hnumber rfl, hnumber rfl, hnumber rfl⟩

/-- The details of a charge are read back as an entry for it. -/
theorem entry_of_details {j : Json} (h : c.details = .ok j) : ∃ quantity amount,
    c.quantity = .ok quantity ∧ c.amount = .ok amount ∧ c.Entry quantity amount j.ordered := by
  obtain ⟨quantity, hquantity, h⟩ := bind_eq_ok.mp h
  obtain ⟨amount, hamount, h⟩ := bind_eq_ok.mp h
  obtain rfl := pure_eq_ok.mp h
  exact ⟨quantity, amount, hquantity, hamount, c.entry_fields quantity amount⟩

theorem Exact.amount_eq (h : c.Exact) : ∃ d, c.amount = .ok d ∧ d.IsFinite ∧ d.value = c.worth :=
  Decimal.mul_of_holds h.blocks h.price h.amount

theorem Exact.quantity_eq (h : c.Exact) :
    ∃ d, c.quantity = .ok d ∧ d.IsFinite ∧ d.value = c.blocks.value * c.blockSize.value :=
  Decimal.mul_of_holds h.blocks h.blockSize h.quantity

/-- An entry for a charge adds up: its amount is its blocks times its price, and its quantity is its blocks times
their size. -/
def AddsUp (c : Charge) (e : Json) : Prop := ∃ quantity amount, c.Entry quantity amount e ∧
  quantity.IsFinite ∧ quantity.value = c.blocks.value * c.blockSize.value ∧
  amount.IsFinite ∧ amount.value = c.blocks.value * c.price.value

theorem Exact.addsUp (h : c.Exact) {j : Json} (hj : c.details = .ok j) : c.AddsUp j.ordered := by
  obtain ⟨quantity, amount, hquantity, hamount, hentry⟩ := entry_of_details hj
  obtain ⟨q, hq, hqfinite, hqvalue⟩ := h.quantity_eq
  obtain ⟨a, ha, hafinite, havalue⟩ := h.amount_eq
  obtain rfl : quantity = q := Except.ok.inj (hquantity.symm.trans hq)
  obtain rfl : amount = a := Except.ok.inj (hamount.symm.trans ha)
  exact ⟨quantity, amount, hentry, hqfinite, hqvalue, hafinite, havalue⟩

theorem AddsUp.valueAt_amount {e : Json} (h : c.AddsUp e) : e.valueAt "amount" = c.worth := by
  obtain ⟨_, _, hentry, -, -, -, hvalue⟩ := h
  rw [Json.valueAt_of_decimalAt? hentry.amount, hvalue, worth]

/-- Charges that are exact, and whose amounts are added up exactly. -/
structure AllExact (charges : List Charge) : Prop where
  each : ∀ c ∈ charges, c.Exact
  sums : ∀ n, Decimal.money.Holds ((charges.take n).map worth).sum

theorem AllExact.total_eq (h : AllExact charges) {due : Decimal} (hdue : total charges = .ok due) :
    due.IsFinite ∧ due.value = (charges.map worth).sum := by
  obtain ⟨amounts, hamounts, hsum⟩ := total_eq_ok.mp hdue
  have heach : List.Forall₂ (fun c d => d.IsFinite ∧ c.worth = d.value) charges amounts := by
    refine ((List.forall₂_and_left _ _).mpr ⟨h.each, mapM_eq_ok.mp hamounts⟩).imp fun c d hd => ?_
    obtain ⟨a, ha, hfinite, hvalue⟩ := hd.1.amount_eq
    obtain rfl : a = d := Except.ok.inj (ha.symm.trans hd.2)
    exact ⟨hfinite, hvalue.symm⟩
  have hvalues : amounts.map Decimal.value = charges.map worth :=
    (map_eq_map_iff_forall₂.mpr (heach.imp fun _ _ hd => hd.2)).symm
  have hfinite : ∀ d ∈ amounts, d.IsFinite := fun d hd => by
    obtain ⟨c, -, hc, -⟩ := exists_of_forall₂_right heach hd
    exact hc
  obtain ⟨t, ht, htfinite, htvalue⟩ := Decimal.sum_of_holds hfinite fun n => by
    rw [List.map_take, hvalues, ← List.map_take]
    exact h.sums n
  obtain rfl : due = t := Except.ok.inj (hsum.symm.trans ht)
  exact ⟨htfinite, hvalues ▸ htvalue⟩

end Charge

/-! ### Lines -/

namespace InvoiceLine

/-- The details of a line for one charge have its amount, its quantity as the blocks and its rate as the price. -/
structure ByCharge (l : InvoiceLine) (j : Json) : Prop where
  amount : j.decimalAt? "amount" = some l.amount
  quantity : ∃ blocks, j.decimalAt? "blocks" = some blocks ∧ l.quantity = some blocks
  rate : ∃ price, j.decimalAt? "price" = some price ∧ l.rate = some price

/-- The details of a line for all units of a type have the metered quantity and an entry that adds up for each charge;
the amounts of the entries come to what was invoiced before and the amount of the line. -/
structure ByTiers (l : InvoiceLine) (quantity : Decimal) (charges : List Charge) (invoiced : List Decimal) (j : Json) :
    Prop where
  quantity : j.decimalAt? "quantity" = some quantity
  tiers : ∃ entries, j.field? "tiers" = some (.list entries) ∧ List.Forall₂ Charge.AddsUp charges entries ∧
    (entries.map (·.valueAt "amount")).sum = j.valueAt "previously_billed" + l.amount.value
  invoiced : j.TellsInvoiced invoiced
  finite : l.amount.IsFinite

/-- The details of a line for capacity usage have the metered amounts; its rate comes to what was invoiced before and
the amount of the line. -/
structure ByCapacity (l : InvoiceLine) (amounts : List (String × Decimal)) (invoiced : List Decimal) (j : Json) :
    Prop where
  amounts : ∃ fields, j.field? "amounts" = some (.object fields) ∧
    fields.map (fun f => (f.1, f.2.decimal?)) = amounts.map fun a => (a.1, some a.2)
  rate : ∃ rate, l.rate = some rate ∧ rate.IsFinite ∧ rate.value = j.valueAt "previously_billed" + l.amount.value
  invoiced : j.TellsInvoiced invoiced
  finite : l.amount.IsFinite

end InvoiceLine

/-- The details of all units of a type are read back. -/
theorem byTiers_of_aggregateDetails {quantity due owed : Decimal} {charges : List Charge} {invoiced : List Decimal}
    {zeroDisabled : Bool} {j : Json} {l : InvoiceLine} (hcharges : Charge.AllExact charges)
    (hexact : Decimal.ExactlyOwed (charges.map Charge.worth).sum invoiced) (hdue : Charge.total charges = .ok due)
    (howed : Decimal.owed zeroDisabled due invoiced = .ok (some owed))
    (h : aggregateDetails quantity charges (!invoiced.isEmpty) due owed = .ok j) (hl : l.amount = owed) :
    l.ByTiers quantity charges invoiced j.ordered := by
  obtain ⟨hfinite, hvalue⟩ := hcharges.total_eq hdue
  rw [← hvalue] at hexact
  obtain ⟨howedfinite, howedvalue⟩ := hexact.value_owed hfinite howed
  obtain ⟨tiers, htiers, h⟩ := bind_eq_ok.mp h
  obtain ⟨before, hbefore, h⟩ := bind_eq_ok.mp h
  obtain rfl := pure_eq_ok.mp h
  have hnodup : (([("quantity", Json.text quantity.toText), ("tiers", .list tiers)] ++ before).map (·.1)).Nodup := by
    rcases previouslyBilled_eq_ok.mp hbefore with ⟨-, rfl⟩ | ⟨-, _, -, rfl⟩ <;> simp
  have htold := tellsInvoiced_of_previouslyBilled hexact hfinite howed hbefore hnodup rfl
  have hentries : List.Forall₂ Charge.AddsUp charges (tiers.map Json.ordered) :=
    List.forall₂_map_right_iff.mpr (((List.forall₂_and_left _ _).mpr ⟨hcharges.each, mapM_eq_ok.mp htiers⟩).imp
      fun _ _ he => he.1.addsUp he.2)
  refine ⟨Json.decimalAt?_ordered hnodup rfl, ⟨tiers.map Json.ordered, ?_, hentries, ?_⟩, htold, hl ▸ howedfinite⟩
  · rw [Json.field?_ordered hnodup]
    exact congrArg (fun xs => some (Json.list xs)) (Json.orderedAll_eq tiers)
  · have hworths : (tiers.map Json.ordered).map (·.valueAt "amount") = charges.map Charge.worth :=
      (map_eq_map_iff_forall₂.mpr (hentries.imp fun _ _ he => he.valueAt_amount.symm)).symm
    rw [hworths, htold.valueAt_eq, hl, howedvalue, hvalue, add_sub_cancel]

/-- The details of capacity usage are read back. -/
theorem byCapacity_of_details {tier : CapacityTier} {amounts : List (String × Decimal)} {owed : Decimal}
    {invoiced : List Decimal} {zeroDisabled : Bool} {j : Json} {l : InvoiceLine} (hprice : tier.price.IsFinite)
    (hexact : Decimal.ExactlyOwed tier.price.value invoiced) (hascending : (amounts.map (·.1)).Pairwise (· < ·))
    (howed : Decimal.owed zeroDisabled tier.price invoiced = .ok (some owed))
    (h : tier.details amounts (!invoiced.isEmpty) owed = .ok j) (hl : l.amount = owed)
    (hrate : l.rate = some tier.price) : l.ByCapacity amounts invoiced j.ordered := by
  obtain ⟨howedfinite, howedvalue⟩ := hexact.value_owed hprice howed
  obtain ⟨before, hbefore, h⟩ := bind_eq_ok.mp h
  obtain rfl := pure_eq_ok.mp h
  have hnodup : (([("tier", Json.ofNat tier.index), ("amounts",
      .object (amounts.map fun a => (a.1, Json.text a.2.toText)))] ++ before).map (·.1)).Nodup := by
    rcases previouslyBilled_eq_ok.mp hbefore with ⟨-, rfl⟩ | ⟨-, _, -, rfl⟩ <;> simp
  have htold := tellsInvoiced_of_previouslyBilled hexact hprice howed hbefore hnodup rfl
  refine ⟨⟨amounts.map fun a => (a.1, Json.text a.2.toText), ?_, ?_⟩, ⟨tier.price, hrate, hprice, ?_⟩, htold,
    hl ▸ howedfinite⟩
  · rw [Json.field?_ordered hnodup]
    exact congrArg some (Json.ordered_texts hascending)
  · rw [List.map_map]
    refine List.map_congr_left fun a _ => ?_
    rw [Function.comp_apply, Json.decimal?, Decimal.ofText?_toText]
  · rw [htold.valueAt_eq, hl, howedvalue, add_sub_cancel]

/-! ### Buckets -/

namespace Interval

variable {i : Interval} {b : Bucket} {subscriptionId : String} {items existing : List InvoiceItem}

/-- The amounts of the items that there are for a unit type of a bucket, or without one for the bucket. -/
def billedBefore (subscriptionId : String) (p : Interval × Bucket) (unitType : Option String)
    (items : List InvoiceItem) : List Decimal :=
  (items.filter fun x => x.itemType = .usage && x.usageName = p.1.usage.name && x.subscriptionId = subscriptionId &&
    x.startDate = p.2.alignedStart && x.endDate = p.2.finish && x.unitType = unitType).map (·.amount)

/-- The numbers of a bucket are finite, and what is computed of them to find its lines is exact. -/
def ExactFor (subscriptionId : String) (existing : List InvoiceItem) (p : Interval × Bucket) : Prop :=
  ∀ types rolled, p.1.governingUnitTypes p.2 = .ok types →
    RolledUsage.ofRecords p.1.terms.rawUsage subscriptionId p.2.start p.2.finish types p.1.terms.invoiceId =
      .ok rolled →
    match p.1.usage.pricing with
    | .consumable => ∀ a ∈ rolled.amounts, ∀ charges, p.1.usage.consumableCharges a.1 a.2 = .ok charges →
        Charge.AllExact charges ∧ Decimal.ExactlyOwed (charges.map Charge.worth).sum
          (billedBefore subscriptionId p (some a.1) existing)
    | .capacity => ∀ tier, p.1.usage.capacityTier rolled.amounts = .ok tier →
        tier.price.IsFinite ∧ Decimal.ExactlyOwed tier.price.value (billedBefore subscriptionId p none existing)

/-- A line for a unit type is one of those for its charges: in detail mode, where there are charges and nothing was
invoiced. -/
def Itemized (i : Interval) (invoiced : List Decimal) (charges : List Charge) : Prop :=
  i.terms.detailMode = .detail ∧ invoiced = [] ∧ charges ≠ []

/-- Details account for a line of a bucket, given the items that there were. -/
inductive AccountFor (subscriptionId : String) (existing : List InvoiceItem) (p : Interval × Bucket)
    (rolled : RolledUsage) (l : InvoiceLine) (j : Json) : Prop
  | charge {a : String × Decimal} {charges : List Charge} (hpricing : p.1.usage.pricing = .consumable)
      (ha : a ∈ rolled.amounts) (hunit : l.unitType = some a.1)
      (hcharges : p.1.usage.consumableCharges a.1 a.2 = .ok charges)
      (hkind : p.1.Itemized (billedBefore subscriptionId p (some a.1) existing) charges)
      (hby : l.ByCharge j) : AccountFor subscriptionId existing p rolled l j
  | tiers {a : String × Decimal} {charges : List Charge} (hpricing : p.1.usage.pricing = .consumable)
      (ha : a ∈ rolled.amounts) (hunit : l.unitType = some a.1)
      (hcharges : p.1.usage.consumableCharges a.1 a.2 = .ok charges)
      (hkind : ¬ p.1.Itemized (billedBefore subscriptionId p (some a.1) existing) charges)
      (hby : l.ByTiers a.2 charges (billedBefore subscriptionId p (some a.1) existing) j) :
      AccountFor subscriptionId existing p rolled l j
  | capacity (hpricing : p.1.usage.pricing = .capacity)
      (hby : l.ByCapacity rolled.amounts (billedBefore subscriptionId p none existing) j) :
      AccountFor subscriptionId existing p rolled l j

theorem billedBefore_of_billedFor {p : Interval × Bucket} (hne : p.2.alignedStart < p.2.finish)
    {billed : List InvoiceItem} (h : p.1.billedFor p.2 (p.1.relevantItems subscriptionId items) = .ok billed)
    (unitType : Option String) :
    billedBefore subscriptionId p unitType items = (billed.filter (·.unitType = unitType)).map (·.amount) := by
  obtain ⟨rfl, hall⟩ := billedFor_eq_ok.mp h
  rw [filter_overlaps] at hall ⊢
  rw [billedBefore, List.filter_filter]
  congr 1
  refine List.filter_congr fun x hx => ?_
  cases hc : concerns subscriptionId p x.toInvoiceLine with
  | true =>
      obtain ⟨hstart, hfinish⟩ := hall x (List.mem_filter.mpr ⟨hx, hc⟩)
      rw [concerns, Bool.and_eq_true] at hc
      rw [hc.2, hstart, hfinish]
      simp
  | false =>
      rw [Bool.and_false, Bool.eq_false_iff]
      intro hx
      simp only [Bool.and_eq_true, decide_eq_true_eq] at hx
      obtain ⟨⟨⟨⟨⟨htype, hname⟩, hsub⟩, hstart⟩, hfinish⟩, -⟩ := hx
      have hconcerns := concerns_of_forBucket hne ⟨htype, hname, hsub, hstart, hfinish⟩
      exact Bool.false_ne_true (hc.symm.trans hconcerns)

theorem byCharge_of_chargeLines {unitType : String} {charges : List Charge} {lines : List InvoiceLine}
    (h : i.chargeLines b unitType charges = .ok lines) : ∀ l ∈ lines, l.unitType = some unitType ∧
      ∃ j : Json, l.details = some j.toText ∧ l.ByCharge j.ordered := by
  rw [chargeLines, bind_eq_ok] at h
  obtain ⟨found, hfound, h⟩ := h
  obtain rfl := pure_eq_ok.mp h
  intro l hl
  obtain ⟨line, hline, rfl⟩ := List.mem_filterMap.mp hl
  obtain ⟨c, -, hc⟩ := exists_of_forall₂_right (mapM_eq_ok.mp hfound) hline
  obtain ⟨amount, hamount, hc⟩ := bind_eq_ok.mp hc
  have hamount := liftM_decimal_eq_ok.mp hamount
  split at hc
  next =>
    cases pure_eq_ok.mp hc
  next =>
    obtain ⟨details, hdetails, hc⟩ := bind_eq_ok.mp hc
    obtain ⟨new, hnew, hc⟩ := bind_eq_ok.mp hc
    cases pure_eq_ok.mp hc
    obtain ⟨rfl, hu, hq, hr, htext⟩ := fields_of_newLine hnew
    obtain ⟨quantity, amount', hquantity, hamount', hentry⟩ := Charge.entry_of_details (liftM_decimal_eq_ok.mp hdetails)
    obtain rfl := Except.ok.inj (hamount.symm.trans hamount')
    exact ⟨hu, details, htext, hentry.amount, ⟨c.blocks, hentry.blocks, hq⟩, ⟨c.price, hentry.price, hr⟩⟩

/-- The lines for a unit type have details that account for them. -/
theorem account_of_unitTypeLines {a : String × Decimal} {lines : List InvoiceLine}
    (h : (i.unitTypeLines b a.1 a.2 items).result = .ok lines) {invoiced : List Decimal}
    (hinvoiced : invoiced = (items.filter (·.unitType = some a.1)).map (·.amount))
    (hexact : ∀ charges, i.usage.consumableCharges a.1 a.2 = .ok charges →
      Charge.AllExact charges ∧ Decimal.ExactlyOwed (charges.map Charge.worth).sum invoiced) :
    ∃ charges, i.usage.consumableCharges a.1 a.2 = .ok charges ∧ ∀ l ∈ lines, l.unitType = some a.1 ∧
      ∃ j : Json, l.details = some j.toText ∧ (i.Itemized invoiced charges ∧ l.ByCharge j.ordered ∨
        ¬ i.Itemized invoiced charges ∧ l.ByTiers a.2 charges invoiced j.ordered) := by
  obtain ⟨charges, due, owed, hcharges, hdue, howed, h⟩ := unitTypeLines_eq_ok.mp h
  obtain ⟨hall, hexact⟩ := hexact charges hcharges
  rw [← hinvoiced] at howed
  have hkind : i.Itemized invoiced charges ↔
      i.terms.detailMode = .detail ∧ items.filter (·.unitType = some a.1) = [] ∧ charges ≠ [] := by
    rw [Itemized, hinvoiced, List.map_eq_nil_iff]
  refine ⟨charges, hcharges, ?_⟩
  cases h with
  | none => exact fun _ hl => absurd hl List.not_mem_nil
  | itemized hdetail hlines =>
      intro l hl
      obtain ⟨hu, j, htext, hby⟩ := byCharge_of_chargeLines hlines l hl
      exact ⟨hu, j, htext, Or.inl ⟨hkind.mpr hdetail, hby⟩⟩
  | aggregate haggregate hline =>
      obtain ⟨details, rest, rate, hdetails, -, hline⟩ := aggregateLine_eq_ok hline
      obtain ⟨hamount, hu, -, -, htext⟩ := fields_of_newLine hline
      rw [← List.isEmpty_map (f := fun x : InvoiceItem => x.amount), ← hinvoiced] at hdetails
      exact List.forall_mem_singleton.mpr ⟨hu, details, htext, Or.inr ⟨mt hkind.mp haggregate,
        byTiers_of_aggregateDetails hall hexact hdue howed hdetails hamount⟩⟩

/-- The line of a capacity section has details that account for it. -/
theorem account_of_capacityLines {rolled : RolledUsage} {lines : List InvoiceLine}
    (h : (i.capacityLines b rolled items).result = .ok lines) (hascending : (rolled.amounts.map (·.1)).Pairwise (· < ·))
    {invoiced : List Decimal} (hinvoiced : invoiced = (items.filter (·.unitType = none)).map (·.amount))
    (hexact : ∀ tier, i.usage.capacityTier rolled.amounts = .ok tier →
      tier.price.IsFinite ∧ Decimal.ExactlyOwed tier.price.value invoiced) :
    ∀ l ∈ lines, ∃ j : Json, l.details = some j.toText ∧ l.ByCapacity rolled.amounts invoiced j.ordered := by
  obtain ⟨hcheck, tier, owed, htier, howed, h⟩ := capacityLines_eq_ok.mp h
  have hall : items.filter (·.unitType = none) = items :=
    List.filter_eq_self.mpr (by simpa using checkNoUnitTypes_eq_ok.mp hcheck)
  rw [hall] at hinvoiced
  obtain ⟨hprice, hexact⟩ := hexact tier htier
  rw [← hinvoiced] at howed
  obtain ⟨-, rfl⟩ | ⟨rest, details, line, rfl, rfl, hdetails, hline⟩ := h
  · exact fun _ hl => absurd hl List.not_mem_nil
  · obtain ⟨hamount, -, -, hrate, htext⟩ := fields_of_newLine hline
    rw [← List.isEmpty_map (f := fun x : InvoiceItem => x.amount), ← hinvoiced] at hdetails
    exact List.forall_mem_singleton.mpr
      ⟨details, htext, byCapacity_of_details hprice hexact hascending howed hdetails hamount hrate⟩

/-- The lines that a bucket adds have details that are read back and account for them. -/
theorem account_of_outcome {p : Interval × Bucket} (hne : p.2.alignedStart < p.2.finish)
    (hexact : ExactFor subscriptionId existing p) {out : List InvoiceLine × List TrackingId}
    (h : outcome subscriptionId existing p = .ok out) : ∀ l ∈ out.1, ∃ types rolled, ∃ j : Json,
      p.1.governingUnitTypes p.2 = .ok types ∧
      RolledUsage.ofRecords p.1.terms.rawUsage subscriptionId p.2.start p.2.finish types p.1.terms.invoiceId =
        .ok rolled ∧
      l.details = some j.toText ∧ AccountFor subscriptionId existing p rolled l j.ordered := by
  obtain ⟨billed, types, hbilled, htypes, hout⟩ := reconcileBucket_eq_ok.mp h
  have hbefore := billedBefore_of_billedFor hne hbilled
  rcases hout with ⟨-, rfl⟩ | ⟨hnonempty, rolled, lines, hrolled, hlines, rfl⟩
  · exact fun _ hl => absurd hl List.not_mem_nil
  intro l hl
  refine ⟨types, rolled, ?_⟩
  have hexact := hexact types rolled htypes hrolled
  rw [bucketLines] at hlines
  cases hpricing : p.1.usage.pricing with
  | consumable =>
      rw [hpricing] at hlines hexact
      obtain ⟨-, parts, hparts, rfl⟩ := consumableLines_eq_ok.mp hlines
      obtain ⟨ls, hls, hl⟩ := List.mem_flatten.mp hl
      obtain ⟨a, ha, hls⟩ := exists_of_forall₂_right hparts hls
      obtain ⟨charges, hcharges, hall⟩ := account_of_unitTypeLines hls (hbefore (some a.1)) (hexact a ha)
      obtain ⟨hu, j, htext, ⟨hkind, hby⟩ | ⟨hkind, hby⟩⟩ := hall l hl
      · exact ⟨j, htypes, hrolled, htext, .charge hpricing ha hu hcharges hkind hby⟩
      · exact ⟨j, htypes, hrolled, htext, .tiers hpricing ha hu hcharges hkind hby⟩
  | capacity =>
      rw [hpricing] at hlines hexact
      obtain ⟨j, htext, hby⟩ := account_of_capacityLines hlines (RolledUsage.ascending_amounts hrolled) (hbefore none)
        hexact l hl
      exact ⟨j, htypes, hrolled, htext, .capacity hpricing hby⟩

end Interval

end UsageBilling
