import UsageBilling.Interval.Reconciliation
import UsageBilling.Proofs.Decimal.Sums

/-! What reconciling an interval gives, bucket by bucket. A bucket bills the usage of its governing unit
types: the lines it owes given the items invoiced for it, and the tracking ids of the records it counts
(`reconcileBucket_eq_ok`). What is owed of an amount depends on the amounts invoiced before only
(`Decimal.owed`). What is owed for a unit type becomes no line, the lines of its charges or one line (`Lined`,
`unitTypeLines_eq_ok`), and what is owed of a tier no line or one (`capacityLines_eq_ok`). Lines carry the bucket
they are for (`ForBucket`); each of them is made for one of the unit types that the bucket counts, or for none
(`makes_of_bucketLines`). -/

namespace UsageBilling

/-- What is still owed of an amount due, given the amounts invoiced before; none when there is nothing
to invoice. -/
def Decimal.owed (zeroDisabled : Bool) (due : Decimal) (invoiced : List Decimal) :
    Except Decimal.Fault (Option Decimal) := do
  let billed ← Decimal.sum invoiced
  if !invoiced.isEmpty && billed.equals due then return none
  if ← due.below billed then return none
  let rest ← due.sub billed
  if rest.equals .zero && zeroDisabled then return none
  return some rest

/-- How an amount due, of which some was billed, comes to what is owed of it. -/
inductive Decimal.Owes (zeroDisabled : Bool) (due : Decimal) (invoiced : List Decimal) (billed : Decimal) :
    Option Decimal → Prop
  | settled (hne : invoiced ≠ []) (hequal : billed.equals due = true) : Owes zeroDisabled due invoiced billed none
  | exceeded (hbelow : due.below billed = .ok true) : Owes zeroDisabled due invoiced billed none
  | zero {rest : Decimal} (hbelow : due.below billed = .ok false) (hrest : due.sub billed = .ok rest)
      (hzero : rest.equals .zero = true) (hdisabled : zeroDisabled = true) : Owes zeroDisabled due invoiced billed none
  | rest {rest : Decimal} (hdiffers : invoiced ≠ [] → billed.equals due = false)
      (hbelow : due.below billed = .ok false) (hrest : due.sub billed = .ok rest)
      (hworth : rest.equals .zero = true → zeroDisabled = false) : Owes zeroDisabled due invoiced billed (some rest)

theorem Decimal.owes_of_owed {zeroDisabled : Bool} {due : Decimal} {invoiced : List Decimal} {owed : Option Decimal}
    (h : Decimal.owed zeroDisabled due invoiced = .ok owed) :
    ∃ billed, Decimal.sum invoiced = .ok billed ∧ Owes zeroDisabled due invoiced billed owed := by
  rw [Decimal.owed] at h
  obtain ⟨billed, hbilled, h⟩ := bind_eq_ok.mp h
  refine ⟨billed, hbilled, ?_⟩
  split at h
  next hsettled =>
    obtain rfl := pure_eq_ok.mp h
    rw [Bool.and_eq_true, Bool.not_eq_true', List.isEmpty_eq_false_iff] at hsettled
    exact .settled hsettled.1 hsettled.2
  next hdiffers =>
    rw [Bool.and_eq_true, Bool.not_eq_true', List.isEmpty_eq_false_iff, not_and, Bool.not_eq_true] at hdiffers
    obtain ⟨isBelow, hbelow, h⟩ := bind_eq_ok.mp h
    cases isBelow with
    | true =>
        obtain rfl := pure_eq_ok.mp h
        exact .exceeded hbelow
    | false =>
        obtain ⟨rest, hrest, h⟩ := bind_eq_ok.mp h
        split at h
        next hzero =>
          obtain rfl := pure_eq_ok.mp h
          rw [Bool.and_eq_true] at hzero
          exact .zero hbelow hrest hzero.1 hzero.2
        next hworth =>
          obtain rfl := pure_eq_ok.mp h
          rw [Bool.and_eq_true, not_and, Bool.not_eq_true] at hworth
          exact .rest hdiffers hbelow hrest hworth

/-- A line is one for a bucket of an interval: it has the usage section, the subscription and the
aligned dates of the bucket. -/
structure InvoiceLine.ForBucket (line : InvoiceLine) (i : Interval) (b : Bucket) (subscriptionId : String) :
    Prop where
  itemType : line.itemType = .usage
  usageName : line.usageName = i.usage.name
  subscriptionId : line.subscriptionId = subscriptionId
  startDate : line.startDate = b.alignedStart
  endDate : line.endDate = b.finish

namespace Interval

def bucketLines (i : Interval) (b : Bucket) (rolled : RolledUsage) (billed : List InvoiceItem) :
    Logged (List InvoiceLine) :=
  match i.usage.pricing with
  | .consumable => i.consumableLines b rolled billed
  | .capacity => i.capacityLines b rolled billed

variable {i : Interval} {b : Bucket} {subscriptionId : String} {items : List InvoiceItem}

theorem reconcileBucket_result (i : Interval) (b : Bucket) (subscriptionId : String) (items : List InvoiceItem) :
    (i.reconcileBucket subscriptionId items b).result = (do
      let billed ← i.billedFor b items
      let types ← i.governingUnitTypes b
      if types.isEmpty then return ([], [])
      let rolled ← RolledUsage.ofRecords i.terms.rawUsage subscriptionId b.start b.finish types i.terms.invoiceId
      let lines ← (i.bucketLines b rolled billed).result
      return (lines, rolled.trackingIds.filter fun t => !t.isIn i.terms.existingTrackingIds) :
        Except Error (List InvoiceLine × List TrackingId)) := by
  rw [reconcileBucket]
  simp only [Logged.result_bind, Logged.result_liftM]
  refine bind_congr fun billed => bind_congr fun types => ?_
  split
  · rfl
  · simp only [Logged.result_bind, Logged.result_liftM_decimal]
    refine bind_congr fun rolled => ?_
    rw [bucketLines]
    cases i.usage.pricing <;> simp only [Logged.result_bind] <;> rfl

/-- What a bucket adds: nothing without governing unit types, and otherwise its lines and the tracking
ids of the records it counts. -/
theorem reconcileBucket_eq_ok {out : List InvoiceLine × List TrackingId} :
    (i.reconcileBucket subscriptionId items b).result = .ok out ↔ ∃ billed types,
      i.billedFor b items = .ok billed ∧ i.governingUnitTypes b = .ok types ∧
      (types = [] ∧ out = ([], []) ∨ types ≠ [] ∧ ∃ rolled lines,
        RolledUsage.ofRecords i.terms.rawUsage subscriptionId b.start b.finish types i.terms.invoiceId =
          .ok rolled ∧
        (i.bucketLines b rolled billed).result = .ok lines ∧
        out = (lines, rolled.trackingIds.filter fun t => !t.isIn i.terms.existingTrackingIds)) := by
  rw [reconcileBucket_result, bind_eq_ok]
  refine exists_congr fun billed => ?_
  rw [exists_and_left]
  refine and_congr_right fun _ => ?_
  rw [bind_eq_ok]
  refine exists_congr fun types => and_congr_right fun _ => ?_
  cases types with
  | nil =>
      rw [List.isEmpty_nil, if_pos rfl, pure_eq_ok, eq_comm]
      simp
  | cons t ts =>
      rw [List.isEmpty_cons, if_neg Bool.false_ne_true]
      constructor
      · intro h
        obtain ⟨rolled, hrolled, h⟩ := bind_eq_ok.mp h
        obtain ⟨lines, hlines, h⟩ := bind_eq_ok.mp h
        exact Or.inr ⟨nofun, rolled, lines, liftM_decimal_eq_ok.mp hrolled, hlines, (pure_eq_ok.mp h).symm⟩
      · rintro (⟨h, -⟩ | ⟨-, rolled, lines, hrolled, hlines, rfl⟩)
        · cases h
        · exact bind_eq_ok.mpr ⟨rolled, liftM_decimal_eq_ok.mpr hrolled, bind_eq_ok.mpr ⟨lines, hlines, rfl⟩⟩

theorem reconcileBucket_nil_eq_ok {out : List InvoiceLine × List TrackingId} :
    (i.reconcileBucket subscriptionId [] b).result = .ok out ↔ ∃ types, i.governingUnitTypes b = .ok types ∧
      (types = [] ∧ out = ([], []) ∨ types ≠ [] ∧ ∃ rolled lines,
        RolledUsage.ofRecords i.terms.rawUsage subscriptionId b.start b.finish types i.terms.invoiceId =
          .ok rolled ∧
        (i.bucketLines b rolled []).result = .ok lines ∧
        out = (lines, rolled.trackingIds.filter fun t => !t.isIn i.terms.existingTrackingIds)) := by
  rw [reconcileBucket_eq_ok]
  constructor
  · rintro ⟨billed, types, hbilled, h⟩
    obtain rfl : [] = billed := Except.ok.inj hbilled
    exact ⟨types, h⟩
  · rintro ⟨types, h⟩
    exact ⟨[], types, rfl, h⟩

/-- The items invoiced for a bucket are those that overlap it, and all of them coincide with it. -/
theorem billedFor_eq_ok {billed : List InvoiceItem} : i.billedFor b items = .ok billed ↔
    billed = items.filter (overlaps b) ∧ ∀ x ∈ billed, x.startDate = b.alignedStart ∧ x.endDate = b.finish := by
  rw [billedFor]
  cases hfind : (items.filter (overlaps b)).find? fun x => x.startDate ≠ b.alignedStart || x.endDate ≠ b.finish with
  | none =>
      have hall := List.find?_eq_none.mp hfind
      simp only [ne_eq, decide_not, Bool.or_eq_true, Bool.not_eq_true', decide_eq_false_iff_not, not_or, not_not]
        at hall
      constructor
      · intro h
        obtain rfl := pure_eq_ok.mp h
        exact ⟨rfl, hall⟩
      · rintro ⟨rfl, -⟩
        rfl
  | some x =>
      have hx := List.find?_some hfind
      have hmem := List.mem_of_find?_eq_some hfind
      refine iff_of_false error_ne_ok ?_
      rintro ⟨rfl, hall⟩
      obtain ⟨hstart, hfinish⟩ := hall x hmem
      simp [hstart, hfinish] at hx

/-- The items invoiced for consumable usage have unit types of the usage section. -/
theorem checkUnitTypes_eq_ok :
    i.checkUnitTypes items = .ok () ↔ ∀ x ∈ items, ∃ u ∈ i.usage.unitTypes, x.unitType = some u := by
  rw [checkUnitTypes]
  dsimp only
  cases hfind : items.find? _ with
  | none =>
      simp only [List.find?_eq_none, Bool.not_eq_true', Bool.not_eq_false] at hfind
      refine ⟨fun _ x hx => ?_, fun _ => rfl⟩
      have hknown := hfind x hx
      cases hu : x.unitType with
      | none =>
          rw [hu] at hknown
          cases hknown
      | some u =>
          rw [hu] at hknown
          exact ⟨u, of_decide_eq_true hknown, rfl⟩
  | some x =>
      have hforeign := List.find?_some hfind
      refine iff_of_false error_ne_ok fun hall => ?_
      obtain ⟨u, hu, hxu⟩ := hall x (List.mem_of_find?_eq_some hfind)
      rw [hxu] at hforeign
      simp [hu] at hforeign

theorem checkNoUnitTypes_eq_ok : checkNoUnitTypes items = .ok () ↔ ∀ x ∈ items, x.unitType = none := by
  have htyped : (items.filterMap fun x => x.unitType.map fun unitType => (x.id, unitType)) = [] ↔
      ∀ x ∈ items, x.unitType = none := by
    simp only [List.filterMap_eq_nil_iff, Option.map_eq_none_iff]
  rw [checkNoUnitTypes, ← htyped]
  cases items.filterMap fun x => x.unitType.map fun unitType => (x.id, unitType) with
  | nil => exact ⟨fun _ => rfl, fun _ => rfl⟩
  | cons x xs => exact ⟨nofun, nofun⟩

theorem mem_unitTypes_of_governing {types : List String} (h : i.governingUnitTypes b = .ok types) :
    ∀ t ∈ types, t ∈ i.usage.unitTypes := by
  obtain ⟨finish, -, h⟩ := bind_eq_ok.mp h
  have h := pure_eq_ok.mp h
  intro t ht
  rw [← h] at ht
  split at ht
  · exact ((UnitTypes.mem_inter _ _ _).mp ht).2
  · exact ht

/-! ### What is owed -/

theorem amountOwed_result (i : Interval) (b : Bucket) (due : Decimal) (items : List InvoiceItem)
    (unitType : Option String) : (i.amountOwed b due items unitType).result =
      (liftM (Decimal.owed i.terms.zeroAmountDisabled due (items.map (·.amount))) : Except Error (Option Decimal)) := by
  rw [amountOwed, Decimal.owed, List.isEmpty_map]
  simp only [Logged.result_bind, Logged.result_liftM_decimal, Logged.result_ite, Logged.result_pure,
    liftM_decimal_bind, liftM_decimal_ite]
  rfl

/-! ### Lines -/

theorem fields_of_newLine {amount : Decimal} {unitType : Option String} {quantity rate : Option Decimal}
    {details : Json} {line : InvoiceLine} (h : i.newLine b amount unitType quantity rate details = .ok line) :
    line.amount = amount ∧ line.unitType = unitType ∧ line.quantity = quantity ∧ line.rate = rate ∧
      line.details = some details.toText := by
  rw [newLine] at h
  split at h
  · cases h
  · exact Except.ok.inj h ▸ ⟨rfl, rfl, rfl, rfl, rfl⟩

theorem forBucket_of_newLine (hsub : ∀ e ∈ i.events, e.event.subscriptionId = subscriptionId) {amount : Decimal}
    {unitType : Option String} {quantity rate : Option Decimal} {details : Json} {line : InvoiceLine}
    (h : i.newLine b amount unitType quantity rate details = .ok line) :
    line.ForBucket i b subscriptionId ∧ line.amount = amount ∧ line.unitType = unitType ∧
      line.quantity = quantity := by
  rw [newLine] at h
  split at h
  · cases h
  next e _ he =>
    obtain rfl := Except.ok.inj h
    exact ⟨⟨rfl, rfl, hsub _ (List.mem_of_getElem? he), rfl, rfl⟩, rfl, rfl, rfl⟩

def keeps (i : Interval) (amount : Decimal) : Bool := !(amount.equals .zero && i.terms.zeroAmountDisabled)

/-- The lines of some charges are those for each charge with an amount that is worth one, with its blocks and its
price. -/
theorem chargeLines_forall₂ {unitType : String} {charges : List Charge} {lines : List InvoiceLine}
    (h : i.chargeLines b unitType charges = .ok lines) : ∃ amounts, charges.mapM Charge.amount = .ok amounts ∧
      List.Forall₂ (fun p l => ∃ details, i.newLine b p.2 (some unitType) (some p.1.blocks) (some p.1.price) details =
        .ok l) ((charges.zip amounts).filter fun p => i.keeps p.2) lines := by
  rw [chargeLines, bind_eq_ok] at h
  obtain ⟨found, hfound, h⟩ := h
  obtain rfl := pure_eq_ok.mp h
  clear h
  induction charges generalizing found with
  | nil =>
      obtain rfl := pure_eq_ok.mp hfound
      exact ⟨[], rfl, .nil⟩
  | cons c cs ih =>
      rw [List.mapM_cons] at hfound
      obtain ⟨line?, hline, hfound⟩ := bind_eq_ok.mp hfound
      obtain ⟨rest, hrest, hfound⟩ := bind_eq_ok.mp hfound
      obtain rfl := pure_eq_ok.mp hfound
      obtain ⟨amounts, hamounts, hlines⟩ := ih rest hrest
      obtain ⟨amount, hamount, hline⟩ := bind_eq_ok.mp hline
      have hamount := liftM_decimal_eq_ok.mp hamount
      refine ⟨amount :: amounts, ?_, ?_⟩
      · rw [List.mapM_cons, hamount, ok_bind, hamounts]
        rfl
      · rw [List.zip_cons_cons]
        cases hskip : amount.equals .zero && i.terms.zeroAmountDisabled with
        | true =>
            rw [hskip, if_pos rfl] at hline
            obtain rfl := pure_eq_ok.mp hline
            rw [List.filter_cons_of_neg (by simp [keeps, hskip]), List.filterMap_cons_none rfl]
            exact hlines
        | false =>
            rw [hskip, if_neg Bool.false_ne_true] at hline
            obtain ⟨details, -, hline⟩ := bind_eq_ok.mp hline
            obtain ⟨line, hnew, hline⟩ := bind_eq_ok.mp hline
            obtain rfl := pure_eq_ok.mp hline
            rw [List.filter_cons_of_pos (by simp [keeps, hskip]), List.filterMap_cons_some (f := id) rfl]
            exact .cons ⟨details, hnew⟩ hlines

/-- The lines of some charges have the amounts of the charges that are worth one. -/
theorem chargeLines_eq_ok (hsub : ∀ e ∈ i.events, e.event.subscriptionId = subscriptionId) {unitType : String}
    {charges : List Charge} {lines : List InvoiceLine} (h : i.chargeLines b unitType charges = .ok lines) :
    ∃ amounts, charges.mapM Charge.amount = .ok amounts ∧ lines.map (·.amount) = amounts.filter i.keeps ∧
      ∀ l ∈ lines, l.ForBucket i b subscriptionId ∧ l.unitType = some unitType := by
  obtain ⟨amounts, hamounts, hlines⟩ := chargeLines_forall₂ h
  refine ⟨amounts, hamounts, ?_, fun l hl => ?_⟩
  · have hsnd : (charges.zip amounts).map Prod.snd = amounts :=
      List.map_snd_zip (Nat.le_of_eq (mapM_eq_ok.mp hamounts).length_eq.symm)
    have hkept : ((charges.zip amounts).filter fun p => i.keeps p.2).map Prod.snd = amounts.filter i.keeps := by
      conv_rhs => rw [← hsnd, List.filter_map]
      rfl
    rw [← hkept]
    symm
    rw [map_eq_map_iff_forall₂]
    refine hlines.imp fun p l hl => ?_
    obtain ⟨details, hl⟩ := hl
    exact (forBucket_of_newLine hsub hl).2.1.symm
  · obtain ⟨p, -, details, hp⟩ := exists_of_forall₂_right hlines hl
    obtain ⟨hfor, -, hu, -⟩ := forBucket_of_newLine hsub hp
    exact ⟨hfor, hu⟩

/-- How what is owed for a unit type becomes lines: none, those of its charges, or one for the whole of it. -/
inductive Lined (i : Interval) (b : Bucket) (unitType : String) (quantity due : Decimal) (charges : List Charge)
    (billed : List InvoiceItem) : Option Decimal → List InvoiceLine → Prop
  | none : Lined i b unitType quantity due charges billed none []
  | itemized {rest : Decimal} {lines : List InvoiceLine}
      (hdetail : i.terms.detailMode = .detail ∧ billed = [] ∧ charges ≠ [])
      (hlines : i.chargeLines b unitType charges = .ok lines) :
      Lined i b unitType quantity due charges billed (some rest) lines
  | aggregate {rest : Decimal} {line : InvoiceLine}
      (hdetail : ¬ (i.terms.detailMode = .detail ∧ billed = [] ∧ charges ≠ []))
      (hline : i.aggregateLine b unitType quantity due rest charges billed = .ok line) :
      Lined i b unitType quantity due charges billed (some rest) [line]

/-- The lines for a unit type are made of what is owed of its charges. -/
theorem unitTypeLines_eq_ok {unitType : String} {quantity : Decimal} {lines : List InvoiceLine} :
    (i.unitTypeLines b unitType quantity items).result = .ok lines ↔ ∃ charges due owed,
      i.usage.consumableCharges unitType quantity = .ok charges ∧ Charge.total charges = .ok due ∧
      Decimal.owed i.terms.zeroAmountDisabled due ((items.filter (·.unitType = some unitType)).map (·.amount)) =
        .ok owed ∧
      i.Lined b unitType quantity due charges (items.filter (·.unitType = some unitType)) owed lines := by
  have hdetail (charges : List Charge) : (i.terms.detailMode = .detail &&
      (items.filter (·.unitType = some unitType)).isEmpty && !charges.isEmpty) = true ↔
        i.terms.detailMode = .detail ∧ items.filter (·.unitType = some unitType) = [] ∧ charges ≠ [] := by
    simp [and_assoc]
  rw [unitTypeLines]
  simp only [Logged.result_bind, Logged.result_liftM, Logged.result_liftM_decimal, amountOwed_result]
  constructor
  · intro h
    obtain ⟨charges, hcharges, h⟩ := bind_eq_ok.mp h
    obtain ⟨due, hdue, h⟩ := bind_eq_ok.mp h
    obtain ⟨owed, howed, h⟩ := bind_eq_ok.mp h
    refine ⟨charges, due, owed, hcharges, liftM_decimal_eq_ok.mp hdue, liftM_decimal_eq_ok.mp howed, ?_⟩
    cases owed with
    | none =>
        obtain rfl := pure_eq_ok.mp h
        exact .none
    | some rest =>
        dsimp only at h
        split at h
        next hd => exact .itemized ((hdetail charges).mp hd) h
        next hd =>
          simp only [Logged.result_bind, Logged.result_liftM] at h
          obtain ⟨line, hline, h⟩ := bind_eq_ok.mp h
          obtain rfl := pure_eq_ok.mp h
          exact .aggregate (mt (hdetail charges).mpr hd) hline
  · rintro ⟨charges, due, owed, hcharges, hdue, howed, h⟩
    refine bind_eq_ok.mpr ⟨charges, hcharges, bind_eq_ok.mpr ⟨due, liftM_decimal_eq_ok.mpr hdue,
      bind_eq_ok.mpr ⟨owed, liftM_decimal_eq_ok.mpr howed, ?_⟩⟩⟩
    cases h with
    | none => rfl
    | itemized hd hlines =>
        dsimp only
        rw [if_pos ((hdetail charges).mpr hd)]
        exact hlines
    | aggregate hd hline =>
        dsimp only
        rw [if_neg (mt (hdetail charges).mp hd)]
        simp only [Logged.result_bind, Logged.result_liftM]
        exact bind_eq_ok.mpr ⟨_, hline, rfl⟩

/-- One line for the whole of what is owed has the quantity that is left, and details of the charges. -/
theorem aggregateLine_eq_ok {unitType : String} {quantity due owed : Decimal} {charges : List Charge}
    {line : InvoiceLine} (h : i.aggregateLine b unitType quantity due owed charges items = .ok line) :
    ∃ details rest rate, aggregateDetails quantity charges (!items.isEmpty) due owed = .ok details ∧
      quantityOwed quantity items = .ok rest ∧ i.newLine b owed (some unitType) rest rate details = .ok line := by
  obtain ⟨details, hdetails, h⟩ := bind_eq_ok.mp h
  obtain ⟨rest, hrest, h⟩ := bind_eq_ok.mp h
  exact ⟨details, rest, _, liftM_decimal_eq_ok.mp hdetails, liftM_decimal_eq_ok.mp hrest, h⟩

/-- The amounts of the lines for what is owed of some charges. -/
def lineAmounts (i : Interval) (owed : Option Decimal) (billed : List InvoiceItem) (amounts : List Decimal) :
    List Decimal :=
  match owed with
  | none => []
  | some rest => if i.terms.detailMode = .detail && billed.isEmpty && !amounts.isEmpty then amounts.filter i.keeps
      else [rest]

/-- The lines for a unit type have the amounts that are owed for it. -/
theorem unitTypeLines_spec (hsub : ∀ e ∈ i.events, e.event.subscriptionId = subscriptionId) {unitType : String}
    {quantity : Decimal} {lines : List InvoiceLine}
    (h : (i.unitTypeLines b unitType quantity items).result = .ok lines) : ∃ charges amounts due owed,
      i.usage.consumableCharges unitType quantity = .ok charges ∧ charges.mapM Charge.amount = .ok amounts ∧
      Decimal.sum amounts = .ok due ∧
      Decimal.owed i.terms.zeroAmountDisabled due ((items.filter (·.unitType = some unitType)).map (·.amount)) =
        .ok owed ∧
      lines.map (·.amount) = i.lineAmounts owed (items.filter (·.unitType = some unitType)) amounts ∧
      ∀ l ∈ lines, l.ForBucket i b subscriptionId ∧ l.unitType = some unitType := by
  obtain ⟨charges, due, owed, hcharges, hdue, howed, h⟩ := unitTypeLines_eq_ok.mp h
  obtain ⟨amounts, hamounts, hsum⟩ := Charge.total_eq_ok.mp hdue
  refine ⟨charges, amounts, due, owed, hcharges, hamounts, hsum, howed, ?_⟩
  have hempty : amounts.isEmpty = charges.isEmpty := by
    cases hall : mapM_eq_ok.mp hamounts <;> rfl
  cases h with
  | none => exact ⟨rfl, by simp⟩
  | itemized hdetail hlines =>
      obtain ⟨amounts', hamounts', hlines, hall⟩ := chargeLines_eq_ok hsub hlines
      obtain rfl : amounts = amounts' := Except.ok.inj (hamounts.symm.trans hamounts')
      rw [lineAmounts, hempty, if_pos (by simpa [and_assoc] using hdetail)]
      exact ⟨hlines, hall⟩
  | aggregate hdetail hline =>
      obtain ⟨details, rest, rate, -, -, hline⟩ := aggregateLine_eq_ok hline
      obtain ⟨hfor, ha, hu, -⟩ := forBucket_of_newLine hsub hline
      rw [lineAmounts, hempty, if_neg (by simpa [and_assoc] using hdetail)]
      simp [ha, hfor, hu]

theorem consumableLines_eq_ok {rolled : RolledUsage} {lines : List InvoiceLine} :
    (i.consumableLines b rolled items).result = .ok lines ↔ i.checkUnitTypes items = .ok () ∧ ∃ parts,
      List.Forall₂ (fun p ls => (i.unitTypeLines b p.1 p.2 items).result = .ok ls) rolled.amounts parts ∧
      lines = parts.flatten := by
  rw [consumableLines]
  simp only [Logged.result_bind, Logged.result_liftM, Logged.result_mapM, Logged.result_pure]
  rw [bind_eq_ok]
  constructor
  · rintro ⟨_, hcheck, h⟩
    obtain ⟨parts, hparts, h⟩ := bind_eq_ok.mp h
    exact ⟨hcheck, parts, mapM_eq_ok.mp hparts, (Except.ok.inj h).symm⟩
  · rintro ⟨hcheck, parts, hparts, rfl⟩
    exact ⟨(), hcheck, bind_eq_ok.mpr ⟨parts, mapM_eq_ok.mpr hparts, rfl⟩⟩

/-- The lines for a unit type are those of the lines for all unit types that have it. -/
theorem filter_unitType_flatten (hsub : ∀ e ∈ i.events, e.event.subscriptionId = subscriptionId)
    {amounts : List (String × Decimal)} (hnodup : (amounts.map (·.1)).Nodup) {parts : List (List InvoiceLine)}
    (hparts : List.Forall₂ (fun p ls => (i.unitTypeLines b p.1 p.2 items).result = .ok ls) amounts parts) :
    List.Forall₂ (fun p ls => parts.flatten.filter (·.unitType = some p.1) = ls) amounts parts := by
  refine filter_flatten_own (Q := fun p l => l.unitType = some p.1) (hparts.imp fun p ls hp l hl => ?_) (by simp)
    ((List.pairwise_map.mp hnodup).imp fun hne l =>
      ⟨fun hl => by simp [hl, Ne.symm hne], fun hl => by simp [hl, hne]⟩)
  obtain ⟨_, _, _, _, -, -, -, -, -, hall⟩ := unitTypeLines_spec hsub hp
  exact (hall l hl).2

theorem filter_unitType_eq_nil (hsub : ∀ e ∈ i.events, e.event.subscriptionId = subscriptionId)
    {amounts : List (String × Decimal)} {unitType : String} (hu : unitType ∉ amounts.map (·.1))
    {parts : List (List InvoiceLine)}
    (hparts : List.Forall₂ (fun p ls => (i.unitTypeLines b p.1 p.2 items).result = .ok ls) amounts parts) :
    parts.flatten.filter (·.unitType = some unitType) = [] := by
  refine List.filter_eq_nil_iff.mpr fun l hl hlu => ?_
  obtain ⟨ls, hls, hl⟩ := List.mem_flatten.mp hl
  obtain ⟨p, hp, hpls⟩ := exists_of_forall₂_right hparts hls
  obtain ⟨_, _, _, _, -, -, -, -, -, hall⟩ := unitTypeLines_spec hsub hpls
  have hsame : unitType = p.1 := Option.some.inj ((of_decide_eq_true hlu).symm.trans (hall l hl).2)
  exact hu (hsame ▸ List.mem_map_of_mem hp)

/-- The lines for a bucket of a capacity section are one for what is owed of the price of its tier, if anything is. -/
theorem capacityLines_eq_ok {rolled : RolledUsage} {lines : List InvoiceLine} :
    (i.capacityLines b rolled items).result = .ok lines ↔ checkNoUnitTypes items = .ok () ∧ ∃ tier owed,
      i.usage.capacityTier rolled.amounts = .ok tier ∧
      Decimal.owed i.terms.zeroAmountDisabled tier.price (items.map (·.amount)) = .ok owed ∧
      (owed = none ∧ lines = [] ∨ ∃ rest details line, owed = some rest ∧ lines = [line] ∧
        tier.details rolled.amounts (!items.isEmpty) rest = .ok details ∧
        i.newLine b rest none none (some tier.price) details = .ok line) := by
  rw [capacityLines]
  simp only [Logged.result_bind, Logged.result_liftM, amountOwed_result]
  constructor
  · intro h
    obtain ⟨_, hcheck, h⟩ := bind_eq_ok.mp h
    obtain ⟨tier, htier, h⟩ := bind_eq_ok.mp h
    obtain ⟨owed, howed, h⟩ := bind_eq_ok.mp h
    refine ⟨hcheck, tier, owed, htier, liftM_decimal_eq_ok.mp howed, ?_⟩
    cases owed with
    | none => exact Or.inl ⟨rfl, (pure_eq_ok.mp h).symm⟩
    | some rest =>
        simp only [Logged.result_bind, Logged.result_liftM, Logged.result_liftM_decimal] at h
        obtain ⟨details, hdetails, h⟩ := bind_eq_ok.mp h
        obtain ⟨line, hline, h⟩ := bind_eq_ok.mp h
        exact Or.inr ⟨rest, details, line, rfl, (pure_eq_ok.mp h).symm, liftM_decimal_eq_ok.mp hdetails, hline⟩
  · rintro ⟨hcheck, tier, owed, htier, howed, h⟩
    refine bind_eq_ok.mpr ⟨(), hcheck, bind_eq_ok.mpr ⟨tier, htier,
      bind_eq_ok.mpr ⟨owed, liftM_decimal_eq_ok.mpr howed, ?_⟩⟩⟩
    obtain ⟨rfl, rfl⟩ | ⟨rest, details, line, rfl, rfl, hdetails, hline⟩ := h
    · rfl
    · simp only [Logged.result_bind, Logged.result_liftM, Logged.result_liftM_decimal]
      exact bind_eq_ok.mpr ⟨details, liftM_decimal_eq_ok.mpr hdetails, bind_eq_ok.mpr ⟨line, hline, rfl⟩⟩

/-- The line for a bucket of a capacity section has the amount that is owed of the price of its tier. -/
theorem capacityLines_spec (hsub : ∀ e ∈ i.events, e.event.subscriptionId = subscriptionId) {rolled : RolledUsage}
    {lines : List InvoiceLine} (h : (i.capacityLines b rolled items).result = .ok lines) : ∃ tier owed,
      checkNoUnitTypes items = .ok () ∧ i.usage.capacityTier rolled.amounts = .ok tier ∧
      Decimal.owed i.terms.zeroAmountDisabled tier.price (items.map (·.amount)) = .ok owed ∧
      lines.map (·.amount) = owed.toList ∧ ∀ l ∈ lines, l.ForBucket i b subscriptionId ∧ l.unitType = none := by
  obtain ⟨hcheck, tier, owed, htier, howed, h⟩ := capacityLines_eq_ok.mp h
  refine ⟨tier, owed, hcheck, htier, howed, ?_⟩
  obtain ⟨rfl, rfl⟩ | ⟨rest, details, line, rfl, rfl, -, hline⟩ := h
  · exact ⟨rfl, by simp⟩
  · obtain ⟨hfor, ha, hu, -⟩ := forBucket_of_newLine hsub hline
    simp [ha, hfor, hu]

/-- A line is one that a bucket has for a unit type, or for none. -/
def Makes (i : Interval) (b : Bucket) (unitType : Option String) (l : InvoiceLine) : Prop :=
  ∃ amount quantity rate details, i.newLine b amount unitType quantity rate details = .ok l

theorem makes_of_unitTypeLines {unitType : String} {quantity : Decimal} {lines : List InvoiceLine}
    (h : (i.unitTypeLines b unitType quantity items).result = .ok lines) :
    ∀ l ∈ lines, i.Makes b (some unitType) l := by
  obtain ⟨charges, due, owed, -, -, -, h⟩ := unitTypeLines_eq_ok.mp h
  cases h with
  | none => exact fun _ hl => absurd hl List.not_mem_nil
  | itemized _ hlines =>
      obtain ⟨_, -, hlines⟩ := chargeLines_forall₂ hlines
      intro l hl
      obtain ⟨p, -, details, hp⟩ := exists_of_forall₂_right hlines hl
      exact ⟨_, _, _, details, hp⟩
  | aggregate _ hline =>
      obtain ⟨details, rest, rate, -, -, hline⟩ := aggregateLine_eq_ok hline
      exact List.forall_mem_singleton.mpr ⟨_, _, _, details, hline⟩

theorem makes_of_capacityLines {rolled : RolledUsage} {lines : List InvoiceLine}
    (h : (i.capacityLines b rolled items).result = .ok lines) :
    ∀ l ∈ lines, i.Makes b none l := by
  obtain ⟨-, tier, owed, -, -, h⟩ := capacityLines_eq_ok.mp h
  obtain ⟨-, rfl⟩ | ⟨rest, details, line, -, rfl, -, hline⟩ := h
  · exact fun _ hl => absurd hl List.not_mem_nil
  · exact List.forall_mem_singleton.mpr ⟨_, _, _, details, hline⟩

/-- The lines of a bucket are made for it, with unit types that it counts. -/
theorem makes_of_bucketLines {rolled : RolledUsage} {lines : List InvoiceLine}
    (h : (i.bucketLines b rolled items).result = .ok lines) :
    ∀ l ∈ lines, ∃ unitType, i.Makes b unitType l ∧ ∀ u, unitType = some u → u ∈ rolled.amounts.map (·.1) := by
  intro l hl
  rw [bucketLines] at h
  cases hp : i.usage.pricing with
  | consumable =>
      rw [hp] at h
      obtain ⟨-, parts, hparts, rfl⟩ := consumableLines_eq_ok.mp h
      obtain ⟨ls, hls, hl⟩ := List.mem_flatten.mp hl
      obtain ⟨p, hmem, hp⟩ := exists_of_forall₂_right hparts hls
      refine ⟨some p.1, makes_of_unitTypeLines hp l hl, fun u hu => ?_⟩
      obtain rfl := Option.some.inj hu
      exact List.mem_map_of_mem hmem
  | capacity =>
      rw [hp] at h
      exact ⟨none, makes_of_capacityLines h l hl, fun u hu => absurd hu.symm (Option.some_ne_none u)⟩

theorem bucketLines_forBucket (hsub : ∀ e ∈ i.events, e.event.subscriptionId = subscriptionId)
    {rolled : RolledUsage} {lines : List InvoiceLine} (h : (i.bucketLines b rolled items).result = .ok lines) :
    ∀ l ∈ lines, l.ForBucket i b subscriptionId := by
  intro l hl
  obtain ⟨_, ⟨_, _, _, _, hmade⟩, -⟩ := makes_of_bucketLines h l hl
  exact (forBucket_of_newLine hsub hmade).1

end Interval
end UsageBilling
