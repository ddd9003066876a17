import UsageBilling.Interval.Basic
import UsageBilling.Journal

/-! Reconciling a built interval: the usage of each bucket is priced and compared with the items
invoiced for it before; what is still owed becomes new lines. -/

namespace UsageBilling

/-- What reconciling gives: lines or items that are owed, the date to look again, and the tracking ids
of the usage they consume. -/
structure Reconciliation (ι : Type) where
  items : List ι
  nextNotification : Option Date
  trackingIds : List TrackingId

/-- What was billed and what is due for a unit type of a bucket, or for a capacity bucket as a whole. -/
structure Balance where
  unitType : Option String
  billed : Decimal
  due : Decimal

namespace Interval

/-! ### Items invoiced before -/

/-- The items that were invoiced for the usage section and subscription of the interval. -/
def relevantItems (i : Interval) (subscriptionId : String) (items : List InvoiceItem) :
    List InvoiceItem :=
  items.filter fun item =>
    item.itemType = .usage && item.usageName = i.usage.name && item.subscriptionId = subscriptionId

/-- Whether an item and a bucket have a day in common. -/
def overlaps (b : Bucket) (item : InvoiceItem) : Bool :=
  b.alignedStart < item.endDate && item.startDate < b.finish

/-- The items invoiced for a bucket. An item that overlaps the bucket must coincide with it. -/
def billedFor (i : Interval) (b : Bucket) (items : List InvoiceItem) :
    Except Error (List InvoiceItem) := do
  let candidates := items.filter (overlaps b)
  match candidates.find? fun item => item.startDate ≠ b.alignedStart || item.endDate ≠ b.finish with
  | some item =>
      throw (.invoice (.misaligned item.id item.startDate item.endDate b.alignedStart b.finish
        i.usage.name))
  | none => return candidates

/-- The unit types that a bucket bills: those of the usage section, narrowed to the ones in force at
the event that governs it. The bucket that ends with a closed interval is governed by the closing
event, if unit types were recorded for that. -/
def governingUnitTypes (i : Interval) (b : Bucket) : Except Error (List String) := do
  let finish ← i.endDate
  let last := (i.events.getLast?.bind (·.seen))
  let seen := if finish = some b.finish ∧ last.isSome then last
    else i.events[b.eventIndex]?.bind (·.seen)
  return match seen with
    | some types => UnitTypes.inter types i.usage.unitTypes
    | none => i.usage.unitTypes

/-! ### What is owed -/

/-- The warning that more was billed for a bucket than is due. -/
def aboveDue (i : Interval) (b : Bucket) (x : Balance) : LogEntry where
  level := .warning
  event := "usage_billed_above_due"
  fields := [
    ("usage_name", .text i.usage.name),
    ("unit_type", .ofText? x.unitType),
    ("period_start", .text b.start.toText),
    ("period_end", .text b.finish.toText),
    ("billed", .text x.billed.toText),
    ("due", .text x.due.toText)]

/-- What is still owed of an amount due for a bucket; none when there is nothing to invoice. -/
def amountOwed (i : Interval) (b : Bucket) (due : Decimal) (billedItems : List InvoiceItem)
    (unitType : Option String) : Logged (Option Decimal) := do
  let billed ← Decimal.sum (billedItems.map (·.amount))
  if !billedItems.isEmpty && billed.equals due then return none
  if ← due.below billed then
    Logged.emit (i.aboveDue b { unitType, billed, due })
    return none
  let owed ← due.sub billed
  if owed.equals .zero && i.terms.zeroAmountDisabled then return none
  return some owed

/-- The units that were not invoiced yet; unknown when an earlier item did not record its quantity. -/
def quantityOwed (quantity : Decimal) (billedItems : List InvoiceItem) :
    Except Decimal.Fault (Option Decimal) :=
  match billedItems.mapM (·.quantity) with
  | some quantities => do return some (← quantity.sub (← Decimal.sum quantities))
  | none => return none

/-- A new line for a bucket, with the plan of the event in force at its start. -/
def newLine (i : Interval) (b : Bucket) (amount : Decimal) (unitType : Option String)
    (quantity rate : Option Decimal) (details : Json) : Except Error InvoiceLine :=
  match i.events[b.eventIndex]? with
  | none => .error .indexOutOfRange
  | some { event, .. } => .ok {
      invoiceId := i.terms.invoiceId
      accountId := i.terms.accountId
      subscriptionId := event.subscriptionId
      planName := event.planName
      phaseName := event.phaseName
      usageName := i.usage.name
      startDate := b.alignedStart
      endDate := b.finish
      amount
      currency := event.currency
      itemType := .usage
      unitType
      quantity
      rate
      catalogVersion := some event.catalogVersion
      details := some details.toText }

/-! ### Consumable usage -/

/-- Fails on an item whose unit type the usage section does not have. -/
def checkUnitTypes (i : Interval) (items : List InvoiceItem) : Except Error Unit :=
  let known (item : InvoiceItem) := match item.unitType with
    | some unitType => unitType ∈ i.usage.unitTypes
    | none => false
  match items.find? (!known ·) with
  | some item => .error (.invoice (.foreignUnitType item.id item.unitType i.usage.name))
  | none => .ok ()

/-- One line for each charge; lines without an amount are left out when these are disabled. -/
def chargeLines (i : Interval) (b : Bucket) (unitType : String) (charges : List Charge) :
    Except Error (List InvoiceLine) := do
  let lines ← charges.mapM fun c => do
    let amount ← c.amount
    if amount.equals .zero && i.terms.zeroAmountDisabled then return none
    let details ← c.details
    return some (← i.newLine b amount (some unitType) (some c.blocks) (some c.price) details)
  return lines.filterMap id

/-- The line for all that is owed of a unit type. It has a rate when a single charge makes it up. -/
def aggregateLine (i : Interval) (b : Bucket) (unitType : String) (quantity due owed : Decimal)
    (charges : List Charge) (billedItems : List InvoiceItem) : Except Error InvoiceLine := do
  let details ← aggregateDetails quantity charges (!billedItems.isEmpty) due owed
  let rest ← quantityOwed quantity billedItems
  let rate := match charges with
    | [c] => some c.price
    | _ => none
  i.newLine b owed (some unitType) rest rate details

/-- The lines owed for one unit type of a bucket. -/
def unitTypeLines (i : Interval) (b : Bucket) (unitType : String) (quantity : Decimal)
    (billedItems : List InvoiceItem) : Logged (List InvoiceLine) := do
  let charges ← i.usage.consumableCharges unitType quantity
  let due ← Charge.total charges
  let billedForType := billedItems.filter (·.unitType = some unitType)
  match ← i.amountOwed b due billedForType (some unitType) with
  | none => return []
  | some owed =>
      if i.terms.detailMode = .detail && billedForType.isEmpty && !charges.isEmpty then
        i.chargeLines b unitType charges
      else return [← i.aggregateLine b unitType quantity due owed charges billedForType]

def consumableLines (i : Interval) (b : Bucket) (rolled : RolledUsage)
    (billedItems : List InvoiceItem) : Logged (List InvoiceLine) := do
  i.checkUnitTypes billedItems
  let lines ← rolled.amounts.mapM fun (unitType, quantity) =>
    i.unitTypeLines b unitType quantity billedItems
  return lines.flatten

/-! ### Capacity usage -/

/-- Fails on an item that carries a unit type. -/
def checkNoUnitTypes (items : List InvoiceItem) : Except Error Unit :=
  let typed := items.filterMap fun item => item.unitType.map fun unitType => (item.id, unitType)
  match typed with
  | (id, unitType) :: _ => .error (.invoice (.unitTypeOnCapacity id unitType))
  | [] => .ok ()

/-- The line owed for a bucket of a capacity section. -/
def capacityLines (i : Interval) (b : Bucket) (rolled : RolledUsage)
    (billedItems : List InvoiceItem) : Logged (List InvoiceLine) := do
  checkNoUnitTypes billedItems
  let tier ← i.usage.capacityTier rolled.amounts
  match ← i.amountOwed b tier.price billedItems none with
  | none => return []
  | some owed =>
      let details ← tier.details rolled.amounts (!billedItems.isEmpty) owed
      return [← i.newLine b owed none none (some tier.price) details]

/-! ### The interval as a whole -/

/-- What a bucket adds: its lines and the tracking ids of the usage it counts. -/
def reconcileBucket (i : Interval) (subscriptionId : String) (items : List InvoiceItem) (b : Bucket) :
    Logged (List InvoiceLine × List TrackingId) := do
  let billedItems ← i.billedFor b items
  let unitTypes ← i.governingUnitTypes b
  if unitTypes.isEmpty then return ([], [])
  let rolled ← RolledUsage.ofRecords i.terms.rawUsage subscriptionId b.start b.finish unitTypes
    i.terms.invoiceId
  let lines ← match i.usage.pricing with
    | .consumable => i.consumableLines b rolled billedItems
    | .capacity => i.capacityLines b rolled billedItems
  return (lines, rolled.trackingIds.filter fun t => !t.isIn i.terms.existingTrackingIds)

/-- The entry that tells the sizes of the result of an interval. -/
def reconciledEntry (i : Interval) (r : Reconciliation InvoiceLine) : LogEntry where
  level := .debug
  event := "usage_interval_reconciled"
  fields := [
    ("usage_name", .text i.usage.name),
    ("periods", .ofNat i.buckets.length),
    ("new_items", .ofNat r.items.length),
    ("tracking_ids", .ofNat r.trackingIds.length)]

/-- The lines still owed for a built interval, given the items that exist. -/
def reconcile (i : Interval) (existing : List InvoiceItem) : Logged (Reconciliation InvoiceLine) := do
  if !i.isBuilt then Logged.fail (.interval (.notBuilt i.usage.name))
  let subscriptionId ← i.subscriptionId
  let items := i.relevantItems subscriptionId existing
  let parts ← i.buckets.mapM (i.reconcileBucket subscriptionId items)
  let result : Reconciliation InvoiceLine := {
    items := parts.flatMap (·.1)
    nextNotification := i.nextNotification
    trackingIds := parts.foldl (fun set part => TrackingId.insertAll set part.2) [] }
  Logged.emit (i.reconciledEntry result)
  return result

end Interval
end UsageBilling
