import UsageBilling.Calendar.Date
import UsageBilling.Decimal.Arithmetic
import UsageBilling.UnitTypes

/-! Metered usage: the records of a subscription, their total per unit type over a span of days, and
the tracking ids that mark them as invoiced. -/

namespace UsageBilling

/-- One metered fact reported for a subscription; `recordId` is its number in the order of ingestion. -/
structure RawUsage where
  subscriptionId : String
  unitType : String
  date : Date
  amount : Decimal
  trackingId : String
  recordId : Int
  deriving DecidableEq

/-- The order of records: by date, unit type and record id. -/
def RawUsage.order (a b : RawUsage) : Ordering :=
  (compare a.date.ordinal b.date.ordinal).then
    ((compare a.unitType b.unitType).then (compare a.recordId b.recordId))

/-- Records in their order; equal ones stay in the order they came in. -/
def RawUsage.sorted (records : List RawUsage) : List RawUsage :=
  records.mergeSort fun a b => (a.order b).isLE

/-- The records of one subscription, in their order. -/
def RawUsage.ofSubscription (records : List RawUsage) (subscriptionId : String) : List RawUsage :=
  sorted (records.filter (·.subscriptionId = subscriptionId))

/-! ### Tracking ids -/

/-- Marks a metered fact as converted into an invoice item. -/
structure TrackingId where
  trackingId : String
  subscriptionId : String
  unitType : String
  recordDate : Date
  invoiceId : Option String
  deriving DecidableEq

namespace TrackingId

/-- The order of tracking ids. The invoice has no part in it: it is not part of their identity. -/
def order (a b : TrackingId) : Ordering :=
  (compare a.recordDate.ordinal b.recordDate.ordinal).then
    ((compare a.unitType b.unitType).then
      ((compare a.subscriptionId b.subscriptionId).then (compare a.trackingId b.trackingId)))

/-- Adds a tracking id to a set in order; one that is there already stays as it is. -/
def insert (t : TrackingId) : List TrackingId → List TrackingId
  | [] => [t]
  | u :: us =>
      match t.order u with
      | .lt => t :: u :: us
      | .eq => u :: us
      | .gt => u :: insert t us

/-- Adds tracking ids to a set one after the other. -/
def insertAll (set : List TrackingId) (ts : List TrackingId) : List TrackingId :=
  ts.foldl (fun s t => insert t s) set

/-- Whether a set has a tracking id of the same identity. -/
def isIn (t : TrackingId) (set : List TrackingId) : Bool := set.any fun u => t.order u == .eq

end TrackingId

/-! ### Totals -/

/-- The usage of a span of days, summed per unit type. -/
structure RolledUsage where
  subscriptionId : String
  start : Date
  finish : Date
  amounts : List (String × Decimal)
  trackingIds : List TrackingId
  deriving DecidableEq

namespace RolledUsage

/-- The total of a unit type; zero where there is none. -/
def amountFor (r : RolledUsage) (unitType : String) : Decimal :=
  (r.amounts.lookup unitType).getD .zero

/-- Adds an amount to the total of a unit type. -/
def credit (amounts : List (String × Decimal)) (record : RawUsage) :
    Except Decimal.Fault (List (String × Decimal)) :=
  amounts.mapM fun (unitType, amount) =>
    if unitType = record.unitType then do return (unitType, ← amount.add record.amount)
    else return (unitType, amount)

/-- Whether a record is dated in `[start, finish)` and of one of the unit types. -/
def counts (start finish : Date) (unitTypes : List String) (record : RawUsage) : Bool :=
  start ≤ record.date && record.date < finish && record.unitType ∈ unitTypes

/-- Sums the records dated in `[start, finish)`, in their order, for some unit types. Each of these
has a total, zero when nothing was reported. -/
def ofRecords (records : List RawUsage) (subscriptionId : String) (start finish : Date)
    (unitTypes : List String) (invoiceId : String) : Except Decimal.Fault RolledUsage := do
  let counted := records.filter (counts start finish unitTypes)
  let zeros := (UnitTypes.ofList unitTypes).map fun unitType => (unitType, Decimal.zero)
  let amounts ← counted.foldlM credit zeros
  let marks := counted.map fun r =>
    { trackingId := r.trackingId, subscriptionId, unitType := r.unitType,
      recordDate := r.date, invoiceId := some invoiceId }
  return { subscriptionId, start, finish, amounts, trackingIds := TrackingId.insertAll [] marks }

end RolledUsage
end UsageBilling
