import UsageBilling.BillingEvent
import UsageBilling.Calendar.Zone
import UsageBilling.Invoice

/-! Contiguous intervals: the run of billing events during which one usage section, in one catalog
version, stays referenced. Events are added while the interval accumulates; building freezes it. -/

namespace UsageBilling

/-- Where an interval is in its life. A built one is closed when its last event ended the run, and
active when the usage section is still referenced after it. -/
inductive Stage where
  | accumulating
  | active
  | closed
  deriving DecidableEq

def Stage.name : Stage → String
  | accumulating => "open"
  | active => "active"
  | closed => "closed"

/-- One event of an interval: its place in the timeline, which tells equal events apart, and the unit
types recorded as in force at it. -/
structure IntervalEvent where
  place : Nat
  event : BillingEvent
  seen : Option (List String)
  deriving DecidableEq

/-- A billing bucket `[start, finish)`. Usage dated before the raw usage start is clipped off at
`start`; `alignedStart` is where the bucket begins without that. The event numbered `eventIndex` is
in force at the aligned start. -/
structure Bucket where
  start : Date
  finish : Date
  eventIndex : Nat
  alignedStart : Date
  deriving DecidableEq

/-- What an interval is reconciled under. -/
structure Terms where
  accountId : String
  invoiceId : String
  rawUsage : List RawUsage
  existingTrackingIds : List TrackingId
  target : Date
  rawUsageStart : Date
  detailMode : DetailMode
  zeroAmountDisabled : Bool
  zone : Zone
  deriving DecidableEq

structure Interval where
  usage : Usage
  terms : Terms
  events : List IntervalEvent
  stage : Stage
  buckets : List Bucket
  nextNotification : Option Date
  deriving DecidableEq

namespace Interval

/-- A new interval, without events. Only usage billed in arrear has intervals. -/
def create (usage : Usage) (terms : Terms) : Except Error Interval :=
  if usage.billingMode = .inArrear then
    .ok { usage, terms, events := [], stage := .accumulating, buckets := [], nextNotification := none }
  else .error (.interval (.notBilledInArrear usage.name))

/-! ### Views -/

def isBuilt (i : Interval) : Bool := i.stage ≠ .accumulating

def isClosed (i : Interval) : Bool := i.stage = .closed

/-- The event that opened the interval. -/
def firstEvent (i : Interval) : Except Error BillingEvent :=
  match i.events.head? with
  | some e => .ok e.event
  | none => .error .indexOutOfRange

def subscriptionId (i : Interval) : Except Error String := do return (← i.firstEvent).subscriptionId

/-- The key of the interval, in the catalog version of its first event. -/
def key (i : Interval) : Except Error UsageKey := do
  return ⟨i.usage.name, (← i.firstEvent).catalogVersion⟩

/-- The date of an event, as the account sees it. -/
def dateOf (i : Interval) (e : BillingEvent) : Except Error Date := i.terms.zone.localDate e.effective

def startDate (i : Interval) : Except Error Date := do i.dateOf (← i.firstEvent)

/-- The date of the last event of a closed interval. -/
def endDate (i : Interval) : Except Error (Option Date) :=
  if i.isClosed then
    match i.events.getLast? with
    | some e => do return some (← i.dateOf e.event)
    | none => .error .indexOutOfRange
  else .ok none

/-- The unit types recorded for an event, none when nothing was recorded. Negative positions count
from the end. -/
def seenUnitTypes (i : Interval) (position : Int) : Except Error (List String) :=
  let n : Int := if position < 0 then position + i.events.length else position
  if n < 0 then .error .indexOutOfRange
  else
    match i.events[n.toNat]? with
    | some e => .ok (e.seen.getD [])
    | none => .error .indexOutOfRange

def description (i : Interval) : String :=
  let kind := match i.usage.pricing with
    | .capacity => "ContiguousIntervalCapacityUsageInArrear"
    | .consumable => "ContiguousIntervalConsumableUsageInArrear"
  let count := i.events.length
  kind ++ "(usage=" ++ Text.quoted i.usage.name ++ s!", events={count}, state={i.stage.name})"

/-! ### Accumulating -/

def checkNotBuilt (i : Interval) : Except Error Unit :=
  if i.isBuilt then .error (.interval (.alreadyBuilt i.usage.name)) else .ok ()

/-- Appends the next event of the run, which stands at a place of the timeline. -/
def add (i : Interval) (place : Nat) (event : BillingEvent) : Except Error Interval := do
  i.checkNotBuilt
  match i.events.head? with
  | some first =>
      if event.subscriptionId ≠ first.event.subscriptionId then
        throw (.interval (.foreignSubscription event.subscriptionId first.event.subscriptionId))
  | none => pure ()
  return { i with events := i.events ++ [⟨place, event, none⟩] }

/-- Records the unit types in force at the latest event. -/
def tag (i : Interval) (place : Nat) (unitTypes : List String) : Except Error Interval := do
  i.checkNotBuilt
  match i.events.getLast? with
  | some last =>
      if last.place ≠ place then throw (.interval .notLatestEvent)
      let seen := some (UnitTypes.ofList unitTypes)
      return { i with events := i.events.dropLast ++ [{ last with seen }] }
  | none => throw (.interval .notLatestEvent)

end Interval
end UsageBilling
