import UsageBilling.Interval.Reconciliation
import UsageBilling.Settings
import UsageBilling.Timeline

/-! A run: the reconciliation of one subscription up to a target date. The timeline is split into
intervals, each is reconciled with the items that exist, and what they still owe is summed up. -/

namespace UsageBilling

/-! ### Summing up -/

/-- What the intervals of a run give together: items, the next notification date of each usage section
and the tracking ids consumed. -/
structure Summary (ι : Type) where
  items : List ι
  notificationDates : List (String × Date)
  trackingIds : List TrackingId

namespace Summary

variable {ι : Type}

def empty : Summary ι := ⟨[], [], []⟩

def setDate (s : Summary ι) (usageName : String) (date : Date) : Summary ι :=
  { s with notificationDates :=
      s.notificationDates.filter (·.1 ≠ usageName) ++ [(usageName, date)] }

/-- The warning that one notification date of a usage section has given way to another. -/
def replacementWarning (usageName : String) (previous current : Date) : LogEntry where
  level := .warning
  event := "usage_notification_date_overwritten"
  fields := [
    ("usage_name", .text usageName),
    ("previous", .text previous.toText),
    ("current", .text current.toText)]

/-- Adds the items and the notification date of one interval. A date that replaces another one is
warned about. -/
def addResult (s : Summary ι) (usageName : String) (r : Reconciliation ι) : Logged (Summary ι) := do
  let s := { s with items := s.items ++ r.items }
  match r.nextNotification with
  | none => return s
  | some date =>
      match s.notificationDates.lookup usageName with
      | some previous =>
          if previous ≠ date then Logged.emit (replacementWarning usageName previous date)
      | none => pure ()
      return s.setDate usageName date

/-- Adds tracking ids; those that are there already stay as they are. -/
def addTrackingIds (s : Summary ι) (ts : List TrackingId) : Summary ι :=
  { s with trackingIds := TrackingId.insertAll s.trackingIds ts }

end Summary

/-- The entry that tells what an interval adds to its run. -/
def Interval.computedEntry (i : Interval) (key : UsageKey) (r : Reconciliation InvoiceLine) : LogEntry where
  level := .debug
  event := "usage_interval_computed"
  fields := [
    ("usage_name", .text i.usage.name),
    ("catalog_version", .text key.version.toText),
    ("closed", .bool i.isClosed),
    ("new_items", .ofNat r.items.length),
    ("next_notification_date", .ofText? (r.nextNotification.map Date.toText))]

/-! ### Runs -/

/-- What a run is asked for. Without a detail mode the one of the settings is used. -/
structure RunRequest where
  accountId : String
  invoiceId : String
  events : List BillingEvent
  rawUsage : List RawUsage
  existingTrackingIds : List TrackingId
  target : Date
  rawUsageStart : Date
  detailMode : Option DetailMode
  deriving DecidableEq

/-- A run that may be computed. -/
structure Run where
  subscriptionId : String
  terms : Terms
  events : List BillingEvent
  deriving DecidableEq

namespace Run

/-- Fails unless the events are in the order of their effective dates. -/
def checkSorted : List BillingEvent → Except Error Unit
  | a :: b :: rest =>
      match b.effective.before? a.effective with
      | none => .error (.timeline .mixedOffsets)
      | some true => .error (.timeline .unsorted)
      | some false => checkSorted (b :: rest)
  | _ => .ok ()

/-- Fails unless the events are those of one subscription; gives its id. -/
def subscriptionOf (events : List BillingEvent) : Except Error String :=
  match UnitTypes.ofList (events.map (·.subscriptionId)) with
  | [] => .error (.timeline .empty)
  | [id] => .ok id
  | ids => .error (.timeline (.severalSubscriptions ids))

/-- Prepares a run. The settings are those given, or else the ones in use, which are looked at only
after the events. -/
def create (r : RunRequest) (given : Option Settings) (inUse : Except Error Settings) :
    Except Error Run := do
  let subscriptionId ← subscriptionOf r.events
  checkSorted r.events
  let settings ← match given with
    | some s => pure s
    | none => inUse
  return {
    subscriptionId
    events := r.events
    terms := {
      accountId := r.accountId
      invoiceId := r.invoiceId
      rawUsage := RawUsage.ofSubscription r.rawUsage subscriptionId
      existingTrackingIds := r.existingTrackingIds
      target := r.target
      rawUsageStart := r.rawUsageStart
      detailMode := r.detailMode.getD settings.detailMode
      zeroAmountDisabled := settings.zeroAmountDisabled
      zone := settings.zone } }

def intervals (r : Run) : Except Error (List Interval) := Timeline.intervals r.terms r.events

/-- Reconciles one interval and adds what it gives. -/
def addInterval (existing : List InvoiceItem) (s : Summary InvoiceLine) (i : Interval) :
    Logged (Summary InvoiceLine) := do
  let r ← i.reconcile existing
  let key ← i.key
  Logged.emit (i.computedEntry key r)
  return (← s.addResult i.usage.name r).addTrackingIds r.trackingIds

/-- The fields bound around a run. -/
def boundFields (r : Run) : Fields := [
  ("account_id", .text r.terms.accountId),
  ("invoice_id", .text r.terms.invoiceId),
  ("subscription_id", .text r.subscriptionId)]

/-- The entry that tells what a run gives as a whole. -/
def summaryEntry (r : Run) (s : Summary InvoiceLine) : LogEntry where
  level := .info
  event := "usage_items_computed"
  fields := [
    ("target_date", .text r.terms.target.toText),
    ("new_items", .ofNat s.items.length),
    ("tracking_ids", .ofNat s.trackingIds.length)]

/-- What a run computes within the fields bound around it. -/
def body (r : Run) (existing : List InvoiceItem) : Logged (Summary InvoiceLine) := do
  let intervals ← r.intervals
  let summary ← intervals.foldlM (addInterval existing) .empty
  Logged.emit (r.summaryEntry summary)
  return summary

/-- What remains to be billed, given the items that exist. -/
def reconcile (r : Run) (existing : List InvoiceItem) : Logged (Summary InvoiceLine) :=
  Logged.within r.boundFields (r.body existing)

end Run
end UsageBilling
