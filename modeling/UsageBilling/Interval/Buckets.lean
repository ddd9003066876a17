import UsageBilling.Calendar.Cycle
import UsageBilling.Interval.Basic

/-! Building an interval: its buckets up to the target date, and the date after which there will be
more. The boundaries are the start of the interval, the cycle dates up to the target and before the
end, and the end itself once the target has reached it. -/

namespace UsageBilling.Interval

/-- The boundaries of the buckets, in order. -/
def boundaries (i : Interval) : Except Error (List Date) := do
  let start ← i.startDate
  let finish ← i.endDate
  let first ← i.firstEvent
  if i.terms.target < start then return [start]
  let inside : Date → Bool := fun d => match finish with
    | some f => d < f
    | none => true
  let cycle ← BillingCycle.datesUpTo start first.cycleDay i.usage.period i.terms.target inside
  let last := match finish with
    | some f => if start < f ∧ f ≤ i.terms.target then [f] else []
    | none => []
  return start :: cycle ++ last

/-- The position of the last event dated on or before a day; the first event where there is none. -/
def eventIndexAt (i : Interval) (day : Date) : Except Error Nat :=
  i.events.zipIdx.foldlM (fun index (e, n) => do
    let d ← i.dateOf e.event
    return if d ≤ day then n else index) 0

/-- The bucket between two boundaries, unless it lies before the raw usage start as a whole. -/
def bucketBetween (i : Interval) (start finish : Date) : Except Error (Option Bucket) := do
  if finish ≤ i.terms.rawUsageStart then return none
  let eventIndex ← i.eventIndexAt start
  return some { start := max start i.terms.rawUsageStart, finish, eventIndex, alignedStart := start }

def computeBuckets (i : Interval) : Except Error (List Bucket) := do
  let bs ← i.boundaries
  let buckets ← (bs.zip bs.tail).mapM fun (start, finish) => i.bucketBetween start finish
  return buckets.filterMap id

/-- The first cycle date after the target, or the end if that comes sooner; none when the end has been
reached. -/
def computeNotification (i : Interval) : Except Error (Option Date) := do
  let finish ← i.endDate
  let after : Except Error Date := do
    BillingCycle.firstAfter (← i.startDate) (← i.firstEvent).cycleDay i.usage.period i.terms.target
  match finish with
  | none => return some (← after)
  | some f => if f ≤ i.terms.target then return none else return some (min (← after) f)

/-- Freezes the interval and computes its buckets. The interval counts as built as soon as it is
frozen: after an error it stays so, with what was computed before the error. -/
def build (i : Interval) (closed : Bool) : Interval × Except Error Unit :=
  if i.isBuilt then (i, .error (.interval (.alreadyBuilt i.usage.name)))
  else if i.events = [] then (i, .error (.interval (.noEvents i.usage.name)))
  else
    let frozen := { i with stage := if closed then .closed else .active }
    match frozen.computeBuckets with
    | .error e => (frozen, .error e)
    | .ok buckets =>
        let bucketed := { frozen with buckets }
        match bucketed.computeNotification with
        | .error e => (bucketed, .error e)
        | .ok nextNotification => ({ bucketed with nextNotification }, .ok ())

/-- The interval as it is after a build that succeeds. -/
def built (i : Interval) (closed : Bool) : Except Error Interval :=
  match i.build closed with
  | (j, .ok _) => .ok j
  | (_, .error e) => .error e

end UsageBilling.Interval
