import UsageBilling.Calendar.Period
import UsageBilling.Error

/-! Billing cycle dates: the boundaries between the buckets of a usage section. Periods counted in
days run from the start. Periods counted in months meet the bill cycle day of each month, or the
last day of a shorter month; the first bucket may thus be shorter than a period. -/

namespace UsageBilling.BillingCycle

/-- The first boundary after `start`. -/
def first (start : Date) (cycleDay : Int) (period : BillingPeriod) : Except Error Date :=
  match period.days? with
  | some n => liftM (start.addDays n)
  | none =>
      match period.months? with
      | none => .error (.catalog (.unsupportedPeriod period.name))
      | some n =>
          if cycleDay < 1 ∨ 31 < cycleDay then .error (.cycleDayOutOfRange cycleDay)
          else do
            let candidate ← Date.inMonth start.month cycleDay.toNat
            if candidate < start then Date.inMonth (start.month.plus 1) cycleDay.toNat
            else if candidate = start then Date.inMonth (start.month.plus n) cycleDay.toNat
            else return candidate

/-- The boundary `k` periods after a first one. -/
def after (firstDate : Date) (cycleDay : Int) (period : BillingPeriod) (k : Nat) : Except Error Date :=
  match period.days? with
  | some n => liftM (firstDate.addDays (n * k))
  | none =>
      match period.months? with
      | some n => liftM (Date.inMonth (firstDate.month.plus (n * k)) cycleDay.toNat)
      | none => .error (.catalog (.unsupportedPeriod period.name))

/-- The boundary number `k` after `start`, counted from 0. -/
def date (start : Date) (cycleDay : Int) (period : BillingPeriod) (k : Nat) : Except Error Date := do
  after (← first start cycleDay period) cycleDay period k

/-- The first `count` boundaries, and the error that stopped them earlier. -/
def dates (start : Date) (cycleDay : Int) (period : BillingPeriod) (count : Nat) :
    List Date × Option Error :=
  go count 0 []
where
  go : Nat → Nat → List Date → List Date × Option Error
    | 0, _, found => (found.reverse, none)
    | n + 1, k, found =>
        match date start cycleDay period k with
        | .ok d => go n (k + 1) (d :: found)
        | .error e => (found.reverse, some e)

/-- Boundaries number `k`, `k + 1`, … as long as `keep` holds, `steps` of them at most. -/
def takeWhile (boundary : Nat → Except Error Date) (keep : Date → Bool) :
    Nat → Nat → List Date → Except Error (List Date)
  | 0, _, found => .ok found.reverse
  | steps + 1, k, found => do
      let d ← boundary k
      if keep d then takeWhile boundary keep steps (k + 1) (d :: found) else return found.reverse

/-- The first of the boundaries number `k`, `k + 1`, … for which `found` holds, among `steps` of them.
The steps are counted so that the search does not run out of them. -/
def firstThat (boundary : Nat → Except Error Date) (found : Date → Bool) :
    Nat → Nat → Except Error Date
  | 0, _ => .error (.calendar .dateOutOfRange)
  | steps + 1, k => do
      let d ← boundary k
      if found d then return d else firstThat boundary found steps (k + 1)

/-- A number of boundaries that is sure to lead past `target`: each boundary lies a day or more after
the one before it. -/
def reach (start target : Date) : Nat := target.ordinal + 1 - start.ordinal

/-- The boundaries up to and including `target` that satisfy `keep`, up to the first that does not. -/
def datesUpTo (start : Date) (cycleDay : Int) (period : BillingPeriod) (target : Date)
    (keep : Date → Bool) : Except Error (List Date) :=
  takeWhile (date start cycleDay period) (fun d => d ≤ target && keep d) (reach start target) 0 []

def firstAfter (start : Date) (cycleDay : Int) (period : BillingPeriod) (target : Date) :
    Except Error Date :=
  firstThat (date start cycleDay period) (fun d => target < d) (reach start target + 1) 0

end UsageBilling.BillingCycle
