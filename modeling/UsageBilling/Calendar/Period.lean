/-! Billing periods: the length of the buckets that a usage section is billed in. -/

namespace UsageBilling

/-- How often a usage section is billed. A catalog may name a period that is not supported; its name
is kept. -/
inductive BillingPeriod where
  | daily | weekly | biweekly | thirtyDays
  | monthly | quarterly | biannual | annual
  | unsupported (name : String)
  deriving DecidableEq

namespace BillingPeriod

/-- The length of a period that is counted in days. -/
def days? : BillingPeriod → Option Nat
  | daily => some 1
  | weekly => some 7
  | biweekly => some 14
  | thirtyDays => some 30
  | _ => none

/-- The length of a period that is counted in months. -/
def months? : BillingPeriod → Option Nat
  | monthly => some 1
  | quarterly => some 3
  | biannual => some 6
  | annual => some 12
  | _ => none

def name : BillingPeriod → String
  | daily => "daily"
  | weekly => "weekly"
  | biweekly => "biweekly"
  | thirtyDays => "thirty_days"
  | monthly => "monthly"
  | quarterly => "quarterly"
  | biannual => "biannual"
  | annual => "annual"
  | unsupported name => name

def supported : List BillingPeriod :=
  [daily, weekly, biweekly, thirtyDays, monthly, quarterly, biannual, annual]

/-- The period of a name; any text that names no supported period is kept as it is. -/
def ofName (text : String) : BillingPeriod :=
  (supported.find? (·.name == text)).getD (.unsupported text)

end BillingPeriod
end UsageBilling
