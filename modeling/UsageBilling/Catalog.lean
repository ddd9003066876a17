import UsageBilling.Calendar.Period
import UsageBilling.Decimal.Basic
import UsageBilling.UnitTypes

/-! The catalog: usage sections and the tiers that price them. A tier of a consumable section prices
blocks of units; a tier of a capacity section has one price for usage within its limits. -/

namespace UsageBilling

/-- When a usage section is billed relative to the consumption. -/
inductive BillingMode where
  | inAdvance
  | inArrear
  deriving DecidableEq

/-- How a usage section is priced. -/
inductive PricingModel where
  | capacity
  | consumable
  deriving DecidableEq

/-- The price of one block of `size` units; without `maxBlocks` there is no limit to the blocks. -/
structure Block where
  unitType : String
  size : Decimal
  price : Decimal
  maxBlocks : Option Decimal
  deriving DecidableEq

/-- The amount of a unit type that a capacity tier covers; without `maxValue` it covers any amount. -/
structure Limit where
  unitType : String
  maxValue : Option Decimal
  deriving DecidableEq

structure Tier where
  blocks : List Block
  limits : List Limit
  recurringPrice : Option Decimal
  deriving DecidableEq

structure Usage where
  name : String
  billingMode : BillingMode
  pricing : PricingModel
  period : BillingPeriod
  tiers : List Tier
  deriving DecidableEq

def Tier.unitTypes (t : Tier) : List String := t.blocks.map (·.unitType) ++ t.limits.map (·.unitType)

/-- The unit types of a usage section: all that its tiers mention. -/
def Usage.unitTypes (u : Usage) : List String := UnitTypes.ofList (u.tiers.flatMap (·.unitTypes))

/-- The tiers with their numbers, from 1. -/
def Usage.numberedTiers (u : Usage) : List (Nat × Tier) := u.tiers.zipIdx.map fun (t, i) => (i + 1, t)

end UsageBilling
