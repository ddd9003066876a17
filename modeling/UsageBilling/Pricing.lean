import UsageBilling.Catalog
import UsageBilling.Decimal.Arithmetic
import UsageBilling.Error

/-! Prices. A consumable quantity fills the tiered blocks of its unit type in catalog order, and what
a tier cannot take moves on to the next. Capacity usage takes the first tier whose limits cover it. -/

namespace UsageBilling

/-- Whether a number is at most another; the question is invalid for a NaN. -/
def Decimal.atMost (a b : Decimal) : Except Decimal.Fault Bool := do return !(← b.below a)

/-! ### Consumable usage -/

/-- The blocks of one tier that a quantity takes; `tier` counts from 1. -/
structure Charge where
  tier : Nat
  unitType : String
  blockSize : Decimal
  blocks : Decimal
  price : Decimal
  deriving DecidableEq

def Charge.amount (c : Charge) : Except Decimal.Fault Decimal := c.blocks.mul c.price

def Charge.quantity (c : Charge) : Except Decimal.Fault Decimal := c.blocks.mul c.blockSize

/-- The blocks of a unit type with the numbers of their tiers, in catalog order. -/
def Usage.blocksFor (u : Usage) (unitType : String) : List (Nat × Block) :=
  u.numberedTiers.flatMap fun (i, t) =>
    (t.blocks.filter (·.unitType = unitType)).map fun b => (i, b)

/-- The blocks of a size that a quantity needs, the last of them perhaps in part. -/
def blocksNeeded (quantity size : Decimal) : Except Decimal.Fault Decimal := do
  return (← quantity.div size).ceil

/-- How many blocks of one tier a quantity takes, and what it leaves for the next tier. -/
def Block.take (b : Block) (remaining : Decimal) : Except Decimal.Fault (Decimal × Decimal) := do
  let needed ← blocksNeeded remaining b.size
  match b.maxBlocks with
  | none => return (needed, .zero)
  | some limit =>
      if ← limit.below needed then
        return (limit, ← remaining.sub (← limit.mul b.size))
      else return (needed, .zero)

/-- Fills blocks in order until nothing remains; gives the charges and what remains at the end. -/
def fillBlocks (usage unitType : String) : List (Nat × Block) → Decimal →
    Except Error (List Charge × Decimal)
  | [], remaining => .ok ([], remaining)
  | (tier, b) :: rest, remaining => do
      if ← remaining.atMost .zero then return ([], remaining)
      if ← b.size.atMost .zero then throw (.catalog (.invalidBlockSize b.size usage))
      let (used, left) ← b.take remaining
      let charged ← Decimal.zero.below used
      let (charges, final) ← fillBlocks usage unitType rest left
      if charged then
        return ({ tier, unitType, blockSize := b.size, blocks := used, price := b.price } :: charges, final)
      else return (charges, final)

/-- The charges for a quantity of a unit type. -/
def Usage.consumableCharges (u : Usage) (unitType : String) (quantity : Decimal) :
    Except Error (List Charge) := do
  let blocks := u.blocksFor unitType
  if blocks = [] then throw (.catalog (.noBlock unitType u.name))
  let (charges, remaining) ← fillBlocks u.name unitType blocks quantity
  if ← Decimal.zero.below remaining then
    throw (.catalog (.quantityExceedsTiers quantity unitType u.name))
  return charges

/-- The amounts of some charges, added from zero in their order. -/
def Charge.total (charges : List Charge) : Except Decimal.Fault Decimal :=
  charges.foldlM (fun sum c => do sum.add (← c.amount)) .zero

/-! ### Capacity usage -/

/-- The limit that a tier sets for a unit type: the last one listed for it. -/
def Tier.limitFor (t : Tier) (unitType : String) : Option Limit :=
  t.limits.reverse.find? (·.unitType = unitType)

/-- Whether a limit covers an amount. -/
def Limit.covers (l : Limit) (amount : Decimal) : Except Decimal.Fault Bool :=
  match l.maxValue with
  | none => .ok true
  | some most => amount.atMost most

/-- Whether a tier covers some amounts, looked at in their order up to the first it does not cover. A
unit type without usage needs no limit. -/
def Tier.covers (t : Tier) : List (String × Decimal) → Except Decimal.Fault Bool
  | [] => .ok true
  | (unitType, amount) :: rest =>
      if amount.equals .zero then t.covers rest
      else
        match t.limitFor unitType with
        | none => .ok false
        | some limit => do
            if ← limit.covers amount then t.covers rest else return false

/-- The tier that capacity usage takes, by its number from 1, and its price. -/
structure CapacityTier where
  index : Nat
  tier : Tier
  price : Decimal
  deriving DecidableEq

/-- The first of some numbered tiers that covers the amounts. -/
def firstCovering (usage : String) (amounts : List (String × Decimal)) :
    List (Nat × Tier) → Except Error CapacityTier
  | [] => .error (.catalog (.noCoveringTier usage amounts))
  | (index, tier) :: rest => do
      if ← tier.covers amounts then
        match tier.recurringPrice with
        | some price => return { index, tier, price }
        | none => throw (.catalog (.tierWithoutPrice index usage))
      else firstCovering usage amounts rest

/-- The tier of a capacity section for some amounts. -/
def Usage.capacityTier (u : Usage) (amounts : List (String × Decimal)) : Except Error CapacityTier :=
  firstCovering u.name amounts u.numberedTiers

end UsageBilling
