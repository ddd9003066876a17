import UsageBilling.Metering
import UsageBilling.Pricing
import UsageBilling.Text.Json

/-! Invoice items. What is owed is computed as lines; a line becomes an item when it is given an id.
The details of a line are kept as JSON text. -/

namespace UsageBilling

/-- How consumable usage is broken down into items: one for each unit type, or one for each tier. -/
inductive DetailMode where
  | aggregate
  | detail
  deriving DecidableEq

def DetailMode.name : DetailMode → String
  | aggregate => "aggregate"
  | detail => "detail"

def DetailMode.ofName? (text : String) : Option DetailMode :=
  [aggregate, detail].find? (·.name == text)

/-- What an item is for. Only usage items are reconciled. -/
inductive ItemType where
  | usage
  | recurring
  | fixed
  deriving DecidableEq

def ItemType.name : ItemType → String
  | usage => "usage"
  | recurring => "recurring"
  | fixed => "fixed"

def ItemType.ofName? (text : String) : Option ItemType :=
  [usage, recurring, fixed].find? (·.name == text)

structure InvoiceLine where
  invoiceId : String
  accountId : String
  subscriptionId : String
  planName : String
  phaseName : String
  usageName : String
  startDate : Date
  endDate : Date
  amount : Decimal
  currency : String
  itemType : ItemType
  unitType : Option String
  quantity : Option Decimal
  rate : Option Decimal
  catalogVersion : Option Instant
  details : Option String
  deriving DecidableEq

/-- A line that has been issued under an id. -/
structure InvoiceItem extends InvoiceLine where
  id : String
  deriving DecidableEq

/-- Issues lines under consecutive numbers. -/
def InvoiceLine.issue (firstNumber : Nat) (lines : List InvoiceLine) : List InvoiceItem :=
  lines.zipIdx.map fun (line, i) => { line with id := s!"new-{firstNumber + i}" }

/-! ### Details -/

/-- The details of a charge: all its numbers as texts. -/
def Charge.details (c : Charge) : Except Decimal.Fault Json := do
  let quantity ← c.quantity
  let amount ← c.amount
  return .object [
    ("tier", .text (toString c.tier)),
    ("unit_type", .text c.unitType),
    ("block_size", .text c.blockSize.toText),
    ("blocks", .text c.blocks.toText),
    ("quantity", .text quantity.toText),
    ("price", .text c.price.toText),
    ("amount", .text amount.toText)]

/-- The field that tells what was invoiced before; there is none where nothing was. -/
def previouslyBilled (billedBefore : Bool) (due owed : Decimal) :
    Except Decimal.Fault (List (String × Json)) :=
  if billedBefore then do return [("previously_billed", .text (← due.sub owed).toText)] else return []

/-- The details of a consumable item for all units of a type. -/
def aggregateDetails (quantity : Decimal) (charges : List Charge) (billedBefore : Bool)
    (due owed : Decimal) : Except Decimal.Fault Json := do
  let tiers ← charges.mapM Charge.details
  let before ← previouslyBilled billedBefore due owed
  return .object ([("quantity", .text quantity.toText), ("tiers", .list tiers)] ++ before)

/-- The details of a capacity item. -/
def CapacityTier.details (t : CapacityTier) (amounts : List (String × Decimal)) (billedBefore : Bool)
    (owed : Decimal) : Except Decimal.Fault Json := do
  let before ← previouslyBilled billedBefore t.price owed
  let texts := amounts.map fun (unitType, amount) => (unitType, Json.text amount.toText)
  return .object ([("tier", .ofNat t.index), ("amounts", .object texts)] ++ before)

end UsageBilling
