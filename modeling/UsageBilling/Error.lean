import UsageBilling.Decimal.Text
import UsageBilling.UsageKey

/-! Everything that can go wrong, by cause, and the text that tells it. Errors of the catalog and of
existing invoice data are notices: they carry a code and name the usage section or the item they
are about. -/

namespace UsageBilling

/-- A usage section cannot be priced or scheduled. -/
inductive CatalogFault where
  | unsupportedPeriod (name : String)
  | noBlock (unitType usage : String)
  | invalidBlockSize (size : Decimal) (usage : String)
  | quantityExceedsTiers (quantity : Decimal) (unitType usage : String)
  | tierWithoutPrice (tier : Nat) (usage : String)
  | noCoveringTier (usage : String) (amounts : List (String × Decimal))
  deriving DecidableEq

/-- An item invoiced before does not fit the usage section it was issued for. -/
inductive InvoiceFault where
  | misaligned (item : String) (itemStart itemEnd bucketStart bucketEnd : Date) (usage : String)
  | foreignUnitType (item : String) (unitType : Option String) (usage : String)
  | unitTypeOnCapacity (item unitType : String)
  deriving DecidableEq

/-- An operation does not suit the state of an interval; `usage` names its usage section. -/
inductive IntervalFault where
  | notBilledInArrear (usage : String)
  | foreignSubscription (event interval : String)
  | notLatestEvent
  | noEvents (usage : String)
  | alreadyBuilt (usage : String)
  | notBuilt (usage : String)
  deriving DecidableEq

/-- The billing events of a run are not a timeline of one subscription. -/
inductive TimelineFault where
  | empty
  | severalSubscriptions (ids : List String)
  | mixedOffsets
  | unsorted
  deriving DecidableEq

/-- Opening a key that is open, or finishing one that is not. -/
inductive ArenaFault where
  | alreadyOpen (key : UsageKey)
  | notOpen (key : UsageKey)
  deriving DecidableEq

/-- What is wrong with the value of a setting. -/
inductive SettingFault where
  | unknownLogLevel (value : String)
  | unknownLogFormat (value : String)
  | unknownZone (value : String)
  | notADetailMode
  | notReadableAsBoolean
  | notABoolean
  | notAString
  deriving DecidableEq

inductive Error where
  | decimal (fault : Decimal.Fault)
  | calendar (fault : Calendar.Fault)
  | cycleDayOutOfRange (day : Int)
  | indexOutOfRange
  | unknownZone (name : String)
  | catalog (fault : CatalogFault)
  | invoice (fault : InvoiceFault)
  | interval (fault : IntervalFault)
  | timeline (fault : TimelineFault)
  | arena (fault : ArenaFault)
  | settings (faults : List (String × SettingFault))
  | unknownLogLevel (name : String)
  deriving DecidableEq

instance : MonadLift (Except Decimal.Fault) (Except Error) := ⟨fun x => x.mapError .decimal⟩
instance : MonadLift (Except Calendar.Fault) (Except Error) := ⟨fun x => x.mapError .calendar⟩

/-! ### Success -/

/-- A sequence succeeds when its steps do, one after the other. -/
theorem bind_eq_ok {ε α β : Type} {x : Except ε α} {f : α → Except ε β} {b : β} :
    x >>= f = .ok b ↔ ∃ a, x = .ok a ∧ f a = .ok b := by
  cases x with
  | error e => exact ⟨nofun, fun ⟨_, h, _⟩ => nomatch h⟩
  | ok a => exact ⟨fun h => ⟨a, rfl, h⟩, fun ⟨_, h, hf⟩ => by cases h; exact hf⟩

theorem liftM_decimal_eq_ok {α : Type} {x : Except Decimal.Fault α} {a : α} :
    (liftM x : Except Error α) = .ok a ↔ x = .ok a := by
  cases x with
  | error e => exact ⟨nofun, nofun⟩
  | ok b => exact ⟨fun h => by cases h; rfl, fun h => by cases h; rfl⟩

theorem liftM_calendar_eq_ok {α : Type} {x : Except Calendar.Fault α} {a : α} :
    (liftM x : Except Error α) = .ok a ↔ x = .ok a := by
  cases x with
  | error e => exact ⟨nofun, nofun⟩
  | ok b => exact ⟨fun h => by cases h; rfl, fun h => by cases h; rfl⟩

/-! ### Texts -/

def CatalogFault.message : CatalogFault → String
  | unsupportedPeriod name => s!"Unsupported billing period: {name}"
  | noBlock unitType usage => s!"No tiered block for unit type {unitType} in usage {usage}"
  | invalidBlockSize size usage => s!"Invalid block size {size.toText} in usage {usage}"
  | quantityExceedsTiers quantity unitType usage =>
      s!"Quantity {quantity.toText} of {unitType} exceeds every tier of usage {usage}"
  | tierWithoutPrice tier usage => s!"Capacity tier {tier} of usage {usage} has no price"
  | noCoveringTier usage amounts =>
      let entries := amounts.map fun (unitType, amount) =>
        Text.quoted unitType ++ ": Decimal('" ++ amount.toText ++ "')"
      s!"No capacity tier of usage {usage} covers " ++ "\x7b" ++ ", ".intercalate entries ++ "\x7d"

def InvoiceFault.message : InvoiceFault → String
  | misaligned item itemStart itemEnd bucketStart bucketEnd usage =>
      s!"Usage item {item} [{itemStart.toText}, {itemEnd.toText}) does not match billing period " ++
      s!"[{bucketStart.toText}, {bucketEnd.toText}) of usage {usage}"
  | foreignUnitType item unitType usage =>
      let name := unitType.getD "None"
      s!"Usage item {item} references unit type {name} not defined by usage {usage}"
  | unitTypeOnCapacity item unitType => s!"Capacity usage item {item} carries unit type {unitType}"

def InvoiceFault.item : InvoiceFault → String
  | misaligned item .. => item
  | foreignUnitType item .. => item
  | unitTypeOnCapacity item _ => item

/-- The usage section a catalog fault is about; an unsupported period is not tied to one. -/
def CatalogFault.usage? : CatalogFault → Option String
  | unsupportedPeriod _ => none
  | noBlock _ usage => some usage
  | invalidBlockSize _ usage => some usage
  | quantityExceedsTiers _ _ usage => some usage
  | tierWithoutPrice _ usage => some usage
  | noCoveringTier usage _ => some usage

def IntervalFault.message : IntervalFault → String
  | notBilledInArrear usage => s!"Usage {usage} is not billed in arrear"
  | foreignSubscription event interval =>
      s!"Event for subscription {event} added to interval of subscription {interval}"
  | notLatestEvent => "Unit types can only be recorded for the latest event"
  | noEvents usage => s!"Interval for usage {usage} has no billing events"
  | alreadyBuilt usage => s!"Interval for usage {usage} is already built"
  | notBuilt usage => s!"Interval for usage {usage} has not been built"

def TimelineFault.message : TimelineFault → String
  | empty => "At least one billing event is required"
  | severalSubscriptions ids => "Billing events span several subscriptions: " ++ Text.quotedList ids
  | mixedOffsets => "can't compare offset-naive and offset-aware datetimes"
  | unsorted => "Billing events must be sorted by effective date"

def ArenaFault.message : ArenaFault → String
  | alreadyOpen key => "An interval is already open for " ++ key.toText
  | notOpen key => key.toText

def SettingFault.message : SettingFault → String
  | unknownLogLevel value => s!"Value error, Unknown log level: {value}"
  | unknownLogFormat value => s!"Value error, Unknown log format: {value}"
  | unknownZone value => s!"Value error, Unknown time zone: {value}"
  | notADetailMode => "Input should be 'aggregate' or 'detail'"
  | notReadableAsBoolean => "Input should be a valid boolean, unable to interpret input"
  | notABoolean => "Input should be a valid boolean"
  | notAString => "Input should be a valid string"

/-- The kind of a setting fault, as it is reported beside its message. -/
def SettingFault.kind : SettingFault → String
  | unknownLogLevel _ | unknownLogFormat _ | unknownZone _ => "value_error"
  | notADetailMode => "enum"
  | notReadableAsBoolean => "bool_parsing"
  | notABoolean => "bool_type"
  | notAString => "string_type"

def Calendar.Fault.message : Calendar.Fault → String
  | dateOutOfRange => "date value out of range"
  | yearOutOfRange year => s!"year {year} is out of range"

def Decimal.Fault.message : Decimal.Fault → String
  | invalidOperation => "invalid operation"
  | divisionByZero => "division by zero"
  | overflow => "overflow"

def Error.message : Error → String
  | decimal fault => fault.message
  | calendar fault => fault.message
  | cycleDayOutOfRange day => s!"Bill cycle day out of range: {day}"
  | indexOutOfRange => "list index out of range"
  | unknownZone name => Text.quoted name
  | catalog fault => fault.message
  | invoice fault => fault.message
  | interval fault => fault.message
  | timeline fault => fault.message
  | arena fault => fault.message
  | settings faults => "; ".intercalate (faults.map fun (field, fault) => s!"{field}: {fault.message}")
  | unknownLogLevel name => Text.quoted name ++ " is not a valid LogLevel"

/-! ### Notices -/

/-- An error that is reported with a code, and with the usage section or the item it is about. -/
inductive Notice where
  | billing (message code : String)
  | catalog (message : String) (usageName : Option String)
  | invoiceData (message : String) (itemId : Option String)
  deriving DecidableEq

namespace Notice

/-- The code of a notice that is given none. -/
def defaultCode : String := "billing_error"

def message : Notice → String
  | billing message _ => message
  | catalog message _ => message
  | invoiceData message _ => message

def code : Notice → String
  | billing _ code => code
  | catalog .. => "catalog_error"
  | invoiceData .. => "invoice_data_error"

end Notice

/-- The notice of an error of the catalog or of existing invoice data. -/
def Error.notice? : Error → Option Notice
  | .catalog fault => some (.catalog fault.message fault.usage?)
  | .invoice fault => some (.invoiceData fault.message (some fault.item))
  | _ => none

end UsageBilling
