import UsageBilling.Calendar.Instant
import UsageBilling.Text.Quoted

/-! Usage keys: the identity of a usage section within one version of the catalog. Versions are
compared as instants, so one version written with different offsets gives one key. -/

namespace UsageBilling

/-- The name of a usage section and the catalog version it stands in. -/
structure UsageKey where
  usageName : String
  version : Instant
  deriving DecidableEq

namespace UsageKey

/-- What two keys of one usage section have in common: the name and the UTC clock of the version. -/
structure Identity where
  usageName : String
  utc : Int
  deriving DecidableEq

/-- The identity of a key; a version that UTC cannot show has none. -/
def identity? (k : UsageKey) : Except Calendar.Fault Identity := do
  return ⟨k.usageName, ← k.version.utc?⟩

/-- Whether two keys are the same. Versions are looked at only when the names agree. -/
def same? (a b : UsageKey) : Except Calendar.Fault Bool :=
  if a.usageName = b.usageName then do
    let x ← a.version.utc?
    let y ← b.version.utc?
    return x == y
  else .ok false

def countDistinct? (keys : List UsageKey) : Except Calendar.Fault Nat := do
  let identities ← keys.mapM identity?
  return identities.eraseDups.length

def toText (k : UsageKey) : String :=
  "UsageKey(" ++ Text.quoted k.usageName ++ ", " ++ k.version.toText ++ ")"

end UsageKey
end UsageBilling
