import UsageBilling.Catalog
import UsageBilling.UsageKey

/-! Billing events: the points at which the plan of a subscription changes. -/

namespace UsageBilling

/-- A point on the plan timeline of a subscription. A cancellation carries no usage sections. -/
structure BillingEvent where
  subscriptionId : String
  effective : Instant
  catalogVersion : Instant
  cycleDay : Int
  planName : String
  phaseName : String
  currency : String
  usages : List Usage
  deriving DecidableEq

/-- The key of a usage section in the catalog version of an event. -/
def BillingEvent.keyOf (e : BillingEvent) (u : Usage) : UsageKey := ⟨u.name, e.catalogVersion⟩

end UsageBilling
