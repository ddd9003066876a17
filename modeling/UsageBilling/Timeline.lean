import UsageBilling.Arena
import UsageBilling.Interval.Buckets

/-! The walk along a timeline. Each event is one step: intervals of the usage sections it references
are opened or extended, and open intervals it no longer references are closed on it. After the last
event the intervals still open are built as active. -/

namespace UsageBilling.Timeline

/-- The state of the walk: the arena, and the unit types in force at the last event. -/
structure Walk where
  arena : Arena Interval
  unitTypes : List String

/-- A usage section referenced by an event, with its key. -/
structure Reference where
  key : UsageKey
  identity : UsageKey.Identity
  usage : Usage

/-- The usage sections an event references: those billed in arrear, the first of each key. -/
def references (event : BillingEvent) : Except Error (List Reference) :=
  (event.usages.filter (·.billingMode = .inArrear)).foldlM (fun found usage => do
    let key := event.keyOf usage
    let identity ← key.identity?
    return if found.any (·.identity = identity) then found else found ++ [⟨key, identity, usage⟩]) []

/-- Adds an event to the interval of a referenced usage section, opening one where there is none. -/
def extend (terms : Terms) (place : Nat) (event : BillingEvent) (arena : Arena Interval)
    (r : Reference) : Except Error (Arena Interval) := do
  match arena.find? r.identity with
  | some _ =>
      let places ← arena.places.mapM fun p =>
        if p.identity = r.identity then do return { p with value := ← p.value.add place event }
        else return p
      return { arena with places }
  | none => arena.insert r.key (← (← Interval.create r.usage terms).add place event)

/-- The unit types in force at an event: those of the intervals it references. -/
def unitTypesAt (arena : Arena Interval) (refs : List Reference) : List String :=
  UnitTypes.ofList (refs.flatMap fun r => ((arena.find? r.identity).map (·.usage.unitTypes)).getD [])

/-- Records the unit types in force in the intervals an event references. -/
def tagReferenced (place : Nat) (unitTypes : List String) (arena : Arena Interval)
    (refs : List Reference) : Except Error (Arena Interval) := do
  let places ← arena.places.mapM fun p =>
    if refs.any (·.identity = p.identity) then do
      return { p with value := ← p.value.tag place unitTypes }
    else return p
  return { arena with places }

/-- Closes the interval of one place on an event that no longer references it. -/
def close (place : Nat) (event : BillingEvent) (unitTypes : List String) (arena : Arena Interval)
    (p : OpenPlace Interval) : Except Error (Arena Interval) := do
  let (interval, rest) ← arena.take p.key
  let last ← (← interval.add place event).tag place unitTypes
  return rest.addBuilt (← last.built true)

/-- The step of the walk at one event. On an event that references no usage section, such as a
cancellation, intervals are closed with the unit types of the event before. -/
def step (terms : Terms) (w : Walk) (place : Nat) (event : BillingEvent) : Except Error Walk := do
  let refs ← references event
  let extended ← refs.foldlM (extend terms place event) w.arena
  let unitTypes := unitTypesAt extended refs
  let tagged ← tagReferenced place unitTypes extended refs
  let dropped := tagged.places.filter fun p => !refs.any (·.identity = p.identity)
  let closing := if refs.isEmpty then w.unitTypes else unitTypes
  let arena ← dropped.foldlM (close place event closing) tagged
  return ⟨arena, unitTypes⟩

/-- The walk over some events; places are counted on from `place`. -/
def walk (terms : Terms) (w : Walk) (place : Nat) : List BillingEvent → Except Error Walk
  | [] => .ok w
  | event :: rest => do walk terms (← step terms w place event) (place + 1) rest

/-- Builds what is still open, in the order of opening. -/
def finish (arena : Arena Interval) : Except Error (List Interval) := do
  let active ← arena.places.mapM fun p => p.value.built false
  return arena.built ++ active

/-- The built intervals of a timeline. -/
def intervals (terms : Terms) (events : List BillingEvent) : Except Error (List Interval) := do
  finish (← walk terms ⟨.empty, []⟩ 0 events).arena

end UsageBilling.Timeline
