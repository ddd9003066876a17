import UsageBilling.UsageKey
import UsageBilling.Error

/-! The arena: the intervals that still accept events, by usage key and in the order in which they
were opened, and those that have been built. The arena does not look into the intervals, so it holds
values of any type for them. -/

namespace UsageBilling

/-- An open place of the arena: the key as it was first given, its identity and what is open. -/
structure OpenPlace (α : Type) where
  key : UsageKey
  identity : UsageKey.Identity
  value : α

/-- What is open under a key, and what has been built. -/
structure Arena (α : Type) where
  places : List (OpenPlace α)
  built : List α

namespace Arena

variable {α : Type}

def empty : Arena α := ⟨[], []⟩

def openKeys (a : Arena α) : List UsageKey := a.places.map (·.key)

def find? (a : Arena α) (identity : UsageKey.Identity) : Option α :=
  (a.places.find? (·.identity = identity)).map (·.value)

def get? (a : Arena α) (key : UsageKey) : Except Error (Option α) := do
  return a.find? (← key.identity?)

/-- Opens a key that is not open. -/
def insert (a : Arena α) (key : UsageKey) (value : α) : Except Error (Arena α) := do
  let identity ← key.identity?
  if (a.find? identity).isSome then throw (.arena (.alreadyOpen key))
  return { a with places := a.places ++ [⟨key, identity, value⟩] }

/-- Takes out what is open under a key. Where nothing is open, the key need not have an identity. -/
def take (a : Arena α) (key : UsageKey) : Except Error (α × Arena α) := do
  let identity ← (if a.places.isEmpty then .error (.arena (.notOpen key)) else liftM key.identity? :
    Except Error UsageKey.Identity)
  match a.find? identity with
  | some value => return (value, { a with places := a.places.filter (·.identity ≠ identity) })
  | none => throw (.arena (.notOpen key))

def addBuilt (a : Arena α) (value : α) : Arena α := { a with built := a.built ++ [value] }

/-! ### Laws -/

/-- A key that is opened was not open, and is the last one from then on. -/
theorem insert_eq_ok {a b : Arena α} {key : UsageKey} {value : α} : a.insert key value = .ok b ↔
    ∃ identity, key.identity? = .ok identity ∧ a.find? identity = none ∧
      b = { a with places := a.places ++ [⟨key, identity, value⟩] } := by
  rw [insert, bind_eq_ok]
  refine exists_congr fun identity => ?_
  rw [liftM_calendar_eq_ok]
  refine and_congr_right fun _ => ?_
  cases a.find? identity with
  | some v => exact iff_of_false nofun nofun
  | none =>
      constructor
      · intro h
        cases h
        exact ⟨rfl, rfl⟩
      · rintro ⟨-, rfl⟩
        rfl

/-- What is taken out was open under the key, and nothing else leaves the arena. -/
theorem take_eq_ok {a b : Arena α} {key : UsageKey} {value : α} : a.take key = .ok (value, b) ↔
    ∃ identity, key.identity? = .ok identity ∧ a.find? identity = some value ∧
      b = { a with places := a.places.filter (·.identity ≠ identity) } := by
  rw [take, bind_eq_ok]
  refine exists_congr fun identity => ?_
  by_cases hempty : a.places.isEmpty = true
  · have hnone : a.find? identity = none := by
      rw [find?, List.isEmpty_iff.mp hempty]
      rfl
    rw [if_pos hempty, hnone]
    exact iff_of_false nofun nofun
  · rw [if_neg hempty, liftM_calendar_eq_ok]
    refine and_congr_right fun _ => ?_
    cases a.find? identity with
    | none => exact iff_of_false nofun nofun
    | some v =>
        constructor
        · intro h
          cases h
          exact ⟨rfl, rfl⟩
        · rintro ⟨hv, rfl⟩
          cases hv
          rfl

end Arena
end UsageBilling
