import UsageBilling.Arena
import UsageBilling.Interval.Buckets

/-! An arena over intervals that are known by labels. An interval may be changed while it is open, and
one label may be open under several keys; the arena holds the labels and the intervals stand beside
it. -/

namespace UsageBilling

/-- An arena of labels, and the intervals they stand for. -/
structure LabelledArena where
  arena : Arena String
  intervals : List (String × Interval)

namespace LabelledArena

def ofIntervals (intervals : List (String × Interval)) : LabelledArena := ⟨.empty, intervals⟩

/-- The interval of a label. -/
def interval (a : LabelledArena) (label : String) : Except Error Interval :=
  match a.intervals.lookup label with
  | some i => .ok i
  | none => .error .indexOutOfRange

def update (a : LabelledArena) (label : String) (i : Interval) : LabelledArena :=
  { a with intervals := a.intervals.map fun e => if e.1 = label then (label, i) else e }

def addEvent (a : LabelledArena) (label : String) (place : Nat) (event : BillingEvent) :
    Except Error LabelledArena := do
  return a.update label (← (← a.interval label).add place event)

def openKey (a : LabelledArena) (key : UsageKey) (label : String) : Except Error LabelledArena := do
  return { a with arena := ← a.arena.insert key label }

/-- Takes out the interval that is open under a key and builds it. The key is no longer open, whether
or not the build succeeds; the label joins the built ones only after a build that succeeds. -/
def finish (a : LabelledArena) (key : UsageKey) (closed : Bool) : LabelledArena × Except Error String :=
  match a.arena.take key with
  | .error e => (a, .error e)
  | .ok (label, rest) =>
      let taken := { a with arena := rest }
      match a.interval label with
      | .error e => (taken, .error e)
      | .ok i =>
          let built := taken.update label (i.build closed).1
          match (i.build closed).2 with
          | .ok _ => ({ built with arena := rest.addBuilt label }, .ok label)
          | .error e => (built, .error e)

/-- The labels of the built intervals, with what these tell of their end. -/
def built (a : LabelledArena) : List (String × Bool) :=
  a.arena.built.map fun label => (label, ((a.intervals.lookup label).map (·.isClosed)).getD false)

end LabelledArena
end UsageBilling
