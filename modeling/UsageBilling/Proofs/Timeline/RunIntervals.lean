import UsageBilling.Proofs.Timeline.Activity
import UsageBilling.Proofs.Timeline.Places

/-! The interval of an activity run. It records the events of the run, each with the unit types in force
at it, and then the event that ends the run, if there is one (`recorded`). What is recorded of a run
that has ended stays as further events come (`recorded_append`). -/

namespace UsageBilling

/-- The unit types in force after some events: those of the sections whose runs go on. -/
def unitTypesAfter (events : List BillingEvent) : List String :=
  UnitTypes.ofList ((runProgress events).ongoing.flatMap (·.usage.unitTypes))

/-- The unit types with which an event closes intervals: those in force at it, and for one without
sections those in force before it. -/
def closingUnitTypes (before : List BillingEvent) (e : BillingEvent) : List String :=
  if e.sections = [] then unitTypesAfter before else unitTypesAfter (before ++ [e])

/-- The events of a timeline with their places and the unit types in force at them. -/
def marked (events : List BillingEvent) : List IntervalEvent :=
  events.zipIdx.map fun (e, m) => ⟨m, e, some (unitTypesAfter (events.take (m + 1)))⟩

/-- The event that ends a run, with its place and the unit types it closes intervals with. -/
def closingMark (before : List BillingEvent) (e : BillingEvent) : IntervalEvent :=
  ⟨before.length, e, some (closingUnitTypes before e)⟩

namespace ActivityRun

/-- The events that the interval of a run records. -/
def recorded (ρ : ActivityRun) (events : List BillingEvent) : List IntervalEvent :=
  ((marked events).take (ρ.last + 1)).drop ρ.first ++
    (events[ρ.last + 1]?.map (closingMark (events.take (ρ.last + 1)))).toList

/-- The interval of a run before it is built. -/
def interval (ρ : ActivityRun) (terms : Terms) (events : List BillingEvent) : Interval :=
  .accumulating ρ.usage terms (ρ.recorded events)

/-- The place of the arena that a run going on has. -/
def place (ρ : ActivityRun) (terms : Terms) (events : List BillingEvent) : OpenPlace Interval :=
  ⟨ρ.key, ρ.identity, ρ.interval terms events⟩

@[simp] theorem place_identity (ρ : ActivityRun) (terms : Terms) (events : List BillingEvent) :
    (ρ.place terms events).identity = ρ.identity := rfl

end ActivityRun

section

variable {events : List BillingEvent} {ρ : ActivityRun}

theorem length_marked (events : List BillingEvent) : (marked events).length = events.length := by
  rw [marked, List.length_map, List.length_zipIdx]

theorem getElem?_marked (events : List BillingEvent) (m : Nat) :
    (marked events)[m]? = events[m]?.map fun e => ⟨m, e, some (unitTypesAfter (events.take (m + 1)))⟩ := by
  rw [marked, List.getElem?_map, List.getElem?_zipIdx, Option.map_map]
  cases events[m]? <;> simp

theorem take_marked_append (more : List BillingEvent) {n : Nat} (h : n ≤ events.length) :
    (marked (events ++ more)).take n = (marked events).take n := by
  refine List.ext_getElem? fun m => ?_
  rw [List.getElem?_take, List.getElem?_take]
  by_cases hm : m < n
  · rw [if_pos hm, if_pos hm, getElem?_marked, getElem?_marked, List.getElem?_append_left (by omega),
      List.take_append_of_le_length (by omega)]
  · rw [if_neg hm, if_neg hm]

theorem marked_append_singleton (events : List BillingEvent) (e : BillingEvent) :
    marked (events ++ [e]) =
      marked events ++ [⟨events.length, e, some (unitTypesAfter (events ++ [e]))⟩] := by
  refine List.ext_getElem? fun m => ?_
  rw [getElem?_marked]
  rcases Nat.lt_trichotomy m events.length with hlt | rfl | hgt
  · rw [List.getElem?_append_left hlt, List.getElem?_append_left (by rwa [length_marked]), getElem?_marked,
      List.take_append_of_le_length (by omega)]
  · rw [List.getElem?_concat_length, List.getElem?_append_right (Nat.le_of_eq (length_marked events)), length_marked,
      Nat.sub_self, List.take_of_length_le (by simp)]
    rfl
  · rw [List.getElem?_eq_none (by simp; omega), List.getElem?_eq_none (by simp [length_marked]; omega)]
    rfl

/-! ### Further events -/

/-- Events after the end of a run do not change what is recorded of it. -/
theorem recorded_append (more : List BillingEvent) (h : ρ.last + 1 < events.length) :
    ρ.recorded (events ++ more) = ρ.recorded events := by
  rw [ActivityRun.recorded, ActivityRun.recorded, take_marked_append more (by omega),
    List.getElem?_append_left h, List.take_append_of_le_length (by omega)]

theorem recorded_ongoing (h : ρ.last + 1 = events.length) :
    ρ.recorded events = (marked events).drop ρ.first := by
  rw [ActivityRun.recorded, List.getElem?_eq_none (by omega), List.take_of_length_le (by rw [length_marked]; omega)]
  simp

/-- A run that goes on at a further event records it with the unit types in force there. -/
theorem recorded_prolonged (e : BillingEvent) (hlast : ρ.last + 1 = events.length)
    (hfirst : ρ.first ≤ ρ.last) :
    ActivityRun.recorded { ρ with last := events.length } (events ++ [e]) =
      ρ.recorded events ++ [⟨events.length, e, some (unitTypesAfter (events ++ [e]))⟩] := by
  rw [recorded_ongoing (by simp), recorded_ongoing hlast, marked_append_singleton,
    List.drop_append_of_le_length (by rw [length_marked]; dsimp only; omega)]

/-- A run that ends at a further event records it with the unit types it closes intervals with. -/
theorem recorded_ended_by (e : BillingEvent) (hlast : ρ.last + 1 = events.length) :
    ρ.recorded (events ++ [e]) = ρ.recorded events ++ [closingMark events e] := by
  rw [recorded_ongoing hlast, ActivityRun.recorded, hlast, take_marked_append [e] (Nat.le_refl _),
    List.take_of_length_le (Nat.le_of_eq (length_marked events)), List.getElem?_concat_length,
    List.take_append_of_le_length (Nat.le_refl _), List.take_length]
  rfl

theorem recorded_started (u : Usage) (version : Instant) (e : BillingEvent) :
    ActivityRun.recorded ⟨u, version, events.length, events.length⟩ (events ++ [e]) =
      [⟨events.length, e, some (unitTypesAfter (events ++ [e]))⟩] := by
  rw [recorded_ongoing (by simp), marked_append_singleton,
    List.drop_append_of_le_length (Nat.le_of_eq (length_marked events).symm),
    List.drop_of_length_le (Nat.le_of_eq (length_marked events)), List.nil_append]

/-! ### First and last events -/

theorem head?_recorded (h : IsMaximalRun events ρ) {e : BillingEvent} (he : events[ρ.first]? = some e) :
    (ρ.recorded events).head? = some ⟨ρ.first, e, some (unitTypesAfter (events.take (ρ.first + 1)))⟩ := by
  have hfirst := h.first_le_last
  have hlast := h.last_lt
  rw [ActivityRun.recorded, List.head?_append, List.head?_drop, List.getElem?_take_of_lt (by omega),
    getElem?_marked, he]
  rfl

theorem getLast?_recorded {e : BillingEvent} (he : events[ρ.last + 1]? = some e) :
    (ρ.recorded events).getLast? = some (closingMark (events.take (ρ.last + 1)) e) := by
  rw [ActivityRun.recorded, he, Option.map_some, Option.toList_some, List.getLast?_concat]

end
end UsageBilling
