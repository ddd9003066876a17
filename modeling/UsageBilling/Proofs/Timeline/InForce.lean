import UsageBilling.Proofs.Timeline.Growth

/-! The unit types in force along a timeline. After an event these are the unit types of the runs that are active at
it (`mem_unitTypesAfter_take`), among them those of each such run (`inter_unitTypesAfter_of_active`). An event without
sections closes intervals with the unit types in force before it, one with sections with those in force at it
(`mem_closingUnitTypes`, `inter_closingUnitTypes_of_bare`). The interval of a run records the events at which the run is
active, and then the one that ends it (`mem_recorded_iff`). -/

namespace UsageBilling

namespace UnitTypes

theorem inter_eq_right {xs ys : List String} (hxs : xs.Pairwise (· < ·)) (hys : ys.Pairwise (· < ·))
    (h : ∀ y ∈ ys, y ∈ xs) : inter xs ys = ys :=
  eq_of_mem_iff (hxs.filter _) hys fun x => (mem_inter x xs ys).trans ⟨And.right, fun hx => ⟨h x hx, hx⟩⟩

end UnitTypes

variable {events : List BillingEvent} {ρ : ActivityRun} {m : Nat} {u : String}

/-- The unit types in force after an event are those of the runs active at it. -/
theorem mem_unitTypesAfter_take (hm : m < events.length) : u ∈ unitTypesAfter (events.take (m + 1)) ↔
    ∃ ρ, IsMaximalRun events ρ ∧ ρ.first ≤ m ∧ m ≤ ρ.last ∧ u ∈ ρ.usage.unitTypes := by
  have hlength : (events.take (m + 1)).length = m + 1 := List.length_take_of_le hm
  rw [unitTypesAfter, UnitTypes.mem_ofList, List.mem_flatMap]
  constructor
  · rintro ⟨τ, hτ, hu⟩
    obtain ⟨hτ, hlast⟩ := (mem_runProgress_iff _ τ).2.mp hτ
    obtain ⟨σ, hσ, rfl⟩ := exists_isMaximalRun_cut (events.drop (m + 1)) hτ
    rw [List.take_append_drop] at hσ
    have hfirst : σ.first < m + 1 := hlength ▸ hτ.first_lt
    have hcut : min σ.last ((events.take (m + 1)).length - 1) + 1 = (events.take (m + 1)).length := hlast
    exact ⟨σ, hσ, by omega, by omega, hu⟩
  · rintro ⟨ρ, hρ, hfirst, hlast, hu⟩
    rw [← List.take_append_drop (m + 1) events] at hρ
    have hcut := isMaximalRun_cut hρ (show ρ.first < (events.take (m + 1)).length by omega)
    refine ⟨ρ.cut (events.take (m + 1)).length, (mem_runProgress_iff _ _).2.mpr ⟨hcut, ?_⟩, hu⟩
    change min ρ.last ((events.take (m + 1)).length - 1) + 1 = (events.take (m + 1)).length
    omega

/-- The unit types of a run are in force at each event at which it is active. -/
theorem inter_unitTypesAfter_of_active (h : IsMaximalRun events ρ) (hfirst : ρ.first ≤ m) (hlast : m ≤ ρ.last) :
    UnitTypes.inter (unitTypesAfter (events.take (m + 1))) ρ.usage.unitTypes = ρ.usage.unitTypes := by
  refine UnitTypes.inter_eq_right (UnitTypes.sorted_ofList _) (UnitTypes.sorted_ofList _) fun u hu => ?_
  exact (mem_unitTypesAfter_take (Nat.lt_of_le_of_lt hlast h.last_lt)).mpr ⟨ρ, h, hfirst, hlast, hu⟩

/-! ### The event that ends a run -/

variable {e : BillingEvent}

/-- An event without sections closes the interval of a run with all its unit types. -/
theorem inter_closingUnitTypes_of_bare (h : IsMaximalRun events ρ) (hbare : e.sections = []) :
    UnitTypes.inter (closingUnitTypes (events.take (ρ.last + 1)) e) ρ.usage.unitTypes = ρ.usage.unitTypes := by
  rw [closingUnitTypes, if_pos hbare]
  exact inter_unitTypesAfter_of_active h h.first_le_last (Nat.le_refl _)

/-- An event with sections closes intervals with the unit types of the runs active at it. -/
theorem mem_closingUnitTypes (he : events[m]? = some e) (hcarries : e.sections ≠ []) :
    u ∈ closingUnitTypes (events.take m) e ↔
      ∃ ρ, IsMaximalRun events ρ ∧ ρ.first ≤ m ∧ m ≤ ρ.last ∧ u ∈ ρ.usage.unitTypes := by
  have htake : events.take m ++ [e] = events.take (m + 1) := by
    rw [List.take_add_one, he]
    rfl
  rw [closingUnitTypes, if_neg hcarries, htake]
  exact mem_unitTypesAfter_take (List.getElem?_eq_some_iff.mp he).1

/-! ### Recorded events -/

/-- An event is recorded of a run as one at which the run is active, or as the one that ends it. -/
theorem mem_recorded_iff {x : IntervalEvent} : x ∈ ρ.recorded events ↔
    (∃ m, ρ.first ≤ m ∧ m ≤ ρ.last ∧ (marked events)[m]? = some x) ∨
      ∃ e, events[ρ.last + 1]? = some e ∧ x = closingMark (events.take (ρ.last + 1)) e := by
  have hmarks : x ∈ ((marked events).take (ρ.last + 1)).drop ρ.first ↔
      ∃ m, ρ.first ≤ m ∧ m ≤ ρ.last ∧ (marked events)[m]? = some x := by
    simp only [List.mem_iff_getElem?, List.getElem?_drop, List.getElem?_take]
    constructor
    · rintro ⟨n, hn⟩
      split at hn
      next hlt => exact ⟨ρ.first + n, Nat.le_add_right _ _, by omega, hn⟩
      next => cases hn
    · rintro ⟨m, hfirst, hlast, hm⟩
      refine ⟨m - ρ.first, ?_⟩
      rw [Nat.add_sub_cancel' hfirst, if_pos (by omega), hm]
  rw [ActivityRun.recorded, List.mem_append, hmarks, Option.mem_toList, Option.map_eq_some_iff]
  simp only [eq_comm]

end UsageBilling
