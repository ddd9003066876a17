import UsageBilling.Proofs.Interval.SameInstants
import UsageBilling.Proofs.Timeline.Walk

/-! Timelines with the same instants. A timeline whose instants are written otherwise activates the same keys, so that
it has the same activity runs (`runProgress_sameInstants`), and what the intervals of these record are the same events
with the same unit types (`ActivityRun.Same.recorded`). So one timeline has intervals when the other one does, and they
are the same (`Timeline.intervals_sameInstants`). -/

namespace UsageBilling

/-! ### Keys of events -/

namespace BillingEvent.Same

variable {e e' : BillingEvent}

theorem sections_eq (h : e.Same e') : e.sections = e'.sections := by
  rw [sections, sections, h.usages_eq]

theorem identityOf_eq (h : e.Same e') : e.identityOf = e'.identityOf := by
  funext u
  exact congrArg (UsageKey.Identity.mk u.name) h.version

theorem activates_iff (h : e.Same e') (k : UsageKey.Identity) : e.Activates k ↔ e'.Activates k := by
  rw [BillingEvent.activates_iff, BillingEvent.activates_iff, h.sections_eq, h.identityOf_eq]

theorem keysShown (h : e.Same e') (hshown : e.KeysShown) : e'.KeysShown := by
  rw [KeysShown, ← h.sections_eq, ← h.version.utc?_eq]
  exact hshown

end BillingEvent.Same

/-! ### Activity runs -/

/-- One activity run with its version written in two ways. -/
structure ActivityRun.Same (ρ σ : ActivityRun) : Prop where
  usage : ρ.usage = σ.usage
  version : ρ.version.Same σ.version
  first : ρ.first = σ.first
  last : ρ.last = σ.last

theorem ActivityRun.Same.identity_eq {ρ σ : ActivityRun} (h : ρ.Same σ) : ρ.identity = σ.identity := by
  rw [identity, identity, h.usage]
  exact congrArg (UsageKey.Identity.mk σ.usage.name) h.version

/-- The same runs have ended and the same ones go on. -/
structure RunProgress.Same (s t : RunProgress) : Prop where
  ended : List.Forall₂ ActivityRun.Same s.ended t.ended
  ongoing : List.Forall₂ ActivityRun.Same s.ongoing t.ongoing

theorem RunProgress.Same.identities {s t : RunProgress} (h : s.Same t) :
    s.ongoing.map (·.identity) = t.ongoing.map (·.identity) := by
  rw [map_eq_map_iff_forall₂]
  exact h.ongoing.imp fun _ _ hρ => hρ.identity_eq

/-- An event does the same to the same runs. -/
theorem RunProgress.Same.next {s t : RunProgress} (h : s.Same t) {e e' : BillingEvent} (he : e.Same e') (place : Nat) :
    (s.next place e).Same (t.next place e') := by
  have hactive (ρ σ : ActivityRun) (hρ : ρ.Same σ) : e.Activates ρ.identity ↔ e'.Activates σ.identity := by
    rw [hρ.identity_eq]
    exact he.activates_iff _
  have hstarted : (e.sections.filter fun u => ∀ ρ ∈ s.ongoing, ρ.identity ≠ e.identityOf u) =
      e'.sections.filter fun u => ∀ ρ ∈ t.ongoing, ρ.identity ≠ e'.identityOf u := by
    rw [he.sections_eq, he.identityOf_eq]
    apply List.filter_congr
    intro u _
    rw [decide_eq_decide, ← List.forall_mem_map (P := (· ≠ e'.identityOf u)), h.identities, List.forall_mem_map]
  constructor
  · apply List.rel_append h.ended
    apply List.rel_filter _ h.ongoing
    intro ρ σ hρ
    simp only [decide_not, hactive ρ σ hρ]
  · rw [RunProgress.next, RunProgress.next]
    dsimp only
    rw [hstarted]
    apply List.rel_append
    · apply List.rel_map (R := ActivityRun.Same)
      · intro ρ σ hρ
        exact ⟨hρ.usage, hρ.version, hρ.first, rfl⟩
      · apply List.rel_filter _ h.ongoing
        intro ρ σ hρ
        simp only [hactive ρ σ hρ]
    · rw [List.forall₂_map_left_iff, List.forall₂_map_right_iff, List.forall₂_same]
      intro u _
      exact ⟨rfl, he.version, rfl, rfl⟩

section

variable {events events' : List BillingEvent}

/-- Timelines with the same instants have the same runs. -/
theorem runProgress_sameInstants (h : List.Forall₂ BillingEvent.Same events events') :
    (runProgress events).Same (runProgress events') := by
  apply List.rel_foldl (P := RunProgress.Same) _ ⟨.nil, .nil⟩ (forall₂_zipIdx h 0)
  rintro s t hst ⟨e, place⟩ ⟨e', place'⟩ ⟨he, hplace⟩
  obtain rfl : place = place' := hplace
  exact hst.next he place

theorem activityRuns_sameInstants (h : List.Forall₂ BillingEvent.Same events events') :
    List.Forall₂ ActivityRun.Same (activityRuns events) (activityRuns events') :=
  List.rel_append (runProgress_sameInstants h).ended (runProgress_sameInstants h).ongoing

theorem unitTypesAfter_sameInstants (h : List.Forall₂ BillingEvent.Same events events') :
    unitTypesAfter events = unitTypesAfter events' := by
  have hunits : List.Forall₂ Eq ((runProgress events).ongoing.flatMap (·.usage.unitTypes))
      ((runProgress events').ongoing.flatMap (·.usage.unitTypes)) := by
    apply List.rel_flatMap (runProgress_sameInstants h).ongoing
    intro ρ σ hρ
    exact List.forall₂_eq_eq_eq ▸ congrArg Usage.unitTypes hρ.usage
  rw [List.forall₂_eq_eq_eq] at hunits
  rw [unitTypesAfter, unitTypesAfter, hunits]

/-! ### What an interval records -/

theorem marked_sameInstants (h : List.Forall₂ BillingEvent.Same events events') :
    List.Forall₂ IntervalEvent.Same (marked events) (marked events') := by
  rw [marked, marked, List.forall₂_map_left_iff, List.forall₂_map_right_iff]
  apply (forall₂_zipIdx h 0).imp
  rintro ⟨e, m⟩ ⟨e', m'⟩ ⟨he, hm⟩
  obtain rfl : m = m' := hm
  exact ⟨rfl, he, congrArg some (unitTypesAfter_sameInstants (List.forall₂_take (m + 1) h))⟩

theorem closingMark_sameInstants (h : List.Forall₂ BillingEvent.Same events events') {e e' : BillingEvent}
    (he : e.Same e') : (closingMark events e).Same (closingMark events' e') := by
  refine ⟨h.length_eq, he, ?_⟩
  rw [closingMark, closingMark, closingUnitTypes, closingUnitTypes, he.sections_eq, unitTypesAfter_sameInstants h,
    unitTypesAfter_sameInstants (List.rel_append h (.cons he .nil))]

theorem ActivityRun.Same.recorded {ρ σ : ActivityRun} (hρ : ρ.Same σ)
    (h : List.Forall₂ BillingEvent.Same events events') :
    List.Forall₂ IntervalEvent.Same (ρ.recorded events) (σ.recorded events') := by
  rw [ActivityRun.recorded, ActivityRun.recorded, hρ.first, hρ.last]
  apply List.rel_append (List.forall₂_drop _ (List.forall₂_take _ (marked_sameInstants h)))
  have hclosing := rel_getElem? h (σ.last + 1)
  generalize events[σ.last + 1]? = x, events'[σ.last + 1]? = y at hclosing ⊢
  cases hclosing with
  | none => exact .nil
  | some he => exact .cons (closingMark_sameInstants (List.forall₂_take _ h) he) .nil

/-! ### Intervals -/

theorem ActivityRun.Same.built {ρ σ : ActivityRun} (hρ : ρ.Same σ) (h : List.Forall₂ BillingEvent.Same events events')
    {terms : Terms} {i : Interval} (hi : ρ.built terms events = .ok i) :
    ∃ j, σ.built terms events' = .ok j ∧ i.Same j := by
  have hinterval : (ρ.interval terms events).Same (σ.interval terms events') :=
    ⟨hρ.usage, rfl, hρ.recorded h, rfl, rfl, rfl⟩
  rw [ActivityRun.built, hρ.last, h.length_eq] at hi
  exact hinterval.built hi

end

/-- A timeline with the same instants has the same intervals. -/
theorem Timeline.intervals_sameInstants {terms : Terms} {events events' : List BillingEvent}
    (h : List.Forall₂ BillingEvent.Same events events')
    (hone : ∀ x ∈ events, ∀ y ∈ events, x.subscriptionId = y.subscriptionId) {is : List Interval}
    (his : intervals terms events = .ok is) :
    ∃ js, intervals terms events' = .ok js ∧ List.Forall₂ Interval.Same is js := by
  have hone' : ∀ x ∈ events', ∀ y ∈ events', x.subscriptionId = y.subscriptionId := by
    intro x hx y hy
    obtain ⟨x', hx', hxx⟩ := exists_of_forall₂_right h hx
    obtain ⟨y', hy', hyy⟩ := exists_of_forall₂_right h hy
    rw [← hxx.subscriptionId_eq, ← hyy.subscriptionId_eq, hone x' hx' y' hy']
  obtain ⟨hshown, hbuilt⟩ := (intervals_eq_ok hone).mp his
  have hshown' : ∀ e ∈ events', e.KeysShown := by
    intro e he
    obtain ⟨e', he', hee⟩ := exists_of_forall₂_right h he
    exact hee.keysShown (hshown e' he')
  obtain ⟨js, hjs, hsame⟩ :=
    exists_mapM_of_forall₂ (activityRuns_sameInstants h) hbuilt fun ρ σ i hρ hi => hρ.built h hi
  exact ⟨js, (intervals_eq_ok hone').mpr ⟨hshown', hjs⟩, hsame⟩

end UsageBilling
