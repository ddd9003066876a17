import UsageBilling.Proofs.Interval.Schedule
import UsageBilling.Proofs.Interval.Versions

/-! Instants that are written otherwise. An instant is the same when its UTC clock is, whatever the offset it is
written with (`Instant.Same`), and so are the dates and the keys read off it. The dates and buckets of an interval
depend on the instants of its events, and of the terms on the target, the start of the raw usage and the time zone only
(`Interval.SameDates`). So intervals whose events are the same apart from how their instants are written
(`Interval.Same`) can be built together (`Interval.Same.built`), and their buckets are billed alike
(`Interval.Same.billsAlike`). -/

namespace UsageBilling

/-! ### Instants and events -/

/-- Two ways to write one instant. -/
def Instant.Same (a b : Instant) : Prop := a.utc = b.utc

instance (a b : Instant) : Decidable (a.Same b) := inferInstanceAs (Decidable (a.utc = b.utc))

theorem Instant.Same.refl (a : Instant) : a.Same a := rfl

theorem Instant.Same.symm {a b : Instant} (h : a.Same b) : b.Same a := Eq.symm h

theorem Instant.Same.utc?_eq {a b : Instant} (h : a.Same b) : a.utc? = b.utc? := by
  rw [Same] at h
  rw [utc?, utc?, h]

theorem Zone.localDate_same (z : Zone) {a b : Instant} (h : a.Same b) : z.localDate a = z.localDate b := by
  rw [localDate, localDate, h.utc?_eq]

/-- One event with its instants written in two ways. -/
structure BillingEvent.Same (e e' : BillingEvent) : Prop where
  effective : e.effective.Same e'.effective
  version : e.catalogVersion.Same e'.catalogVersion
  rest : e' = { e with effective := e'.effective, catalogVersion := e'.catalogVersion }

namespace BillingEvent.Same

variable {e e' : BillingEvent}

theorem subscriptionId_eq (h : e.Same e') : e.subscriptionId = e'.subscriptionId :=
  (congrArg BillingEvent.subscriptionId h.rest).symm

theorem usages_eq (h : e.Same e') : e.usages = e'.usages := (congrArg BillingEvent.usages h.rest).symm

theorem cycleDay_eq (h : e.Same e') : e.cycleDay = e'.cycleDay := (congrArg BillingEvent.cycleDay h.rest).symm

theorem refl (e : BillingEvent) : e.Same e := ⟨.refl _, .refl _, rfl⟩

theorem symm (h : e.Same e') : e'.Same e := by
  refine ⟨h.effective.symm, h.version.symm, ?_⟩
  rw [h.rest]

theorem samePlan (h : e.Same e') : e.SamePlan Instant.Same e' where
  subscriptionId := h.subscriptionId_eq
  planName := (congrArg BillingEvent.planName h.rest).symm
  phaseName := (congrArg BillingEvent.phaseName h.rest).symm
  currency := (congrArg BillingEvent.currency h.rest).symm
  version := h.version

end BillingEvent.Same

/-! ### Dates and buckets -/

namespace Interval

variable {i j : Interval}

/-- Two intervals that agree on all that their dates and buckets depend on. -/
structure SameDates (i j : Interval) : Prop where
  period : i.usage.period = j.usage.period
  target : i.terms.target = j.terms.target
  rawUsageStart : i.terms.rawUsageStart = j.terms.rawUsageStart
  zone : i.terms.zone = j.terms.zone
  closed : i.isClosed = j.isClosed
  events : List.Forall₂ (fun x y => x.event.Same y.event) i.events j.events

namespace SameDates

theorem firstEvent_corresponds (h : i.SameDates j) : Corresponds BillingEvent.Same i.firstEvent j.firstEvent := by
  have hfirst := rel_head? h.events
  rw [firstEvent, firstEvent]
  generalize i.events.head? = x, j.events.head? = y at hfirst ⊢
  cases hfirst with
  | none => exact .error _
  | some hxy => exact .ok hxy

theorem dateOf_eq (h : i.SameDates j) {e e' : BillingEvent} (he : e.Same e') : i.dateOf e = j.dateOf e' := by
  rw [dateOf, dateOf, h.zone, j.terms.zone.localDate_same he.effective]

theorem startDate_eq (h : i.SameDates j) : i.startDate = j.startDate := by
  apply Corresponds.eq
  apply h.firstEvent_corresponds.bind
  intro e e' he
  rw [h.dateOf_eq he]
  exact .refl _

theorem endDate_eq (h : i.SameDates j) : i.endDate = j.endDate := by
  have hlast := rel_getLast? h.events
  rw [endDate, endDate, h.closed]
  generalize i.events.getLast? = x, j.events.getLast? = y at hlast ⊢
  cases hlast with
  | none => rfl
  | some hxy =>
      dsimp only
      rw [h.dateOf_eq hxy]

theorem boundaries_eq (h : i.SameDates j) : i.boundaries = j.boundaries := by
  rw [boundaries, boundaries, h.startDate_eq, h.endDate_eq, h.period, h.target]
  apply Corresponds.eq
  apply Corresponds.bind_same
  intro start
  apply Corresponds.bind_same
  intro finish
  apply h.firstEvent_corresponds.bind
  intro e e' he
  rw [he.cycleDay_eq]
  exact .refl _

theorem eventIndexAt_eq (h : i.SameDates j) (day : Date) : i.eventIndexAt day = j.eventIndexAt day := by
  rw [eventIndexAt, eventIndexAt]
  apply Corresponds.eq
  apply Corresponds.foldlM _ rfl
  apply (forall₂_zipIdx h.events 0).imp
  rintro ⟨x, n⟩ ⟨y, n'⟩ ⟨hxy, hn⟩ index _ rfl
  obtain rfl : n = n' := hn
  dsimp only
  rw [h.dateOf_eq hxy]
  exact .refl _

theorem computeBuckets_eq (h : i.SameDates j) : i.computeBuckets = j.computeBuckets := by
  have hbetween : i.bucketBetween = j.bucketBetween := by
    funext start finish
    rw [bucketBetween, bucketBetween, h.rawUsageStart, h.eventIndexAt_eq]
  rw [computeBuckets, computeBuckets, h.boundaries_eq, hbetween]

theorem computeNotification_eq (h : i.SameDates j) : i.computeNotification = j.computeNotification := by
  have hafter :
      (do BillingCycle.firstAfter (← i.startDate) (← i.firstEvent).cycleDay i.usage.period i.terms.target) =
        (do BillingCycle.firstAfter (← j.startDate) (← j.firstEvent).cycleDay j.usage.period j.terms.target) := by
    rw [h.startDate_eq, h.period, h.target]
    apply Corresponds.eq
    apply Corresponds.bind_same
    intro start
    apply h.firstEvent_corresponds.bind
    intro e e' he
    rw [he.cycleDay_eq]
    exact .refl _
  rw [computeNotification, computeNotification, h.endDate_eq, hafter, h.target]

end SameDates
end Interval

/-! ### Intervals -/

/-- The same event is recorded at one place, with the same unit types. -/
structure IntervalEvent.Same (x y : IntervalEvent) : Prop where
  place : x.place = y.place
  event : x.event.Same y.event
  seen : x.seen = y.seen

/-- One interval with the instants of its events written in two ways. -/
structure Interval.Same (i j : Interval) : Prop where
  usage : i.usage = j.usage
  terms : i.terms = j.terms
  events : List.Forall₂ IntervalEvent.Same i.events j.events
  stage : i.stage = j.stage
  buckets : i.buckets = j.buckets
  nextNotification : i.nextNotification = j.nextNotification

namespace Interval.Same

variable {i j : Interval}

theorem isBuilt_eq (h : i.Same j) : i.isBuilt = j.isBuilt := by
  rw [isBuilt, isBuilt, h.stage]

theorem isClosed_eq (h : i.Same j) : i.isClosed = j.isClosed := by
  rw [isClosed, isClosed, h.stage]

theorem sameDates (h : i.Same j) : i.SameDates j where
  period := congrArg Usage.period h.usage
  target := congrArg Terms.target h.terms
  rawUsageStart := congrArg Terms.rawUsageStart h.terms
  zone := congrArg Terms.zone h.terms
  closed := h.isClosed_eq
  events := h.events.imp fun _ _ hxy => hxy.event

theorem subscriptionId_eq (h : i.Same j) : i.subscriptionId = j.subscriptionId := by
  apply Corresponds.eq
  apply h.sameDates.firstEvent_corresponds.bind
  intro e e' he
  exact .ok he.subscriptionId_eq

/-- The keys have one name, and versions that are the same instant. -/
theorem key_corresponds (h : i.Same j) :
    Corresponds (fun k k' => k.usageName = k'.usageName ∧ k.version.Same k'.version) i.key j.key := by
  apply h.sameDates.firstEvent_corresponds.bind
  intro e e' he
  exact .ok ⟨congrArg Usage.name h.usage, he.version⟩

theorem seenUnitTypes_eq (h : i.Same j) (position : Int) : i.seenUnitTypes position = j.seenUnitTypes position := by
  rw [seenUnitTypes, seenUnitTypes, h.events.length_eq]
  generalize (if position < 0 then position + (j.events.length : Int) else position) = n
  have hevent := rel_getElem? h.events n.toNat
  generalize i.events[n.toNat]? = x, j.events[n.toNat]? = y at hevent ⊢
  cases hevent with
  | none => rfl
  | some hxy =>
      dsimp only
      rw [hxy.seen]

theorem governingUnitTypes_eq (h : i.Same j) (b : Bucket) : i.governingUnitTypes b = j.governingUnitTypes b := by
  have hseen {x y : Option IntervalEvent} (hxy : Option.Rel IntervalEvent.Same x y) :
      x.bind (·.seen) = y.bind (·.seen) := by
    cases hxy with
    | none => rfl
    | some hxy => exact hxy.seen
  rw [governingUnitTypes, governingUnitTypes, h.sameDates.endDate_eq, hseen (rel_getLast? h.events),
    hseen (rel_getElem? h.events b.eventIndex), h.usage]

/-! ### Building and billing -/

theorem frozen (h : i.Same j) (closed : Bool) : (i.frozen closed).Same (j.frozen closed) :=
  ⟨h.usage, h.terms, h.events, rfl, h.buckets, h.nextNotification⟩

theorem built (h : i.Same j) {closed : Bool} {i' : Interval} (hi : i.built closed = .ok i') :
    ∃ j', j.built closed = .ok j' ∧ i'.Same j' := by
  obtain ⟨hstage, hne, buckets, next, hbuckets, hnext, rfl⟩ := built_eq_ok.mp hi
  have hbucketed : ({ i.frozen closed with buckets } : Interval).Same { j.frozen closed with buckets } :=
    ⟨h.usage, h.terms, h.events, rfl, rfl, h.nextNotification⟩
  refine ⟨{ j.frozen closed with buckets, nextNotification := next }, ?_, ⟨h.usage, h.terms, h.events, rfl, rfl, rfl⟩⟩
  rw [built_eq_ok]
  refine ⟨h.stage ▸ hstage, ?_, buckets, next, ?_, ?_, rfl⟩
  · intro hnone
    have hevents := h.events
    rw [hnone, List.forall₂_nil_right_iff] at hevents
    exact hne hevents
  · rw [← (h.frozen closed).sameDates.computeBuckets_eq, hbuckets]
  · rw [← hbucketed.sameDates.computeNotification_eq, hnext]

theorem billsAlike (h : i.Same j) (b : Bucket) : BillsAlike Instant.Same (i, b) (j, b) where
  usage := h.usage
  terms := h.terms
  start := rfl
  finish := rfl
  alignedStart := rfl
  event := rel_getElem? (h.events.imp fun _ _ hxy => hxy.event.samePlan) b.eventIndex
  unitTypes := h.governingUnitTypes_eq b

end Interval.Same
end UsageBilling
