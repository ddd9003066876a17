import UsageBilling.Proofs.Interval.Governing
import UsageBilling.Proofs.Run.Reconciliation
import UsageBilling.Proofs.Timeline.InForce

/-! What governs the buckets of a run. The event of a bucket is one at which the key of its interval is active
(`ActivityRun.Built.governs`), and the bucket bills all unit types of its usage section. Only where an event with
sections of its own closes the interval are the unit types of the last bucket narrowed to those of the intervals active
at that event (`ActivityRun.Built.exists_billsUnitTypes`). The lines of a run follow their buckets in both
(`Run.buckets_governed`). -/

namespace UsageBilling

/-- An event carries a section that is billed in arrear. -/
def BillingEvent.BillsInArrear (e : BillingEvent) : Prop := ∃ u ∈ e.usages, u.billingMode = .inArrear

theorem BillingEvent.sections_eq_nil_iff {e : BillingEvent} : e.sections = [] ↔ ¬ e.BillsInArrear := by
  have hnil (us : List Usage) : Usage.firstOfEachName us = [] ↔ us = [] := by
    cases us <;> simp [Usage.firstOfEachName]
  rw [sections, hnil, List.filter_eq_nil_iff, BillsInArrear]
  simp

namespace Interval

/-- An interval is active at a place of the timeline when it records the event there, and not as the one that closes
it. -/
def IsActiveAt (i : Interval) (place : Nat) : Prop := ∃ x ∈ i.events, x.place = place ∧ i.closing? ≠ some x

/-- An event governs a bucket: of the events of the interval it is the last one that the aligned start has reached, it
does not close the interval, and it carries the section of the interval in the catalog version of the interval. -/
structure Governs (i : Interval) (b : Bucket) (x : IntervalEvent) : Prop where
  lastReached : i.LastReached i.events b.alignedStart b.eventIndex x
  not_closing : i.closing? ≠ some x
  version : ∃ key, i.key = .ok key ∧ x.event.catalogVersion.utc = key.version.utc
  carries : ∃ u ∈ x.event.usages, u.billingMode = .inArrear ∧ u.name = i.usage.name

/-- A bucket ends on the end date of its interval, which an event closes. -/
def EndsWith (i : Interval) (b : Bucket) (c : IntervalEvent) : Prop :=
  i.closing? = some c ∧ i.endDate = .ok (some b.finish)

/-- The unit types that a bucket bills, among the intervals of a run: all those of the section, also where the bucket
ends on a cancellation, and else those that are in force at the closing event that the bucket ends on. -/
structure BillsUnitTypes (is : List Interval) (i : Interval) (b : Bucket) (types : List String) : Prop where
  governing : i.governingUnitTypes b = .ok types
  all : (∀ c, i.EndsWith b c → ¬ c.event.BillsInArrear) → types = i.usage.unitTypes
  narrowed : ∀ c, i.EndsWith b c → c.event.BillsInArrear → ∀ u, u ∈ types ↔
    u ∈ i.usage.unitTypes ∧ ∃ j ∈ is, j.IsActiveAt c.place ∧ u ∈ j.usage.unitTypes

theorem exists_endsWith {i : Interval} {b : Bucket} (hne : i.events ≠ []) (hend : i.endDate = .ok (some b.finish)) :
    ∃ c, i.EndsWith b c := by
  cases hclosed : i.isClosed with
  | true => exact ⟨_, closing?_eq_some.mpr ⟨hclosed, List.getLast?_eq_some_getLast hne⟩, hend⟩
  | false =>
      rw [endDate, hclosed] at hend
      cases hend

end Interval

namespace ActivityRun.Built

variable {terms : Terms} {events : List BillingEvent} {ρ : ActivityRun} {i : Interval} {b : Bucket}
  {x c : IntervalEvent}

/-! ### Places -/

theorem closing?_eq (h : Built terms events ρ i) :
    i.closing? = events[ρ.last + 1]?.map (closingMark (events.take (ρ.last + 1))) := by
  rw [Interval.closing?, h.closed]
  by_cases hlast : ρ.last + 1 < events.length
  · have he := List.getElem?_eq_getElem hlast
    rw [decide_eq_true hlast, if_pos rfl, h.recorded, getLast?_recorded he, he, Option.map_some]
  · rw [decide_eq_false hlast, if_neg Bool.false_ne_true, List.getElem?_eq_none (Nat.not_lt.mp hlast), Option.map_none]

theorem exists_closingMark (h : Built terms events ρ i) (hc : i.closing? = some c) :
    ∃ e, events[ρ.last + 1]? = some e ∧ closingMark (events.take (ρ.last + 1)) e = c := by
  rw [h.closing?_eq] at hc
  exact Option.map_eq_some_iff.mp hc

theorem place_of_closing (h : Built terms events ρ i) (hc : i.closing? = some c) : c.place = ρ.last + 1 := by
  obtain ⟨e, he, rfl⟩ := h.exists_closingMark hc
  exact List.length_take_of_le (Nat.le_of_lt (List.getElem?_eq_some_iff.mp he).1)

theorem isActiveAt_iff (h : Built terms events ρ i) {m : Nat} : i.IsActiveAt m ↔ ρ.first ≤ m ∧ m ≤ ρ.last := by
  constructor
  · rintro ⟨x, hx, rfl, hne⟩
    rw [h.recorded] at hx
    rcases mem_recorded_iff.mp hx with ⟨m, hfirst, hlast, hm⟩ | ⟨e, he, rfl⟩
    · rw [getElem?_marked] at hm
      obtain ⟨e, -, rfl⟩ := Option.map_eq_some_iff.mp hm
      exact ⟨hfirst, hlast⟩
    · rw [h.closing?_eq, he] at hne
      exact absurd rfl hne
  · rintro ⟨hfirst, hlast⟩
    have hlt : m < events.length := Nat.lt_of_le_of_lt hlast h.maximal.last_lt
    obtain ⟨e, he⟩ : ∃ e, events[m]? = some e := ⟨_, List.getElem?_eq_getElem hlt⟩
    refine ⟨⟨m, e, some (unitTypesAfter (events.take (m + 1)))⟩, ?_, rfl, fun hc => ?_⟩
    · rw [h.recorded]
      exact mem_recorded_iff.mpr (Or.inl ⟨m, hfirst, hlast, by rw [getElem?_marked, he, Option.map_some]⟩)
    · have hplace : m = ρ.last + 1 := h.place_of_closing hc
      omega

/-- An event that does not close the interval stands where the run is active, with the unit types in force there. -/
theorem marked_of_ne_closing (h : Built terms events ρ i) (hx : x ∈ i.events) (hne : i.closing? ≠ some x) :
    ρ.first ≤ x.place ∧ x.place ≤ ρ.last ∧ events[x.place]? = some x.event ∧
      x.seen = some (unitTypesAfter (events.take (x.place + 1))) := by
  obtain ⟨hfirst, hlast⟩ := h.isActiveAt_iff.mp ⟨x, hx, rfl, hne⟩
  rw [h.recorded] at hx
  rcases mem_recorded_iff.mp hx with ⟨m, -, -, hm⟩ | ⟨e, he, rfl⟩
  · rw [getElem?_marked] at hm
    obtain ⟨e, he, rfl⟩ := Option.map_eq_some_iff.mp hm
    exact ⟨hfirst, hlast, he, rfl⟩
  · rw [h.closing?_eq, he] at hne
    exact absurd rfl hne

/-! ### Buckets -/

/-- Each bucket is governed by its event. -/
theorem governs (h : Built terms events ρ i) (hb : b ∈ i.buckets) : ∃ x, i.Governs b x := by
  obtain ⟨x, hx⟩ := Interval.exists_lastReached h.buckets hb
  have hne := hx.not_closing h.buckets hb
  obtain ⟨hfirst, hlast, hplace, -⟩ := h.marked_of_ne_closing (List.mem_of_getElem? hx.recorded) hne
  obtain ⟨e, he, hactive⟩ := h.maximal.active x.place hfirst hlast
  obtain rfl : e = x.event := Option.some.inj (he.symm.trans hplace)
  obtain ⟨first, hopened, hversion, -⟩ := h.maximal.opened
  refine ⟨x, hx, hne, ⟨⟨i.usage.name, first.catalogVersion⟩, ?_, ?_⟩, ?_⟩
  · rw [Interval.key, h.firstEvent_eq hopened]
    rfl
  · rw [hversion]
    exact hactive.version
  · rw [h.usage]
    exact hactive.carried

/-- A bucket that does not end with its interval, or ends on an event without sections, bills all unit types. -/
theorem governing_all (h : Built terms events ρ i) (hb : b ∈ i.buckets)
    (hbare : ∀ c, i.EndsWith b c → ¬ c.event.BillsInArrear) : i.governingUnitTypes b = .ok i.usage.unitTypes := by
  obtain ⟨-, finish, -, hfinish⟩ := h.dates
  by_cases hends : ∃ c, i.EndsWith b c
  · obtain ⟨c, hclosing, hend⟩ := hends
    obtain ⟨e, -, rfl⟩ := h.exists_closingMark hclosing
    have hsections : e.sections = [] := BillingEvent.sections_eq_nil_iff.mpr (hbare _ ⟨hclosing, hend⟩)
    rw [Interval.governingUnitTypes_of_closing hclosing rfl hend, h.usage,
      inter_closingUnitTypes_of_bare h.maximal hsections]
  · obtain ⟨x, hx⟩ := h.governs hb
    have hrecorded := hx.lastReached.recorded
    obtain ⟨hfirst, hlast, -, hseen⟩ := h.marked_of_ne_closing (List.mem_of_getElem? hrecorded) hx.not_closing
    have hne : finish ≠ some b.finish := by
      rintro rfl
      exact hends (Interval.exists_endsWith h.events_ne_nil hfinish)
    rw [Interval.governingUnitTypes_of_event hfinish hne hrecorded hseen, h.usage,
      inter_unitTypesAfter_of_active h.maximal hfirst hlast]

end ActivityRun.Built

namespace Run

variable {request : RunRequest} {given : Option Settings} {inUse : Except Error Settings} {run : Run}
  {is : List Interval} {i : Interval} {b : Bucket}

/-- The unit types of the runs active at a place are those of the intervals active there. -/
theorem exists_interval_iff (hall : List.Forall₂ (ActivityRun.Built run.terms run.events) (activityRuns run.events) is)
    {m : Nat} {u : String} :
    (∃ ρ, IsMaximalRun run.events ρ ∧ ρ.first ≤ m ∧ m ≤ ρ.last ∧ u ∈ ρ.usage.unitTypes) ↔
      ∃ j ∈ is, j.IsActiveAt m ∧ u ∈ j.usage.unitTypes := by
  constructor
  · rintro ⟨ρ, hρ, hfirst, hlast, hu⟩
    obtain ⟨j, hj, hbuilt⟩ := exists_of_forall₂_left hall (mem_activityRuns_iff.mpr hρ)
    exact ⟨j, hj, hbuilt.isActiveAt_iff.mpr ⟨hfirst, hlast⟩, hbuilt.usage ▸ hu⟩
  · rintro ⟨j, hj, hactive, hu⟩
    obtain ⟨ρ, -, hbuilt⟩ := exists_of_forall₂_right hall hj
    obtain ⟨hfirst, hlast⟩ := hbuilt.isActiveAt_iff.mp hactive
    exact ⟨ρ, hbuilt.maximal, hfirst, hlast, hbuilt.usage ▸ hu⟩

/-- Each bucket of a run bills the unit types of its section, narrowed only by a closing event with sections. -/
theorem exists_billsUnitTypes (hcreate : create request given inUse = .ok run) (his : run.intervals = .ok is)
    (hi : i ∈ is) (hb : b ∈ i.buckets) : ∃ types, i.BillsUnitTypes is b types := by
  have hall := built_intervals hcreate his
  obtain ⟨ρ, -, h⟩ := exists_of_forall₂_right hall hi
  by_cases hbare : ∀ c, i.EndsWith b c → ¬ c.event.BillsInArrear
  · exact ⟨_, h.governing_all hb hbare, fun _ => rfl, fun c hc hbills => absurd hbills (hbare c hc)⟩
  · have hcarries := hbare
    push Not at hcarries
    obtain ⟨c, ⟨hclosing, hend⟩, hbills⟩ := hcarries
    obtain ⟨e, he, rfl⟩ := h.exists_closingMark hclosing
    refine ⟨_, Interval.governingUnitTypes_of_closing hclosing rfl hend, fun hnone => absurd hnone hbare,
      fun c' hc' _ u => ?_⟩
    obtain rfl : closingMark (run.events.take (ρ.last + 1)) e = c' := Option.some.inj (hclosing.symm.trans hc'.1)
    have hsections : e.sections ≠ [] := fun hnil => BillingEvent.sections_eq_nil_iff.mp hnil hbills
    rw [UnitTypes.mem_inter, mem_closingUnitTypes he hsections, exists_interval_iff hall, h.place_of_closing hclosing,
      and_comm]

/-- Each bucket of a run is governed by the last event of its interval that its aligned start has reached: that event
is not the closing one, and it carries the section in the version of the interval. The bucket bills all unit types of
the section, except where it ends on a closing event with sections of its own: there it bills those that also belong to
an interval active at that event. Each line of the run is for such a bucket and one of these unit types, and has the
plan, the currency and the catalog version of the governing event. -/
theorem buckets_governed (hcreate : create request given inUse = .ok run) (his : run.intervals = .ok is) :
    (∀ i ∈ is, ∀ b ∈ i.buckets, (∃ x, i.Governs b x) ∧ ∃ types, i.BillsUnitTypes is b types) ∧
    ∀ existing s, (run.reconcile existing).result = .ok s → ∀ l ∈ s.items, ∃ i ∈ is, ∃ b ∈ i.buckets, ∃ x types,
      i.Governs b x ∧ i.BillsUnitTypes is b types ∧ l.ForBucket i b run.subscriptionId ∧ l.TakesFrom x.event ∧
        ∀ u, l.unitType = some u → u ∈ types := by
  have hgoverns (i : Interval) (hi : i ∈ is) (b : Bucket) (hb : b ∈ i.buckets) : ∃ x, i.Governs b x := by
    obtain ⟨ρ, h⟩ := exists_built hcreate his hi
    exact h.governs hb
  refine ⟨fun i hi b hb => ⟨hgoverns i hi b hb, exists_billsUnitTypes hcreate his hi hb⟩, fun existing s hs l hl => ?_⟩
  obtain ⟨is', outs, his', houts, hsum⟩ := reconcile_spec hcreate hs
  obtain rfl : is = is' := Except.ok.inj (his.symm.trans his')
  rw [hsum.items] at hl
  obtain ⟨out, hout, hl⟩ := List.mem_flatMap.mp hl
  obtain ⟨p, hp, hpout⟩ := exists_of_forall₂_right (mapM_eq_ok.mp houts) hout
  obtain ⟨hi, hb⟩ := mem_schedule.mp hp
  obtain ⟨x, hx⟩ := hgoverns p.1 hi p.2 hb
  obtain ⟨types, htypes⟩ := exists_billsUnitTypes hcreate his hi hb
  have hfor := Interval.forBucket_of_outcome (subscription_of_mem_schedule hcreate his hp) hpout l hl
  obtain ⟨billed, types', -, hgoverning, hcases⟩ := Interval.reconcileBucket_eq_ok.mp hpout
  obtain rfl : types = types' := Except.ok.inj (htypes.governing.symm.trans hgoverning)
  rcases hcases with ⟨-, rfl⟩ | ⟨-, rolled, lines, hrolled, hlines, rfl⟩
  · cases hl
  · obtain ⟨htakes, htype⟩ := Interval.takesFrom_of_bucketLines hx.lastReached.recorded hlines l hl
    refine ⟨p.1, hi, p.2, hb, x, types, hx, htypes, hfor, htakes, fun u hu => ?_⟩
    have hcounted := htype u hu
    rwa [RolledUsage.map_fst_amounts hrolled, UnitTypes.mem_ofList] at hcounted

namespace Sample

open UsageBilling.Interval.Sample (firstDay endDay)

/-- A section that prices calls and texts. -/
def bundle : Usage where
  name := "bundle"
  billingMode := .inArrear
  pricing := .consumable
  period := .monthly
  tiers := [⟨[⟨"calls", .ofNat 1, .ofNat 2, none⟩, ⟨"texts", .ofNat 1, .ofNat 3, none⟩], [], none⟩]

/-- A subscription that gives up the bundle for the section of calls on the twentieth of February 2022. -/
def reduction : List BillingEvent := [event firstDay [bundle], event endDay [calls]]

end Sample

/-- The bucket that ends on the change of sections bills the calls only. -/
theorem buckets_governed_reduction :
    create (Sample.request Sample.reduction [] Interval.Sample.endDay) (some Sample.settings) (.ok Sample.settings) =
        .ok (Sample.run Sample.reduction [] Interval.Sample.endDay) ∧
      ∃ is, (Sample.run Sample.reduction [] Interval.Sample.endDay).intervals = .ok is ∧
        is.map (fun i => i.buckets.map i.governingUnitTypes) = [[.ok ["calls", "texts"], .ok ["calls"]], []] ∧
        ∀ i ∈ is, ∀ b ∈ i.buckets, (∃ x, i.Governs b x) ∧ ∃ types, i.BillsUnitTypes is b types := by
  have hcreate : create (Sample.request Sample.reduction [] Interval.Sample.endDay) (some Sample.settings)
      (.ok Sample.settings) = .ok (Sample.run Sample.reduction [] Interval.Sample.endDay) := by decide +kernel
  have hbilled : (Sample.run Sample.reduction [] Interval.Sample.endDay).intervals.map
      (fun is => is.map fun i => i.buckets.map i.governingUnitTypes) =
      .ok [[.ok ["calls", "texts"], .ok ["calls"]], []] := by decide +kernel
  cases his : (Sample.run Sample.reduction [] Interval.Sample.endDay).intervals with
  | error e =>
      rw [his] at hbilled
      cases hbilled
  | ok is =>
      rw [his] at hbilled
      exact ⟨hcreate, is, rfl, Except.ok.inj hbilled, (buckets_governed hcreate his).1⟩

end Run
end UsageBilling
