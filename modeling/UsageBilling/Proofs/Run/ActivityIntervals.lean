import UsageBilling.Proofs.Interval.Targets
import UsageBilling.Proofs.Run.Acceptance
import UsageBilling.Proofs.Timeline.Walk

/-! The intervals of a run are its maximal activity runs. Each interval records one of them, with the
event that ends it (`Interval.Records`), and the intervals stand in the order of the ends of their
runs; all along the walk the open keys are those of the last event (`Run.intervals_maximal`). -/

namespace UsageBilling

/-- A block of consecutive places at which a key is active, and neither just before nor just after. -/
structure IsMaximalBlock (events : List BillingEvent) (k : UsageKey.Identity) (first last : Nat) :
    Prop where
  first_le_last : first ≤ last
  active : ∀ m, first ≤ m → m ≤ last → ActiveAt events k m
  not_active_before : ∀ m, m + 1 = first → ¬ ActiveAt events k m
  not_active_after : ¬ ActiveAt events k (last + 1)

/-- An interval records a run: its events are those of the run and the one that ends it, and it is
closed when there is such an event. -/
structure Interval.Records (timeline : List BillingEvent) (i : Interval) (ρ : ActivityRun) : Prop where
  usage : i.usage = ρ.usage
  key : ∃ key, i.key = .ok key ∧ key.identity? = .ok ρ.identity
  events : i.events.map (fun x => (x.event, x.place)) = (timeline.zipIdx.take (ρ.last + 2)).drop ρ.first
  stage : i.stage = if ρ.last + 1 < timeline.length then .closed else .active

section

variable {events : List BillingEvent} {ρ : ActivityRun}

/-- A maximal block of a key is that of one run: the first section of the name at its first event. -/
theorem IsMaximalBlock.existsUnique_run {k : UsageKey.Identity} {first last : Nat}
    (h : IsMaximalBlock events k first last) :
    ∃! ρ, IsMaximalRun events ρ ∧ ρ.identity = k ∧ ρ.first = first ∧ ρ.last = last := by
  obtain ⟨e, he, ha⟩ := h.active first (Nat.le_refl _) h.first_le_last
  obtain ⟨u, hu, rfl⟩ := BillingEvent.activates_iff.mp ha
  refine ⟨⟨u, e.catalogVersion, first, last⟩, ⟨⟨⟨e, he, rfl, BillingEvent.mem_sections.mp hu⟩,
    h.first_le_last, h.active, h.not_active_before, h.not_active_after⟩, rfl, rfl, rfl⟩, ?_⟩
  rintro ⟨u', version, first', last'⟩ ⟨hrun, hid, rfl, rfl⟩
  obtain ⟨e', he', hversion, hsection⟩ := hrun.opened
  obtain rfl : e = e' := Option.some.inj (he.symm.trans he')
  have hname : u'.name = u.name := congrArg UsageKey.Identity.usageName hid
  dsimp only at hversion hsection
  rw [hname, BillingEvent.mem_sections.mp hu, Option.some.injEq] at hsection
  rw [hsection, hversion]

theorem recorded_events (h : IsMaximalRun events ρ) :
    (ρ.recorded events).map (fun x => (x.event, x.place)) =
      (events.zipIdx.take (ρ.last + 2)).drop ρ.first := by
  have hfirst := h.first_le_last
  have hlast := h.last_lt
  have hmarked : (marked events).map (fun x => (x.event, x.place)) = events.zipIdx := by
    rw [marked, List.map_map]
    exact List.map_id _
  have hclosing : ((events[ρ.last + 1]?.map (closingMark (events.take (ρ.last + 1)))).toList).map
      (fun x => (x.event, x.place)) = (events.zipIdx[ρ.last + 1]?).toList := by
    rw [List.getElem?_zipIdx]
    cases hclose : events[ρ.last + 1]? with
    | none => rfl
    | some e =>
        have hlen := (List.getElem?_eq_some_iff.mp hclose).1
        simp only [Option.map_some, Option.toList_some, List.map_cons, List.map_nil, closingMark,
          List.length_take]
        rw [Nat.min_eq_left (by omega), Nat.zero_add]
  have htake : events.zipIdx.take (ρ.last + 2) =
      events.zipIdx.take (ρ.last + 1) ++ (events.zipIdx[ρ.last + 1]?).toList := List.take_add_one
  rw [ActivityRun.recorded, List.map_append, List.map_drop, List.map_take, hmarked, hclosing, htake,
    List.drop_append_of_le_length]
  rw [List.length_take, List.length_zipIdx]
  omega

/-- The built interval of a maximal run records it. -/
theorem records_of_built {terms : Terms} {i : Interval} (hrun : IsMaximalRun events ρ)
    (hshown : ∀ e ∈ events, e.KeysShown) (h : ρ.built terms events = .ok i) : i.Records events ρ := by
  obtain ⟨-, -, buckets, next, -, -, rfl⟩ := Interval.built_eq_ok.mp h
  obtain ⟨e, he, hversion, hsection⟩ := hrun.opened
  refine ⟨rfl, ⟨ρ.key, ?_, ?_⟩, recorded_events hrun, ?_⟩
  · rw [Interval.key, Interval.firstEvent]
    dsimp only [Interval.frozen, ActivityRun.interval, Interval.accumulating]
    rw [head?_recorded hrun he]
    exact congrArg (fun v => Except.ok (UsageKey.mk ρ.usage.name v)) hversion
  · obtain ⟨t, ht⟩ := hshown e (List.mem_of_getElem? he)
      (List.ne_nil_of_mem (BillingEvent.mem_sections.mpr hsection))
    rw [hversion] at ht
    exact UsageKey.identity?_eq_ok ht
  · by_cases hclosed : ρ.last + 1 < events.length
    · simp [Interval.frozen, hclosed]
    · simp [Interval.frozen, hclosed]

end

namespace Timeline

/-- The keys open after some events are those active at the last one. -/
theorem mem_openKeys_iff (terms : Terms) (past : List BillingEvent) (built : List Interval)
    (k : UsageKey.Identity) : k ∈ (walkAfter terms past built).arena.places.map (·.identity) ↔
      ∃ e, past.getLast? = some e ∧ e.Activates k := by
  rw [walkAfter, List.map_map, List.mem_map]
  rcases List.eq_nil_or_concat past with rfl | ⟨before, e, rfl⟩
  · simp [runProgress]
  · rw [List.concat_eq_append]
    refine (exists_mem_ongoing_iff before e k).trans ?_
    simp

theorem openNames_nodup (terms : Terms) (past : List BillingEvent) (built : List Interval) :
    ((walkAfter terms past built).arena.places.map (·.identity.usageName)).Nodup := by
  have hkeys := List.pairwise_map.mp (places_identity_nodup terms past)
  refine List.pairwise_map.mpr (hkeys.imp_of_mem fun {p q} hp hq hne hname => hne ?_)
  obtain ⟨e, he, hpe⟩ := (mem_openKeys_iff terms past built _).mp (List.mem_map_of_mem hp)
  obtain ⟨e', he', hqe⟩ := (mem_openKeys_iff terms past built _).mp (List.mem_map_of_mem hq)
  obtain rfl : e = e' := Option.some.inj (he.symm.trans he')
  have hutc : p.identity.utc = q.identity.utc := hpe.version.symm.trans hqe.version
  generalize p.identity = k, q.identity = k' at hname hutc
  obtain ⟨name, utc⟩ := k
  obtain ⟨name', utc'⟩ := k'
  rw [show name = name' from hname, show utc = utc' from hutc]

end Timeline

namespace Run

/-! ### A sample subscription -/

namespace Sample

open UsageBilling.Interval.Sample (firstDay endDay usageStart)

def calls : Usage where
  name := "api"
  billingMode := .inArrear
  pricing := .consumable
  period := .monthly
  tiers := [⟨[⟨"calls", .ofNat 1, .ofNat 2, none⟩], [], none⟩]

def event (day : Date) (usages : List Usage) : BillingEvent where
  subscriptionId := "subscription"
  effective := ⟨day, 0, some 0⟩
  catalogVersion := ⟨firstDay, 0, some 0⟩
  cycleDay := 1
  planName := "plan"
  phaseName := "phase"
  currency := "USD"
  usages

/-- The start of the subscription on the first of January 2022. -/
def opening : BillingEvent := event firstDay [calls]

/-- A cancellation on the twentieth of February 2022. -/
def cancellation : BillingEvent := event endDay []

def settings : Settings := ⟨"test", "billing", "info", "json", .aggregate, false, "UTC", .utc⟩

def request (events : List BillingEvent) (rawUsage : List RawUsage) (target : Date) : RunRequest where
  accountId := "account"
  invoiceId := "invoice"
  events
  rawUsage
  existingTrackingIds := []
  target
  rawUsageStart := usageStart
  detailMode := none

/-- The run of a request, given its records in their order. -/
def run (events : List BillingEvent) (rawUsage : List RawUsage) (target : Date) : Run where
  subscriptionId := "subscription"
  events
  terms := {
    accountId := "account"
    invoiceId := "invoice"
    rawUsage
    existingTrackingIds := []
    target
    rawUsageStart := usageStart
    detailMode := .aggregate
    zeroAmountDisabled := false
    zone := .utc }

def midJanuary : Date := ⟨738170, by decide, by decide⟩

def february : Date := ⟨738187, by decide, by decide⟩

def april : Date := ⟨738246, by decide, by decide⟩

/-- Five calls on the tenth of January 2022. -/
def report : RawUsage where
  subscriptionId := "subscription"
  unitType := "calls"
  date := ⟨738165, by decide, by decide⟩
  amount := .ofNat 5
  trackingId := "tracking"
  recordId := 1

/-- The interval of a subscription that is cancelled, up to April. -/
def cancelled : Interval where
  usage := calls
  terms := (run [] [] april).terms
  events := [⟨0, opening, some ["calls"]⟩, ⟨1, cancellation, some ["calls"]⟩]
  stage := .closed
  buckets := [
    ⟨firstDay, february, 0, firstDay⟩,
    ⟨february, endDay, 0, february⟩]
  nextNotification := none

end Sample

/-! ### The intervals of a run -/

/-- The built intervals of a run record its maximal activity runs, one each, in the order of their ends
and then of their starts. After each event of the walk, exactly the keys of that event are open. -/
theorem intervals_maximal {request : RunRequest} {given : Option Settings} {inUse : Except Error Settings}
    {run : Run} {is : List Interval} (hcreate : create request given inUse = .ok run)
    (his : run.intervals = .ok is) :
    (∃ runs : List ActivityRun, List.Forall₂ (Interval.Records run.events) is runs ∧
      (∀ ρ, ρ ∈ runs ↔ IsMaximalRun run.events ρ) ∧
      (∀ k first last, IsMaximalBlock run.events k first last →
        ∃! ρ, ρ ∈ runs ∧ ρ.identity = k ∧ ρ.first = first ∧ ρ.last = last) ∧
      runs.Nodup ∧ runs.Pairwise (EndsBefore run.events)) ∧
    ∀ past rest, run.events = past ++ rest →
      ∃ w, Timeline.walk run.terms ⟨.empty, []⟩ 0 past = .ok w ∧
        (w.arena.places.map (·.identity.usageName)).Nodup ∧
        ∀ k, k ∈ w.arena.places.map (·.identity) ↔ ∃ e, past.getLast? = some e ∧ e.Activates k := by
  have hsame := same_subscription hcreate
  obtain ⟨hshown, hbuilt⟩ := (Timeline.intervals_eq_ok hsame).mp his
  constructor
  · refine ⟨activityRuns run.events, ?_, fun ρ => mem_activityRuns_iff, fun k first last hblock => ?_,
      activityRuns_nodup run.events, activityRuns_sorted run.events⟩
    · have hrecords := (List.forall₂_and_left _ _).mpr
        ⟨fun ρ hρ => mem_activityRuns_iff.mp hρ, mapM_eq_ok.mp hbuilt⟩
      exact (hrecords.imp fun ρ i h => records_of_built h.1 hshown h.2).flip
    · simpa only [mem_activityRuns_iff] using hblock.existsUnique_run
  · intro past rest hevents
    obtain ⟨w, hw, -⟩ := bind_eq_ok.mp his
    rw [hevents, Timeline.walk_append] at hw
    obtain ⟨w', hw', -⟩ := bind_eq_ok.mp hw
    have hpast : ∀ x ∈ past, ∀ y ∈ past, x.subscriptionId = y.subscriptionId := fun x hx y hy =>
      hsame x (hevents ▸ List.mem_append_left rest hx) y (hevents ▸ List.mem_append_left rest hy)
    obtain ⟨-, built, -, rfl⟩ := (Timeline.walk_eq_ok hpast).mp hw'
    exact ⟨_, hw', Timeline.openNames_nodup run.terms past built,
      Timeline.mem_openKeys_iff run.terms past built⟩

theorem intervals_maximal_cancelled :
    create (Sample.request [Sample.opening, Sample.cancellation] [] Sample.april) (some Sample.settings)
        (.ok Sample.settings) = .ok (Sample.run [Sample.opening, Sample.cancellation] [] Sample.april) ∧
      (Sample.run [Sample.opening, Sample.cancellation] [] Sample.april).intervals = .ok [Sample.cancelled] ∧
      ∃ runs : List ActivityRun, List.Forall₂
          (Interval.Records [Sample.opening, Sample.cancellation]) [Sample.cancelled] runs ∧
        ∀ ρ, ρ ∈ runs ↔ IsMaximalRun [Sample.opening, Sample.cancellation] ρ := by
  have hcreate : create (Sample.request [Sample.opening, Sample.cancellation] [] Sample.april)
      (some Sample.settings) (.ok Sample.settings) =
      .ok (Sample.run [Sample.opening, Sample.cancellation] [] Sample.april) := by decide +kernel
  have hintervals : (Sample.run [Sample.opening, Sample.cancellation] [] Sample.april).intervals =
      .ok [Sample.cancelled] := by decide +kernel
  obtain ⟨runs, hrecords, hmem, -⟩ := (intervals_maximal hcreate hintervals).1
  exact ⟨hcreate, hintervals, runs, hrecords, hmem⟩

end Run
end UsageBilling
