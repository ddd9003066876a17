import UsageBilling.Proofs.Run.Revision
import UsageBilling.Proofs.Timeline.SameInstants

/-! Runs over the same instants. How the instants of the events are written has no part in what a run gives: a request
whose instants are written with other offsets is accepted as the request is, its intervals have the same keys, unit
types and buckets, and it bills the same, apart from how the lines write the catalog version (`Run.offsets_neutral`). -/

namespace UsageBilling

/-! ### Intervals -/

/-- What two intervals are billed for is the same, apart from how the lines write the catalog version. -/
structure Reconciliation.Same (r r' : Reconciliation InvoiceLine) : Prop where
  items : List.Forall₂ (InvoiceLine.SameBut Instant.Same) r.items r'.items
  nextNotification : r.nextNotification = r'.nextNotification
  trackingIds : r.trackingIds = r'.trackingIds

theorem Interval.Same.reconcile {i j : Interval} (h : i.Same j) (existing : List InvoiceItem) :
    Corresponds Reconciliation.Same (i.reconcile existing).result (j.reconcile existing).result := by
  rw [reconcile_result, reconcile_result, h.isBuilt_eq, h.subscriptionId_eq, h.buckets, h.nextNotification, h.usage]
  cases j.isBuilt with
  | false => exact .error _
  | true =>
      apply Corresponds.bind_same j.subscriptionId
      intro subscriptionId
      apply Corresponds.bind (R := List.Forall₂ (Run.AddsAlike Instant.Same))
      · apply Corresponds.mapM
        rw [List.forall₂_same]
        intro b _
        exact Run.outcome_alike (h.billsAlike b) subscriptionId existing
      · intro outs outs' houts
        exact .ok {
          items := List.rel_flatMap houts fun _ _ hout => hout.1
          nextNotification := rfl
          trackingIds := TrackingId.collect_congr (houts.imp fun _ _ hout => hout.2) [] }

/-- What is told of two intervals is the same. Their keys are equal, though the versions in them may be written
otherwise. -/
structure Interval.Agrees (i j : Interval) : Prop where
  key : ∃ k k', i.key = .ok k ∧ j.key = .ok k' ∧ k.same? k' = .ok true
  usage : i.usage = j.usage
  closed : i.isClosed = j.isClosed
  dates : i.startDate = j.startDate ∧ i.endDate = j.endDate
  seenUnitTypes : ∀ position, i.seenUnitTypes position = j.seenUnitTypes position
  buckets : i.buckets = j.buckets
  nextNotification : i.nextNotification = j.nextNotification

/-- Keys of one name in versions that are the same instant are equal, once UTC can show the version. -/
theorem UsageKey.same?_of_same {k k' : UsageKey} (hname : k.usageName = k'.usageName) (h : k.version.Same k'.version)
    {identity : Identity} (hk : k.identity? = .ok identity) : k.same? k' = .ok true := by
  obtain ⟨t, ht, -⟩ := bind_eq_ok.mp hk
  rw [same?, if_pos hname, ← h.utc?_eq, ht]
  exact congrArg Except.ok (beq_self_eq_true t)

theorem Interval.Same.agrees {i j : Interval} (h : i.Same j) {k : UsageKey} (hkey : i.key = .ok k)
    {identity : UsageKey.Identity} (hidentity : k.identity? = .ok identity) : i.Agrees j := by
  obtain ⟨k', hkey', hname, hversion⟩ := h.key_corresponds.exists_ok hkey
  exact {
    key := ⟨k, k', hkey, hkey', UsageKey.same?_of_same hname hversion hidentity⟩
    usage := h.usage
    closed := h.isClosed_eq
    dates := ⟨h.sameDates.startDate_eq, h.sameDates.endDate_eq⟩
    seenUnitTypes := h.seenUnitTypes_eq
    buckets := h.buckets
    nextNotification := h.nextNotification }

/-! ### Runs -/

/-- One request with the instants of its events written in two ways. -/
structure RunRequest.Same (r r' : RunRequest) : Prop where
  events : List.Forall₂ BillingEvent.Same r.events r'.events
  rest : r' = { r with events := r'.events }

/-- Two runs give the same, apart from how the lines write the catalog version. -/
structure Summary.Same (s s' : Summary InvoiceLine) : Prop where
  items : List.Forall₂ (InvoiceLine.SameBut Instant.Same) s.items s'.items
  notificationDates : s.notificationDates = s'.notificationDates
  trackingIds : s.trackingIds = s'.trackingIds

namespace Run

variable {request request' : RunRequest} {given : Option Settings} {inUse : Except Error Settings} {run run' : Run}
  {existing : List InvoiceItem}

theorem addInterval_same {i j : Interval} (h : i.Same j) {s s' : Summary InvoiceLine} (hs : s.Same s') :
    Corresponds Summary.Same (addInterval existing s i).result (addInterval existing s' j).result := by
  rw [addInterval_result, addInterval_result]
  apply (h.reconcile existing).bind
  intro r r' hr
  apply h.key_corresponds.bind
  intro _ _ _
  exact .ok {
    items := List.rel_append hs.items hr.items
    notificationDates := by rw [hs.notificationDates, hr.nextNotification, h.usage]
    trackingIds := by rw [hs.trackingIds, hr.trackingIds] }

/-- Runs with the same intervals give the same, or fail in the same way. -/
theorem reconcile_same {is js : List Interval} (his : run.intervals = .ok is) (hjs : run'.intervals = .ok js)
    (h : List.Forall₂ Interval.Same is js) (existing : List InvoiceItem) :
    Corresponds Summary.Same (run.reconcile existing).result (run'.reconcile existing).result := by
  rw [reconcile_result, reconcile_result, his, hjs, ok_bind, ok_bind]
  apply Corresponds.foldlM
  · apply h.imp
    intro i j hij s s' hs
    exact addInterval_same hij hs
  · exact ⟨.nil, rfl, rfl⟩

/-- A request is accepted however the instants of its events are written, as long as all effective instants have an
offset or none of them has. -/
theorem create_same (hcreate : create request given inUse = .ok run) (h : request.Same request') {aware : Bool}
    (halike : ∀ e ∈ request'.events, e.effective.offset.isSome = aware) :
    create request' given inUse = .ok { run with events := request'.events } := by
  obtain ⟨hid, hsorted, hevents, settings, hsettings, hterms⟩ := create_eq_ok.mp hcreate
  refine create_eq_ok.mpr ⟨?_, ?_, rfl, settings, hsettings, ?_⟩
  · have hids : request.events.map (·.subscriptionId) = request'.events.map (·.subscriptionId) := by
      rw [map_eq_map_iff_forall₂]
      exact h.events.imp fun _ _ he => he.subscriptionId_eq
    rw [subscriptionOf, ← hids]
    exact hid
  · apply checkSorted_of_sorted halike
    apply pairwise_of_forall₂ h.events _ (sorted_of_checkSorted hsorted)
    intro a b a' b' hab hab' hle
    rw [← hab.effective, ← hab'.effective]
    exact hle
  · rw [hterms, h.rest]
    rfl

theorem key_of_mem_intervals (hcreate : create request given inUse = .ok run) {is : List Interval}
    (his : run.intervals = .ok is) {i : Interval} (hi : i ∈ is) :
    ∃ k identity, i.key = .ok k ∧ k.identity? = .ok identity := by
  obtain ⟨hshown, hbuilt⟩ := (Timeline.intervals_eq_ok (same_subscription hcreate)).mp his
  obtain ⟨ρ, hρ, hi⟩ := exists_of_forall₂_right (mapM_eq_ok.mp hbuilt) hi
  obtain ⟨k, hk, hidentity⟩ := (records_of_built (mem_activityRuns_iff.mp hρ) hshown hi).key
  exact ⟨k, ρ.identity, hk, hidentity⟩

theorem intervals_same (hone : ∀ x ∈ run.events, ∀ y ∈ run.events, x.subscriptionId = y.subscriptionId)
    (hterms : run'.terms = run.terms) (h : List.Forall₂ BillingEvent.Same run.events run'.events) {is : List Interval}
    (his : run.intervals = .ok is) : ∃ js, run'.intervals = .ok js ∧ List.Forall₂ Interval.Same is js := by
  rw [intervals, hterms]
  exact Timeline.intervals_sameInstants h hone his

/-- How the instants of the events are written has no part in a run. Written otherwise, the events are accepted, the
intervals agree, and what remains to be billed is the same, apart from how the lines write the catalog version. -/
theorem offsets_neutral (hcreate : create request given inUse = .ok run) (h : request.Same request') {aware : Bool}
    (halike : ∀ e ∈ request'.events, e.effective.offset.isSome = aware) :
    ∃ run', create request' given inUse = .ok run' ∧ run'.intervals.isOk = run.intervals.isOk ∧
      (∀ is js, run.intervals = .ok is → run'.intervals = .ok js → List.Forall₂ Interval.Agrees is js) ∧
      ∀ existing, (run'.reconcile existing).result.isOk = (run.reconcile existing).result.isOk ∧
        ∀ s s', (run.reconcile existing).result = .ok s → (run'.reconcile existing).result = .ok s' → s.Same s' := by
  obtain ⟨run', hcreate', hterms, hevents'⟩ : ∃ run', create request' given inUse = .ok run' ∧
      run'.terms = run.terms ∧ run'.events = request'.events := ⟨_, create_same hcreate h halike, rfl, rfl⟩
  have hsame : List.Forall₂ BillingEvent.Same run.events run'.events := by
    rw [(create_eq_ok.mp hcreate).2.2.1, hevents']
    exact h.events
  refine ⟨run', hcreate', ?_⟩
  cases his : run.intervals with
  | ok is =>
      obtain ⟨js, hjs, hintervals⟩ := intervals_same (same_subscription hcreate) hterms hsame his
      rw [hjs]
      refine ⟨rfl, ?_, fun existing => ?_⟩
      · rintro _ _ ⟨⟩ ⟨⟩
        apply ((List.forall₂_and_left _ _).mpr ⟨fun i hi => hi, hintervals⟩).imp
        rintro i j ⟨hi, hij⟩
        obtain ⟨k, identity, hkey, hidentity⟩ := key_of_mem_intervals hcreate his hi
        exact hij.agrees hkey hidentity
      · have hreconcile := reconcile_same his hjs hintervals existing
        exact ⟨hreconcile.isOk_eq.symm, fun s s' => hreconcile.related⟩
  | error fault =>
      -- Had the other run intervals, this one would have them too: its instants are the same once more.
      cases hjs : run'.intervals with
      | ok js =>
          have hback := hsame.flip.imp fun _ _ he => he.symm
          obtain ⟨is, hint, -⟩ := intervals_same (same_subscription hcreate') hterms.symm hback hjs
          cases his.symm.trans hint
      | error fault' =>
          refine ⟨rfl, nofun, fun existing => ?_⟩
          rw [reconcile_result, reconcile_result, his, hjs]
          exact ⟨rfl, nofun⟩

/-- The start of the sample subscription as it is written five hours east of UTC, in a catalog version that is written
without an offset. -/
def Sample.openingEast : BillingEvent :=
  { Sample.opening with
    effective := ⟨Sample.opening.effective.date, 18000000000, some 18000⟩
    catalogVersion := ⟨Sample.opening.catalogVersion.date, 0, none⟩ }

/-- The sample subscription is billed the same when its start is written with another offset: there is one line, for
the five calls on record. -/
theorem offsets_neutral_east : ∃ run' s s',
    create (Sample.request [Sample.openingEast] [Sample.report] Sample.february) (some Sample.settings)
      (.ok Sample.settings) = .ok run' ∧
    ((Sample.run [Sample.opening] [Sample.report] Sample.february).reconcile []).result = .ok s ∧
    (run'.reconcile []).result = .ok s' ∧ s.Same s' ∧ s.items.length = 1 := by
  have hcreate : create (Sample.request [Sample.opening] [Sample.report] Sample.february) (some Sample.settings)
      (.ok Sample.settings) = .ok (Sample.run [Sample.opening] [Sample.report] Sample.february) := by decide +kernel
  have hsame : (Sample.request [Sample.opening] [Sample.report] Sample.february).Same
      (Sample.request [Sample.openingEast] [Sample.report] Sample.february) :=
    ⟨.cons ⟨by decide, by decide, rfl⟩ .nil, rfl⟩
  have halike : ∀ e ∈ (Sample.request [Sample.openingEast] [Sample.report] Sample.february).events,
      e.effective.offset.isSome = true := by decide
  have hone : ((Sample.run [Sample.opening] [Sample.report] Sample.february).reconcile []).result.map
      (·.items.length) = .ok 1 := by decide +kernel
  obtain ⟨run', hcreate', -, -, hreconcile⟩ := offsets_neutral hcreate hsame halike
  obtain ⟨hisOk, hgives⟩ := hreconcile []
  cases hs : ((Sample.run [Sample.opening] [Sample.report] Sample.february).reconcile []).result with
  | error e =>
      rw [hs] at hone
      cases hone
  | ok s =>
      rw [hs] at hone hisOk
      obtain ⟨s', hs'⟩ := exists_ok_of_isOk hisOk
      exact ⟨run', s, s', hcreate', rfl, hs', hgives s s' hs hs', Except.ok.inj hone⟩

end Run
end UsageBilling
