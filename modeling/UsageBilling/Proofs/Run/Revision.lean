import UsageBilling.Proofs.Interval.Division
import UsageBilling.Proofs.Run.Notification
import UsageBilling.Proofs.Timeline.SingleSection

/-! A revision of the catalog on a cycle date. The timeline carries one section all along, and from one of its events
on it stands in another catalog version (`Revision`). The one interval of the timeline gives way to two
(`Revision.divides`). Where the event lies on a cycle date, the buckets of the two are billed as those of the one, so
that both runs succeed or fail together and bill the same (`Run.revision_neutral`). -/

namespace UsageBilling

/-- The events of a timeline, in another catalog version from a place on. -/
def revisedFrom (version : Instant) (place : Nat) (events : List BillingEvent) : List BillingEvent :=
  events.take place ++ (events.drop place).map (·.revised version)

def RunRequest.revisedFrom (version : Instant) (place : Nat) (r : RunRequest) : RunRequest :=
  { r with events := UsageBilling.revisedFrom version place r.events }

theorem map_revisedFrom {α : Type} {f : BillingEvent → α} {version : Instant} (hf : ∀ e, f (e.revised version) = f e)
    (place : Nat) (events : List BillingEvent) : (revisedFrom version place events).map f = events.map f := by
  have hsame : (f ∘ fun e : BillingEvent => e.revised version) = f := funext hf
  rw [revisedFrom, List.map_append, List.map_map, hsame, ← List.map_append, List.take_append_drop]

namespace Run

/-- Whether events are in order depends on their instants only. -/
theorem checkSorted_congr {xs ys : List BillingEvent} (h : xs.map (·.effective) = ys.map (·.effective)) :
    checkSorted xs = checkSorted ys := by
  induction xs generalizing ys with
  | nil =>
      rw [List.map_eq_nil_iff.mp h.symm]
  | cons a xs ih =>
      cases ys with
      | nil => cases h
      | cons c ys =>
          obtain ⟨hac, h⟩ := List.cons.inj h
          cases xs with
          | nil =>
              rw [List.map_eq_nil_iff.mp h.symm]
              rfl
          | cons b xs =>
              cases ys with
              | nil => cases h
              | cons d ys =>
                  have hbd : b.effective = d.effective := (List.cons.inj h).1
                  dsimp only at hac
                  rw [checkSorted, checkSorted, hac, hbd, ih h]

/-- A revised request is accepted as the request is. -/
theorem create_revisedFrom {request : RunRequest} {given : Option Settings} {inUse : Except Error Settings} {run : Run}
    (version : Instant) (place : Nat) (h : create request given inUse = .ok run) :
    create (request.revisedFrom version place) given inUse =
      .ok { run with events := UsageBilling.revisedFrom version place run.events } := by
  obtain ⟨hid, hsorted, hevents, settings, hsettings, hterms⟩ := create_eq_ok.mp h
  refine create_eq_ok.mpr ⟨?_, ?_, ?_, settings, hsettings, hterms⟩
  · rw [← hid, subscriptionOf, subscriptionOf]
    dsimp only [RunRequest.revisedFrom]
    rw [map_revisedFrom (fun _ => rfl)]
  · rw [← hsorted]
    exact checkSorted_congr (map_revisedFrom (fun _ => rfl) place request.events)
  · rw [hevents]
    rfl

end Run

/-! ### Intervals of runs -/

namespace ActivityRun

variable {terms : Terms} {events : List BillingEvent} {ρ : ActivityRun}

theorem map_event_recorded (h : IsMaximalRun events ρ) :
    (ρ.recorded events).map (·.event) = (events.take (ρ.last + 2)).drop ρ.first := by
  have hpairs := congrArg (List.map Prod.fst) (recorded_events h)
  rw [List.map_map, List.map_drop, List.map_take, List.zipIdx_map_fst] at hpairs
  exact hpairs

/-- The interval of a run can be built where all events have dates and the target lies before the last year. -/
theorem exists_built_of_dated (h : IsMaximalRun events ρ) {e : BillingEvent} (he : events[ρ.first]? = some e)
    (hdated : ∀ e ∈ events, ∃ d, terms.zone.localDate e.effective = .ok d) {start : Date}
    (hstart : terms.zone.localDate e.effective = .ok start)
    (hcycle : ∃ d, BillingCycle.date start e.cycleDay ρ.usage.period 0 = .ok d) (htarget : terms.target.year < 9999) :
    ∃ i, ρ.built terms events = .ok i := by
  have hfirst : (ρ.interval terms events).firstEvent = .ok e := by
    have hhead : (ρ.interval terms events).events.head? = _ := head?_recorded h he
    rw [Interval.firstEvent, hhead]
  have hdates : ∃ ds, ((ρ.interval terms events).events.map (·.event)).mapM (ρ.interval terms events).dateOf =
      .ok ds := by
    apply exists_mapM_eq_ok
    intro x hx
    have hx : x ∈ (events.take (ρ.last + 2)).drop ρ.first := map_event_recorded h ▸ hx
    obtain ⟨d, hd⟩ := hdated x (List.mem_of_mem_take (List.mem_of_mem_drop hx))
    exact ⟨d, liftM_calendar_eq_ok.mpr hd⟩
  obtain ⟨ds, hds⟩ := hdates
  exact Interval.exists_built _ rfl hfirst (liftM_calendar_eq_ok.mpr hstart) hds hcycle htarget

end ActivityRun

/-- A timeline that carries one section all along and is revised from one of its events on. The event, `bump`, lies
on a cycle date of the first one, and all dates and the target come before the last year. -/
structure Revision (terms : Terms) (u : Usage) (version : Instant) (opening : BillingEvent)
    (before : List BillingEvent) (bump : BillingEvent) (after : List BillingEvent) (b : Date) : Prop where
  single : CarriesOnly u ((opening :: before) ++ bump :: after)
  sameVersion : ∀ e ∈ before ++ bump :: after, e.catalogVersion.utc = opening.catalogVersion.utc
  otherVersion : version.utc ≠ opening.catalogVersion.utc
  dated : ∀ e ∈ (opening :: before) ++ bump :: after, ∃ d, terms.zone.localDate e.effective = .ok d
  bumped : terms.zone.localDate bump.effective = .ok b
  later : ∀ e ∈ after, ∀ d, terms.zone.localDate e.effective = .ok d → b ≤ d
  cycle : ∃ start m, terms.zone.localDate opening.effective = .ok start ∧
    BillingCycle.date start opening.cycleDay u.period m = .ok b ∧ bump.cycleDay = opening.cycleDay
  year : b.year < 9999
  target : terms.target.year < 9999

namespace Revision

variable {terms : Terms} {u : Usage} {version : Instant} {opening bump : BillingEvent}
  {before after : List BillingEvent} {b : Date}

theorem single_revised (h : Revision terms u version opening before bump after b) :
    CarriesOnly u ((opening :: before) ++ (bump :: after).map (·.revised version)) := by
  intro e he
  rcases List.mem_append.mp he with he | he
  · exact h.single e (List.mem_append_left _ he)
  · obtain ⟨x, hx, rfl⟩ := List.mem_map.mp he
    exact h.single x (List.mem_append_right _ hx)

theorem dated_revised (h : Revision terms u version opening before bump after b) :
    ∀ e ∈ (opening :: before) ++ (bump :: after).map (·.revised version),
      ∃ d, terms.zone.localDate e.effective = .ok d := by
  intro e he
  rcases List.mem_append.mp he with he | he
  · exact h.dated e (List.mem_append_left _ he)
  · obtain ⟨x, hx, rfl⟩ := List.mem_map.mp he
    exact h.dated x (List.mem_append_right _ hx)

theorem runs (h : Revision terms u version opening before bump after b) :
    activityRuns ((opening :: before) ++ bump :: after) =
      [⟨u, opening.catalogVersion, 0, before.length + 1 + after.length⟩] := by
  have hruns : activityRuns (opening :: (before ++ bump :: after)) = _ := activityRuns_same h.single h.sameVersion
  rw [List.cons_append, hruns, List.length_append, List.length_cons, Nat.add_right_comm, ← Nat.add_assoc]

/-- After the revision there are two, which meet at the event. -/
theorem runs_revised (h : Revision terms u version opening before bump after b) :
    activityRuns ((opening :: before) ++ (bump :: after).map (·.revised version)) =
      [⟨u, opening.catalogVersion, 0, before.length⟩,
        ⟨u, version, before.length + 1, before.length + 1 + after.length⟩] := by
  obtain ⟨hbefore, -⟩ := List.forall_mem_append.mp h.sameVersion
  have hafter : ∀ e ∈ after.map (·.revised version), e.catalogVersion.utc = version.utc := by
    intro e he
    obtain ⟨x, -, rfl⟩ := List.mem_map.mp he
    rfl
  have hruns : activityRuns ((opening :: before) ++ bump.revised version :: after.map (·.revised version)) = _ :=
    activityRuns_revised h.single_revised hbefore h.otherVersion hafter
  rw [List.length_map] at hruns
  exact hruns

/-- Where the new version is shown in UTC, all keys of the revised timeline are shown just when those of the timeline
are. -/
theorem keysShown_iff (h : Revision terms u version opening before bump after b)
    (hversion : ∃ utc, version.utc? = .ok utc) :
    (∀ e ∈ (opening :: before) ++ (bump :: after).map (·.revised version), e.KeysShown) ↔
      ∀ e ∈ (opening :: before) ++ bump :: after, e.KeysShown := by
  have hopening : opening.sections ≠ [] := by
    rw [h.single opening List.mem_cons_self]
    exact List.cons_ne_nil u []
  constructor
  · intro hshown e he _
    obtain ⟨utc, hutc⟩ := hshown opening List.mem_cons_self hopening
    have hsame : e.catalogVersion.utc = opening.catalogVersion.utc := by
      rw [List.cons_append] at he
      rcases List.mem_cons.mp he with rfl | he
      · rfl
      · exact h.sameVersion e he
    rw [Instant.utc?, hsame, ← Instant.utc?]
    exact ⟨utc, hutc⟩
  · intro hshown e he
    rcases List.mem_append.mp he with he | he
    · exact hshown e (List.mem_append_left _ he)
    · obtain ⟨x, -, rfl⟩ := List.mem_map.mp he
      exact fun _ => hversion

/-- The interval of the timeline is divided into the two of the revised one. -/
theorem divides (h : Revision terms u version opening before bump after b) {whole early late : Interval}
    (hw : ActivityRun.Built terms ((opening :: before) ++ bump :: after)
      ⟨u, opening.catalogVersion, 0, before.length + 1 + after.length⟩ whole)
    (he : ActivityRun.Built terms ((opening :: before) ++ (bump :: after).map (·.revised version))
      ⟨u, opening.catalogVersion, 0, before.length⟩ early)
    (hl : ActivityRun.Built terms ((opening :: before) ++ (bump :: after).map (·.revised version))
      ⟨u, version, before.length + 1, before.length + 1 + after.length⟩ late) :
    whole.Divides early late version (opening :: before) bump after b := by
  have hdate (e : BillingEvent) (d : Date) : whole.dateOf e = .ok d ↔ terms.zone.localDate e.effective = .ok d := by
    rw [Interval.dateOf, hw.terms]
    exact liftM_calendar_eq_ok
  obtain ⟨start, m, hstart, hcycle, hday⟩ := h.cycle
  refine {
    usage_early := he.usage.trans hw.usage.symm
    usage_late := hl.usage.trans hw.usage.symm
    terms_early := he.terms.trans hw.terms.symm
    terms_late := hl.terms.trans hw.terms.symm
    events := ?_
    events_early := ?_
    events_late := ?_
    ongoing := ?_
    closed_early := ?_
    ongoing_late := ?_
    dated := fun e he => ?_
    bumped := (hdate bump b).mpr h.bumped
    later := fun e he d hd => h.later e he d ((hdate e d).mp hd)
    cycle := ⟨opening, start, m, rfl, (hdate opening start).mpr hstart, hw.usage ▸ hcycle, hday⟩
    unitTypes := ⟨u.unitTypes, ?_, ?_, ?_⟩ }
  · rw [hw.recorded, ActivityRun.map_event_recorded hw.maximal, List.drop_zero, List.take_of_length_le]
    simp
    omega
  · rw [he.recorded, ActivityRun.map_event_recorded he.maximal, List.drop_zero]
    simp [List.take_append]
  · rw [hl.recorded, ActivityRun.map_event_recorded hl.maximal, List.take_of_length_le]
    · simp
    · simp
      omega
  · rw [hw.closed]
    simp
    omega
  · rw [he.closed]
    simp
  · rw [hl.closed]
    simp
    omega
  · obtain ⟨d, hd⟩ := h.dated e he
    exact ⟨d, (hdate e d).mpr hd⟩
  · rw [hw.recorded]
    exact fun x hx => unitTypes_of_mem_recorded h.single hx
  · rw [he.recorded]
    exact fun x hx => unitTypes_of_mem_recorded h.single_revised hx
  · rw [hl.recorded]
    exact fun x hx => unitTypes_of_mem_recorded h.single_revised hx

theorem exists_built (h : Revision terms u version opening before bump after b) : ∃ whole early late,
    (activityRuns ((opening :: before) ++ bump :: after)).mapM
      (·.built terms ((opening :: before) ++ bump :: after)) = .ok [whole] ∧
    (activityRuns ((opening :: before) ++ (bump :: after).map (·.revised version))).mapM
      (·.built terms ((opening :: before) ++ (bump :: after).map (·.revised version))) = .ok [early, late] := by
  obtain ⟨start, m, hstart, hcycle, hday⟩ := h.cycle
  have hfirst : ∃ d, BillingCycle.date start opening.cycleDay u.period 0 = .ok d :=
    BillingCycle.exists_date_zero hcycle
  have hnext : ∃ d, BillingCycle.date b bump.cycleDay u.period 0 = .ok d := by
    obtain ⟨d, hd⟩ := BillingCycle.exists_date_succ hcycle h.year
    rw [hday]
    exact ⟨d, (BillingCycle.date_restart hcycle).mpr hd⟩
  have hmaximal (events : List BillingEvent) : ∀ ρ ∈ activityRuns events, IsMaximalRun events ρ :=
    fun ρ hρ => mem_activityRuns_iff.mp hρ
  have hone := hmaximal ((opening :: before) ++ bump :: after)
  have htwo := hmaximal ((opening :: before) ++ (bump :: after).map (·.revised version))
  rw [h.runs, List.forall_mem_singleton] at hone
  rw [h.runs_revised, List.forall_mem_cons, List.forall_mem_singleton] at htwo
  obtain ⟨whole, hwhole⟩ : ∃ i, ActivityRun.built _ terms _ = .ok i :=
    ActivityRun.exists_built_of_dated hone rfl h.dated hstart hfirst h.target
  obtain ⟨early, hearly⟩ := ActivityRun.exists_built_of_dated htwo.1 rfl h.dated_revised hstart hfirst h.target
  have hbump : ((opening :: before) ++ (bump :: after).map (·.revised version))[before.length + 1]? =
      some (bump.revised version) := by simp
  obtain ⟨late, hlate⟩ := ActivityRun.exists_built_of_dated htwo.2 hbump h.dated_revised h.bumped hnext h.target
  refine ⟨whole, early, late, ?_, ?_⟩
  · rw [h.runs]
    exact mapM_eq_ok.mpr (.cons hwhole .nil)
  · rw [h.runs_revised]
    exact mapM_eq_ok.mpr (.cons hearly (.cons hlate .nil))

end Revision

namespace Run

variable {request request' : RunRequest} {given : Option Settings} {inUse : Except Error Settings} {run : Run}
  {existing : List InvoiceItem}

/-! ### Runs that bill alike -/

/-- A run succeeds just when all buckets of its schedule do. -/
theorem isOk_reconcile {is : List Interval} (hcreate : create request given inUse = .ok run)
    (his : run.intervals = .ok is) : (run.reconcile existing).result.isOk =
      ((schedule is).mapM (Interval.outcome run.subscriptionId existing)).isOk := by
  cases houts : (schedule is).mapM (Interval.outcome run.subscriptionId existing) with
  | ok outs =>
      obtain ⟨s, hs, -⟩ := reconcile_of_outcomes hcreate his houts
      rw [hs]
      rfl
  | error e =>
      cases hs : (run.reconcile existing).result with
      | error e' => rfl
      | ok s =>
          obtain ⟨is', outs, his', houts', -⟩ := reconcile_spec hcreate hs
          obtain rfl : is = is' := Except.ok.inj (his.symm.trans his')
          rw [houts] at houts'
          cases houts'

/-- What two buckets add is the same apart from the catalog versions, which are related. -/
def AddsAlike (V : Instant → Instant → Prop) (out out' : List InvoiceLine × List TrackingId) : Prop :=
  List.Forall₂ (InvoiceLine.SameBut V) out.1 out'.1 ∧ out.2 = out'.2

/-- Buckets that are billed alike add the same, or fail in the same way. -/
theorem outcome_alike {V : Instant → Instant → Prop} {p q : Interval × Bucket} (h : Interval.BillsAlike V p q)
    (subscriptionId : String) (existing : List InvoiceItem) : Corresponds (AddsAlike V)
      (Interval.outcome subscriptionId existing p) (Interval.outcome subscriptionId existing q) := by
  rw [Interval.outcome, Interval.outcome, Interval.relevantItems, h.usage, ← Interval.relevantItems]
  exact h.reconcileBucket subscriptionId _

/-- Runs whose buckets add the same bill the same. -/
theorem summarizes_alike {outs outs' : List (List InvoiceLine × List TrackingId)}
    (h : List.Forall₂ (AddsAlike AnyVersions) outs outs') {s s' : Summary InvoiceLine} (hs : Summarizes s outs)
    (hs' : Summarizes s' outs') : s'.items.map (·.unversioned) = s.items.map (·.unversioned) ∧
      ∀ t, t ∈ s'.trackingIds ↔ t ∈ s.trackingIds := by
  constructor
  · have hlines : List.Forall₂ (InvoiceLine.SameBut AnyVersions) (outs.flatMap (·.1)) (outs'.flatMap (·.1)) :=
      List.rel_flatMap h fun _ _ hout => hout.1
    rw [hs.items, hs'.items, eq_comm, map_eq_map_iff_forall₂]
    exact hlines.imp fun _ _ hline => hline.rest
  · intro t
    rw [hs.trackingIds, hs'.trackingIds]
    constructor
    · rintro ⟨out', hout', ht⟩
      obtain ⟨out, hout, hsame⟩ := exists_of_forall₂_right h hout'
      exact ⟨out, hout, hsame.2 ▸ ht⟩
    · rintro ⟨out, hout, ht⟩
      obtain ⟨out', hout', hsame⟩ := exists_of_forall₂_left h hout
      exact ⟨out', hout', hsame.2 ▸ ht⟩

/-- The summary of a run is made by adding its intervals one after the other. -/
theorem foldlM_of_reconcile {is : List Interval} (his : run.intervals = .ok is) {s : Summary InvoiceLine}
    (h : (run.reconcile existing).result = .ok s) :
    is.foldlM (fun s i => (addInterval existing s i).result) .empty = .ok s := by
  rw [reconcile_result, his, ok_bind] at h
  exact h

theorem lookup_of_reconcile_one {i : Interval} (his : run.intervals = .ok [i]) {s : Summary InvoiceLine}
    (h : (run.reconcile existing).result = .ok s) (usageName : String) :
    s.notificationDates.lookup usageName = if usageName = i.usage.name then i.nextNotification else none := by
  obtain ⟨s', hs', h⟩ := foldlM_cons_eq_ok.mp (foldlM_of_reconcile his h)
  obtain rfl := pure_eq_ok.mp h
  rw [(addInterval_notification hs').1, Summary.empty]
  simp

theorem lookup_of_reconcile_two {i j : Interval} (his : run.intervals = .ok [i, j]) {s : Summary InvoiceLine}
    (h : (run.reconcile existing).result = .ok s) (hi : i.nextNotification = none) (usageName : String) :
    s.notificationDates.lookup usageName = if usageName = j.usage.name then j.nextNotification else none := by
  obtain ⟨s₁, hs₁, h⟩ := foldlM_cons_eq_ok.mp (foldlM_of_reconcile his h)
  obtain ⟨s', hs', h⟩ := foldlM_cons_eq_ok.mp h
  obtain rfl := pure_eq_ok.mp h
  rw [(addInterval_notification hs').1, (addInterval_notification hs₁).1, Summary.empty, hi]
  simp

/-! ### Revisions -/

section Revised

variable {u : Usage} {version : Instant} {opening bump : BillingEvent} {before after : List BillingEvent} {b : Date}

theorem revision_alike (h : Revision run.terms u version opening before bump after b)
    (hcreate : create request given inUse = .ok run) (hevents : run.events = (opening :: before) ++ bump :: after)
    {run' : Run} (hcreate' : create request' given inUse = .ok run')
    (hsame : run' = { run with events := (opening :: before) ++ (bump :: after).map (·.revised version) })
    (hshown : ∀ e ∈ run.events, e.KeysShown) (hshown' : ∀ e ∈ run'.events, e.KeysShown) :
    (run'.reconcile []).result.isOk = (run.reconcile []).result.isOk ∧
    ∀ s s', (run.reconcile []).result = .ok s → (run'.reconcile []).result = .ok s' →
      s'.items.map (·.unversioned) = s.items.map (·.unversioned) ∧ (∀ t, t ∈ s'.trackingIds ↔ t ∈ s.trackingIds) ∧
      (b ≤ run.terms.target → ∀ usageName,
        s'.notificationDates.lookup usageName = s.notificationDates.lookup usageName) := by
  obtain ⟨whole, early, late, hone, htwo⟩ := h.exists_built
  have his : run.intervals = .ok [whole] :=
    (Timeline.intervals_eq_ok (same_subscription hcreate)).mpr ⟨hshown, hevents ▸ hone⟩
  have his' : run'.intervals = .ok [early, late] :=
    (Timeline.intervals_eq_ok (same_subscription hcreate')).mpr ⟨hshown', by rw [hsame]; exact htwo⟩
  have hbuilt := built_intervals hcreate his
  have hbuilt' := built_intervals hcreate' his'
  rw [hevents, h.runs] at hbuilt
  rw [hsame, h.runs_revised] at hbuilt'
  obtain ⟨hwhole, -⟩ := List.forall₂_cons.mp hbuilt
  obtain ⟨hearly, hbuilt'⟩ := List.forall₂_cons.mp hbuilt'
  obtain ⟨hlate, -⟩ := List.forall₂_cons.mp hbuilt'
  have hdivides := h.divides hwhole hearly hlate
  have halike : List.Forall₂ (Interval.BillsAlike AnyVersions) (schedule [whole]) (schedule [early, late]) := by
    have hbuckets := hdivides.buckets_alike hwhole.buckets hearly.buckets hlate.buckets
    simpa [schedule] using hbuckets
  have hsub : run'.subscriptionId = run.subscriptionId := by rw [hsame]
  have hcorresponds := Corresponds.mapM (halike.imp fun p q hpq => outcome_alike hpq run.subscriptionId [])
  constructor
  · rw [isOk_reconcile hcreate his, isOk_reconcile hcreate' his', hsub]
    exact hcorresponds.isOk_eq.symm
  · intro s s' hs hs'
    obtain ⟨is, outs, his₁, houts, hsum⟩ := reconcile_spec hcreate hs
    obtain ⟨is', outs', his₁', houts', hsum'⟩ := reconcile_spec hcreate' hs'
    obtain rfl : [whole] = is := Except.ok.inj (his.symm.trans his₁)
    obtain rfl : [early, late] = is' := Except.ok.inj (his'.symm.trans his₁')
    rw [hsub] at houts'
    obtain ⟨hitems, hids⟩ := summarizes_alike (hcorresponds.related houts houts') hsum hsum'
    refine ⟨hitems, hids, fun hreached usageName => ?_⟩
    obtain ⟨hnone, hnext⟩ := hdivides.notification_eq (hwhole.terms ▸ hreached) hwhole.notification hearly.notification
      hlate.notification
    rw [lookup_of_reconcile_one his hs, lookup_of_reconcile_two his' hs' hnone, hnext, hdivides.usage_late]

end Revised

theorem keysShown_of_isOk (hcreate : create request given inUse = .ok run)
    (h : (run.reconcile existing).result.isOk = true) : ∀ e ∈ run.events, e.KeysShown := by
  obtain ⟨s, hs⟩ := exists_ok_of_isOk h
  obtain ⟨is, -, his, -⟩ := reconcile_spec hcreate hs
  exact ((Timeline.intervals_eq_ok (same_subscription hcreate)).mp his).1

/-- A timeline in which every event carries one section billed in arrear, always the same one, and has the same bill
cycle day and catalog version. -/
structure Steady (u : Usage) (cycleDay : Int) (version : Instant) (events : List BillingEvent) : Prop where
  single : ∀ e ∈ events, e.usages.filter (·.billingMode = .inArrear) = [u]
  cycleDay : ∀ e ∈ events, e.cycleDay = cycleDay
  version : ∀ e ∈ events, e.catalogVersion.utc = version.utc

/-- A steady timeline that is revised from an event on which lies on a cycle date. -/
theorem revision_of_steady (hcreate : create request given inUse = .ok run) (hzone : run.terms.zone.Covered) {u : Usage}
    {cycleDay : Int} {old version : Instant} (hsteady : Steady u cycleDay old run.events) (hnew : version.utc ≠ old.utc)
    (hdated : ∀ e ∈ run.events, ∃ d, run.terms.zone.localDate e.effective = .ok d ∧ d.year < 9999)
    (htarget : run.terms.target.year < 9999) {opening bump : BillingEvent} {place m : Nat} {start b : Date}
    (hopening : run.events.head? = some opening) (hstart : run.terms.zone.localDate opening.effective = .ok start)
    (hbump : run.events[place]? = some bump) (hb : run.terms.zone.localDate bump.effective = .ok b)
    (hcycle : BillingCycle.date start cycleDay u.period m = .ok b) : ∃ before after,
    run.events = (opening :: before) ++ bump :: after ∧ place = (opening :: before).length ∧
      Revision run.terms u version opening before bump after b := by
  obtain ⟨events, hevents⟩ := List.head?_eq_some_iff.mp hopening
  have hafter : start < b := Nat.lt_of_le_of_lt (Nat.le_add_right _ m) (BillingCycle.start_add_lt_date hcycle)
  cases place with
  | zero =>
      rw [hevents] at hbump
      obtain rfl : opening = bump := Option.some.inj hbump
      obtain rfl : start = b := Except.ok.inj (hstart.symm.trans hb)
      exact absurd hafter (Nat.lt_irrefl _)
  | succ n =>
      rw [hevents, List.getElem?_cons_succ] at hbump
      obtain ⟨hn, hbump⟩ := List.getElem?_eq_some_iff.mp hbump
      have hsplit : run.events = (opening :: events.take n) ++ bump :: events.drop (n + 1) := by
        rw [hevents, List.cons_append, ← hbump, ← List.drop_eq_getElem_cons hn, List.take_append_drop]
      have hsorted := events_sorted hcreate
      rw [hsplit] at hsteady hdated hsorted
      have hmem : bump ∈ (opening :: events.take n) ++ bump :: events.drop (n + 1) :=
        List.mem_append_right _ List.mem_cons_self
      have hfirst := hsteady.version opening List.mem_cons_self
      refine ⟨events.take n, events.drop (n + 1), hsplit, ?_, ?_⟩
      · rw [List.length_cons, List.length_take, Nat.min_eq_left (Nat.le_of_lt hn)]
      · refine {
          single := fun e he => sections_of_filter (hsteady.single e he)
          sameVersion := fun e he => (hsteady.version e (List.mem_cons_of_mem _ he)).trans hfirst.symm
          otherVersion := fun h => hnew (h.trans hfirst)
          dated := fun e he => ?_
          bumped := hb
          later := fun e he d hd => ?_
          cycle := ⟨start, m, hstart, ?_, ?_⟩
          year := ?_
          target := htarget }
        · obtain ⟨d, hd, -⟩ := hdated e he
          exact ⟨d, hd⟩
        · have hle := (List.pairwise_cons.mp (List.pairwise_append.mp hsorted).2.1).1 e he
          exact Zone.localDate_mono hzone hle hb hd
        · rw [hsteady.cycleDay opening List.mem_cons_self]
          exact hcycle
        · rw [hsteady.cycleDay bump hmem, hsteady.cycleDay opening List.mem_cons_self]
        · obtain ⟨d, hd, hyear⟩ := hdated bump hmem
          obtain rfl : b = d := Except.ok.inj (hb.symm.trans hd)
          exact hyear

/-- A revision of the catalog version on a cycle date has no part in what is billed: both runs succeed or fail
together, with the same items apart from the version, the same tracking ids and, once the target has reached the
date, the same next notification. -/
theorem revision_neutral (hcreate : create request given inUse = .ok run) (hzone : run.terms.zone.Covered) {u : Usage}
    {cycleDay : Int} {old version : Instant} (hsteady : Steady u cycleDay old request.events)
    (hnew : version.utc ≠ old.utc) (hshown : ∃ utc, version.utc? = .ok utc)
    (hdated : ∀ e ∈ request.events, ∃ d, run.terms.zone.localDate e.effective = .ok d ∧ d.year < 9999)
    (htarget : request.target.year < 9999) {opening bump : BillingEvent} {place m : Nat} {start b : Date}
    (hopening : request.events.head? = some opening) (hstart : run.terms.zone.localDate opening.effective = .ok start)
    (hbump : request.events[place]? = some bump) (hb : run.terms.zone.localDate bump.effective = .ok b)
    (hcycle : BillingCycle.date start cycleDay u.period m = .ok b) :
    ∃ run', create (request.revisedFrom version place) given inUse = .ok run' ∧
      (run'.reconcile []).result.isOk = (run.reconcile []).result.isOk ∧
      ∀ s s', (run.reconcile []).result = .ok s → (run'.reconcile []).result = .ok s' →
        s'.items.map (·.unversioned) = s.items.map (·.unversioned) ∧ (∀ t, t ∈ s'.trackingIds ↔ t ∈ s.trackingIds) ∧
        (b ≤ request.target → ∀ usageName,
          s'.notificationDates.lookup usageName = s.notificationDates.lookup usageName) := by
  obtain ⟨-, -, hsame, settings, -, hterms⟩ := create_eq_ok.mp hcreate
  have htargets : run.terms.target = request.target := by rw [hterms, termsOf]
  rw [← hsame] at hsteady hdated hopening hbump
  rw [← htargets] at htarget ⊢
  obtain ⟨before, after, hevents, hplace, hrevision⟩ := revision_of_steady hcreate hzone hsteady hnew hdated htarget
    hopening hstart hbump hb hcycle
  have hrevised : UsageBilling.revisedFrom version place run.events =
      (opening :: before) ++ (bump :: after).map (·.revised version) := by
    rw [UsageBilling.revisedFrom, hevents, hplace, List.take_left, List.drop_left]
  have hcreate' := create_revisedFrom version place hcreate
  rw [hrevised] at hcreate'
  refine ⟨_, hcreate', ?_⟩
  by_cases hkeys : ∀ e ∈ run.events, e.KeysShown
  · exact revision_alike hrevision hcreate hevents hcreate' rfl hkeys
      ((hrevision.keysShown_iff hshown).mpr (hevents ▸ hkeys))
  · have hfails : (run.reconcile []).result.isOk = false :=
      Bool.eq_false_iff.mpr fun h => hkeys (keysShown_of_isOk hcreate h)
    constructor
    · rw [hfails, Bool.eq_false_iff]
      intro h
      apply hkeys
      rw [hevents]
      exact (hrevision.keysShown_iff hshown).mp (keysShown_of_isOk hcreate' h)
    · intro s s' hs
      rw [hs] at hfails
      cases hfails

/-- A sample subscription with an event on the first of February. -/
def Sample.renewed : List BillingEvent := [Sample.opening, Sample.event Sample.february [Sample.calls]]

def Sample.februaryVersion : Instant := ⟨Sample.february, 0, some 0⟩

/-- The catalog version may change on the first of February: with five calls on record the run succeeds after the
change as before it, and looks again on the same date. -/
theorem revision_neutral_renewed : ∃ run', create ((Sample.request Sample.renewed [Sample.report]
      Sample.april).revisedFrom Sample.februaryVersion 1) (some Sample.settings) (.ok Sample.settings) = .ok run' ∧
    (run'.reconcile []).result.isOk = true ∧
    ∀ s', (run'.reconcile []).result = .ok s' → ∃ s,
      ((Sample.run Sample.renewed [Sample.report] Sample.april).reconcile []).result = .ok s ∧
      s'.notificationDates.lookup "api" = s.notificationDates.lookup "api" := by
  have hcreate : create (Sample.request Sample.renewed [Sample.report] Sample.april) (some Sample.settings)
      (.ok Sample.settings) = .ok (Sample.run Sample.renewed [Sample.report] Sample.april) := by decide +kernel
  have hsteady : Steady Sample.calls 1 Sample.opening.catalogVersion
      (Sample.request Sample.renewed [Sample.report] Sample.april).events :=
    ⟨by decide, by decide, by decide⟩
  have hdated : ∀ e ∈ (Sample.request Sample.renewed [Sample.report] Sample.april).events, ∃ d,
      (Sample.run Sample.renewed [Sample.report] Sample.april).terms.zone.localDate e.effective = .ok d ∧
        d.year < 9999 := by
    refine List.forall_mem_cons.mpr ⟨⟨⟨738156, by decide, by decide⟩, by decide +kernel, by decide +kernel⟩,
      List.forall_mem_singleton.mpr ⟨Sample.february, by decide +kernel, by decide +kernel⟩⟩
  have hopening : (Sample.request Sample.renewed [Sample.report] Sample.april).events.head? = some Sample.opening := rfl
  have hstart : (Sample.run Sample.renewed [Sample.report] Sample.april).terms.zone.localDate
      Sample.opening.effective = .ok ⟨738156, by decide, by decide⟩ := by decide +kernel
  have hbump : (Sample.request Sample.renewed [Sample.report] Sample.april).events[1]? =
      some (Sample.event Sample.february [Sample.calls]) := rfl
  have hb : (Sample.run Sample.renewed [Sample.report] Sample.april).terms.zone.localDate
      (Sample.event Sample.february [Sample.calls]).effective = .ok Sample.february := by decide +kernel
  have hcycle : BillingCycle.date ⟨738156, by decide, by decide⟩ 1 Sample.calls.period 0 = .ok Sample.february := by
    decide +kernel
  have hnew : Sample.februaryVersion.utc ≠ Sample.opening.catalogVersion.utc := by decide
  have hok : ((Sample.run Sample.renewed [Sample.report] Sample.april).reconcile []).result.isOk = true := by
    decide +kernel
  obtain ⟨run', hcreate', hisOk, hsame⟩ := revision_neutral hcreate Zone.covered_utc hsteady hnew
    (exists_ok_of_isOk (by decide +kernel)) hdated (by decide +kernel) hopening hstart hbump hb hcycle
  obtain ⟨s, hs⟩ := exists_ok_of_isOk hok
  refine ⟨run', hcreate', hisOk.trans hok, fun s' hs' => ⟨s, hs, ?_⟩⟩
  exact (hsame s s' hs hs').2.2 (by decide) "api"

end Run
end UsageBilling
