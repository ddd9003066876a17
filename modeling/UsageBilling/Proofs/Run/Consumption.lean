import UsageBilling.Proofs.Correspondence
import UsageBilling.Proofs.Interval.Quantities
import UsageBilling.Proofs.Interval.Repetition
import UsageBilling.Proofs.Metering.TrackingIds
import UsageBilling.Proofs.Run.ActivityIntervals
import UsageBilling.Proofs.Run.Terms

/-! The tracking ids that runs consume. A run consumes the metered facts that its buckets bill and that were not
consumed before (`mem_consumed`). The tracking ids that exist have no part in the rest of what a run gives
(`perform_tracking`). Runs that are given what those before them consumed consume no metered fact twice
(`ConsumedInTurn.nodup`). -/

namespace UsageBilling

open UsageBilling.Interval

variable {subscriptionId : String} {existing : List InvoiceItem}

/-! ### What a bucket consumes -/

def RawUsage.identity (subscriptionId : String) (r : RawUsage) : TrackingId.Identity :=
  ⟨r.trackingId, subscriptionId, r.unitType, r.date⟩

/-- A bucket adds the tracking ids of the records that it bills, unless they exist. -/
theorem Interval.mem_consumed_of_outcome {p : Interval × Bucket} {out : List InvoiceLine × List TrackingId}
    (h : outcome subscriptionId existing p = .ok out) (k : TrackingId.Identity) :
    k ∈ out.2.map TrackingId.identity ↔
      (∃ r ∈ p.1.terms.rawUsage, bills p r = true ∧ r.identity subscriptionId = k) ∧
        k ∉ p.1.terms.existingTrackingIds.map TrackingId.identity := by
  obtain ⟨billed, types, -, htypes, hout⟩ := reconcileBucket_eq_ok.mp h
  have hbills (r : RawUsage) : bills p r = RolledUsage.counts p.2.start p.2.finish types r := by
    rw [bills, htypes]
  rcases hout with ⟨rfl, rfl⟩ | ⟨-, rolled, lines, hrolled, -, rfl⟩
  · simp [hbills, RolledUsage.counts]
  · have hmem := RolledUsage.mem_trackingIds hrolled
    constructor
    · intro hk
      obtain ⟨t, ht, rfl⟩ := List.mem_map.mp hk
      obtain ⟨ht, hnew⟩ := List.mem_filter.mp ht
      obtain ⟨r, hr, rfl⟩ := List.mem_map.mp ((hmem t).mp ht)
      obtain ⟨hr, hcounts⟩ := List.mem_filter.mp hr
      refine ⟨⟨r, hr, (hbills r).trans hcounts, rfl⟩, fun hold => ?_⟩
      rw [(TrackingId.isIn_iff_identity _ _).mpr hold] at hnew
      cases hnew
    · rintro ⟨⟨r, hr, hcounts, rfl⟩, hnew⟩
      have hmark : r.mark subscriptionId p.1.terms.invoiceId ∈ rolled.trackingIds :=
        (hmem _).mpr (List.mem_map_of_mem (List.mem_filter.mpr ⟨hr, (hbills r).symm.trans hcounts⟩))
      refine List.mem_map.mpr ⟨_, List.mem_filter.mpr ⟨hmark, ?_⟩, rfl⟩
      rw [Bool.not_eq_true', Bool.eq_false_iff]
      exact fun hold => hnew ((TrackingId.isIn_iff_identity _ _).mp hold)

/-! ### Existing tracking ids -/

def Terms.tracking (ids : List TrackingId) (t : Terms) : Terms := { t with existingTrackingIds := ids }

theorem Terms.keepsDates_tracking (ids : List TrackingId) : KeepsDates (tracking ids) :=
  ⟨fun _ => rfl, fun _ => rfl, fun _ => rfl⟩

namespace Interval

open Terms

/-- Existing tracking ids have no part in the lines that a bucket adds. -/
theorem outcome_tracking (ids : List TrackingId) (p : Interval × Bucket) :
    Corresponds (fun out out' => out.1 = out'.1) (outcome subscriptionId existing p)
      (outcome subscriptionId existing (p.1.under (tracking ids), p.2)) := by
  obtain ⟨i, b⟩ := p
  have hbills : BillsAs i (i.under (tracking ids)) b :=
    ⟨rfl, rfl, (governingUnitTypes_under (keepsDates_tracking ids) i b).symm, rfl, rfl, rfl, rfl, fun _ => rfl⟩
  rw [outcome, outcome, reconcileBucket_result, reconcileBucket_result]
  dsimp only
  rw [← hbills.unitTypes]
  apply Corresponds.bind_same
  intro billed
  apply Corresponds.bind_same
  intro types
  split
  · exact .ok rfl
  · rw [hbills.ofRecords_eq]
    apply Corresponds.bind_same
    intro rolled
    rw [hbills.bucketLines_eq]
    apply Corresponds.bind_same
    intro lines
    exact .ok rfl

theorem reconcile_tracking (ids : List TrackingId) (i : Interval) :
    Corresponds (fun r r' => r.items = r'.items ∧ r.nextNotification = r'.nextNotification)
      (i.reconcile existing).result ((i.under (tracking ids)).reconcile existing).result := by
  rw [reconcile_result, reconcile_result, isBuilt_under, usage_under, buckets_under]
  cases i.isBuilt with
  | false => exact .error _
  | true =>
      apply Corresponds.bind_same
      intro subscriptionId
      apply Corresponds.bind (R := List.Forall₂ fun out out' => out.1 = out'.1)
      · apply Corresponds.mapM
        rw [List.forall₂_same]
        intro b _
        exact outcome_tracking ids (i, b)
      · intro outs outs' houts
        refine .ok ⟨?_, rfl⟩
        rw [List.flatMap_def, List.flatMap_def]
        apply congrArg List.flatten
        rw [map_eq_map_iff_forall₂]
        exact houts

end Interval

namespace Run

open Terms

variable {request : RunRequest} {given : Option Settings} {inUse : Except Error Settings} {s : Summary InvoiceLine}

/-- Summaries that differ in tracking ids only. -/
def SameButTracking (s s' : Summary InvoiceLine) : Prop :=
  s.items = s'.items ∧ s.notificationDates = s'.notificationDates

theorem addInterval_tracking (ids : List TrackingId) (i : Interval) {s s' : Summary InvoiceLine}
    (h : SameButTracking s s') : Corresponds SameButTracking (addInterval existing s i).result
      (addInterval existing s' (i.under (tracking ids))).result := by
  rw [addInterval_result, addInterval_result]
  apply (reconcile_tracking ids i).bind
  rintro r r' ⟨hitems, hnext⟩
  apply Corresponds.bind_same
  intro _
  refine .ok ⟨?_, ?_⟩
  · rw [h.1, hitems]
  · rw [h.2, hnext, usage_under]

/-- The existing tracking ids of a request have no part in the items, in the notification dates, or in errors. -/
theorem perform_tracking (ids : List TrackingId) (request : RunRequest) (given : Option Settings)
    (inUse : Except Error Settings) (existing : List InvoiceItem) : Corresponds SameButTracking
      (perform request given inUse existing)
      (perform { request with existingTrackingIds := ids } given inUse existing) := by
  have hcreate : create { request with existingTrackingIds := ids } given inUse =
      under (tracking ids) <$> create request given inUse := by
    apply create_under
    · rfl
    · intro id settings
      rfl
  rw [perform, perform, hcreate, bind_map_left]
  apply Corresponds.bind_same
  intro run
  rw [reconcile_result, reconcile_result, intervals_under (keepsDates_tracking ids), bind_map_left]
  apply Corresponds.bind_same
  intro is
  apply Corresponds.foldlM
  · rw [List.forall₂_map_right_iff, List.forall₂_same]
    intro i _ s s' hs
    exact addInterval_tracking ids i hs
  · exact ⟨rfl, rfl⟩

/-! ### What a run consumes -/

/-- What a run consumes: the identities of the metered facts of its subscription that one of its buckets bills, less
those that exist. -/
theorem mem_consumed (h : perform request given inUse existing = .ok s) : ∃ run is,
    create request given inUse = .ok run ∧ run.intervals = .ok is ∧
    ∀ k, k ∈ s.trackingIds.map TrackingId.identity ↔
      (∃ p ∈ schedule is, ∃ r ∈ request.rawUsage, r.subscriptionId = run.subscriptionId ∧ bills p r = true ∧
        r.identity run.subscriptionId = k) ∧ k ∉ request.existingTrackingIds.map TrackingId.identity := by
  obtain ⟨run, hcreate, h⟩ := bind_eq_ok.mp h
  obtain ⟨is, outs, his, houts, hsum⟩ := reconcile_spec hcreate h
  obtain ⟨-, -, -, settings, -, hterms⟩ := create_eq_ok.mp hcreate
  refine ⟨run, is, hcreate, his, fun k => ?_⟩
  have hrecords (r : RawUsage) : r ∈ run.terms.rawUsage ↔
      r ∈ request.rawUsage ∧ r.subscriptionId = run.subscriptionId := by
    rw [hterms, termsOf, RawUsage.ofSubscription, RawUsage.sorted, List.mem_mergeSort, List.mem_filter,
      decide_eq_true_eq]
  have hids : run.terms.existingTrackingIds = request.existingTrackingIds := by
    rw [hterms]
    rfl
  have hbucket {p : Interval × Bucket} (hp : p ∈ schedule is) {out : List InvoiceLine × List TrackingId}
      (hout : outcome run.subscriptionId existing p = .ok out) : k ∈ out.2.map TrackingId.identity ↔
        (∃ r ∈ request.rawUsage, r.subscriptionId = run.subscriptionId ∧ bills p r = true ∧
          r.identity run.subscriptionId = k) ∧ k ∉ request.existingTrackingIds.map TrackingId.identity := by
    rw [mem_consumed_of_outcome hout, terms_of_mem_schedule hcreate his hp, hids]
    simp only [hrecords, and_assoc]
  rw [mapM_eq_ok] at houts
  constructor
  · intro hk
    obtain ⟨t, ht, rfl⟩ := List.mem_map.mp hk
    obtain ⟨out, hmem, ht⟩ := (hsum.trackingIds t).mp ht
    obtain ⟨p, hp, hout⟩ := exists_of_forall₂_right houts hmem
    obtain ⟨hbilled, hnew⟩ := (hbucket hp hout).mp (List.mem_map_of_mem ht)
    exact ⟨⟨p, hp, hbilled⟩, hnew⟩
  · rintro ⟨⟨p, hp, hbilled⟩, hnew⟩
    obtain ⟨out, hmem, hout⟩ := exists_of_forall₂_left houts hp
    obtain ⟨t, ht, rfl⟩ := List.mem_map.mp ((hbucket hp hout).mpr ⟨hbilled, hnew⟩)
    exact List.mem_map_of_mem ((hsum.trackingIds t).mpr ⟨out, hmem, ht⟩)

theorem sorted_trackingIds (h : perform request given inUse existing = .ok s) :
    TrackingId.Sorted s.trackingIds := by
  obtain ⟨run, -, h⟩ := bind_eq_ok.mp h
  rw [reconcile_result] at h
  obtain ⟨is, -, h⟩ := bind_eq_ok.mp h
  have hempty : TrackingId.Sorted (Summary.empty : Summary InvoiceLine).trackingIds := .nil
  revert h hempty
  generalize (Summary.empty : Summary InvoiceLine) = start
  intro h hstart
  induction is generalizing start with
  | nil =>
      obtain rfl := pure_eq_ok.mp h
      exact hstart
  | cons i is ih =>
      obtain ⟨next, hnext, h⟩ := foldlM_cons_eq_ok.mp h
      refine ih next h ?_
      rw [addInterval_result] at hnext
      obtain ⟨r, -, hnext⟩ := bind_eq_ok.mp hnext
      obtain ⟨key, -, hnext⟩ := bind_eq_ok.mp hnext
      obtain rfl := pure_eq_ok.mp hnext
      exact TrackingId.sorted_insertAll r.trackingIds hstart

/-! ### Runs in sequence -/

/-- The tracking ids that runs consume one after the other. Each run is given those that were consumed before it,
and perhaps further ones. -/
inductive ConsumedInTurn : List TrackingId → Prop
  | nil : ConsumedInTurn []
  | next {consumed : List TrackingId} {request : RunRequest} {given : Option Settings}
      {inUse : Except Error Settings} {existing : List InvoiceItem} {s : Summary InvoiceLine}
      (hbefore : ConsumedInTurn consumed)
      (hgiven : ∀ t ∈ consumed, t.isIn request.existingTrackingIds = true)
      (hrun : perform request given inUse existing = .ok s) : ConsumedInTurn (consumed ++ s.trackingIds)

/-- Runs in sequence consume no metered fact twice. -/
theorem ConsumedInTurn.nodup {consumed : List TrackingId} (h : ConsumedInTurn consumed) :
    (consumed.map TrackingId.identity).Nodup := by
  induction h with
  | nil => exact .nil
  | @next consumed request given inUse existing s hbefore hgiven hrun ih =>
      obtain ⟨run, is, -, -, hmem⟩ := mem_consumed hrun
      rw [List.map_append, List.nodup_append]
      refine ⟨ih, TrackingId.nodup_identities (sorted_trackingIds hrun), ?_⟩
      rintro k hk _ hk' rfl
      obtain ⟨t, ht, rfl⟩ := List.mem_map.mp hk
      exact ((hmem _).mp hk').2 ((TrackingId.isIn_iff_identity t _).mp (hgiven t ht))

/-- Tracking ids are exact and change nothing else. A run consumes just the metered facts of its subscription that
one of its buckets bills and that were not consumed before. With other existing tracking ids the same request fails
with the same error, or gives the same items in the same order and the same notification dates. Runs that are each
given what those before them consumed consume no metered fact twice. -/
theorem tracking_ids_exact (request : RunRequest) (given : Option Settings) (inUse : Except Error Settings)
    (existing : List InvoiceItem) :
    (∀ s, perform request given inUse existing = .ok s → ∃ run is,
      create request given inUse = .ok run ∧ run.intervals = .ok is ∧
      ∀ k, k ∈ s.trackingIds.map TrackingId.identity ↔
        (∃ p ∈ schedule is, ∃ r ∈ request.rawUsage, r.subscriptionId = run.subscriptionId ∧ bills p r = true ∧
          r.identity run.subscriptionId = k) ∧ k ∉ request.existingTrackingIds.map TrackingId.identity) ∧
    (∀ ids, Corresponds SameButTracking (perform request given inUse existing)
      (perform { request with existingTrackingIds := ids } given inUse existing)) ∧
    ∀ consumed, ConsumedInTurn consumed → (consumed.map TrackingId.identity).Nodup := by
  refine ⟨?_, ?_, ?_⟩
  · intro s hs
    exact mem_consumed hs
  · intro ids
    exact perform_tracking ids request given inUse existing
  · intro consumed hconsumed
    exact hconsumed.nodup

/-- Five calls are consumed by a run and not again by the next one, which gives the same items. -/
theorem tracking_ids_exact_repeated : ∃ s s' : Summary InvoiceLine,
    perform (Sample.request [Sample.opening] [Sample.report] Sample.february) (some Sample.settings)
      (.ok Sample.settings) [] = .ok s ∧
    perform { Sample.request [Sample.opening] [Sample.report] Sample.february with
      existingTrackingIds := s.trackingIds } (some Sample.settings) (.ok Sample.settings) [] = .ok s' ∧
    s.trackingIds.map TrackingId.identity = [Sample.report.identity "subscription"] ∧
    s.items = s'.items ∧ s'.trackingIds = [] ∧ ((s.trackingIds ++ s'.trackingIds).map TrackingId.identity).Nodup := by
  obtain ⟨s, hs⟩ := exists_ok_of_isOk (x := perform (Sample.request [Sample.opening] [Sample.report]
    Sample.february) (some Sample.settings) (.ok Sample.settings) []) (by decide +kernel)
  have hids : (perform (Sample.request [Sample.opening] [Sample.report] Sample.february) (some Sample.settings)
      (.ok Sample.settings) []).map (·.trackingIds) = .ok [Sample.report.mark "subscription" "invoice"] := by
    decide +kernel
  rw [hs] at hids
  have hids : s.trackingIds = [Sample.report.mark "subscription" "invoice"] := Except.ok.inj hids
  obtain ⟨s', hs'⟩ := exists_ok_of_isOk (x := perform { Sample.request [Sample.opening] [Sample.report]
    Sample.february with existingTrackingIds := [Sample.report.mark "subscription" "invoice"] } (some Sample.settings)
    (.ok Sample.settings) []) (by decide +kernel)
  have hnone : (perform { Sample.request [Sample.opening] [Sample.report] Sample.february with
      existingTrackingIds := [Sample.report.mark "subscription" "invoice"] } (some Sample.settings)
      (.ok Sample.settings) []).map (·.trackingIds) = .ok [] := by
    decide +kernel
  rw [hs'] at hnone
  rw [← hids] at hs'
  obtain ⟨-, hsame, hnodup⟩ := tracking_ids_exact (Sample.request [Sample.opening] [Sample.report] Sample.february)
    (some Sample.settings) (.ok Sample.settings) []
  have hturns : ConsumedInTurn (s.trackingIds ++ s'.trackingIds) := by
    have hfirst : ConsumedInTurn s.trackingIds := .next .nil (by simp) hs
    refine .next hfirst (fun t ht => ?_) hs'
    exact (TrackingId.isIn_iff_identity t _).mpr (List.mem_map_of_mem ht)
  refine ⟨s, s', hs, hs', ?_, ((hsame s.trackingIds).related hs hs').1, Except.ok.inj hnone, hnodup _ hturns⟩
  rw [hids]
  rfl

end Run
end UsageBilling
