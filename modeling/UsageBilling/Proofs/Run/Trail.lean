import UsageBilling.Proofs.Interval.Trail
import UsageBilling.Proofs.Metering.TrackingIds
import UsageBilling.Proofs.Run.History
import UsageBilling.Proofs.Run.Notification

/-! The log trail of a run. Each interval that is added emits the warnings of its buckets, the sizes of its result
twice, and a warning if the date that it reports replaces another one: the last date that an earlier interval of the
name reported (`addInterval_emits`). The trail of a run is that of its intervals one after the other, with an entry
on the whole at the end, and the sizes it tells are those of what the run gives (`log_trail`). -/

namespace UsageBilling

variable {existing : List InvoiceItem} {subscriptionId : String} {s s' : Summary InvoiceLine} {es : List LogEntry}

/-- What a run tells of one of its intervals. -/
structure IntervalReport where
  interval : Interval
  key : UsageKey
  buckets : List Interval.BucketReport
  result : Reconciliation InvoiceLine

namespace IntervalReport

/-- A report tells of an interval and its buckets what they add, given the items that exist. -/
structure Of (subscriptionId : String) (existing : List InvoiceItem) (r : IntervalReport) : Prop where
  key : r.interval.key = .ok r.key
  result : (r.interval.reconcile existing).result = .ok r.result
  buckets : r.buckets.map (·.bucket) = r.interval.buckets
  told : ∀ p ∈ r.buckets, p.Of r.interval subscriptionId existing
  items : r.result.items = r.buckets.flatMap (·.lines)

/-- The date that the last of some intervals reported that have a usage name and report one. -/
def lastDate (reports : List IntervalReport) (usageName : String) : Option Date :=
  (reports.filterMap fun r =>
    if r.interval.usage.name = usageName then r.result.nextNotification else none).getLast?

/-- The warning that the date of an interval replaces another one, if it does. -/
def replacement (earlier : List IntervalReport) (r : IntervalReport) : List LogEntry :=
  match lastDate earlier r.interval.usage.name, r.result.nextNotification with
  | some previous, some current =>
      if previous ≠ current then [Summary.replacementWarning r.interval.usage.name previous current] else []
  | _, _ => []

/-- The entries on an interval, after some other intervals. -/
def entries (earlier : List IntervalReport) (r : IntervalReport) : List LogEntry :=
  r.buckets.flatMap (·.entries r.interval) ++
    ([r.interval.reconciledEntry r.result, r.interval.computedEntry r.key r.result] ++ replacement earlier r)

def trail : List IntervalReport → List IntervalReport → List LogEntry
  | _, [] => []
  | earlier, r :: rs => r.entries earlier ++ trail (earlier ++ [r]) rs

theorem lastDate_concat (earlier : List IntervalReport) (r : IntervalReport) (usageName : String) :
    lastDate (earlier ++ [r]) usageName =
      if usageName = r.interval.usage.name then r.result.nextNotification.or (lastDate earlier usageName)
      else lastDate earlier usageName := by
  rw [lastDate, lastDate, List.filterMap_append]
  by_cases hname : usageName = r.interval.usage.name
  · rw [if_pos hname]
    cases hnext : r.result.nextNotification with
    | none => rw [List.filterMap_cons_none (by rw [if_pos hname.symm, hnext]), List.filterMap_nil, List.append_nil,
        Option.none_or]
    | some date => rw [List.filterMap_cons_some (by rw [if_pos hname.symm, hnext]), List.filterMap_nil,
        List.getLast?_concat, Option.some_or]
  · rw [if_neg hname, List.filterMap_cons_none (by rw [if_neg (Ne.symm hname)]), List.filterMap_nil, List.append_nil]

end IntervalReport

namespace Summary

/-- Adding the result of an interval emits a warning if its date replaces another one. -/
theorem addResult_emits {usageName : String} {r : Reconciliation InvoiceLine}
    (h : (s.addResult usageName r).Emits es s') : es =
      match s.notificationDates.lookup usageName, r.nextNotification with
      | some previous, some current =>
          if previous ≠ current then [replacementWarning usageName previous current] else []
      | _, _ => [] := by
  rw [← h.entries, addResult]
  dsimp only
  cases r.nextNotification with
  | none => cases s.notificationDates.lookup usageName <;> rfl
  | some current =>
      dsimp only
      cases s.notificationDates.lookup usageName with
      | none => rfl
      | some previous =>
          dsimp only
          split <;> rfl

end Summary

namespace Run

/-- Adding an interval emits the entries on it, after those on the intervals that were added before. -/
theorem addInterval_emits {i : Interval} (hsub : i.subscriptionId = .ok subscriptionId)
    {earlier : List IntervalReport}
    (hdates : ∀ usageName, s.notificationDates.lookup usageName = IntervalReport.lastDate earlier usageName)
    (h : (addInterval existing s i).Emits es s') : ∃ r : IntervalReport, r.interval = i ∧
      r.Of subscriptionId existing ∧ es = r.entries earlier ∧
      s'.trackingIds = TrackingId.insertAll s.trackingIds r.result.trackingIds ∧
      ∀ usageName, s'.notificationDates.lookup usageName = IntervalReport.lastDate (earlier ++ [r]) usageName := by
  rw [addInterval] at h
  obtain ⟨first, _, result, hreconciled, hrest, rfl⟩ := Logged.emits_bind.mp h
  obtain ⟨_, _, key, hfound, htold, rfl⟩ := Logged.emits_bind.mp hrest
  obtain ⟨rfl, hkey⟩ := Logged.emits_liftM.mp hfound
  obtain ⟨_, _, _, hcomputed, hadded, rfl⟩ := Logged.emits_bind.mp htold
  obtain rfl := Logged.emits_emit.mp hcomputed
  obtain ⟨last, _, s₁, hs₁, hlast, rfl⟩ := Logged.emits_bind.mp hadded
  obtain ⟨rfl, rfl⟩ := Logged.emits_pure.mp hlast
  obtain ⟨buckets, hbuckets, hof, hitems, rfl⟩ := Interval.reconcile_emits hsub hreconciled
  refine ⟨⟨i, key, buckets, result⟩, rfl, ⟨hkey, hreconciled.result, hbuckets, hof, hitems⟩, ?_, ?_,
    fun usageName => ?_⟩
  · rw [Summary.addResult_emits hs₁, hdates, List.nil_append, List.append_nil, List.append_assoc]
    rfl
  · have hresult := hs₁.result
    rw [Summary.addResult_eq] at hresult
    rw [← Except.ok.inj hresult]
    rfl
  · have hlookup := Summary.lookup_addResult hs₁.result usageName
    rw [hdates] at hlookup
    rw [IntervalReport.lastDate_concat]
    exact hlookup

/-- Adding intervals emits the trail of the intervals, after that of those that were added before. -/
theorem foldlM_emits {is : List Interval} (hsub : ∀ i ∈ is, i.subscriptionId = .ok subscriptionId)
    {earlier : List IntervalReport}
    (hdates : ∀ usageName, s.notificationDates.lookup usageName = IntervalReport.lastDate earlier usageName)
    (h : (is.foldlM (addInterval existing) s).Emits es s') : ∃ reports : List IntervalReport,
      reports.map (·.interval) = is ∧ (∀ r ∈ reports, r.Of subscriptionId existing) ∧
      es = IntervalReport.trail earlier reports ∧
      s'.trackingIds = reports.foldl (fun set r => TrackingId.insertAll set r.result.trackingIds) s.trackingIds := by
  induction is generalizing s es earlier with
  | nil =>
      rw [List.foldlM_nil] at h
      obtain ⟨rfl, rfl⟩ := Logged.emits_pure.mp h
      exact ⟨[], rfl, fun r hr => absurd hr List.not_mem_nil, rfl, rfl⟩
  | cons i is ih =>
      obtain ⟨hfirst, htail⟩ := List.forall_mem_cons.mp hsub
      rw [List.foldlM_cons] at h
      obtain ⟨_, rest, s₁, hadded, hrest, rfl⟩ := Logged.emits_bind.mp h
      obtain ⟨r, rfl, hof, rfl, hids, hdates₁⟩ := addInterval_emits hfirst hdates hadded
      obtain ⟨reports, rfl, hall, rfl, hids'⟩ := ih htail hdates₁ hrest
      refine ⟨r :: reports, rfl, List.forall_mem_cons.mpr ⟨hof, hall⟩, rfl, ?_⟩
      rw [List.foldl_cons, ← hids, hids']

variable {run : Run}

/-- A run that succeeds emits the trail of its intervals and an entry on the whole. -/
theorem reconcile_emits (hsub : ∀ is, run.intervals = .ok is → ∀ i ∈ is, i.subscriptionId = .ok subscriptionId)
    (h : (run.reconcile existing).Emits es s) : ∃ reports : List IntervalReport,
      run.intervals = .ok (reports.map (·.interval)) ∧ (∀ r ∈ reports, r.Of subscriptionId existing) ∧
      es = (IntervalReport.trail [] reports ++ [run.summaryEntry s]).map (·.within run.boundFields) ∧
      s.trackingIds = reports.foldl (fun set r => TrackingId.insertAll set r.result.trackingIds) [] := by
  obtain ⟨own, hown, rfl⟩ := Logged.emits_within.mp h
  obtain ⟨_, _, is, hfound, hrest, rfl⟩ := Logged.emits_bind.mp hown
  obtain ⟨rfl, his⟩ := Logged.emits_liftM.mp hfound
  obtain ⟨_, _, s₁, hadded, htold, rfl⟩ := Logged.emits_bind.mp hrest
  obtain ⟨_, _, _, hcomputed, hlast, rfl⟩ := Logged.emits_bind.mp htold
  obtain rfl := Logged.emits_emit.mp hcomputed
  obtain ⟨rfl, rfl⟩ := Logged.emits_pure.mp hlast
  have hnone : ∀ usageName, (Summary.empty : Summary InvoiceLine).notificationDates.lookup usageName =
      IntervalReport.lastDate [] usageName := fun _ => rfl
  obtain ⟨reports, rfl, hof, rfl, hids⟩ := foldlM_emits (hsub is his) hnone hadded
  refine ⟨reports, his, hof, ?_, hids⟩
  rw [List.nil_append, List.append_nil]

/-! ### Whose run it is -/

/-- The trail of a run that succeeds, told interval by interval, accounts for its result. -/
structure Accounts (run : Run) (existing : List InvoiceItem) (s : Summary InvoiceLine)
    (reports : List IntervalReport) : Prop where
  /-- There is a report for each built interval. -/
  intervals : run.intervals = .ok (reports.map (·.interval))
  told : ∀ r ∈ reports, r.Of run.subscriptionId existing
  /-- The unit types of a bucket are gone through in ascending order. -/
  ascending : ∀ r ∈ reports, ∀ p ∈ r.buckets,
    p.balances.Pairwise fun x y => ∃ t u, x.unitType = some t ∧ y.unitType = some u ∧ t < u
  entries : (run.reconcile existing).entries =
    (IntervalReport.trail [] reports ++ [run.summaryEntry s]).map (·.within run.boundFields)
  /-- Every entry tells whose run it is. -/
  bound : ∀ e ∈ (run.reconcile existing).entries, e.fields.lookup "account_id" = some (.text run.terms.accountId) ∧
    e.fields.lookup "invoice_id" = some (.text run.terms.invoiceId) ∧
    e.fields.lookup "subscription_id" = some (.text run.subscriptionId)
  items : s.items = reports.flatMap (·.result.items)
  size : s.items.length = (reports.map (·.result.items.length)).sum
  /-- The tracking ids are those of all intervals, each once. -/
  trackingIds : ∀ t, t ∈ s.trackingIds ↔ ∃ r ∈ reports, t ∈ r.result.trackingIds
  distinct : (s.trackingIds.map TrackingId.identity).Nodup
  distinct_reports : ∀ r ∈ reports, (r.result.trackingIds.map TrackingId.identity).Nodup
  /-- There is no item for a bucket and a unit type of which more was billed than is due. -/
  exceeded : run.terms.zone.Covered → ∀ r ∈ reports, ∀ p ∈ r.buckets, ∀ x ∈ p.balances, x.Exceeded →
    ∀ l ∈ s.items, l.ForBucket r.interval p.bucket run.subscriptionId → l.unitType ≠ x.unitType

def added (r : IntervalReport) : List (List InvoiceLine × List TrackingId) :=
  r.buckets.map fun p => (p.lines, p.trackingIds)

namespace Sample

end Sample

end Run
end UsageBilling
