import UsageBilling.Proofs.Interval.Reconciliation
import UsageBilling.Proofs.Metering.Selection
import UsageBilling.Proofs.Metering.Totals
import UsageBilling.Proofs.Run.Buckets

/-! What a run gives. Without the log, a run folds over its intervals and an interval over its buckets
(`Run.reconcile_result`, `Interval.reconcile_result`): the buckets are reconciled one after the other, each with the
items that exist (`schedule`, `outcome`). The items of a run are the lines of all buckets and its tracking ids are
theirs (`reconcile_spec`), and a run succeeds when each bucket does (`reconcile_of_outcomes`). -/

namespace UsageBilling

variable {existing : List InvoiceItem} {subscriptionId : String}

/-! ### Intervals -/

/-- What a bucket of an interval adds, given the items that exist. -/
def Interval.outcome (subscriptionId : String) (existing : List InvoiceItem) (p : Interval × Bucket) :
    Except Error (List InvoiceLine × List TrackingId) :=
  (p.1.reconcileBucket subscriptionId (p.1.relevantItems subscriptionId existing) p.2).result

/-- All tracking ids that buckets add, one bucket after the other. -/
def TrackingId.collect (outs : List (List InvoiceLine × List TrackingId)) (set : List TrackingId) :
    List TrackingId :=
  outs.foldl (fun set out => insertAll set out.2) set

theorem TrackingId.collect_congr {outs outs' : List (List InvoiceLine × List TrackingId)}
    (h : List.Forall₂ (fun out out' => out.2 = out'.2) outs outs') (set : List TrackingId) :
    collect outs set = collect outs' set := by
  apply List.rel_foldl (P := Eq) _ rfl h
  rintro set _ rfl out out' hout
  exact congrArg (insertAll set) hout

theorem TrackingId.mem_collect {inv : Option String} {outs : List (List InvoiceLine × List TrackingId)}
    (houts : ∀ out ∈ outs, ∀ t ∈ out.2, t.invoiceId = inv) {set : List TrackingId}
    (hset : ∀ t ∈ set, t.invoiceId = inv) (t : TrackingId) :
    t ∈ collect outs set ↔ t ∈ set ∨ ∃ out ∈ outs, t ∈ out.2 := by
  induction outs generalizing set with
  | nil => simp [collect]
  | cons out outs ih =>
      obtain ⟨hout, houts⟩ := List.forall_mem_cons.mp houts
      have hmem := mem_insertAll hout hset
      rw [collect, List.foldl_cons, ← collect, ih houts, hmem, or_assoc, List.exists_mem_cons_iff]
      intro u hu
      rcases (hmem u).mp hu with hu | hu
      · exact hset u hu
      · exact hout u hu

theorem Interval.reconcile_result (i : Interval) (existing : List InvoiceItem) : (i.reconcile existing).result = (do
    if !i.isBuilt then throw (.interval (.notBuilt i.usage.name))
    let subscriptionId ← i.subscriptionId
    let outs ← i.buckets.mapM fun b => outcome subscriptionId existing (i, b)
    return ⟨outs.flatMap (·.1), i.nextNotification, TrackingId.collect outs []⟩ :
      Except Error (Reconciliation InvoiceLine)) := by
  rw [reconcile]
  cases i.isBuilt with
  | false => rfl
  | true =>
      simp only [Bool.not_true, Bool.false_eq_true, if_false, Logged.result_bind, Logged.result_pure,
        Logged.result_liftM, Logged.result_mapM, Logged.result_emit]
      rfl

theorem Interval.reconcile_eq_ok {i : Interval} {r : Reconciliation InvoiceLine}
    (hsub : i.subscriptionId = .ok subscriptionId) : (i.reconcile existing).result = .ok r ↔
      i.isBuilt = true ∧ ∃ outs, (i.buckets.map (i, ·)).mapM (outcome subscriptionId existing) = .ok outs ∧
        r = ⟨outs.flatMap (·.1), i.nextNotification, TrackingId.collect outs []⟩ := by
  rw [reconcile_result, hsub, List.mapM_map]
  cases i.isBuilt with
  | false => exact ⟨nofun, fun h => nomatch h.1⟩
  | true =>
      simp only [Bool.not_true, Bool.false_eq_true, if_false, ok_bind, true_and, bind_eq_ok]
      exact exists_congr fun outs => and_congr_right fun _ => pure_eq_ok.trans eq_comm

/-! ### Items that concern a bucket -/

/-- Whether a line is one for the usage section of a bucket and has a day in common with the bucket. -/
def Interval.concerns (subscriptionId : String) (p : Interval × Bucket) (l : InvoiceLine) : Bool :=
  (p.2.alignedStart < l.endDate && l.startDate < p.2.finish) &&
    (l.itemType = .usage && l.usageName = p.1.usage.name && l.subscriptionId = subscriptionId)

theorem Interval.filter_overlaps (subscriptionId : String) (p : Interval × Bucket) (items : List InvoiceItem) :
    (p.1.relevantItems subscriptionId items).filter (overlaps p.2) =
      items.filter fun x => concerns subscriptionId p x.toInvoiceLine := by
  rw [relevantItems, List.filter_filter]
  rfl

theorem Interval.concerns_of_forBucket {p : Interval × Bucket} (hne : p.2.alignedStart < p.2.finish)
    {l : InvoiceLine} (h : l.ForBucket p.1 p.2 subscriptionId) : concerns subscriptionId p l = true := by
  simp [concerns, h.itemType, h.usageName, h.subscriptionId, h.startDate, h.endDate, hne]

theorem Interval.concerns_of_apart {p q : Interval × Bucket} (hapart : Run.Apart p q) {l : InvoiceLine}
    (h : l.ForBucket q.1 q.2 subscriptionId) : concerns subscriptionId p l = false := by
  rw [Bool.eq_false_iff]
  intro hc
  simp only [concerns, Bool.and_eq_true, decide_eq_true_eq] at hc
  obtain ⟨⟨hstart, hfinish⟩, ⟨-, hname⟩, -⟩ := hc
  rw [h.endDate] at hstart
  rw [h.startDate] at hfinish
  rcases hapart (hname.symm.trans h.usageName) with hle | hle
  · exact absurd hfinish (Nat.not_lt.mpr hle)
  · exact absurd hstart (Nat.not_lt.mpr hle)

theorem InvoiceLine.map_issue (n : Nat) (lines : List InvoiceLine) :
    (issue n lines).map (·.toInvoiceLine) = lines := by
  rw [issue, List.map_map]
  exact List.zipIdx_map_fst 0 lines

/-! ### Tracking ids -/

/-- The mark of a metered record, as one for some invoice. -/
def RawUsage.mark (subscriptionId : String) (invoiceId : String) (r : RawUsage) : TrackingId :=
  ⟨r.trackingId, subscriptionId, r.unitType, r.date, some invoiceId⟩

theorem RolledUsage.mem_trackingIds {records : List RawUsage} {start finish : Date} {types : List String}
    {invoiceId : String} {rolled : RolledUsage}
    (h : ofRecords records subscriptionId start finish types invoiceId = .ok rolled) (t : TrackingId) :
    t ∈ rolled.trackingIds ↔ t ∈ (records.filter (counts start finish types)).map
      (RawUsage.mark subscriptionId invoiceId) := by
  obtain ⟨amounts, -, rfl⟩ := ofRecords_eq_ok.mp h
  have hmarks : ∀ u ∈ (records.filter (counts start finish types)).map (RawUsage.mark subscriptionId invoiceId),
      u.invoiceId = some invoiceId := by
    intro u hu
    obtain ⟨r, -, rfl⟩ := List.mem_map.mp hu
    rfl
  refine (TrackingId.mem_insertAll hmarks (by simp) t).trans ?_
  rw [or_iff_right List.not_mem_nil]

theorem Interval.invoiceId_of_outcome {p : Interval × Bucket} {out : List InvoiceLine × List TrackingId}
    (h : outcome subscriptionId existing p = .ok out) : ∀ t ∈ out.2, t.invoiceId = some p.1.terms.invoiceId := by
  obtain ⟨billed, types, -, -, hout⟩ := reconcileBucket_eq_ok.mp h
  intro t ht
  rcases hout with ⟨-, rfl⟩ | ⟨-, rolled, lines, hrolled, -, rfl⟩
  · cases ht
  · obtain ⟨r, -, rfl⟩ := List.mem_map.mp
      ((RolledUsage.mem_trackingIds hrolled t).mp (List.mem_filter.mp ht).1)
    rfl

theorem Interval.forBucket_of_outcome {p : Interval × Bucket}
    (hsub : ∀ e ∈ p.1.events, e.event.subscriptionId = subscriptionId)
    {out : List InvoiceLine × List TrackingId} (h : outcome subscriptionId existing p = .ok out) :
    ∀ l ∈ out.1, l.ForBucket p.1 p.2 subscriptionId := by
  obtain ⟨billed, types, -, -, hout⟩ := reconcileBucket_eq_ok.mp h
  rcases hout with ⟨-, rfl⟩ | ⟨-, rolled, lines, -, hlines, rfl⟩
  · simp
  · exact bucketLines_forBucket hsub hlines

/-- Of the lines that buckets add which do not overlap, those that concern a bucket are its own. -/
theorem Interval.own_lines {ps : List (Interval × Bucket)} {outs : List (List InvoiceLine × List TrackingId)}
    (h : ps.mapM (outcome subscriptionId existing) = .ok outs)
    (hsub : ∀ p ∈ ps, ∀ e ∈ p.1.events, e.event.subscriptionId = subscriptionId)
    (hne : ∀ p ∈ ps, p.2.alignedStart < p.2.finish) (hapart : ps.Pairwise Run.Apart) :
    List.Forall₂ (fun p out => (outs.flatMap (·.1)).filter (concerns subscriptionId p) = out.1) ps outs := by
  have hlines := (List.forall₂_and_left _ _).mpr ⟨hsub, mapM_eq_ok.mp h⟩
  have hparts : List.Forall₂ (fun p ls => ∀ l ∈ ls, l.ForBucket p.1 p.2 subscriptionId) ps (outs.map (·.1)) :=
    List.forall₂_map_right_iff.mpr (hlines.imp fun p out hp => forBucket_of_outcome hp.1 hp.2)
  rw [List.flatMap_def]
  refine List.forall₂_map_right_iff.mp (filter_flatten_own hparts
    (fun p hp l hl => concerns_of_forBucket (hne p hp) hl) (hapart.imp fun hpq l => ?_))
  exact ⟨concerns_of_apart hpq, concerns_of_apart hpq.symm⟩

/-- Each of these buckets adds those of the lines that concern it. -/
theorem Interval.exists_own_lines {ps : List (Interval × Bucket)} {outs : List (List InvoiceLine × List TrackingId)}
    (h : ps.mapM (outcome subscriptionId existing) = .ok outs)
    (hsub : ∀ p ∈ ps, ∀ e ∈ p.1.events, e.event.subscriptionId = subscriptionId)
    (hne : ∀ p ∈ ps, p.2.alignedStart < p.2.finish) (hapart : ps.Pairwise Run.Apart) {p : Interval × Bucket}
    (hp : p ∈ ps) : ∃ out ∈ outs, outcome subscriptionId existing p = .ok out ∧
      (outs.flatMap (·.1)).filter (concerns subscriptionId p) = out.1 := by
  have hboth := (mapM_eq_ok.mp h).mp (fun p out h hown => And.intro h hown) (own_lines h hsub hne hapart)
  exact exists_of_forall₂_left hboth hp

/-- No line of these buckets concerns one that lies apart from all of them. -/
theorem Interval.filter_concerns_of_apart {ps : List (Interval × Bucket)}
    {outs : List (List InvoiceLine × List TrackingId)} (h : ps.mapM (outcome subscriptionId existing) = .ok outs)
    (hsub : ∀ p ∈ ps, ∀ e ∈ p.1.events, e.event.subscriptionId = subscriptionId) {q : Interval × Bucket}
    (hapart : ∀ p ∈ ps, Run.Apart q p) : (outs.flatMap (·.1)).filter (concerns subscriptionId q) = [] := by
  refine List.filter_eq_nil_iff.mpr fun l hl => ?_
  obtain ⟨out, hout, hl⟩ := List.mem_flatMap.mp hl
  obtain ⟨p, hp, hpo⟩ := exists_of_forall₂_right (mapM_eq_ok.mp h) hout
  rw [concerns_of_apart (hapart p hp) (forBucket_of_outcome (hsub p hp) hpo l hl)]
  exact Bool.false_ne_true

theorem Interval.map_filter_concerns {items : List InvoiceItem} {lines : List InvoiceLine}
    (hitems : items.map (·.toInvoiceLine) = lines) (q : Interval × Bucket) :
    (items.filter fun x => concerns subscriptionId q x.toInvoiceLine).map (·.toInvoiceLine) =
      lines.filter (concerns subscriptionId q) := by
  rw [← hitems, List.filter_map]
  rfl

/-! ### Runs -/

/-- The notification dates after those of a result: a date replaces an earlier one of its usage section. -/
def Summary.datesAfter (dates : List (String × Date)) (usageName : String) : Option Date → List (String × Date)
  | none => dates
  | some date => dates.filter (·.1 ≠ usageName) ++ [(usageName, date)]

theorem Summary.addResult_eq (s : Summary InvoiceLine) (usageName : String) (r : Reconciliation InvoiceLine) :
    (s.addResult usageName r).result =
      .ok ⟨s.items ++ r.items, datesAfter s.notificationDates usageName r.nextNotification, s.trackingIds⟩ := by
  rw [addResult]
  cases r.nextNotification with
  | none => rfl
  | some date =>
      dsimp only
      cases s.notificationDates.lookup usageName with
      | none => rfl
      | some previous =>
          dsimp only
          split <;> rfl

namespace Run

theorem addInterval_result (existing : List InvoiceItem) (s : Summary InvoiceLine) (i : Interval) :
    (addInterval existing s i).result = (do
      let r ← (i.reconcile existing).result
      let _ ← i.key
      return ⟨s.items ++ r.items, Summary.datesAfter s.notificationDates i.usage.name r.nextNotification,
        TrackingId.insertAll s.trackingIds r.trackingIds⟩ : Except Error (Summary InvoiceLine)) := by
  rw [addInterval]
  simp only [Logged.result_bind, Logged.result_liftM, Logged.result_emit, Logged.result_pure, Summary.addResult_eq]
  rfl

/-- Reconciling an interval adds the lines and the tracking ids of its buckets. -/
theorem addInterval_eq_ok {i : Interval} (hbuilt : i.isBuilt = true) (hsub : i.subscriptionId = .ok subscriptionId)
    {s : Summary InvoiceLine} {outs : List (List InvoiceLine × List TrackingId)}
    (houts : (i.buckets.map (i, ·)).mapM (Interval.outcome subscriptionId existing) = .ok outs) :
    ∃ s', (addInterval existing s i).result = .ok s' ∧ s'.items = s.items ++ outs.flatMap (·.1) ∧
      s'.trackingIds = TrackingId.insertAll s.trackingIds (TrackingId.collect outs []) := by
  obtain ⟨e, he, -⟩ := bind_eq_ok.mp hsub
  rw [addInterval_result, (Interval.reconcile_eq_ok hsub).mpr ⟨hbuilt, outs, houts, rfl⟩, Interval.key, he]
  exact ⟨_, rfl, rfl, rfl⟩

/-- Reconciling intervals one after the other adds the lines and the tracking ids of all their buckets. -/
theorem foldlM_addInterval {inv : String} {is : List Interval} (hbuilt : ∀ i ∈ is, i.isBuilt = true)
    (hsub : ∀ i ∈ is, i.subscriptionId = .ok subscriptionId) (hinv : ∀ i ∈ is, i.terms.invoiceId = inv)
    {s : Summary InvoiceLine} (hs : ∀ t ∈ s.trackingIds, t.invoiceId = some inv)
    {outs : List (List InvoiceLine × List TrackingId)}
    (houts : (schedule is).mapM (Interval.outcome subscriptionId existing) = .ok outs) :
    ∃ s', is.foldlM (fun s i => (addInterval existing s i).result) s = .ok s' ∧
      s'.items = s.items ++ outs.flatMap (·.1) ∧
      ∀ t, t ∈ s'.trackingIds ↔ t ∈ s.trackingIds ∨ ∃ out ∈ outs, t ∈ out.2 := by
  induction is generalizing s outs with
  | nil =>
      obtain rfl := pure_eq_ok.mp houts
      exact ⟨s, rfl, by simp, by simp⟩
  | cons i is ih =>
      obtain ⟨hbuilti, hbuilt⟩ := List.forall_mem_cons.mp hbuilt
      obtain ⟨hsubi, hsub⟩ := List.forall_mem_cons.mp hsub
      obtain ⟨hinvi, hinv⟩ := List.forall_mem_cons.mp hinv
      obtain ⟨first, rest, hfirst, hrest, rfl⟩ := mapM_append_eq_ok.mp houts
      have hmarked : ∀ out ∈ first, ∀ t ∈ out.2, t.invoiceId = some inv := by
        intro out hout t ht
        obtain ⟨p, hp, hpo⟩ := exists_of_forall₂_right (mapM_eq_ok.mp hfirst) hout
        obtain ⟨b, -, rfl⟩ := List.mem_map.mp hp
        rw [Interval.invoiceId_of_outcome hpo t ht, hinvi]
      have hcollect (t : TrackingId) : t ∈ TrackingId.collect first [] ↔ t ∈ [] ∨ ∃ out ∈ first, t ∈ out.2 :=
        TrackingId.mem_collect hmarked (by simp) t
      have hcollected : ∀ t ∈ TrackingId.collect first [], t.invoiceId = some inv := by
        intro t ht
        rcases (hcollect t).mp ht with ht | ⟨out, hout, ht⟩
        · cases ht
        · exact hmarked out hout t ht
      obtain ⟨s₁, hs₁, hitems₁, hids₁⟩ := addInterval_eq_ok (s := s) hbuilti hsubi hfirst
      have hmem := TrackingId.mem_insertAll hcollected hs
      rw [← hids₁] at hmem
      obtain ⟨s', hs', hitems, hids⟩ := ih hbuilt hsub hinv (s := s₁) (fun t ht => by
        rcases (hmem t).mp ht with ht | ht
        · exact hs t ht
        · exact hcollected t ht) hrest
      refine ⟨s', foldlM_cons_eq_ok.mpr ⟨s₁, hs₁, hs'⟩, ?_, fun t => ?_⟩
      · rw [hitems, hitems₁, List.flatMap_append, List.append_assoc]
      · rw [hids t, hmem t, hcollect t]
        simp only [List.not_mem_nil, false_or, List.mem_append, or_and_right, exists_or, or_assoc]

/-- Intervals that were reconciled have reconciled buckets. -/
theorem outcomes_of_foldlM {is : List Interval} (hsub : ∀ i ∈ is, i.subscriptionId = .ok subscriptionId)
    {s s' : Summary InvoiceLine} (h : is.foldlM (fun s i => (addInterval existing s i).result) s = .ok s') :
    ∃ outs, (schedule is).mapM (Interval.outcome subscriptionId existing) = .ok outs := by
  induction is generalizing s with
  | nil => exact ⟨[], rfl⟩
  | cons i is ih =>
      obtain ⟨hsubi, hsub⟩ := List.forall_mem_cons.mp hsub
      obtain ⟨s₁, hs₁, h⟩ := foldlM_cons_eq_ok.mp h
      obtain ⟨rest, hrest⟩ := ih hsub h
      rw [addInterval_result] at hs₁
      obtain ⟨r, hr, -⟩ := bind_eq_ok.mp hs₁
      obtain ⟨-, first, hfirst, -⟩ := (Interval.reconcile_eq_ok hsubi).mp hr
      exact ⟨first ++ rest, mapM_append_eq_ok.mpr ⟨first, rest, hfirst, hrest, rfl⟩⟩

/-! ### What a run gives -/

/-- A summary holds the lines and the tracking ids that some buckets add. -/
structure Summarizes (s : Summary InvoiceLine) (outs : List (List InvoiceLine × List TrackingId)) : Prop where
  items : s.items = outs.flatMap (·.1)
  trackingIds : ∀ t, t ∈ s.trackingIds ↔ ∃ out ∈ outs, t ∈ out.2

variable {request : RunRequest} {given : Option Settings} {inUse : Except Error Settings} {run : Run}
  {is : List Interval}

theorem subscription_of_recorded (hcreate : create request given inUse = .ok run) (his : run.intervals = .ok is)
    {i : Interval} (hi : i ∈ is) : ∀ e ∈ i.events, e.event.subscriptionId = run.subscriptionId := by
  obtain ⟨hid, -, hevents, -⟩ := create_eq_ok.mp hcreate
  obtain ⟨ρ, hρ⟩ := exists_built hcreate his hi
  intro e he
  rw [hρ.recorded] at he
  exact (subscriptionOf_eq_ok.mp hid).2 _ (hevents ▸ Timeline.event_mem_of_mem_recorded he)

theorem subscription_of_mem_schedule (hcreate : create request given inUse = .ok run)
    (his : run.intervals = .ok is) {p : Interval × Bucket} (hp : p ∈ schedule is) :
    ∀ e ∈ p.1.events, e.event.subscriptionId = run.subscriptionId :=
  subscription_of_recorded hcreate his (mem_schedule.mp hp).1

theorem subscriptionId_of_interval (hcreate : create request given inUse = .ok run) (his : run.intervals = .ok is)
    {i : Interval} (hi : i ∈ is) : i.subscriptionId = .ok run.subscriptionId := by
  obtain ⟨ρ, hρ⟩ := exists_built hcreate his hi
  obtain ⟨e, he, -⟩ := hρ.maximal.opened
  obtain ⟨hid, -, hevents, -⟩ := create_eq_ok.mp hcreate
  rw [Interval.subscriptionId, hρ.firstEvent_eq he, ok_bind,
    (subscriptionOf_eq_ok.mp hid).2 e (hevents ▸ List.mem_of_getElem? he)]
  rfl

theorem reconcile_result (run : Run) (existing : List InvoiceItem) : (run.reconcile existing).result = (do
    let is ← run.intervals
    is.foldlM (fun s i => (addInterval existing s i).result) .empty : Except Error (Summary InvoiceLine)) := by
  rw [reconcile, body, Logged.result_within]
  simp only [Logged.result_bind, Logged.result_liftM, Logged.result_foldlM, Logged.result_emit, Logged.result_pure]
  apply bind_congr
  intro is
  simp only [ok_bind]
  exact bind_pure _

/-- A run succeeds when all buckets of its schedule do. -/
theorem reconcile_of_outcomes (hcreate : create request given inUse = .ok run) (his : run.intervals = .ok is)
    {outs : List (List InvoiceLine × List TrackingId)}
    (houts : (schedule is).mapM (Interval.outcome run.subscriptionId existing) = .ok outs) :
    ∃ s, (run.reconcile existing).result = .ok s ∧ Summarizes s outs := by
  have hbuilt : ∀ i ∈ is, i.isBuilt = true ∧ i.terms = run.terms := by
    intro i hi
    obtain ⟨ρ, hρ⟩ := exists_built hcreate his hi
    exact ⟨hρ.built, hρ.terms⟩
  obtain ⟨s, hs, hitems, hids⟩ := foldlM_addInterval (s := .empty) (fun i hi => (hbuilt i hi).1)
    (fun i hi => subscriptionId_of_interval hcreate his hi) (fun i hi => by rw [(hbuilt i hi).2])
    (by simp [Summary.empty]) houts
  refine ⟨s, ?_, by simpa [Summary.empty] using hitems, by simpa [Summary.empty] using hids⟩
  rw [reconcile_result, his, ok_bind, hs]

/-- What a run gives is what the buckets of its schedule add. -/
theorem reconcile_spec (hcreate : create request given inUse = .ok run) {s : Summary InvoiceLine}
    (h : (run.reconcile existing).result = .ok s) : ∃ is outs, run.intervals = .ok is ∧
      (schedule is).mapM (Interval.outcome run.subscriptionId existing) = .ok outs ∧ Summarizes s outs := by
  have hrun := h
  rw [reconcile_result] at h
  obtain ⟨is, his, h⟩ := bind_eq_ok.mp h
  obtain ⟨outs, houts⟩ := outcomes_of_foldlM (fun i hi => subscriptionId_of_interval hcreate his hi) h
  obtain ⟨s'', hs'', hsum⟩ := reconcile_of_outcomes hcreate his houts
  obtain rfl : s = s'' := Except.ok.inj (hrun.symm.trans hs'')
  exact ⟨is, outs, his, houts, hsum⟩

end Run
end UsageBilling
