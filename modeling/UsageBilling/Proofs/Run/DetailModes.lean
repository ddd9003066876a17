import UsageBilling.Proofs.Interval.DetailModes
import UsageBilling.Proofs.Run.ActivityIntervals

/-! Runs in both detail modes. Where a run succeeds in both of them, they bill the same money bucket by bucket, set
the same notification dates and consume the same tracking ids (`detail_modes_bill_same_money`). -/

namespace UsageBilling

open UsageBilling.Interval Decimal

/-- Whether a line is one for some dates and a unit type of a usage section. -/
def InvoiceLine.isFor (usageName : String) (start finish : Date) (unitType : Option String) (l : InvoiceLine) : Bool :=
  l.usageName = usageName && l.startDate = start && l.endDate = finish && l.unitType = unitType

def RunRequest.inMode (mode : DetailMode) (request : RunRequest) : RunRequest :=
  { request with detailMode := some mode }

variable {subscriptionId : String} {existing : List InvoiceItem}

/-! ### Lines of one bucket -/

namespace Interval.SameMoney

variable {ps : List (Interval × Bucket)} {parts : List (List InvoiceLine × List InvoiceLine)} {p : Interval × Bucket}
  {lines lines' : List InvoiceLine} {usageName : String} {start finish : Date}

theorem filter_isFor_of_eq (h : ∀ l ∈ lines, l.ForBucket p.1 p.2 subscriptionId) (hname : p.1.usage.name = usageName)
    (hstart : p.2.alignedStart = start) (hfinish : p.2.finish = finish) (unitType : Option String) :
    lines.filter (InvoiceLine.isFor usageName start finish unitType) = lines.filter (·.unitType = unitType) := by
  apply List.filter_congr
  intro l hl
  obtain ⟨-, hlname, -, hlstart, hlfinish⟩ := h l hl
  simp [InvoiceLine.isFor, hlname, hlstart, hlfinish, hname, hstart, hfinish]

theorem filter_isFor_of_ne (h : ∀ l ∈ lines, l.ForBucket p.1 p.2 subscriptionId)
    (hne : ¬ (p.1.usage.name = usageName ∧ p.2.alignedStart = start ∧ p.2.finish = finish)) (unitType : Option String) :
    lines.filter (InvoiceLine.isFor usageName start finish unitType) = [] := by
  apply List.filter_eq_nil_iff.mpr
  intro l hl hfor
  obtain ⟨-, hlname, -, hlstart, hlfinish⟩ := h l hl
  simp only [InvoiceLine.isFor, Bool.and_eq_true, decide_eq_true_eq] at hfor
  obtain ⟨⟨⟨hname, hstart⟩, hfinish⟩, -⟩ := hfor
  exact hne ⟨hlname.symm.trans hname, hlstart.symm.trans hstart, hlfinish.symm.trans hfinish⟩

/-- Lines of several buckets that bill the same money bill the same money for any dates, if the buckets of one name
do not overlap. -/
theorem sameSum_isFor (h : List.Forall₂ (fun p part => SameMoney subscriptionId p part.1 part.2) ps parts)
    (hnonempty : ∀ p ∈ ps, p.2.alignedStart < p.2.finish) (hapart : ps.Pairwise Run.Apart) (usageName : String)
    (start finish : Date) (unitType : Option String) :
    SameSum (((parts.flatMap (·.1)).filter (InvoiceLine.isFor usageName start finish unitType)).map (·.amount))
      (((parts.flatMap (·.2)).filter (InvoiceLine.isFor usageName start finish unitType)).map (·.amount)) := by
  induction h with
  | nil => exact sameSum_nil
  | @cons p part ps parts hp hrest ih =>
      obtain ⟨hnonemptyp, hnonempty⟩ := List.forall_mem_cons.mp hnonempty
      obtain ⟨hapartp, hapart⟩ := List.pairwise_cons.mp hapart
      rw [List.flatMap_cons, List.flatMap_cons, List.filter_append, List.filter_append]
      by_cases heq : p.1.usage.name = usageName ∧ p.2.alignedStart = start ∧ p.2.finish = finish
      · obtain ⟨rfl, rfl, rfl⟩ := heq
        have hother : ∀ q ∈ ps, ¬ (q.1.usage.name = p.1.usage.name ∧ q.2.alignedStart = p.2.alignedStart ∧
            q.2.finish = p.2.finish) := by
          rintro q hq ⟨hname, hstart, hfinish⟩
          have hpq := hapartp q hq hname.symm
          rw [hstart, hfinish, or_self] at hpq
          exact absurd hnonemptyp (Nat.not_lt.mpr hpq)
        have hnone : (parts.flatMap (·.1)).filter
            (InvoiceLine.isFor p.1.usage.name p.2.alignedStart p.2.finish unitType) = [] ∧
            (parts.flatMap (·.2)).filter
              (InvoiceLine.isFor p.1.usage.name p.2.alignedStart p.2.finish unitType) = [] := by
          rw [List.filter_flatMap, List.filter_flatMap, List.flatMap_eq_nil_iff, List.flatMap_eq_nil_iff]
          constructor <;> intro part hpart <;> obtain ⟨q, hq, hsame⟩ := exists_of_forall₂_right hrest hpart
          · exact filter_isFor_of_ne hsame.aggregate (hother q hq) unitType
          · exact filter_isFor_of_ne hsame.detail (hother q hq) unitType
        rw [hnone.1, hnone.2, List.append_nil, List.append_nil, filter_isFor_of_eq hp.aggregate rfl rfl rfl,
          filter_isFor_of_eq hp.detail rfl rfl rfl]
        exact hp.sums unitType
      · rw [filter_isFor_of_ne hp.aggregate heq, filter_isFor_of_ne hp.detail heq, List.nil_append, List.nil_append]
        exact ih hnonempty hapart

end Interval.SameMoney

namespace Run

open Terms

/-! ### Dates and tracking ids -/

/-- An interval has the same notification date and the same tracking ids in both modes. -/
theorem reconcile_modes {i : Interval} (hid : i.subscriptionId = .ok subscriptionId)
    (hsub : ∀ e ∈ i.events, e.event.subscriptionId = subscriptionId) {r r' : Reconciliation InvoiceLine}
    (ha : ((i.under (inMode .aggregate)).reconcile existing).result = .ok r)
    (hd : ((i.under (inMode .detail)).reconcile existing).result = .ok r') :
    r.nextNotification = r'.nextNotification ∧ r.trackingIds = r'.trackingIds := by
  obtain ⟨-, outs, houts, rfl⟩ := (reconcile_eq_ok (i := i.under (inMode .aggregate)) hid).mp ha
  obtain ⟨-, outs', houts', rfl⟩ := (reconcile_eq_ok (i := i.under (inMode .detail)) hid).mp hd
  refine ⟨rfl, TrackingId.collect_congr ?_ []⟩
  rw [List.mapM_map, buckets_under] at houts houts'
  apply forall₂_of_common (mapM_eq_ok.mp houts) (mapM_eq_ok.mp houts')
  intro b out out' hout hout'
  exact (outcome_modes (p := (i, b)) hsub hout hout').2

/-- Intervals that are reconciled in both modes set the same notification dates and consume the same tracking
ids. -/
theorem foldlM_modes {is : List Interval} (hid : ∀ i ∈ is, i.subscriptionId = .ok subscriptionId)
    (hsub : ∀ i ∈ is, ∀ e ∈ i.events, e.event.subscriptionId = subscriptionId) {s s' t t' : Summary InvoiceLine}
    (hdates : s.notificationDates = s'.notificationDates) (hids : s.trackingIds = s'.trackingIds)
    (ha : (is.map (Interval.under (inMode .aggregate))).foldlM (fun s i => (addInterval existing s i).result) s = .ok t)
    (hd : (is.map (Interval.under (inMode .detail))).foldlM (fun s i => (addInterval existing s i).result) s' =
      .ok t') :
    t.notificationDates = t'.notificationDates ∧ t.trackingIds = t'.trackingIds := by
  induction is generalizing s s' with
  | nil =>
      obtain rfl := pure_eq_ok.mp ha
      obtain rfl := pure_eq_ok.mp hd
      exact ⟨hdates, hids⟩
  | cons i is ih =>
      obtain ⟨hidi, hid⟩ := List.forall_mem_cons.mp hid
      obtain ⟨hsubi, hsub⟩ := List.forall_mem_cons.mp hsub
      obtain ⟨s₁, hs₁, ha⟩ := foldlM_cons_eq_ok.mp ha
      obtain ⟨s₁', hs₁', hd⟩ := foldlM_cons_eq_ok.mp hd
      rw [addInterval_result] at hs₁ hs₁'
      obtain ⟨r, hr, hs₁⟩ := bind_eq_ok.mp hs₁
      obtain ⟨r', hr', hs₁'⟩ := bind_eq_ok.mp hs₁'
      obtain ⟨key, -, hs₁⟩ := bind_eq_ok.mp hs₁
      obtain ⟨key', -, hs₁'⟩ := bind_eq_ok.mp hs₁'
      obtain rfl := pure_eq_ok.mp hs₁
      obtain rfl := pure_eq_ok.mp hs₁'
      obtain ⟨hnext, hconsumed⟩ := reconcile_modes hidi hsubi hr hr'
      refine ih hid hsub ?_ ?_ ha hd
      · simp only [hdates, hnext, usage_under]
      · simp only [hids, hconsumed]

/-! ### Runs -/

variable {request : RunRequest} {given : Option Settings} {inUse : Except Error Settings} {s s' : Summary InvoiceLine}

theorem create_inMode (mode : DetailMode) (request : RunRequest) (given : Option Settings)
    (inUse : Except Error Settings) : create (request.inMode mode) given inUse =
      under (inMode mode) <$> create request given inUse := by
  apply create_under
  · rfl
  · intro id settings
    rfl

/-- A run that succeeds in a detail mode is that of the request, under the terms in that mode. -/
theorem perform_inMode {mode : DetailMode} (h : perform (request.inMode mode) given inUse existing = .ok s) :
    ∃ run is, create request given inUse = .ok run ∧ run.intervals = .ok is ∧
      (is.map (Interval.under (inMode mode))).foldlM (fun s i => (addInterval existing s i).result) .empty = .ok s := by
  rw [perform, create_inMode, bind_map_left] at h
  obtain ⟨run, hcreate, h⟩ := bind_eq_ok.mp h
  rw [reconcile_result, intervals_under (keepsDates_inMode mode), bind_map_left] at h
  obtain ⟨is, his, h⟩ := bind_eq_ok.mp h
  exact ⟨run, is, hcreate, his, h⟩

/-- The buckets of a run in a detail mode, and what they add. -/
theorem outcomes_inMode {mode : DetailMode} {run : Run} {is : List Interval}
    (hcreate : create request given inUse = .ok run) (his : run.intervals = .ok is)
    (h : (is.map (Interval.under (inMode mode))).foldlM (fun s i => (addInterval existing s i).result) .empty = .ok s) :
    ∃ outs, List.Forall₂ (fun p out => outcome run.subscriptionId existing (p.1.under (inMode mode), p.2) = .ok out)
      (schedule is) outs ∧ s.items = outs.flatMap (·.1) := by
  have hcreate' : create (request.inMode mode) given inUse = .ok (run.under (inMode mode)) := by
    rw [create_inMode, hcreate]
    rfl
  have his' : (run.under (inMode mode)).intervals = .ok (is.map (Interval.under (inMode mode))) := by
    rw [intervals_under (keepsDates_inMode mode), his]
    rfl
  have hs : ((run.under (inMode mode)).reconcile existing).result = .ok s := by
    rw [reconcile_result, his', ok_bind, h]
  obtain ⟨js, outs, hjs, houts, hsum⟩ := reconcile_spec hcreate' hs
  obtain rfl := Except.ok.inj (his'.symm.trans hjs)
  rw [schedule_under, mapM_eq_ok, List.forall₂_map_left_iff] at houts
  exact ⟨outs, houts, hsum.items⟩

/-- A run that succeeds in both detail modes bills the same money in them: there are pairs of lines, one for each
bucket, that make up the items in the two modes, and the lines of a bucket have sums of equal value for each unit
type, of which none or both are empty; those of a capacity section are the same. So have the items for any dates of
a usage name and a unit type. The notification dates and the consumed tracking ids are the same. -/
theorem detail_modes_bill_same_money (ha : perform (request.inMode .aggregate) given inUse existing = .ok s)
    (hd : perform (request.inMode .detail) given inUse existing = .ok s') :
    s.notificationDates = s'.notificationDates ∧ s.trackingIds = s'.trackingIds ∧
    ∃ (run : Run) (is : List Interval) (parts : List (List InvoiceLine × List InvoiceLine)),
      create request given inUse = .ok run ∧ run.intervals = .ok is ∧
      s.items = parts.flatMap (·.1) ∧ s'.items = parts.flatMap (·.2) ∧
      List.Forall₂ (fun p part => SameMoney run.subscriptionId p part.1 part.2) (schedule is) parts ∧
      (run.terms.zone.Covered → ∀ usageName start finish unitType,
        SameSum ((s.items.filter (InvoiceLine.isFor usageName start finish unitType)).map (·.amount))
          ((s'.items.filter (InvoiceLine.isFor usageName start finish unitType)).map (·.amount))) := by
  obtain ⟨run, is, hcreate, his, ha⟩ := perform_inMode ha
  obtain ⟨run', is', hcreate', his', hd⟩ := perform_inMode hd
  obtain rfl := Except.ok.inj (hcreate.symm.trans hcreate')
  obtain rfl := Except.ok.inj (his.symm.trans his')
  obtain ⟨outs, houts, hitems⟩ := outcomes_inMode hcreate his ha
  obtain ⟨outs', houts', hitems'⟩ := outcomes_inMode hcreate his hd
  obtain ⟨hdates, hids⟩ := foldlM_modes (s := .empty) (fun i hi => subscriptionId_of_interval hcreate his hi)
    (fun i hi => subscription_of_recorded hcreate his hi) rfl rfl ha hd
  obtain ⟨pairs, hpairs, rfl, rfl⟩ := exists_pairs_of_common houts houts'
    (T := fun p pair => SameMoney run.subscriptionId p pair.1.1 pair.2.1) fun p hp out out' hout hout' =>
      (outcome_modes (subscription_of_mem_schedule hcreate his hp) hout hout').1
  have hparts : List.Forall₂ (fun p part => SameMoney run.subscriptionId p part.1 part.2) (schedule is)
      (pairs.map fun pair => (pair.1.1, pair.2.1)) := List.forall₂_map_right_iff.mpr hpairs
  have hlines : s.items = (pairs.map fun pair => (pair.1.1, pair.2.1)).flatMap (·.1) := by
    rw [hitems, List.flatMap_map, List.flatMap_map]
  have hlines' : s'.items = (pairs.map fun pair => (pair.1.1, pair.2.1)).flatMap (·.2) := by
    rw [hitems', List.flatMap_map, List.flatMap_map]
  refine ⟨hdates, hids, run, is, _, hcreate, his, hlines, hlines', hparts, ?_⟩
  intro hzone usageName start finish unitType
  rw [hlines, hlines']
  refine SameMoney.sameSum_isFor hparts ?_ (schedule_pairwise_apart hcreate hzone his) usageName start finish unitType
  intro p hp
  obtain ⟨_, _, -, -, hwithin⟩ := within_of_mem_schedule hcreate his hp
  exact hwithin.nonempty

/-- Calls of which the first three of a month cost twice as much. -/
def Sample.tieredCalls : Usage :=
  { Sample.calls with tiers := [
      ⟨[⟨"calls", .ofNat 1, .ofNat 2, some (.ofNat 3)⟩], [], none⟩, ⟨[⟨"calls", .ofNat 1, .ofNat 1, none⟩], [], none⟩] }

/-- Five of these calls in January 2022. -/
def Sample.tiered : RunRequest :=
  Sample.request [Sample.event Interval.Sample.firstDay [Sample.tieredCalls]] [Sample.report] Sample.february

/-- The five calls are one line in one mode, and two lines in the other. -/
theorem detail_modes_bill_same_money_tiered : ∃ s s' : Summary InvoiceLine,
    perform (Sample.tiered.inMode .aggregate) (some Sample.settings) (.ok Sample.settings) [] = .ok s ∧
      perform (Sample.tiered.inMode .detail) (some Sample.settings) (.ok Sample.settings) [] = .ok s' ∧
      s.items.map (·.amount) = [.ofNat 8] ∧ s'.items.map (·.amount) = [.ofNat 6, .ofNat 2] ∧
      s.notificationDates = s'.notificationDates ∧ s.trackingIds = s'.trackingIds := by
  obtain ⟨s, hs⟩ := exists_ok_of_isOk (x := perform (Sample.tiered.inMode .aggregate) (some Sample.settings)
    (.ok Sample.settings) []) (by decide +kernel)
  obtain ⟨s', hs'⟩ := exists_ok_of_isOk (x := perform (Sample.tiered.inMode .detail) (some Sample.settings)
    (.ok Sample.settings) []) (by decide +kernel)
  have hone : (perform (Sample.tiered.inMode .aggregate) (some Sample.settings) (.ok Sample.settings) []).map
      (·.items.map (·.amount)) = .ok [.ofNat 8] := by decide +kernel
  have htwo : (perform (Sample.tiered.inMode .detail) (some Sample.settings) (.ok Sample.settings) []).map
      (·.items.map (·.amount)) = .ok [.ofNat 6, .ofNat 2] := by decide +kernel
  rw [hs] at hone
  rw [hs'] at htwo
  obtain ⟨hdates, hids, -⟩ := detail_modes_bill_same_money hs hs'
  exact ⟨s, s', hs, hs', Except.ok.inj hone, Except.ok.inj htwo, hdates, hids⟩

end Run
end UsageBilling
