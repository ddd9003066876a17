import UsageBilling.Proofs.Interval.ItemOrder
import UsageBilling.Proofs.Run.Acceptance
import UsageBilling.Proofs.Run.History
import UsageBilling.Proofs.Run.Terms

/-! The order of what a run is given, and what of it is foreign to the run. Records of the subscription come in any
order, and those of others have no part in the run (`create_records`). Of the items that exist, a run looks at those
for usage sections of its own (`perform_foreign`), whichever order they are in where their sums need no rounding
(`perform_perm`). -/

namespace UsageBilling

variable {existing existing' : List InvoiceItem} {subscriptionId : String}

/-! ### Intervals -/

namespace Interval

variable {i : Interval}

theorem reconcile_congr (hid : i.subscriptionId = .ok subscriptionId)
    (h : i.relevantItems subscriptionId existing' = i.relevantItems subscriptionId existing) :
    i.reconcile existing' = i.reconcile existing := by
  have hgiven (f : String → Logged (Reconciliation InvoiceLine)) :
      ((liftM (.ok subscriptionId : Except Error String) : Logged String) >>= f) = f subscriptionId := rfl
  rw [reconcile, reconcile, hid, hgiven, hgiven, h]

theorem reconcile_perm (hid : i.subscriptionId = .ok subscriptionId) (hperm : existing'.Perm existing)
    (hsums : ∀ b ∈ i.buckets, ∀ unitType, SameSums (invoicedOf subscriptionId (i, b) unitType existing')
      (invoicedOf subscriptionId (i, b) unitType existing)) :
    (i.reconcile existing').result.mapError Error.kind = (i.reconcile existing).result.mapError Error.kind := by
  rw [reconcile_result, reconcile_result, hid]
  cases i.isBuilt with
  | false => rfl
  | true =>
      have houts : i.buckets.mapM (fun b => (outcome subscriptionId existing' (i, b)).mapError Error.kind) =
          i.buckets.mapM (fun b => (outcome subscriptionId existing (i, b)).mapError Error.kind) :=
        mapM_congr fun b hb => outcome_perm hperm (hsums b hb)
      simp only [Bool.not_true, Bool.false_eq_true, if_false, ok_bind, mapError_bind, mapError_mapM, houts]

end Interval

namespace Run

open UsageBilling.Interval

variable {request : RunRequest} {given : Option Settings} {inUse : Except Error Settings} {run : Run}
  {is : List Interval}

/-! ### Records -/

/-- A run is prepared alike whichever order the records of its subscription come in, and whatever records of other
subscriptions are among them. -/
theorem create_records (hcreate : create request given inUse = .ok run) {records : List RawUsage}
    (hperm : (records.filter (·.subscriptionId = run.subscriptionId)).Perm
      (request.rawUsage.filter (·.subscriptionId = run.subscriptionId)))
    (hdistinct : ((request.rawUsage.filter (·.subscriptionId = run.subscriptionId)).map RawUsage.orderKey).Nodup) :
    create { request with rawUsage := records } given inUse = .ok run := by
  obtain ⟨hid, hsorted, hevents, settings, hsettings, hterms⟩ := create_eq_ok.mp hcreate
  have hrecords : RawUsage.ofSubscription records run.subscriptionId =
      RawUsage.ofSubscription request.rawUsage run.subscriptionId := RawUsage.sorted_perm hperm hdistinct
  refine create_eq_ok.mpr ⟨hid, hsorted, hevents, settings, hsettings, hterms.trans ?_⟩
  simp only [termsOf, hrecords]

/-! ### Foreign items -/

/-- Whether an item is one for usage of the subscription and has the name of a section of one of the intervals. -/
def regards (run : Run) (is : List Interval) (x : InvoiceItem) : Bool :=
  x.itemType = .usage && x.subscriptionId = run.subscriptionId && is.any fun i => x.usageName = i.usage.name

theorem relevantItems_regards {i : Interval} (hi : i ∈ is) (existing : List InvoiceItem) :
    i.relevantItems run.subscriptionId (existing.filter (run.regards is)) =
      i.relevantItems run.subscriptionId existing := by
  rw [relevantItems, relevantItems, List.filter_filter]
  apply List.filter_congr
  intro x _
  rw [Bool.and_eq_left_iff_imp]
  simp only [regards, Bool.and_eq_true, decide_eq_true_eq, List.any_eq_true]
  rintro ⟨⟨htype, hname⟩, hid⟩
  exact ⟨⟨htype, hid⟩, i, hi, hname⟩

/-- Items that are foreign to a run have no part in it. -/
theorem perform_foreign (hcreate : create request given inUse = .ok run)
    (h : ∀ is, run.intervals = .ok is → existing'.filter (run.regards is) = existing.filter (run.regards is)) :
    perform request given inUse existing' = perform request given inUse existing := by
  rw [perform, perform, hcreate, ok_bind, ok_bind, reconcile_result, reconcile_result]
  cases his : run.intervals with
  | error e => rfl
  | ok is =>
      apply foldlM_congr
      intro s i hi
      have hitems : i.relevantItems run.subscriptionId existing' = i.relevantItems run.subscriptionId existing := by
        rw [← relevantItems_regards hi, h is his, relevantItems_regards hi]
      rw [addInterval_result, addInterval_result,
        reconcile_congr (subscriptionId_of_interval hcreate his hi) hitems]

/-! ### The order of items -/

/-- In no bucket of a run does a sum of the amounts or of the quantities invoiced for a unit type need rounding. -/
def SumsUnrounded (run : Run) (existing : List InvoiceItem) : Prop :=
  ∀ is, run.intervals = .ok is → ∀ p ∈ schedule is, ∀ unitType,
    Decimal.Unrounded ((invoicedOf run.subscriptionId p unitType existing).map (·.amount)) ∧
      Decimal.Unrounded ((invoicedOf run.subscriptionId p unitType existing).filterMap (·.quantity))

/-- No sum of a run needs rounding where no sum of any of the amounts or of any of the quantities does. -/
theorem sumsUnrounded_of_sublists (run : Run)
    (hamounts : ∀ xs, xs.Sublist (existing.map (·.amount)) → Decimal.Unrounded xs)
    (hquantities : ∀ xs, xs.Sublist (existing.filterMap (·.quantity)) → Decimal.Unrounded xs) :
    run.SumsUnrounded existing := by
  intro is _ p _ unitType
  have hsublist : (invoicedOf run.subscriptionId p unitType existing).Sublist existing := List.filter_sublist
  exact ⟨hamounts _ (hsublist.map _), hquantities _ (hsublist.filterMap _)⟩

/-- The items that exist may come in any order where no sum needs rounding, but for the item that an error names. -/
theorem perform_perm (hcreate : create request given inUse = .ok run) (hperm : existing'.Perm existing)
    (hsums : run.SumsUnrounded existing) (hsums' : run.SumsUnrounded existing') :
    (perform request given inUse existing').mapError Error.kind =
      (perform request given inUse existing).mapError Error.kind := by
  rw [perform, perform, hcreate, ok_bind, ok_bind, reconcile_result, reconcile_result]
  cases his : run.intervals with
  | error e => rfl
  | ok is =>
      rw [ok_bind, ok_bind, mapError_foldlM, mapError_foldlM]
      apply foldlM_congr
      intro s i hi
      have hsame : ∀ b ∈ i.buckets, ∀ unitType,
          SameSums (invoicedOf run.subscriptionId (i, b) unitType existing')
            (invoicedOf run.subscriptionId (i, b) unitType existing) := by
        intro b hb unitType
        have hinvoiced : (invoicedOf run.subscriptionId (i, b) unitType existing').Perm
            (invoicedOf run.subscriptionId (i, b) unitType existing) := hperm.filter _
        have hp : (i, b) ∈ schedule is := mem_schedule.mpr ⟨hi, hb⟩
        obtain ⟨ha, hq⟩ := hsums is his (i, b) hp unitType
        obtain ⟨ha', hq'⟩ := hsums' is his (i, b) hp unitType
        exact ⟨ha.sum_perm ha' (hinvoiced.map _), hq.sum_perm hq' (hinvoiced.filterMap _)⟩
      have hreconcile := reconcile_perm (subscriptionId_of_interval hcreate his hi) hperm hsame
      rw [addInterval_result, addInterval_result, mapError_bind, mapError_bind, hreconcile]

/-- A run depends neither on the order of what it is given nor on what is foreign to it. Where the order of records
tells those of the subscription apart, they may be given in any order and among any records of other subscriptions.
Items may be added and removed that are not for usage, or not of the subscription, or for a usage section that none of
the intervals has. Where no sum of their amounts or quantities needs rounding the items may be given in any order; a
run that fails then fails with an error of the same kind. -/
theorem input_order_neutral (hcreate : create request given inUse = .ok run) :
    (∀ records existing, (records.filter (·.subscriptionId = run.subscriptionId)).Perm
        (request.rawUsage.filter (·.subscriptionId = run.subscriptionId)) →
      ((request.rawUsage.filter (·.subscriptionId = run.subscriptionId)).map RawUsage.orderKey).Nodup →
      perform { request with rawUsage := records } given inUse existing = perform request given inUse existing) ∧
    (∀ existing existing', (∀ is, run.intervals = .ok is →
        existing'.filter (run.regards is) = existing.filter (run.regards is)) →
      perform request given inUse existing' = perform request given inUse existing) ∧
    ∀ existing existing', existing'.Perm existing → run.SumsUnrounded existing → run.SumsUnrounded existing' →
      (perform request given inUse existing').mapError Error.kind =
        (perform request given inUse existing).mapError Error.kind := by
  refine ⟨?_, ?_, ?_⟩
  · intro records existing hperm hdistinct
    rw [perform, perform, create_records hcreate hperm hdistinct, hcreate]
  · intro existing existing' h
    exact perform_foreign hcreate h
  · intro existing existing' hperm hsums hsums'
    exact perform_perm hcreate hperm hsums hsums'

namespace Sample

def eightCalls : RunRequest := Sample.request [opening] [report, secondReport] february

end Sample

/-- Of the sixteen due for eight calls ten are owed when four and two were invoiced, in either order of the records
and of the items, and whatever is invoiced for seats. -/
theorem input_order_neutral_eight : let first := Sample.invoicedCalls "first" (.ofNat 4)
    let second := Sample.invoicedCalls "second" (.ofNat 2)
    let outcome := perform Sample.eightCalls (some Sample.settings) (.ok Sample.settings) [first, second]
    perform { Sample.eightCalls with rawUsage := [Sample.secondReport, { Sample.report with subscriptionId := "other" },
        Sample.report] } (some Sample.settings) (.ok Sample.settings) [first, second] = outcome ∧
      perform Sample.eightCalls (some Sample.settings) (.ok Sample.settings) [first, Sample.paid .nan, second] =
        outcome ∧
      (perform Sample.eightCalls (some Sample.settings) (.ok Sample.settings) [second, first]).mapError Error.kind =
        outcome.mapError Error.kind ∧
      outcome.map (·.items.map (·.amount)) = .ok [.ofNat 10] := by
  intro first second outcome
  have hcreate : create Sample.eightCalls (some Sample.settings) (.ok Sample.settings) =
      .ok (Sample.run [Sample.opening] [Sample.report, Sample.secondReport] Sample.february) := by
    refine create_eq_ok.mpr ⟨by decide +kernel, by decide +kernel, rfl, Sample.settings, rfl, ?_⟩
    have hsorted : [Sample.report, Sample.secondReport] =
        RawUsage.ofSubscription [Sample.report, Sample.secondReport] "subscription" :=
      (List.mergeSort_of_pairwise (by decide +kernel)).symm
    exact congrArg (fun records => (Sample.run [] records Sample.february).terms) hsorted
  have hunrounded (xs : List InvoiceItem) (hamounts : ∀ ys ∈ (xs.map (·.amount)).sublists, Decimal.Unrounded ys)
      (hquantities : ∀ ys ∈ (xs.filterMap (·.quantity)).sublists, Decimal.Unrounded ys) :
      (Sample.run [Sample.opening] [Sample.report, Sample.secondReport] Sample.february).SumsUnrounded xs :=
    sumsUnrounded_of_sublists _ (fun ys hys => hamounts ys (List.mem_sublists.mpr hys))
      (fun ys hys => hquantities ys (List.mem_sublists.mpr hys))
  obtain ⟨hrecords, hforeign, horder⟩ := input_order_neutral hcreate
  refine ⟨?_, ?_, ?_, ?_⟩
  · exact hrecords _ _ (by decide +kernel) (by decide +kernel)
  · refine hforeign _ _ fun is his => ?_
    have hnames : is.map (·.usage.name) = ["api"] := by
      have hall : (Sample.run [Sample.opening] [Sample.report, Sample.secondReport] Sample.february).intervals.map
          (·.map (·.usage.name)) = .ok ["api"] := by decide +kernel
      rw [his] at hall
      exact Except.ok.inj hall
    have hseats : regards (Sample.run [Sample.opening] [Sample.report, Sample.secondReport] Sample.february) is
        (Sample.paid .nan) = false := by
      have hany : (is.map (·.usage.name)).any (fun name => decide ("seats" = name)) = false := by
        rw [hnames]
        decide
      rw [List.any_map] at hany
      rw [regards, Bool.and_eq_false_iff]
      exact Or.inr hany
    simp only [List.filter_cons, hseats, Bool.false_eq_true, if_false]
  · exact horder _ _ (List.Perm.swap _ _ _) (hunrounded _ (by decide +kernel) (by decide +kernel))
      (hunrounded _ (by decide +kernel) (by decide +kernel))
  · change (perform Sample.eightCalls (some Sample.settings) (.ok Sample.settings) [first, second]).map _ = _
    rw [perform, hcreate]
    decide +kernel

end Run
end UsageBilling
