import UsageBilling.Proofs.Run.Reconciliation
import UsageBilling.Proofs.Timeline.Terms

/-! Runs under different terms. A request that changes only the terms gives the run under these terms
(`Run.create_under`). Where the terms agree on the dates, the run has the same intervals under them, and the same
buckets (`Run.intervals_under`, `Run.schedule_under`). -/

namespace UsageBilling

variable {g : Terms → Terms}

namespace Run

def perform (request : RunRequest) (given : Option Settings) (inUse : Except Error Settings)
    (existing : List InvoiceItem) : Except Error (Summary InvoiceLine) := do
  let run ← create request given inUse
  (run.reconcile existing).result

def under (g : Terms → Terms) (run : Run) : Run := { run with terms := g run.terms }

theorem create_eq (request : RunRequest) (given : Option Settings) (inUse : Except Error Settings) :
    create request given inUse = (do
      let subscriptionId ← subscriptionOf request.events
      checkSorted request.events
      let settings ← settingsFor given inUse
      return ⟨subscriptionId, termsOf request subscriptionId settings, request.events⟩) := by
  rw [create]
  cases given <;> rfl

/-- A request that changes only the terms gives the run under these terms. -/
theorem create_under {request request' : RunRequest} (hevents : request'.events = request.events)
    (hterms : ∀ id settings, termsOf request' id settings = g (termsOf request id settings))
    (given : Option Settings) (inUse : Except Error Settings) :
    create request' given inUse = under g <$> create request given inUse := by
  simp only [create_eq, hevents, hterms, map_bind, map_pure, under]

theorem intervals_under (hg : Terms.KeepsDates g) (run : Run) :
    (run.under g).intervals = List.map (Interval.under g) <$> run.intervals :=
  Timeline.intervals_under hg run.terms run.events

theorem schedule_under (g : Terms → Terms) (is : List Interval) :
    schedule (is.map (Interval.under g)) = (schedule is).map fun p => (p.1.under g, p.2) := by
  rw [schedule, schedule, List.flatMap_map, List.map_flatMap]
  apply List.flatMap_congr
  intro i _
  rw [List.map_map]
  rfl

end Run

/-- Terms have no part in which bucket a line is for. -/
theorem InvoiceLine.forBucket_under {l : InvoiceLine} {i : Interval} {b : Bucket} {subscriptionId : String} :
    l.ForBucket (i.under g) b subscriptionId ↔ l.ForBucket i b subscriptionId :=
  ⟨fun h => ⟨h.itemType, h.usageName, h.subscriptionId, h.startDate, h.endDate⟩,
    fun h => ⟨h.itemType, h.usageName, h.subscriptionId, h.startDate, h.endDate⟩⟩

theorem Interval.governingUnitTypes_under (hg : Terms.KeepsDates g) (i : Interval) (b : Bucket) :
    (i.under g).governingUnitTypes b = i.governingUnitTypes b := by
  rw [governingUnitTypes, governingUnitTypes, (sameDates_under hg i).endDate_eq]
  rfl

end UsageBilling
