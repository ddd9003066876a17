import UsageBilling.Proofs.Correspondence
import UsageBilling.Proofs.Interval.Reconciliation

/-! Billing across catalog versions. The version of the catalog has no part in what a bucket owes: two buckets with
the same dates, unit types and plan, billed under the same terms, owe the same lines apart from the version that
the lines name (`BillsAlike.reconcileBucket`). What the versions of the two have in common, their lines have too. -/

namespace UsageBilling

def BillingEvent.revised (version : Instant) (e : BillingEvent) : BillingEvent :=
  { e with catalogVersion := version }

def InvoiceLine.unversioned (l : InvoiceLine) : InvoiceLine := { l with catalogVersion := none }

def AnyVersions (_ _ : Instant) : Prop := True

/-- Lines that are the same apart from their catalog versions, which are related. -/
structure InvoiceLine.SameBut (V : Instant → Instant → Prop) (l l' : InvoiceLine) : Prop where
  rest : l.unversioned = l'.unversioned
  version : Option.Rel V l.catalogVersion l'.catalogVersion

/-- Events that start the same phase of the same plan, in related catalog versions. -/
structure BillingEvent.SamePlan (V : Instant → Instant → Prop) (e e' : BillingEvent) : Prop where
  subscriptionId : e.subscriptionId = e'.subscriptionId
  planName : e.planName = e'.planName
  phaseName : e.phaseName = e'.phaseName
  currency : e.currency = e'.currency
  version : V e.catalogVersion e'.catalogVersion

theorem BillingEvent.samePlan_revised (e : BillingEvent) (version : Instant) :
    e.SamePlan AnyVersions (e.revised version) := ⟨rfl, rfl, rfl, rfl, trivial⟩

namespace Interval

variable {V : Instant → Instant → Prop}

/-- Two buckets that are billed alike: they have the same dates and unit types, events of the same plan are in force,
and their intervals have the same usage section and terms. -/
structure BillsAlike (V : Instant → Instant → Prop) (p q : Interval × Bucket) : Prop where
  usage : p.1.usage = q.1.usage
  terms : p.1.terms = q.1.terms
  start : p.2.start = q.2.start
  finish : p.2.finish = q.2.finish
  alignedStart : p.2.alignedStart = q.2.alignedStart
  event : Option.Rel (fun x y => x.event.SamePlan V y.event) p.1.events[p.2.eventIndex]? q.1.events[q.2.eventIndex]?
  unitTypes : p.1.governingUnitTypes p.2 = q.1.governingUnitTypes q.2

namespace BillsAlike

variable {p q : Interval × Bucket}

theorem newLine (h : BillsAlike V p q) (amount : Decimal) (unitType : Option String) (quantity rate : Option Decimal)
    (details : Json) : Corresponds (InvoiceLine.SameBut V)
      (p.1.newLine p.2 amount unitType quantity rate details)
      (q.1.newLine q.2 amount unitType quantity rate details) := by
  have hevent := h.event
  unfold Interval.newLine
  generalize p.1.events[p.2.eventIndex]? = x, q.1.events[q.2.eventIndex]? = y at hevent ⊢
  cases hevent with
  | none => exact .error _
  | some hplan =>
      dsimp only
      rw [h.usage, h.terms, h.alignedStart, h.finish, hplan.subscriptionId, hplan.planName, hplan.phaseName,
        hplan.currency]
      exact .ok ⟨rfl, .some hplan.version⟩

theorem chargeLines (h : BillsAlike V p q) (unitType : String) (charges : List Charge) :
    Corresponds (List.Forall₂ (InvoiceLine.SameBut V)) (p.1.chargeLines p.2 unitType charges)
      (q.1.chargeLines q.2 unitType charges) := by
  unfold Interval.chargeLines
  apply Corresponds.bind (R := List.Forall₂ (Option.Rel (InvoiceLine.SameBut V)))
  · apply Corresponds.mapM
    rw [List.forall₂_same]
    intro c _
    apply Corresponds.bind_same
    intro amount
    rw [h.terms]
    split
    · exact .ok .none
    · apply Corresponds.bind_same
      intro details
      apply (h.newLine amount unitType c.blocks c.price details).bind
      intro l l' hl
      exact .ok (.some hl)
  · intro found found' hfound
    exact .ok (List.rel_filterMap (fun _ _ hline => hline) hfound)

theorem aggregateLine (h : BillsAlike V p q) (unitType : String) (quantity due owed : Decimal) (charges : List Charge)
    (billed : List InvoiceItem) : Corresponds (InvoiceLine.SameBut V)
      (p.1.aggregateLine p.2 unitType quantity due owed charges billed)
      (q.1.aggregateLine q.2 unitType quantity due owed charges billed) := by
  unfold Interval.aggregateLine
  apply Corresponds.bind_same
  intro details
  apply Corresponds.bind_same
  intro rest
  exact h.newLine owed unitType rest _ details

theorem unitTypeLines (h : BillsAlike V p q) (unitType : String) (quantity : Decimal) (billed : List InvoiceItem) :
    Corresponds (List.Forall₂ (InvoiceLine.SameBut V)) (p.1.unitTypeLines p.2 unitType quantity billed).result
      (q.1.unitTypeLines q.2 unitType quantity billed).result := by
  unfold Interval.unitTypeLines
  simp only [Logged.result_bind, Logged.result_liftM, Logged.result_liftM_decimal, amountOwed_result]
  rw [h.usage, h.terms]
  apply Corresponds.bind_same
  intro charges
  apply Corresponds.bind_same
  intro due
  apply Corresponds.bind_same
  intro owed
  cases owed with
  | none => exact .ok .nil
  | some owed =>
      dsimp only
      split
      · exact h.chargeLines unitType charges
      · simp only [Logged.result_bind, Logged.result_liftM, Logged.result_pure]
        apply (h.aggregateLine unitType quantity due owed charges _).bind
        intro l l' hl
        exact .ok (.cons hl .nil)

theorem bucketLines (h : BillsAlike V p q) (rolled : RolledUsage) (billed : List InvoiceItem) :
    Corresponds (List.Forall₂ (InvoiceLine.SameBut V)) (p.1.bucketLines p.2 rolled billed).result
      (q.1.bucketLines q.2 rolled billed).result := by
  unfold Interval.bucketLines
  rw [h.usage]
  cases q.1.usage.pricing with
  | consumable =>
      dsimp only
      unfold Interval.consumableLines Interval.checkUnitTypes
      rw [h.usage]
      simp only [Logged.result_bind, Logged.result_liftM, Logged.result_mapM, Logged.result_pure]
      apply Corresponds.bind_same
      intro _
      apply Corresponds.bind (R := List.Forall₂ (List.Forall₂ (InvoiceLine.SameBut V)))
      · apply Corresponds.mapM
        rw [List.forall₂_same]
        rintro ⟨unitType, quantity⟩ _
        exact h.unitTypeLines unitType quantity billed
      · intro parts parts' hparts
        exact .ok (List.rel_flatten hparts)
  | capacity =>
      dsimp only
      unfold Interval.capacityLines
      simp only [Logged.result_bind, Logged.result_liftM, amountOwed_result]
      rw [h.usage, h.terms]
      apply Corresponds.bind_same
      intro _
      apply Corresponds.bind_same
      intro tier
      apply Corresponds.bind_same
      intro owed
      cases owed with
      | none => exact .ok .nil
      | some owed =>
          dsimp only
          simp only [Logged.result_bind, Logged.result_liftM_decimal, Logged.result_liftM, Logged.result_pure]
          apply Corresponds.bind_same
          intro details
          apply (h.newLine owed none none tier.price details).bind
          intro l l' hl
          exact .ok (.cons hl .nil)

theorem billedFor (h : BillsAlike V p q) (items : List InvoiceItem) :
    p.1.billedFor p.2 items = q.1.billedFor q.2 items := by
  have hoverlaps : overlaps p.2 = overlaps q.2 := by
    funext item
    rw [overlaps, overlaps, h.alignedStart, h.finish]
  unfold Interval.billedFor
  rw [hoverlaps, h.usage, h.alignedStart, h.finish]

/-- Buckets that are billed alike add the same, apart from the catalog version that the lines name. -/
theorem reconcileBucket (h : BillsAlike V p q) (subscriptionId : String) (items : List InvoiceItem) :
    Corresponds (fun out out' => List.Forall₂ (InvoiceLine.SameBut V) out.1 out'.1 ∧ out.2 = out'.2)
      (p.1.reconcileBucket subscriptionId items p.2).result (q.1.reconcileBucket subscriptionId items q.2).result := by
  rw [reconcileBucket_result, reconcileBucket_result, h.unitTypes, h.terms, h.start, h.finish, h.billedFor]
  apply Corresponds.bind_same
  intro billed
  apply Corresponds.bind_same
  intro types
  split
  · exact .ok ⟨.nil, rfl⟩
  · apply Corresponds.bind_same
    intro rolled
    apply (h.bucketLines rolled billed).bind
    intro lines lines' hlines
    exact .ok ⟨hlines, rfl⟩

end BillsAlike
end Interval
end UsageBilling
