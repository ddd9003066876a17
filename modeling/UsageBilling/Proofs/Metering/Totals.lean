import Mathlib.Data.List.Forall2
import UsageBilling.Metering
import UsageBilling.Proofs.Decimal.Nearest
import UsageBilling.Proofs.Sequencing

/-! The totals of rolled up usage. The total of a unit type is the sum of the amounts of the records of that
type, in their order: records of other types have no part in it (`foldlM_credit`, `ofRecords_eq_ok`). Where no
amount is below zero, the totals from a later day on are not higher (`amounts_within`). -/

namespace UsageBilling

def RawUsage.amountsOf (unitType : String) (records : List RawUsage) : List Decimal :=
  (records.filter (·.unitType = unitType)).map (·.amount)

namespace RolledUsage

/-- One total is another one after some records were added to it. -/
def Credited (records : List RawUsage) (before after : String × Decimal) : Prop :=
  before.1 = after.1 ∧ (RawUsage.amountsOf before.1 records).foldlM Decimal.add before.2 = .ok after.2

theorem credit_eq_ok {record : RawUsage} {before after : List (String × Decimal)} :
    credit before record = .ok after ↔ List.Forall₂ (Credited [record]) before after := by
  have hstep (p q : String × Decimal) : (if p.1 = record.unitType then do
      return (p.1, ← p.2.add record.amount) else return (p.1, p.2) : Except Decimal.Fault _) = .ok q ↔
      Credited [record] p q := by
    obtain ⟨unitType, total⟩ := p
    obtain ⟨unitType', total'⟩ := q
    rw [Credited]
    by_cases h : unitType = record.unitType
    · subst h
      have hone : RawUsage.amountsOf record.unitType [record] = [record.amount] := by simp [RawUsage.amountsOf]
      rw [if_pos rfl, bind_eq_ok, hone]
      constructor
      · rintro ⟨a, ha, h⟩
        obtain ⟨rfl, rfl⟩ := Prod.mk.inj (pure_eq_ok.mp h)
        exact ⟨rfl, foldlM_cons_eq_ok.mpr ⟨a, ha, rfl⟩⟩
      · rintro ⟨rfl, h⟩
        obtain ⟨a, ha, h⟩ := foldlM_cons_eq_ok.mp h
        obtain rfl := pure_eq_ok.mp h
        exact ⟨a, ha, rfl⟩
    · have hnone : RawUsage.amountsOf unitType [record] = [] := by simp [RawUsage.amountsOf, Ne.symm h]
      rw [if_neg h, hnone, List.foldlM_nil, pure_eq_ok, pure_eq_ok, Prod.mk.injEq]
  rw [credit, mapM_eq_ok]
  exact ⟨fun h => h.imp fun p q => (hstep p q).mp, fun h => h.imp fun p q => (hstep p q).mpr⟩

theorem credited_cons {record : RawUsage} {records : List RawUsage} {p q : String × Decimal} :
    Credited (record :: records) p q ↔ ∃ r, Credited [record] p r ∧ Credited records r q := by
  have happend : RawUsage.amountsOf p.1 (record :: records) =
      RawUsage.amountsOf p.1 [record] ++ RawUsage.amountsOf p.1 records := by
    rw [RawUsage.amountsOf, ← List.singleton_append, List.filter_append, List.map_append]
    rfl
  rw [Credited, happend, List.foldlM_append, bind_eq_ok]
  constructor
  · rintro ⟨hname, total, hfirst, hrest⟩
    exact ⟨(p.1, total), ⟨rfl, hfirst⟩, hname, hrest⟩
  · rintro ⟨r, ⟨hname, hfirst⟩, hname', hrest⟩
    rw [← hname] at hname' hrest
    exact ⟨hname', r.2, hfirst, hrest⟩

/-- Adding records to some totals adds to each the amounts of the records of its unit type. -/
theorem foldlM_credit {records : List RawUsage} {before after : List (String × Decimal)} :
    records.foldlM credit before = .ok after ↔ List.Forall₂ (Credited records) before after := by
  induction records generalizing before with
  | nil =>
      have hnone (p q : String × Decimal) : Credited [] p q ↔ p = q := by
        rw [Credited, Prod.ext_iff]
        exact and_congr_right fun _ => pure_eq_ok
      rw [List.foldlM_nil, pure_eq_ok, ← List.forall₂_eq_eq_eq]
      exact ⟨fun h => h.imp fun p q => (hnone p q).mpr, fun h => h.imp fun p q => (hnone p q).mp⟩
  | cons record records ih =>
      rw [foldlM_cons_eq_ok]
      simp only [ih, credit_eq_ok]
      clear ih
      constructor
      · rintro ⟨middle, hfirst, hrest⟩
        induction hfirst generalizing after with
        | nil =>
            cases hrest
            exact .nil
        | cons hp _ ih =>
            cases hrest with
            | cons hq hrest => exact .cons (credited_cons.mpr ⟨_, hp, hq⟩) (ih hrest)
      · intro h
        induction h with
        | nil => exact ⟨[], .nil, .nil⟩
        | cons hpq _ ih =>
            obtain ⟨middle, hfirst, hrest⟩ := ih
            obtain ⟨r, hp, hq⟩ := credited_cons.mp hpq
            exact ⟨r :: middle, .cons hp hfirst, .cons hq hrest⟩

/-- A rolled up usage has the total of each unit type, and marks the records that it counts. -/
theorem ofRecords_eq_ok {records : List RawUsage} {subscriptionId : String} {start finish : Date}
    {unitTypes : List String} {invoiceId : String} {rolled : RolledUsage} :
    ofRecords records subscriptionId start finish unitTypes invoiceId = .ok rolled ↔ ∃ amounts,
      List.Forall₂ (fun unitType p => unitType = p.1 ∧
        Decimal.sum (RawUsage.amountsOf unitType (records.filter (counts start finish unitTypes))) = .ok p.2)
        (UnitTypes.ofList unitTypes) amounts ∧
      rolled = ⟨subscriptionId, start, finish, amounts, TrackingId.insertAll []
        ((records.filter (counts start finish unitTypes)).map fun r =>
          ⟨r.trackingId, subscriptionId, r.unitType, r.date, some invoiceId⟩)⟩ := by
  rw [ofRecords, bind_eq_ok]
  refine exists_congr fun amounts => and_congr ?_ (pure_eq_ok.trans eq_comm)
  rw [foldlM_credit, List.forall₂_map_left_iff]
  rfl

theorem map_fst_amounts {records : List RawUsage} {subscriptionId : String} {start finish : Date}
    {unitTypes : List String} {invoiceId : String} {rolled : RolledUsage}
    (h : ofRecords records subscriptionId start finish unitTypes invoiceId = .ok rolled) :
    rolled.amounts.map (·.1) = UnitTypes.ofList unitTypes := by
  obtain ⟨amounts, hamounts, rfl⟩ := ofRecords_eq_ok.mp h
  rw [← List.forall₂_eq_eq_eq, List.forall₂_map_left_iff]
  exact (hamounts.imp fun u p h => h.1.symm).flip

/-- The metered amounts are in the order of their unit types. -/
theorem ascending_amounts {records : List RawUsage} {subscriptionId : String} {start finish : Date}
    {unitTypes : List String} {invoiceId : String} {rolled : RolledUsage}
    (h : ofRecords records subscriptionId start finish unitTypes invoiceId = .ok rolled) :
    (rolled.amounts.map (·.1)).Pairwise (· < ·) := by
  rw [map_fst_amounts h]
  exact UnitTypes.sorted_ofList unitTypes

theorem nodup_amounts {records : List RawUsage} {subscriptionId : String} {start finish : Date}
    {unitTypes : List String} {invoiceId : String} {rolled : RolledUsage}
    (h : ofRecords records subscriptionId start finish unitTypes invoiceId = .ok rolled) :
    (rolled.amounts.map (·.1)).Nodup := by
  refine (ascending_amounts h).imp fun hlt => ?_
  rintro rfl
  exact String.lt_irrefl _ hlt

theorem amountsOf_counts_eq_nil {unitType : String} {unitTypes : List String} (hu : unitType ∉ unitTypes)
    (records : List RawUsage) (start finish : Date) :
    RawUsage.amountsOf unitType (records.filter (counts start finish unitTypes)) = [] := by
  rw [RawUsage.amountsOf, List.map_eq_nil_iff, List.filter_filter, List.filter_eq_nil_iff]
  intro r _ hr
  simp only [counts, Bool.and_eq_true, decide_eq_true_eq] at hr
  exact hu (hr.1 ▸ hr.2.2)

/-- From a later day on, the total of each unit type is not higher. -/
theorem amounts_within {records : List RawUsage} {subscriptionId subscriptionId' : String} {start start' finish : Date}
    {unitTypes : List String} {invoiceId invoiceId' : String} {rolled rolled' : RolledUsage}
    (hrecords : ∀ r ∈ records, r.amount.IsFinite ∧ 0 ≤ r.amount.value) (hstart : start ≤ start')
    (h : ofRecords records subscriptionId start finish unitTypes invoiceId = .ok rolled)
    (h' : ofRecords records subscriptionId' start' finish unitTypes invoiceId' = .ok rolled') :
    List.Forall₂ (fun p p' => p.1 = p'.1 ∧ p.2.Within p'.2) rolled'.amounts rolled.amounts := by
  obtain ⟨amounts, hamounts, rfl⟩ := ofRecords_eq_ok.mp h
  obtain ⟨amounts', hamounts', rfl⟩ := ofRecords_eq_ok.mp h'
  refine forall₂_of_common hamounts' hamounts fun unitType p' p hp' hp => ⟨hp'.1.symm.trans hp.1, ?_⟩
  have hfinite : ∀ a ∈ RawUsage.amountsOf unitType (records.filter (counts start finish unitTypes)),
      a.IsFinite ∧ 0 ≤ a.value := by
    intro a ha
    obtain ⟨r, hr, rfl⟩ := List.mem_map.mp ha
    exact hrecords r (List.mem_filter.mp (List.mem_filter.mp hr).1).1
  have hsub : (RawUsage.amountsOf unitType (records.filter (counts start' finish unitTypes))).Sublist
      (RawUsage.amountsOf unitType (records.filter (counts start finish unitTypes))) := by
    refine ((List.monotone_filter_right records fun r hr => ?_).filter _).map _
    simp only [counts, Bool.and_eq_true, decide_eq_true_eq] at hr ⊢
    exact ⟨⟨Nat.le_trans hstart hr.1.1, hr.1.2⟩, hr.2⟩
  refine Decimal.sum_within (List.sublistForall₂_iff.mpr ⟨_, List.forall₂_same.mpr fun a ha => ?_, hsub⟩) hfinite
    hp'.2 hp.2
  obtain ⟨ha, hnonneg⟩ := hfinite a (hsub.mem ha)
  exact ⟨ha, ha, hnonneg, le_rfl⟩

end RolledUsage
end UsageBilling
