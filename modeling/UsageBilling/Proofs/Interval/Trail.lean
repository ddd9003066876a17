import UsageBilling.Proofs.Emission
import UsageBilling.Proofs.Interval.ItemOrder

/-! The log trail of an interval. A bucket compares what was billed with what is due, for each unit type that it
bills or for the whole of a capacity bucket (`Interval.Dues`), warns about each of these that was billed above what
is due, and has no line for it (`reconcileBucket_emits`). An interval emits the warnings of its buckets in their
order and then tells the sizes of its result (`reconcile_emits`). -/

namespace UsageBilling

def Balance.Exceeded (x : Balance) : Prop := Decimal.compare? x.due x.billed = some .lt

instance : DecidablePred Balance.Exceeded := fun x =>
  inferInstanceAs (Decidable (Decimal.compare? x.due x.billed = some .lt))

theorem Balance.exceeded_iff_below {x : Balance} : x.Exceeded ↔ x.due.below x.billed = .ok true := by
  rw [Exceeded, Decimal.below]
  cases Decimal.compare? x.due x.billed with
  | none => simp
  | some o => cases o <;> simp [Ordering.isLT]

theorem Balance.not_exceeded_of_equals {x : Balance} (h : x.billed.equals x.due = true) : ¬ x.Exceeded := by
  have heq : Decimal.compare? x.due x.billed = some .eq := by simpa [Decimal.equals] using Decimal.equals_symm h
  rw [Exceeded, heq]
  decide

namespace Interval

/-- The warnings about those of some balances of a bucket that are exceeded. -/
def warnings (i : Interval) (b : Bucket) (xs : List Balance) : List LogEntry :=
  (xs.filter (·.Exceeded)).map (i.aboveDue b)

variable {i : Interval} {b : Bucket} {subscriptionId : String} {items existing : List InvoiceItem}
  {es : List LogEntry}

theorem warnings_singleton (i : Interval) (b : Bucket) (x : Balance) :
    i.warnings b [x] = if x.Exceeded then [i.aboveDue b x] else [] := by
  rw [warnings, List.filter_singleton]
  by_cases h : x.Exceeded <;> simp [h]

theorem warnings_cons (i : Interval) (b : Bucket) (x : Balance) (xs : List Balance) :
    i.warnings b (x :: xs) = i.warnings b [x] ++ i.warnings b xs := by
  rw [warnings, warnings, warnings, ← List.map_append, ← List.filter_append, List.singleton_append]

/-! ### One unit type -/

/-- What is owed of an amount due is found with a warning if more was billed, and then nothing is owed. -/
theorem amountOwed_emits {due : Decimal} {unitType : Option String} {owed : Option Decimal}
    (h : (i.amountOwed b due items unitType).Emits es owed) : ∃ x : Balance, x.unitType = unitType ∧ x.due = due ∧
      Decimal.sum (items.map (·.amount)) = .ok x.billed ∧ es = i.warnings b [x] ∧ (x.Exceeded → owed = none) := by
  rw [amountOwed] at h
  obtain ⟨_, rest, billed, hbilled, hcompared, rfl⟩ := Logged.emits_bind.mp h
  obtain ⟨rfl, hsum⟩ := Logged.emits_liftM_decimal.mp hbilled
  refine ⟨⟨unitType, billed, due⟩, rfl, rfl, hsum, ?_⟩
  rw [List.nil_append, warnings_singleton]
  split at hcompared
  next hsettled =>
    rw [Bool.and_eq_true] at hsettled
    obtain ⟨rfl, rfl⟩ := Logged.emits_pure.mp hcompared
    exact ⟨(if_neg (Balance.not_exceeded_of_equals hsettled.2)).symm, fun _ => rfl⟩
  next =>
    obtain ⟨_, last, isBelow, hquestion, hrest, rfl⟩ := Logged.emits_bind.mp hcompared
    obtain ⟨rfl, hbelow⟩ := Logged.emits_liftM_decimal.mp hquestion
    have hexceeded : (Balance.mk unitType billed due).Exceeded ↔ isBelow = true := by
      rw [Balance.exceeded_iff_below, hbelow, Except.ok.injEq]
    rw [List.nil_append]
    cases isBelow with
    | true =>
        obtain ⟨_, _, _, hwarned, hnone, rfl⟩ := Logged.emits_bind.mp hrest
        obtain rfl := Logged.emits_emit.mp hwarned
        obtain ⟨rfl, rfl⟩ := Logged.emits_pure.mp hnone
        exact ⟨(if_pos (hexceeded.mpr rfl)).symm, fun _ => rfl⟩
    | false =>
        have hwithin : ¬ (Balance.mk unitType billed due).Exceeded := fun h => Bool.false_ne_true (hexceeded.mp h)
        obtain ⟨_, _, _, hsub, hworth, rfl⟩ := Logged.emits_bind.mp hrest
        obtain ⟨rfl, -⟩ := Logged.emits_liftM_decimal.mp hsub
        rw [if_neg hwithin, List.nil_append]
        refine ⟨?_, fun h => absurd h hwithin⟩
        split at hworth
        · exact (Logged.emits_pure.mp hworth).1
        · exact (Logged.emits_pure.mp hworth).1

/-- Where the lines for what is owed emit nothing themselves, there is a warning if more was billed than is due, and
then there are no lines. -/
theorem linesOwed_emits {due : Decimal} {unitType : Option String} {f : Decimal → Logged (List InvoiceLine)}
    {lines : List InvoiceLine} (hquiet : ∀ rest es lines, (f rest).Emits es lines → es = [])
    (h : (i.amountOwed b due items unitType >>= fun
      | none => pure []
      | some rest => f rest).Emits es lines) : ∃ x : Balance, x.unitType = unitType ∧ x.due = due ∧
      Decimal.sum (items.map (·.amount)) = .ok x.billed ∧ es = i.warnings b [x] ∧ (x.Exceeded → lines = []) := by
  obtain ⟨first, last, owed, howed, hlines, rfl⟩ := Logged.emits_bind.mp h
  obtain ⟨x, hx, hdue, hbilled, rfl, hnone⟩ := amountOwed_emits howed
  refine ⟨x, hx, hdue, hbilled, ?_⟩
  cases owed with
  | none =>
      obtain ⟨rfl, rfl⟩ := Logged.emits_pure.mp hlines
      exact ⟨List.append_nil _, fun _ => rfl⟩
  | some rest =>
      obtain rfl := hquiet rest last lines hlines
      exact ⟨List.append_nil _, fun hexceeded => absurd (hnone hexceeded) (Option.some_ne_none rest)⟩

/-- The lines for a unit type are found with a warning if more was billed than is due, and then there are none. -/
theorem unitTypeLines_emits {unitType : String} {quantity : Decimal} {lines : List InvoiceLine}
    (h : (i.unitTypeLines b unitType quantity items).Emits es lines) : ∃ (x : Balance) (charges : List Charge),
      x.unitType = some unitType ∧ i.usage.consumableCharges unitType quantity = .ok charges ∧
      Charge.total charges = .ok x.due ∧
      Decimal.sum ((items.filter (·.unitType = some unitType)).map (·.amount)) = .ok x.billed ∧
      es = i.warnings b [x] ∧ (x.Exceeded → lines = []) := by
  rw [unitTypeLines] at h
  obtain ⟨_, _, charges, hpriced, hsummed, rfl⟩ := Logged.emits_bind.mp h
  obtain ⟨rfl, hcharges⟩ := Logged.emits_liftM.mp hpriced
  obtain ⟨_, _, due, htotal, hcompared, rfl⟩ := Logged.emits_bind.mp hsummed
  obtain ⟨rfl, hdue⟩ := Logged.emits_liftM_decimal.mp htotal
  obtain ⟨x, hx, rfl, hbilled, rfl, hnone⟩ := linesOwed_emits (fun rest es lines hlines => by
    split at hlines
    · exact (Logged.emits_liftM.mp hlines).1
    · obtain ⟨_, _, line, hline, hlast, rfl⟩ := Logged.emits_bind.mp hlines
      rw [(Logged.emits_liftM.mp hline).1, (Logged.emits_pure.mp hlast).1, List.append_nil]) hcompared
  exact ⟨x, charges, hx, hcharges, hdue, hbilled, rfl, hnone⟩

/-! ### Buckets -/

/-- What is due for a bucket: for each unit type that it bills, in their order, what its units come to, and in a
capacity section the price of the tier. -/
inductive Dues (i : Interval) (subscriptionId : String) (b : Bucket) : List (Option String × Decimal) → Prop
  | ungoverned (htypes : i.governingUnitTypes b = .ok []) : Dues i subscriptionId b []
  | consumable {types : List String} {rolled : RolledUsage} {dues : List (Option String × Decimal)}
      (hpricing : i.usage.pricing = .consumable) (htypes : i.governingUnitTypes b = .ok types) (hne : types ≠ [])
      (hrolled : RolledUsage.ofRecords i.terms.rawUsage subscriptionId b.start b.finish types i.terms.invoiceId =
        .ok rolled)
      (hdues : List.Forall₂ (fun a d => d.1 = some a.1 ∧ ∃ charges,
        i.usage.consumableCharges a.1 a.2 = .ok charges ∧ Charge.total charges = .ok d.2) rolled.amounts dues) :
      Dues i subscriptionId b dues
  | capacity {types : List String} {rolled : RolledUsage} {tier : CapacityTier}
      (hpricing : i.usage.pricing = .capacity) (htypes : i.governingUnitTypes b = .ok types) (hne : types ≠ [])
      (hrolled : RolledUsage.ofRecords i.terms.rawUsage subscriptionId b.start b.finish types i.terms.invoiceId =
        .ok rolled)
      (htier : i.usage.capacityTier rolled.amounts = .ok tier) : Dues i subscriptionId b [(none, tier.price)]

theorem Dues.ascending {dues : List (Option String × Decimal)} (h : i.Dues subscriptionId b dues) :
    dues.Pairwise fun d d' => ∃ t u, d.1 = some t ∧ d'.1 = some u ∧ t < u := by
  cases h with
  | ungoverned _ => exact .nil
  | capacity _ _ _ _ _ => exact List.pairwise_singleton _ _
  | consumable _ _ _ hrolled hdues =>
      refine pairwise_of_forall₂ hdues (fun a d a' d' ha ha' hlt => ?_)
        (List.pairwise_map.mp (RolledUsage.ascending_amounts hrolled))
      exact ⟨a.1, a'.1, ha.1, ha'.1, hlt⟩

/-- A balance was found, with these entries, on the way to these lines. -/
structure Balanced (i : Interval) (b : Bucket) (x : Balance) (p : List LogEntry × List InvoiceLine) : Prop where
  entries : p.1 = i.warnings b [x]
  exceeded : x.Exceeded → p.2 = []
  unitType : ∀ l ∈ p.2, l.unitType = x.unitType

theorem entries_of_balanced {xs : List Balance} {parts : List (List LogEntry × List InvoiceLine)}
    (h : List.Forall₂ (i.Balanced b) xs parts) : parts.flatMap (·.1) = i.warnings b xs := by
  induction h with
  | nil => rfl
  | cons hx _ ih => rw [List.flatMap_cons, ih, hx.entries, ← warnings_cons]

/-- There is no line for a unit type of which more was billed than is due. -/
theorem unbilled_of_balanced {xs : List Balance} {parts : List (List LogEntry × List InvoiceLine)}
    (h : List.Forall₂ (i.Balanced b) xs parts) (hnodup : (xs.map (·.unitType)).Nodup) {x : Balance} (hx : x ∈ xs)
    (hexceeded : x.Exceeded) : ∀ l ∈ parts.flatMap (·.2), l.unitType ≠ x.unitType := by
  intro l hl heq
  obtain ⟨p, hp, hl⟩ := List.mem_flatMap.mp hl
  obtain ⟨y, hy, hyp⟩ := exists_of_forall₂_right h hp
  obtain rfl : y = x := List.inj_on_of_nodup_map hnodup hy hx ((hyp.unitType l hl).symm.trans heq)
  rw [hyp.exceeded hexceeded] at hl
  exact List.not_mem_nil hl

theorem consumableLines_emits {rolled : RolledUsage} {lines : List InvoiceLine}
    (hnodup : (rolled.amounts.map (·.1)).Nodup) (h : (i.consumableLines b rolled items).Emits es lines) :
    ∃ xs : List Balance, List.Forall₂ (fun a x => x.unitType = some a.1 ∧ ∃ charges,
        i.usage.consumableCharges a.1 a.2 = .ok charges ∧ Charge.total charges = .ok x.due) rolled.amounts xs ∧
      (∀ x ∈ xs, Decimal.sum ((items.filter (·.unitType = x.unitType)).map (·.amount)) = .ok x.billed) ∧
      es = i.warnings b xs ∧ ∀ x ∈ xs, x.Exceeded → ∀ l ∈ lines, l.unitType ≠ x.unitType := by
  rw [consumableLines] at h
  obtain ⟨_, _, _, hcheck, hall, rfl⟩ := Logged.emits_bind.mp h
  obtain ⟨rfl, -⟩ := Logged.emits_liftM.mp hcheck
  obtain ⟨_, _, found, hfound, hlast, rfl⟩ := Logged.emits_bind.mp hall
  obtain ⟨rfl, rfl⟩ := Logged.emits_pure.mp hlast
  obtain ⟨parts, hparts, rfl, rfl⟩ := Logged.emits_mapM hfound
  have hbetween := hparts.imp (S := fun a p => ∃ x : Balance, (x.unitType = some a.1 ∧ (∃ charges,
      i.usage.consumableCharges a.1 a.2 = .ok charges ∧ Charge.total charges = .ok x.due) ∧
      Decimal.sum ((items.filter (·.unitType = x.unitType)).map (·.amount)) = .ok x.billed) ∧ i.Balanced b x p) <| by
    intro a p hp
    obtain ⟨x, charges, hx, hcharges, hdue, hbilled, hentries, hnone⟩ := unitTypeLines_emits hp
    refine ⟨x, ⟨hx, ⟨charges, hcharges, hdue⟩, hx ▸ hbilled⟩, hentries, hnone, fun l hl => ?_⟩
    obtain ⟨_, _, _, _, hmade⟩ := makes_of_unitTypeLines hp.result l hl
    obtain ⟨-, hunit, -⟩ := fields_of_newLine hmade
    exact hunit.trans hx.symm
  obtain ⟨xs, hxs, hbalanced⟩ := exists_between hbetween
  have hkeys : xs.map (·.unitType) = (rolled.amounts.map (·.1)).map some := by
    rw [List.map_map, eq_comm, map_eq_map_iff_forall₂]
    exact hxs.imp fun a x hx => hx.1.symm
  refine ⟨xs, hxs.imp fun a x hx => ⟨hx.1, hx.2.1⟩, fun x hx => ?_, ?_, fun x hx hexceeded => ?_⟩
  · obtain ⟨a, -, -, -, hbilled⟩ := exists_of_forall₂_right hxs hx
    exact hbilled
  · rw [List.nil_append, List.append_nil, entries_of_balanced hbalanced]
  · rw [← List.flatMap_def]
    refine unbilled_of_balanced hbalanced ?_ hx hexceeded
    rw [hkeys]
    exact hnodup.map (Option.some_injective _)

theorem capacityLines_emits {rolled : RolledUsage} {lines : List InvoiceLine}
    (h : (i.capacityLines b rolled items).Emits es lines) : ∃ (x : Balance) (tier : CapacityTier),
      i.usage.capacityTier rolled.amounts = .ok tier ∧ x.unitType = none ∧ x.due = tier.price ∧
      Decimal.sum ((items.filter (·.unitType = none)).map (·.amount)) = .ok x.billed ∧
      es = i.warnings b [x] ∧ (x.Exceeded → lines = []) := by
  rw [capacityLines] at h
  obtain ⟨_, _, _, hchecked, htiered, rfl⟩ := Logged.emits_bind.mp h
  obtain ⟨rfl, hcheck⟩ := Logged.emits_liftM.mp hchecked
  obtain ⟨_, _, tier, hfound, hcompared, rfl⟩ := Logged.emits_bind.mp htiered
  obtain ⟨rfl, htier⟩ := Logged.emits_liftM.mp hfound
  obtain ⟨x, hx, hdue, hbilled, rfl, hnone⟩ := linesOwed_emits (fun rest es lines hlines => by
    obtain ⟨_, _, details, hdetails, hmade, rfl⟩ := Logged.emits_bind.mp hlines
    obtain ⟨_, _, line, hline, hlast, rfl⟩ := Logged.emits_bind.mp hmade
    rw [(Logged.emits_liftM_decimal.mp hdetails).1, (Logged.emits_liftM.mp hline).1,
      (Logged.emits_pure.mp hlast).1]
    rfl) hcompared
  have hall : items.filter (·.unitType = none) = items :=
    List.filter_eq_self.mpr (by simpa using checkNoUnitTypes_eq_ok.mp hcheck)
  exact ⟨x, tier, htier, hx, hdue, by rwa [hall], rfl, hnone⟩

/-- What is told of a bucket: the balances that are compared, and the lines and tracking ids that it adds. -/
structure BucketReport where
  bucket : Bucket
  balances : List Balance
  lines : List InvoiceLine
  trackingIds : List TrackingId

/-- A report tells of a bucket what is due, what was billed and what it adds. There is no line for a unit type of
which more was billed than is due. -/
structure BucketReport.Of (i : Interval) (subscriptionId : String) (existing : List InvoiceItem) (r : BucketReport) :
    Prop where
  outcome : outcome subscriptionId existing (i, r.bucket) = .ok (r.lines, r.trackingIds)
  dues : i.Dues subscriptionId r.bucket (r.balances.map fun x => (x.unitType, x.due))
  billed : ∀ x ∈ r.balances,
    Decimal.sum ((invoicedOf subscriptionId (i, r.bucket) x.unitType existing).map (·.amount)) = .ok x.billed
  exceeded : ∀ x ∈ r.balances, x.Exceeded → ∀ l ∈ r.lines, l.unitType ≠ x.unitType

/-- The warnings that go with a report of a bucket. -/
def BucketReport.entries (i : Interval) (r : BucketReport) : List LogEntry := i.warnings r.bucket r.balances

/-- Reconciling a bucket emits a warning for each of its balances that is exceeded, and nothing else. -/
theorem reconcileBucket_emits {out : List InvoiceLine × List TrackingId}
    (h : (i.reconcileBucket subscriptionId (i.relevantItems subscriptionId existing) b).Emits es out) :
    ∃ r : BucketReport, r.bucket = b ∧ r.Of i subscriptionId existing ∧ out = (r.lines, r.trackingIds) ∧
      es = r.entries i := by
  have hout : outcome subscriptionId existing (i, b) = .ok out := h.result
  rw [reconcileBucket] at h
  obtain ⟨_, _, billed, hfound, hgoverned, rfl⟩ := Logged.emits_bind.mp h
  obtain ⟨rfl, hbilled⟩ := Logged.emits_liftM.mp hfound
  obtain ⟨_, _, types, hlisted, hrest, rfl⟩ := Logged.emits_bind.mp hgoverned
  obtain ⟨rfl, htypes⟩ := Logged.emits_liftM.mp hlisted
  obtain ⟨rfl, -⟩ := billedFor_eq_ok.mp hbilled
  rw [List.nil_append, List.nil_append]
  cases types with
  | nil =>
      obtain ⟨rfl, rfl⟩ := Logged.emits_pure.mp hrest
      exact ⟨⟨b, [], [], []⟩, rfl, ⟨hout, .ungoverned htypes, List.forall_mem_nil _, List.forall_mem_nil _⟩, rfl, rfl⟩
  | cons t ts =>
      obtain ⟨_, _, rolled, hsummed, hpriced, rfl⟩ := Logged.emits_bind.mp hrest
      obtain ⟨rfl, hrolled⟩ := Logged.emits_liftM_decimal.mp hsummed
      rw [List.nil_append]
      cases hpricing : i.usage.pricing with
      | consumable =>
          rw [hpricing] at hpriced
          obtain ⟨_, _, lines, hlines, hlast, rfl⟩ := Logged.emits_bind.mp hpriced
          obtain ⟨rfl, rfl⟩ := Logged.emits_pure.mp hlast
          obtain ⟨xs, hxs, hsums, rfl, hexceeded⟩ := consumableLines_emits (RolledUsage.nodup_amounts hrolled) hlines
          refine ⟨⟨b, xs, lines, _⟩, rfl, ⟨hout, ?_, ?_, hexceeded⟩, rfl, List.append_nil _⟩
          · exact .consumable hpricing htypes (List.cons_ne_nil t ts) hrolled (List.forall₂_map_right_iff.mpr hxs)
          · intro x hx
            rw [invoicedOf_eq]
            exact hsums x hx
      | capacity =>
          rw [hpricing] at hpriced
          obtain ⟨_, _, lines, hlines, hlast, rfl⟩ := Logged.emits_bind.mp hpriced
          obtain ⟨rfl, rfl⟩ := Logged.emits_pure.mp hlast
          obtain ⟨x, tier, htier, hx, hdue, hsum, rfl, hexceeded⟩ := capacityLines_emits hlines
          refine ⟨⟨b, [x], lines, _⟩, rfl, ⟨hout, ?_, ?_, ?_⟩, rfl, List.append_nil _⟩
          · rw [List.map_singleton, hx, hdue]
            exact .capacity hpricing htypes (List.cons_ne_nil t ts) hrolled htier
          · refine List.forall_mem_singleton.mpr ?_
            rw [invoicedOf_eq, hx]
            exact hsum
          · refine List.forall_mem_singleton.mpr fun h l hl => ?_
            rw [hexceeded h] at hl
            exact absurd hl List.not_mem_nil

/-! ### The interval as a whole -/

/-- Reconciling an interval emits the warnings of its buckets in their order, and then the sizes of its result. -/
theorem reconcile_emits (hsub : i.subscriptionId = .ok subscriptionId) {r : Reconciliation InvoiceLine}
    (h : (i.reconcile existing).Emits es r) : ∃ buckets : List BucketReport, buckets.map (·.bucket) = i.buckets ∧
      (∀ p ∈ buckets, p.Of i subscriptionId existing) ∧ r.items = buckets.flatMap (·.lines) ∧
      es = buckets.flatMap (·.entries i) ++ [i.reconciledEntry r] := by
  rw [reconcile] at h
  cases hbuilt : i.isBuilt with
  | false =>
      rw [hbuilt] at h
      exact absurd h.result error_ne_ok
  | true =>
      rw [hbuilt] at h
      obtain ⟨_, _, sub, hfound, hbuckets, rfl⟩ := Logged.emits_bind.mp h
      obtain ⟨rfl, hsub'⟩ := Logged.emits_liftM.mp hfound
      obtain rfl : subscriptionId = sub := Except.ok.inj (hsub.symm.trans hsub')
      obtain ⟨_, _, outs, houts, hsized, rfl⟩ := Logged.emits_bind.mp hbuckets
      obtain ⟨_, _, _, htold, hlast, rfl⟩ := Logged.emits_bind.mp hsized
      obtain rfl := Logged.emits_emit.mp htold
      obtain ⟨rfl, rfl⟩ := Logged.emits_pure.mp hlast
      obtain ⟨parts, hparts, rfl, rfl⟩ := Logged.emits_mapM houts
      obtain ⟨buckets, hof, hparts⟩ := exists_between (hparts.imp fun b p hp => by
        obtain ⟨r, hr, hof, hout, hes⟩ := reconcileBucket_emits hp
        exact ⟨r, And.intro hof hr.symm, And.intro hes hout⟩)
      refine ⟨buckets, ?_, fun p hp => ?_, ?_, ?_⟩
      · rw [eq_comm, ← List.map_id i.buckets, map_eq_map_iff_forall₂]
        exact hof.imp fun b r h => h.2
      · obtain ⟨b, -, h, -⟩ := exists_of_forall₂_right hof hp
        exact h
      · have hlines : (parts.map (·.2)).map (·.1) = buckets.map (·.lines) := by
          rw [List.map_map, eq_comm, map_eq_map_iff_forall₂]
          exact hparts.imp fun r p h => (congrArg Prod.fst h.2).symm
        rw [List.flatMap_def, hlines, ← List.flatMap_def]
      · have hentries : parts.map (·.1) = buckets.map (·.entries i) := by
          rw [eq_comm, map_eq_map_iff_forall₂]
          exact hparts.imp fun r p h => h.1.symm
        rw [List.nil_append, List.append_nil, List.flatMap_def, List.flatMap_def, hentries]
        rfl

end Interval
end UsageBilling
