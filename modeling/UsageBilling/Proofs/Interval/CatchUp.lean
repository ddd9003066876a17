import UsageBilling.Proofs.Decimal.Exact
import UsageBilling.Proofs.Interval.ItemOrder
import UsageBilling.Proofs.Interval.Lifecycle
import UsageBilling.Proofs.Run.Reconciliation

/-! The quantities of catch-up lines. Where something was invoiced for a unit type of a bucket, what is still owed
becomes one line, and it has the units metered by then less the quantities recorded before (`catch_up_of_invoiced`).
What the first lines record is the units metered then, but the lines of the detail mode record the blocks of the
charges that are worth a line (`recorded_of_first`). So a catch-up line has the units not invoiced before where the
first lines recorded units (`catch_up_quantity`), and another quantity where they recorded blocks of more than one
unit (`detail_lines_record_blocks`). -/

namespace UsageBilling.Interval

variable {i j : Interval} {b c : Bucket} {subscriptionId unitType : String} {items existing : List InvoiceItem}

/-! ### Lines for a unit type -/

/-- The blocks of the charges that are worth a line. -/
def linedBlocks (i : Interval) (charges : List Charge) (amounts : List Decimal) : List Decimal :=
  ((charges.zip amounts).filter fun p => i.keeps p.2).map fun p => p.1.blocks

theorem quantities_of_chargeLines {charges : List Charge} {amounts : List Decimal} {lines : List InvoiceLine}
    (hamounts : charges.mapM Charge.amount = .ok amounts) (h : i.chargeLines b unitType charges = .ok lines) :
    lines.map (·.quantity) = (i.linedBlocks charges amounts).map some := by
  obtain ⟨amounts', hamounts', hlines⟩ := chargeLines_forall₂ h
  obtain rfl : amounts = amounts' := Except.ok.inj (hamounts.symm.trans hamounts')
  rw [linedBlocks, List.map_map, map_eq_map_iff_forall₂]
  refine hlines.flip.imp fun l p hp => ?_
  obtain ⟨details, hp⟩ := hp
  obtain ⟨-, -, hquantity, -⟩ := fields_of_newLine hp
  exact hquantity

theorem quantity_of_aggregateLine {quantity due owed : Decimal} {charges : List Charge} {line : InvoiceLine}
    (h : i.aggregateLine b unitType quantity due owed charges items = .ok line) :
    quantityOwed quantity items = .ok line.quantity := by
  obtain ⟨details, rest, rate, -, hrest, h⟩ := aggregateLine_eq_ok h
  obtain ⟨-, -, hquantity, -⟩ := fields_of_newLine h
  rw [hrest, hquantity]

/-- What is owed for a unit type becomes no line, the lines of its charges, or one line for all of it. -/
theorem quantities_of_unitTypeLines {quantity : Decimal} {lines : List InvoiceLine}
    (h : (i.unitTypeLines b unitType quantity items).result = .ok lines) : lines = [] ∨ ∃ charges amounts,
      i.usage.consumableCharges unitType quantity = .ok charges ∧ charges.mapM Charge.amount = .ok amounts ∧
        if i.terms.detailMode = .detail ∧ items.filter (·.unitType = some unitType) = [] ∧ charges ≠ [] then
          lines.map (·.quantity) = (i.linedBlocks charges amounts).map some
        else ∃ line, lines = [line] ∧
          quantityOwed quantity (items.filter (·.unitType = some unitType)) = .ok line.quantity := by
  obtain ⟨charges, due, owed, hcharges, hdue, -, h⟩ := unitTypeLines_eq_ok.mp h
  obtain ⟨amounts, hamounts, -⟩ := Charge.total_eq_ok.mp hdue
  cases h with
  | none => exact Or.inl rfl
  | itemized hdetail hlines =>
      refine Or.inr ⟨charges, amounts, hcharges, hamounts, ?_⟩
      rw [if_pos hdetail]
      exact quantities_of_chargeLines hamounts hlines
  | aggregate hdetail hline =>
      refine Or.inr ⟨charges, amounts, hcharges, hamounts, ?_⟩
      rw [if_neg hdetail]
      exact ⟨_, rfl, quantity_of_aggregateLine hline⟩

/-! ### First lines and catch-up lines -/

theorem quantities_recorded {quantities : List Decimal} (hitems : items.map (·.quantity) = quantities.map some) :
    items.mapM (·.quantity) = some quantities ∧ items.filterMap (·.quantity) = quantities := by
  have hknown : items.all (·.quantity.isSome) = true := by
    rw [List.all_eq_true]
    intro x hx
    obtain ⟨q, -, hq⟩ := List.mem_map.mp (hitems ▸ List.mem_map_of_mem hx)
    rw [← hq]
    rfl
  have hrecorded : items.filterMap (·.quantity) = quantities :=
    calc items.filterMap (·.quantity) = (items.map (·.quantity)).filterMap id := by rw [List.filterMap_map]; rfl
      _ = quantities.filterMap some := by rw [hitems, List.filterMap_map]; rfl
      _ = quantities := List.filterMap_some
  rw [quantities_eq, if_pos hknown, hrecorded]
  exact ⟨rfl, rfl⟩

/-- The units metered less those that were invoiced, where all items recorded them. -/
theorem quantityOwed_eq {quantity : Decimal} {rest : Option Decimal} {quantities : List Decimal}
    (hitems : items.map (·.quantity) = quantities.map some) (h : quantityOwed quantity items = .ok rest) :
    ∃ total units, Decimal.sum quantities = .ok total ∧ quantity.sub total = .ok units ∧ rest = some units := by
  rw [quantityOwed, (quantities_recorded hitems).1] at h
  obtain ⟨total, htotal, h⟩ := bind_eq_ok.mp h
  obtain ⟨units, hunits, h⟩ := bind_eq_ok.mp h
  exact ⟨total, units, htotal, hunits, (pure_eq_ok.mp h).symm⟩

/-- Where something was invoiced, the units metered less those invoiced make up the only line. -/
theorem catch_up_of_invoiced {quantity : Decimal} {lines : List InvoiceLine} {quantities : List Decimal}
    (h : (i.unitTypeLines b unitType quantity items).result = .ok lines)
    (hitems : (items.filter (·.unitType = some unitType)).map (·.quantity) = quantities.map some)
    (hne : quantities ≠ []) : lines = [] ∨ ∃ line total units, lines = [line] ∧ line.quantity = some units ∧
      Decimal.sum quantities = .ok total ∧ quantity.sub total = .ok units := by
  rcases quantities_of_unitTypeLines h with hnone | ⟨charges, amounts, -, -, hlines⟩
  · exact Or.inl hnone
  have hbilled : items.filter (·.unitType = some unitType) ≠ [] := by
    intro hempty
    rw [hempty, List.map_nil] at hitems
    exact hne (List.map_eq_nil_iff.mp hitems.symm)
  rw [if_neg fun hdetail => hbilled hdetail.2.1] at hlines
  obtain ⟨line, rfl, hline⟩ := hlines
  obtain ⟨total, units, htotal, hunits, hquantity⟩ := quantityOwed_eq hitems hline
  exact Or.inr ⟨line, total, units, rfl, hquantity, htotal, hunits⟩

/-- The units that the first lines record: those metered, but in the detail mode the blocks of the charges that are
worth a line. -/
def recordedUnits (i : Interval) (quantity : Decimal) (charges : List Charge) (amounts : List Decimal) : ℚ :=
  if i.terms.detailMode = .detail ∧ charges ≠ [] then ((i.linedBlocks charges amounts).map Decimal.value).sum
  else quantity.value

theorem recordedUnits_eq {quantity : Decimal} {charges : List Charge} {amounts : List Decimal}
    (h : i.terms.detailMode = .aggregate ∨ charges = [] ∨
      ((i.linedBlocks charges amounts).map Decimal.value).sum = quantity.value) :
    i.recordedUnits quantity charges amounts = quantity.value := by
  rw [recordedUnits]
  split
  next hdetail =>
    rcases h with haggregate | hnone | hsum
    · cases hdetail.1.symm.trans haggregate
    · exact absurd hnone hdetail.2
    · exact hsum
  next => rfl

/-- Where nothing was invoiced, the lines record the units metered or blocks. -/
theorem recorded_of_first {quantity : Decimal} {lines : List InvoiceLine}
    (h : (i.unitTypeLines b unitType quantity []).result = .ok lines) (hne : lines ≠ [])
    {k : Int} (hk : k ≤ 1000026) (hfinite : quantity.IsFinite) (hmultiple : Decimal.MultipleOf k quantity.value)
    (hbound : |quantity.value| < 10 ^ (28 - k)) : ∃ charges amounts, ∃ quantities : List Decimal,
      i.usage.consumableCharges unitType quantity = .ok charges ∧ charges.mapM Charge.amount = .ok amounts ∧
      lines.map (·.quantity) = quantities.map some ∧
      (quantities.map Decimal.value).sum = i.recordedUnits quantity charges amounts := by
  rcases quantities_of_unitTypeLines h with hnone | ⟨charges, amounts, hcharges, hamounts, hlines⟩
  · exact absurd hnone hne
  by_cases hdetail : i.terms.detailMode = .detail ∧ charges ≠ []
  · rw [if_pos ⟨hdetail.1, rfl, hdetail.2⟩] at hlines
    refine ⟨charges, amounts, _, hcharges, hamounts, hlines, ?_⟩
    rw [recordedUnits, if_pos hdetail]
  · rw [if_neg fun hd => hdetail ⟨hd.1, hd.2.2⟩] at hlines
    obtain ⟨line, rfl, hline⟩ := hlines
    have hnone : ([] : List InvoiceItem).map (·.quantity) = ([] : List Decimal).map some := rfl
    obtain ⟨total, units, htotal, hunits, hquantity⟩ := quantityOwed_eq hnone hline
    obtain rfl : Decimal.zero = total := Except.ok.inj htotal
    have hwritten : Decimal.money.Written (quantity.value - Decimal.zero.value) := by
      rw [Decimal.value_zero, sub_zero]
      exact hmultiple.written hk hbound
    have hunits := (Decimal.sub_of_written hfinite Decimal.isFinite_zero hwritten hunits).2
    refine ⟨charges, amounts, [units], hcharges, hamounts, ?_, ?_⟩
    · rw [List.map_singleton, hquantity, List.map_singleton]
    · rw [List.map_singleton, List.sum_singleton, hunits, Decimal.value_zero, sub_zero, recordedUnits, if_neg hdetail]

/-! ### Intervals -/

/-- Calls lead from an interval that can be reached to others. -/
theorem Reachable.after (h : Reachable i) (calls : List Call) : Reachable (i.after calls) := by
  induction calls generalizing i with
  | nil => exact h
  | cons c calls ih => exact ih (h.called c)

def OfOneSubscription (i : Interval) : Prop :=
  ∀ e ∈ i.events, ∀ f ∈ i.events, e.event.subscriptionId = f.event.subscriptionId

theorem OfOneSubscription.of_events (h : i.OfOneSubscription)
    (hsame : ∀ e ∈ j.events, ∃ f ∈ i.events, f.event = e.event) : j.OfOneSubscription := by
  intro e he f hf
  obtain ⟨e', he', hee⟩ := hsame e he
  obtain ⟨f', hf', hff⟩ := hsame f hf
  rw [← hee, ← hff]
  exact h e' he' f' hf'

theorem OfOneSubscription.push (h : i.OfOneSubscription) {x : IntervalEvent}
    (hx : ∀ f ∈ i.events, x.event.subscriptionId = f.event.subscriptionId) : (i.push x).OfOneSubscription := by
  intro e he f hf
  rcases List.mem_append.mp he with he | he <;> rcases List.mem_append.mp hf with hf | hf
  · exact h e he f hf
  · rw [List.mem_singleton.mp hf, hx e he]
  · rw [List.mem_singleton.mp he, hx f hf]
  · rw [List.mem_singleton.mp he, List.mem_singleton.mp hf]

theorem OfOneSubscription.add (h : i.OfOneSubscription) (place : Nat) (event : BillingEvent) :
    (i.call (.add place event)).1.OfOneSubscription := by
  rw [call, Interval.add, checkNotBuilt]
  cases i.isBuilt with
  | true => exact h
  | false =>
      cases hfirst : i.events.head? with
      | none =>
          refine h.push (x := ⟨place, event, none⟩) ?_
          rw [List.head?_eq_none_iff.mp hfirst]
          exact fun f hf => absurd hf List.not_mem_nil
      | some first =>
          by_cases hother : event.subscriptionId = first.event.subscriptionId
          · simp only [hother, ne_eq, not_true_eq_false, if_false]
            refine h.push (x := ⟨place, event, none⟩) fun f hf => ?_
            exact hother.trans (h first (List.mem_of_head? hfirst) f hf)
          · simp only [hother, ne_eq, not_false_eq_true, if_true]
            exact h

/-- What does not add an event leaves the events, but for the unit types recorded at the last one. -/
theorem OfOneSubscription.does (h : i.OfOneSubscription) {c : Call} {r : Except Error Unit} (hdoes : Does i c j r)
    (hadds : ∀ place event, c ≠ .add place event) : j.OfOneSubscription := by
  cases hdoes with
  | refused _ => exact h
  | @added place event _ => exact absurd rfl (hadds place event)
  | @tagged _ _ last _ hlast =>
      refine h.of_events fun e he => ?_
      rcases List.mem_append.mp he with he | he
      · exact ⟨e, List.mem_of_mem_dropLast he, rfl⟩
      · rw [List.mem_singleton.mp he]
        exact ⟨last, List.mem_of_getLast? hlast, rfl⟩
  | built hbuilt =>
      obtain ⟨-, -, buckets, next, -, -, rfl⟩ := built_eq_ok.mp hbuilt
      exact h
  | unscheduled _ _ _ => exact h
  | undated _ _ _ _ => exact h
  | reconciled => exact h

theorem Reachable.ofOneSubscription (h : Reachable i) : i.OfOneSubscription := by
  induction h with
  | created h =>
      rw [create] at h
      split at h
      · obtain rfl := Except.ok.inj h
        exact fun e he => absurd he List.not_mem_nil
      · cases h
  | @called i _ c ih =>
      cases c with
      | add place event => exact ih.add place event
      | tag place unitTypes => exact ih.does (does_call i _) fun _ _ h => by cases h
      | build closed => exact ih.does (does_call i _) fun _ _ h => by cases h
      | reconcile existing => exact ih.does (does_call i _) fun _ _ h => by cases h

/-- All events of an interval are of its subscription. -/
theorem Reachable.subscription (h : Reachable i) (hsub : i.subscriptionId = .ok subscriptionId) :
    ∀ e ∈ i.events, e.event.subscriptionId = subscriptionId := by
  intro e he
  obtain ⟨first, hfirst, hsub⟩ := bind_eq_ok.mp hsub
  obtain rfl := pure_eq_ok.mp hsub
  rw [firstEvent] at hfirst
  cases hhead : i.events.head? with
  | none =>
      rw [hhead] at hfirst
      cases hfirst
  | some f =>
      rw [hhead] at hfirst
      rw [← Except.ok.inj hfirst]
      exact h.ofOneSubscription e he f (List.mem_of_head? hhead)

/-- The buckets of an interval are not empty and do not overlap. -/
theorem Reachable.buckets_apart (h : Reachable i) : (∀ b ∈ i.buckets, b.alignedStart < b.finish) ∧
    (i.buckets.map (i, ·)).Pairwise Run.Apart := by
  have hnone (hbuckets : i.buckets = []) : (∀ b ∈ i.buckets, b.alignedStart < b.finish) ∧
      (i.buckets.map (i, ·)).Pairwise Run.Apart := by
    rw [hbuckets]
    exact ⟨by simp, .nil⟩
  have hcomputed (hbuckets : i.computeBuckets = .ok i.buckets) : (∀ b ∈ i.buckets, b.alignedStart < b.finish) ∧
      (i.buckets.map (i, ·)).Pairwise Run.Apart := by
    obtain ⟨bs, hbs, -⟩ := computeBuckets_eq_ok.mp hbuckets
    obtain ⟨start, finish, -, hstart, hfinish, -⟩ := boundaries_eq_ok.mp hbs
    obtain ⟨henclosed, hapart⟩ := buckets_spec hstart hfinish hbuckets
    exact ⟨fun b hb => (henclosed b hb).nonempty, List.pairwise_map.mpr (hapart.imp fun hle _ => Or.inl hle)⟩
  cases h.standing with
  | accumulating _ hbuckets _ => exact hnone hbuckets
  | built _ hbuckets _ => exact hcomputed hbuckets
  | unscheduled _ _ hbuckets _ => exact hnone hbuckets
  | undated _ hbuckets _ _ => exact hcomputed hbuckets

/-- Reconciling an interval gives for each bucket what the bucket adds. -/
theorem Reachable.exists_outcome (h : Reachable i) (hsub : i.subscriptionId = .ok subscriptionId)
    {r : Reconciliation InvoiceLine} (hr : (i.reconcile existing).result = .ok r) (hb : b ∈ i.buckets) :
    ∃ out, outcome subscriptionId existing (i, b) = .ok out ∧
      r.items.filter (concerns subscriptionId (i, b)) = out.1 := by
  obtain ⟨-, outs, houts, rfl⟩ := (reconcile_eq_ok hsub).mp hr
  obtain ⟨hne, hapart⟩ := h.buckets_apart
  have hevents : ∀ p ∈ i.buckets.map (i, ·), ∀ e ∈ p.1.events, e.event.subscriptionId = subscriptionId := by
    intro p hp
    obtain ⟨b, -, rfl⟩ := List.mem_map.mp hp
    exact h.subscription hsub
  obtain ⟨out, -, hout, hlines⟩ := exists_own_lines houts hevents (fun p hp => by
    obtain ⟨b, hb, rfl⟩ := List.mem_map.mp hp
    exact hne b hb) hapart (List.mem_map_of_mem hb)
  exact ⟨out, hout, hlines⟩

/-- The units metered for a unit type in a bucket. -/
def Meters (i : Interval) (b : Bucket) (subscriptionId unitType : String) (quantity : Decimal) : Prop :=
  ∃ types rolled, i.governingUnitTypes b = .ok types ∧
    RolledUsage.ofRecords i.terms.rawUsage subscriptionId b.start b.finish types i.terms.invoiceId = .ok rolled ∧
      (unitType, quantity) ∈ rolled.amounts

/-- The lines for a unit type that a bucket adds are the lines owed for the units metered. -/
theorem unitTypeLines_of_outcome (hevents : ∀ e ∈ i.events, e.event.subscriptionId = subscriptionId)
    (hpricing : i.usage.pricing = .consumable) {quantity : Decimal}
    (hquantity : i.Meters b subscriptionId unitType quantity) {out : List InvoiceLine × List TrackingId}
    (h : outcome subscriptionId existing (i, b) = .ok out) :
    (i.unitTypeLines b unitType quantity ((i.relevantItems subscriptionId existing).filter (overlaps b))).result =
      .ok (out.1.filter (·.unitType = some unitType)) := by
  obtain ⟨types, rolled, htypes, hrolled, hmem⟩ := hquantity
  obtain ⟨billed, types', hbilled, htypes', hout⟩ := reconcileBucket_eq_ok.mp h
  obtain rfl : types = types' := Except.ok.inj (htypes.symm.trans htypes')
  obtain ⟨rfl, -⟩ := billedFor_eq_ok.mp hbilled
  have hnames := RolledUsage.map_fst_amounts hrolled
  rcases hout with ⟨rfl, -⟩ | ⟨-, rolled', lines, hrolled', hlines, rfl⟩
  · rw [List.map_eq_nil_iff.mp hnames] at hmem
    cases hmem
  obtain rfl : rolled = rolled' := Except.ok.inj (hrolled.symm.trans hrolled')
  rw [bucketLines, hpricing] at hlines
  obtain ⟨-, parts, hparts, rfl⟩ := consumableLines_eq_ok.mp hlines
  have hboth := (filter_unitType_flatten hevents (RolledUsage.nodup_amounts hrolled) hparts).mp
    (fun p ls hown hp => And.intro hown hp) hparts
  obtain ⟨ls, -, hown, hls⟩ := exists_of_forall₂_left hboth hmem
  rw [hown]
  exact hls

/-! ### Reconciling a bucket again -/

/-- The lines for a unit type of a bucket. -/
def linesOf (subscriptionId : String) (p : Interval × Bucket) (unitType : String) (lines : List InvoiceLine) :
    List InvoiceLine :=
  (lines.filter (concerns subscriptionId p)).filter (·.unitType = some unitType)

/-- A bucket of consumable usage that was reconciled when nothing was invoiced, and is reconciled again when the
lines for a unit type are invoiced. More may be metered by then, and all else but the section, the subscription
and the span of the bucket may have changed. -/
structure ReconciledAgain (subscriptionId : String) (i j : Interval) (b c : Bucket) (unitType : String)
    (before after : Decimal) (existing : List InvoiceItem) (first later : Reconciliation InvoiceLine) : Prop where
  reachable : Reachable i ∧ Reachable j
  pricing : i.usage.pricing = .consumable ∧ j.usage.pricing = .consumable
  name : j.usage.name = i.usage.name
  subscription : i.subscriptionId = .ok subscriptionId ∧ j.subscriptionId = .ok subscriptionId
  buckets : b ∈ i.buckets ∧ c ∈ j.buckets
  span : c.alignedStart = b.alignedStart ∧ c.finish = b.finish
  metered : i.Meters b subscriptionId unitType before ∧ j.Meters c subscriptionId unitType after
  firstPass : (i.reconcile []).result = .ok first
  emitted : linesOf subscriptionId (i, b) unitType first.items ≠ []
  laterPass : (j.reconcile existing).result = .ok later
  invoiced : ((invoicedOf subscriptionId (j, c) (some unitType) existing).map (·.toInvoiceLine)).Perm
    (linesOf subscriptionId (i, b) unitType first.items)

/-- Units that are metered and recorded in whole units of `10 ^ -k`, within the digits of the context. -/
structure ExactUnits (k : Int) (before after : Decimal) (recorded : List Decimal) : Prop where
  places : k ≤ 1000026
  unitsBefore : before.IsFinite ∧ Decimal.MultipleOf k before.value ∧ |before.value| < 10 ^ (28 - k)
  unitsAfter : after.IsFinite ∧ Decimal.MultipleOf k after.value
  fits : Decimal.Fits k recorded
  rest : |after.value - (recorded.map Decimal.value).sum| < 10 ^ (28 - k)

/-- Items for some lines, in any order, have recorded the quantities of the lines. -/
theorem quantities_of_perm {lines : List InvoiceLine} {quantities : List Decimal}
    (hitems : (items.map (·.toInvoiceLine)).Perm lines) (hlines : lines.map (·.quantity) = quantities.map some) :
    ∃ recorded : List Decimal, items.map (·.quantity) = recorded.map some ∧ recorded.Perm quantities := by
  rw [map_eq_map_iff_forall₂] at hlines
  obtain ⟨recorded, hrecorded, hperm⟩ := exists_perm_of_forall₂ hitems hlines
  refine ⟨recorded, ?_, hperm⟩
  rw [List.forall₂_map_left_iff] at hrecorded
  rw [map_eq_map_iff_forall₂]
  exact hrecorded

/-- A catch-up line has the units metered by then less those that the first lines recorded, which are the units
metered then unless they are blocks of the detail mode. -/
theorem catch_up_quantity {before after : Decimal} {first later : Reconciliation InvoiceLine}
    (h : ReconciledAgain subscriptionId i j b c unitType before after existing first later) {k : Int}
    (hexact : ExactUnits k before after
      ((invoicedOf subscriptionId (j, c) (some unitType) existing).filterMap (·.quantity))) :
    ∃ charges amounts, i.usage.consumableCharges unitType before = .ok charges ∧
      charges.mapM Charge.amount = .ok amounts ∧
      (linesOf subscriptionId (j, c) unitType later.items).length ≤ 1 ∧
      ∀ line ∈ linesOf subscriptionId (j, c) unitType later.items, ∃ units, line.quantity = some units ∧
        units.IsFinite ∧ units.value = after.value - i.recordedUnits before charges amounts ∧
        (i.terms.detailMode = .aggregate ∨ charges = [] ∨
          ((i.linedBlocks charges amounts).map Decimal.value).sum = before.value →
            units.value = after.value - before.value) := by
  obtain ⟨out, hout, hown⟩ := h.reachable.1.exists_outcome h.subscription.1 h.firstPass h.buckets.1
  obtain ⟨out', hout', hown'⟩ := h.reachable.2.exists_outcome h.subscription.2 h.laterPass h.buckets.2
  have hlines := unitTypeLines_of_outcome (h.reachable.1.subscription h.subscription.1) h.pricing.1 h.metered.1 hout
  have hlines' := unitTypeLines_of_outcome (h.reachable.2.subscription h.subscription.2) h.pricing.2 h.metered.2 hout'
  rw [← hown] at hlines
  rw [← hown'] at hlines'
  obtain ⟨hfinite, hmultiple, hbound⟩ := hexact.unitsBefore
  obtain ⟨charges, amounts, quantities, hcharges, hamounts, hquantities, hrecorded⟩ :=
    recorded_of_first hlines h.emitted hexact.places hfinite hmultiple hbound
  obtain ⟨invoiced, hinvoiced, hperm⟩ := quantities_of_perm h.invoiced hquantities
  obtain ⟨-, hfilter⟩ := quantities_recorded hinvoiced
  rw [hfilter] at hexact
  have hsum : (invoiced.map Decimal.value).sum = i.recordedUnits before charges amounts := by
    rw [← hrecorded]
    exact (hperm.map _).sum_eq
  have hne : invoiced ≠ [] := by
    rintro rfl
    rw [← hperm.nil_eq, List.map_nil, List.map_eq_nil_iff] at hquantities
    exact h.emitted hquantities
  rw [invoicedOf_eq] at hinvoiced
  refine ⟨charges, amounts, hcharges, hamounts, ?_⟩
  rcases catch_up_of_invoiced hlines' hinvoiced hne with hnone | ⟨line, total, units, hone, hquantity, htotal, hunits⟩
  · rw [linesOf, hnone]
    exact ⟨Nat.zero_le 1, fun l hl => absurd hl List.not_mem_nil⟩
  rw [linesOf, hone]
  refine ⟨Nat.le_refl 1, fun l hl => ?_⟩
  obtain rfl := List.mem_singleton.mp hl
  obtain ⟨htfinite, htvalue⟩ := hexact.fits.sum_eq hexact.places htotal
  have hwritten : Decimal.money.Written (after.value - total.value) := by
    rw [htvalue]
    exact (hexact.unitsAfter.2.sub hexact.fits.multipleOf_sum).written hexact.places hexact.rest
  obtain ⟨hufinite, huvalue⟩ := Decimal.sub_of_written hexact.unitsAfter.1 htfinite hwritten hunits
  rw [htvalue, hsum] at huvalue
  refine ⟨units, hquantity, hufinite, huvalue, fun hunits => ?_⟩
  rw [huvalue, recordedUnits_eq hunits]

namespace Sample

/-- Calls that are billed each month in blocks of ten. -/
def tens : Usage := { calls with tiers := [⟨[⟨"calls", .ofNat 10, .ofNat 1, none⟩], [], none⟩] }

/-- The terms of a run in February 2022 up to which some calls were reported in January. -/
def reported (mode : DetailMode) (units : Nat) : Terms :=
  { twoMonths.terms with
    target := tenthDay
    detailMode := mode
    rawUsage := [⟨"subscription", "calls", firstDay, .ofNat units, "report", 1⟩] }

def opened (mode : DetailMode) (units : Nat) : Interval := ⟨tens, reported mode units, [], .accumulating, [], none⟩

def metered (mode : DetailMode) (units : Nat) : Interval :=
  (opened mode units).after [.add 0 (event firstDay [tens]), .build false]

def january : Bucket := ⟨firstDay, Run.Sample.february, 0, firstDay⟩

def linesIn : Except Error (Reconciliation InvoiceLine) → List InvoiceLine
  | .ok r => r.items
  | .error _ => []

/-- The lines for fifteen calls that are issued in a mode. -/
def issued (mode : DetailMode) : List InvoiceLine := linesIn ((metered mode 15).reconcile []).result

/-- The lines for twenty-five calls once those for fifteen are issued. -/
def issuedAgain (mode : DetailMode) : List InvoiceLine :=
  linesIn ((metered mode 25).reconcile (InvoiceLine.issue 1 (issued mode))).result

/-- The units of the catch-up line. -/
def caughtUp : DetailMode → Nat
  | .aggregate => 10
  | .detail => 23

theorem reachable_metered (mode : DetailMode) (units : Nat) : Reachable (metered mode units) := by
  have hcreated : create tens (reported mode units) = .ok (opened mode units) := if_pos rfl
  exact (Reachable.created hcreated).after _

theorem meters_january (mode : DetailMode) :
    (metered mode 15).Meters january "subscription" "calls" (.ofNat 15) ∧
      (metered mode 25).Meters january "subscription" "calls" (.ofNat 25) := by
  constructor
  · refine ⟨["calls"], ⟨"subscription", firstDay, Run.Sample.february, [("calls", .ofNat 15)],
      [⟨"report", "subscription", "calls", firstDay, some "invoice"⟩]⟩, ?_⟩
    cases mode <;> decide +kernel
  · refine ⟨["calls"], ⟨"subscription", firstDay, Run.Sample.february, [("calls", .ofNat 25)],
      [⟨"report", "subscription", "calls", firstDay, some "invoice"⟩]⟩, ?_⟩
    cases mode <;> decide +kernel

theorem reconciledAgain (mode : DetailMode) : ∃ first later, ReconciledAgain "subscription" (metered mode 15)
    (metered mode 25) january january "calls" (.ofNat 15) (.ofNat 25) (InvoiceLine.issue 1 (issued mode)) first later ∧
      later.items = issuedAgain mode := by
  obtain ⟨first, hfirst⟩ : ∃ r, ((metered mode 15).reconcile []).result = .ok r := by
    refine exists_ok_of_isOk ?_
    cases mode <;> decide +kernel
  obtain ⟨later, hlater⟩ : ∃ r, ((metered mode 25).reconcile (InvoiceLine.issue 1 (issued mode))).result = .ok r := by
    refine exists_ok_of_isOk ?_
    cases mode <;> decide +kernel
  have hissued : issued mode = first.items := congrArg linesIn hfirst
  have hemitted : linesOf "subscription" (metered mode 15, january) "calls" (issued mode) ≠ [] := by
    cases mode <;> decide +kernel
  have hinvoiced : (invoicedOf "subscription" (metered mode 25, january) (some "calls")
      (InvoiceLine.issue 1 (issued mode))).map (·.toInvoiceLine) =
        linesOf "subscription" (metered mode 15, january) "calls" (issued mode) := by
    cases mode <;> decide +kernel
  rw [hissued] at hemitted
  refine ⟨first, later, ?_, (congrArg linesIn hlater).symm⟩
  exact {
    reachable := ⟨reachable_metered mode 15, reachable_metered mode 25⟩
    pricing := by cases mode <;> decide +kernel
    name := by cases mode <;> decide +kernel
    subscription := by cases mode <;> decide +kernel
    buckets := by cases mode <;> decide +kernel
    span := ⟨rfl, rfl⟩
    metered := meters_january mode
    firstPass := hfirst
    emitted := hemitted
    laterPass := hlater
    invoiced := by rw [hinvoiced, hissued] }

theorem caughtUp_issuedAgain (mode : DetailMode) :
    linesOf "subscription" (metered mode 25, january) "calls" (issuedAgain mode) = issuedAgain mode ∧
      (issuedAgain mode).map (·.quantity) = [some (.ofNat (caughtUp mode))] := by
  cases mode <;> decide +kernel

theorem exists_caughtUp (mode : DetailMode) :
    ∃ line ∈ linesOf "subscription" (metered mode 25, january) "calls" (issuedAgain mode),
      line.quantity = some (.ofNat (caughtUp mode)) := by
  obtain ⟨hlines, hquantities⟩ := caughtUp_issuedAgain mode
  rw [hlines, ← List.mem_map, hquantities]
  exact List.mem_cons_self

theorem exactUnits (mode : DetailMode) : ExactUnits 0 (.ofNat 15) (.ofNat 25)
    ((invoicedOf "subscription" (metered mode 25, january) (some "calls") (InvoiceLine.issue 1 (issued mode))).filterMap
      (·.quantity)) := by
  have hmultiple (n : Nat) : Decimal.MultipleOf 0 (Decimal.ofNat n).value := ⟨n, by simp [Decimal.value_ofNat]⟩
  have hsmall (n : Nat) (hn : n ≤ 25) : |((n : Nat) : ℚ)| < 10 ^ (28 - (0 : Int)) := by
    have hle : (n : ℚ) ≤ 25 := by exact_mod_cast hn
    rw [abs_of_nonneg (Nat.cast_nonneg n)]
    exact lt_of_le_of_lt hle (by norm_num)
  have hrecorded : ∃ n ≤ 15, (invoicedOf "subscription" (metered mode 25, january) (some "calls")
      (InvoiceLine.issue 1 (issued mode))).filterMap (·.quantity) = [.ofNat n] := by
    cases mode with
    | aggregate => exact ⟨15, by decide, by decide +kernel⟩
    | detail => exact ⟨2, by decide, by decide +kernel⟩
  obtain ⟨n, hn, hrecorded⟩ := hrecorded
  rw [hrecorded]
  have hn25 : n ≤ 25 := hn.trans (by decide)
  refine ⟨by decide, ⟨trivial, hmultiple 15, by rw [Decimal.value_ofNat]; exact hsmall 15 (by decide)⟩,
    ⟨trivial, hmultiple 25⟩,
    Decimal.fits_ofNat (hn25.trans_lt (by norm_num)), ?_⟩
  rw [List.map_singleton, List.sum_singleton, Decimal.value_ofNat, Decimal.value_ofNat]
  have hrest : ((25 : Nat) : ℚ) - n = ((25 - n : Nat) : ℚ) := by rw [Nat.cast_sub hn25]
  rw [hrest]
  exact hsmall (25 - n) (Nat.sub_le 25 n)

end Sample

theorem catch_up_quantity_ten : ∃ first later line units, ReconciledAgain "subscription" (Sample.metered .aggregate 15)
    (Sample.metered .aggregate 25) Sample.january Sample.january "calls" (.ofNat 15) (.ofNat 25)
      (InvoiceLine.issue 1 (Sample.issued .aggregate)) first later ∧
    line ∈ linesOf "subscription" (Sample.metered .aggregate 25, Sample.january) "calls" later.items ∧
      line.quantity = some units ∧ units.value = 10 := by
  obtain ⟨first, later, hagain, hlater⟩ := Sample.reconciledAgain .aggregate
  obtain ⟨charges, amounts, -, -, -, hcatch⟩ := catch_up_quantity hagain (Sample.exactUnits .aggregate)
  obtain ⟨line, hline, -⟩ := Sample.exists_caughtUp .aggregate
  rw [← hlater] at hline
  obtain ⟨units, hquantity, -, -, hvalue⟩ := hcatch line hline
  refine ⟨first, later, line, units, hagain, hline, hquantity, ?_⟩
  rw [hvalue (Or.inl (by decide +kernel))]
  norm_num [Decimal.ofNat, Decimal.value, Decimal.signed]

/-- In the detail mode the first line for fifteen units records two blocks of ten, so that the catch-up line for
twenty-five units has twenty-three. -/
theorem detail_lines_record_blocks : ¬ ∀ (subscriptionId unitType : String) (i j : Interval) (b c : Bucket)
    (before after : Decimal) (existing : List InvoiceItem) (first later : Reconciliation InvoiceLine) (k : Int),
      ReconciledAgain subscriptionId i j b c unitType before after existing first later →
      ExactUnits k before after
        ((invoicedOf subscriptionId (j, c) (some unitType) existing).filterMap (·.quantity)) →
      ∀ line ∈ linesOf subscriptionId (j, c) unitType later.items, ∃ units, line.quantity = some units ∧
        units.value = after.value - before.value := by
  intro h
  obtain ⟨first, later, hagain, hlater⟩ := Sample.reconciledAgain .detail
  obtain ⟨line, hline, hquantity⟩ := Sample.exists_caughtUp .detail
  rw [← hlater] at hline
  obtain ⟨units, hunits, hvalue⟩ :=
    h _ _ _ _ _ _ _ _ _ _ _ _ hagain (Sample.exactUnits .detail) line hline
  obtain rfl := Option.some.inj (hquantity.symm.trans hunits)
  norm_num [Sample.caughtUp, Decimal.ofNat, Decimal.value, Decimal.signed] at hvalue

end UsageBilling.Interval
