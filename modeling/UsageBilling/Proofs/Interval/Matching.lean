import UsageBilling.Proofs.Faults
import UsageBilling.Proofs.Interval.CatchUp
import UsageBilling.Proofs.Interval.Governing

/-! How the items that exist are matched to the buckets of a built interval. A bucket accepts an item that it has a
day in common with if both coincide and, where the bucket bills unit types, the unit type of the item suits the
pricing (`Accepts`). A bucket that reconciles accepts all items that concern it (`accepts_of_outcome`), and since
buckets do not overlap each of these is invoiced for that bucket alone (`filter_concerns_eq`). A bucket that fails
rejects one of the items that concern it, or fails in pricing (`failed_of_outcome`), and the interval fails at the
first of its buckets that does (`Reachable.exists_failsAt`). No other items matter (`reconcile_eq_of_concerned`). -/

namespace UsageBilling

namespace Interval

variable {i j : Interval} {b c : Bucket} {subscriptionId : String} {items existing existing' : List InvoiceItem}
  {x : InvoiceItem} {e : Error}

/-! ### Accepted and rejected items -/

def Coincides (b : Bucket) (x : InvoiceItem) : Prop := x.startDate = b.alignedStart ∧ x.endDate = b.finish

/-- An item has a unit type of a consumable section, or none for a capacity section. -/
def SuitsPricing (i : Interval) (x : InvoiceItem) : Prop :=
  match i.usage.pricing with
  | .consumable => ∃ u ∈ i.usage.unitTypes, x.unitType = some u
  | .capacity => x.unitType = none

/-- A bucket accepts an item that coincides with it and, where it bills unit types, suits the pricing. -/
structure Accepts (i : Interval) (b : Bucket) (x : InvoiceItem) : Prop where
  coincides : Coincides b x
  suits : ∀ types, i.governingUnitTypes b = .ok types → types ≠ [] → i.SuitsPricing x

/-- The error with which a bucket rejects an item. -/
inductive Rejects (i : Interval) (b : Bucket) (x : InvoiceItem) : Error → Prop
  | misaligned (h : ¬ Coincides b x) : Rejects i b x
      (.invoice (.misaligned x.id x.startDate x.endDate b.alignedStart b.finish i.usage.name))
  | foreignUnitType (hpricing : i.usage.pricing = .consumable) (h : ¬ ∃ u ∈ i.usage.unitTypes, x.unitType = some u) :
      Rejects i b x (.invoice (.foreignUnitType x.id x.unitType i.usage.name))
  | unitTypeOnCapacity {u : String} (hpricing : i.usage.pricing = .capacity) (h : x.unitType = some u) :
      Rejects i b x (.invoice (.unitTypeOnCapacity x.id u))

/-- An error of the catalog or of the decimals. -/
def IsPricingFault (e : Error) : Prop := (∃ fault, e = .catalog fault) ∨ ∃ fault, e = .decimal fault

theorem hasPricingFaults_isPricingFault : HasPricingFaults IsPricingFault :=
  ⟨fun fault => Or.inl ⟨fault, rfl⟩, fun fault => Or.inr ⟨fault, rfl⟩⟩

theorem rejects_of_billedFor (h : i.billedFor b items = .error e) :
    ∃ x ∈ items.filter (overlaps b), ¬ Coincides b x ∧ Rejects i b x e := by
  rw [billedFor] at h
  split at h
  next x hx =>
    have hmisaligned : ¬ Coincides b x := by
      rintro ⟨hstart, hfinish⟩
      have hfound := List.find?_some hx
      simp [hstart, hfinish] at hfound
    obtain rfl := Except.error.inj h
    exact ⟨x, List.mem_of_find?_eq_some hx, hmisaligned, .misaligned hmisaligned⟩
  next => cases h

theorem rejects_of_checkUnitTypes (hpricing : i.usage.pricing = .consumable) (h : i.checkUnitTypes items = .error e) :
    ∃ x ∈ items, ¬ i.SuitsPricing x ∧ Rejects i b x e := by
  rw [checkUnitTypes] at h
  dsimp only at h
  split at h
  next x hx =>
    have hforeign : ¬ ∃ u ∈ i.usage.unitTypes, x.unitType = some u := by
      rintro ⟨u, hu, hxu⟩
      have hfound := List.find?_some hx
      simp [hxu, hu] at hfound
    obtain rfl := Except.error.inj h
    refine ⟨x, List.mem_of_find?_eq_some hx, ?_, .foreignUnitType hpricing hforeign⟩
    rw [SuitsPricing, hpricing]
    exact hforeign
  next => cases h

theorem rejects_of_checkNoUnitTypes (hpricing : i.usage.pricing = .capacity) (h : checkNoUnitTypes items = .error e) :
    ∃ x ∈ items, ¬ i.SuitsPricing x ∧ Rejects i b x e := by
  rw [checkNoUnitTypes] at h
  split at h
  next id u _ htyped =>
    have hmem : (id, u) ∈ items.filterMap fun x => x.unitType.map fun unitType => (x.id, unitType) := by
      rw [htyped]
      exact List.mem_cons_self
    obtain ⟨x, hx, hxu⟩ := List.mem_filterMap.mp hmem
    obtain ⟨u', hu, hpair⟩ := Option.map_eq_some_iff.mp hxu
    obtain ⟨rfl, rfl⟩ := Prod.mk.inj hpair
    obtain rfl := Except.error.inj h
    refine ⟨x, hx, ?_, .unitTypeOnCapacity hpricing hu⟩
    rw [SuitsPricing, hpricing, hu]
    exact Option.some_ne_none _
  next => cases h

/-- A bucket rejects one of the items invoiced for it, or fails in pricing. -/
theorem rejects_of_bucketLines {billed : List InvoiceItem} {rolled : RolledUsage}
    (hevent : ∃ ev, i.events[b.eventIndex]? = some ev) (h : (i.bucketLines b rolled billed).result = .error e) :
    (∃ x ∈ billed, ¬ i.SuitsPricing x ∧ Rejects i b x e) ∨ IsPricingFault e := by
  have hindex : i.events[b.eventIndex]? = none → IsPricingFault .indexOutOfRange := by
    intro hnone
    obtain ⟨ev, hev⟩ := hevent
    cases hnone.symm.trans hev
  cases hpricing : i.usage.pricing with
  | consumable =>
      cases hcheck : i.checkUnitTypes billed with
      | ok _ =>
          have hother : i.usage.pricing ≠ .capacity := by
            rw [hpricing]
            decide
          exact Or.inr (failsOnly_bucketLines hasPricingFaults_isPricingFault hindex (fun _ => hcheck)
            (fun hcapacity => absurd hcapacity hother) e h)
      | error e' =>
          rw [bucketLines, hpricing] at h
          simp only [consumableLines, Logged.result_bind, Logged.result_liftM, hcheck] at h
          obtain rfl := Except.error.inj h
          exact Or.inl (rejects_of_checkUnitTypes hpricing hcheck)
  | capacity =>
      cases hcheck : checkNoUnitTypes billed with
      | ok _ =>
          have hother : i.usage.pricing ≠ .consumable := by
            rw [hpricing]
            decide
          exact Or.inr (failsOnly_bucketLines hasPricingFaults_isPricingFault hindex
            (fun hconsumable => absurd hconsumable hother) (fun _ => hcheck) e h)
      | error e' =>
          rw [bucketLines, hpricing] at h
          simp only [capacityLines, Logged.result_bind, Logged.result_liftM, hcheck] at h
          obtain rfl := Except.error.inj h
          exact Or.inl (rejects_of_checkNoUnitTypes hpricing hcheck)

/-! ### One bucket -/

theorem mem_billed : x ∈ (i.relevantItems subscriptionId existing).filter (overlaps b) ↔
    x ∈ existing ∧ concerns subscriptionId (i, b) x.toInvoiceLine = true := by
  rw [filter_overlaps subscriptionId (i, b), List.mem_filter]

/-- A bucket that reconciles accepts the items that concern it. -/
theorem accepts_of_outcome {out : List InvoiceLine × List TrackingId}
    (h : outcome subscriptionId existing (i, b) = .ok out) (hx : x ∈ existing)
    (hconcerns : concerns subscriptionId (i, b) x.toInvoiceLine = true) : i.Accepts b x := by
  obtain ⟨billed, types, hbilled, htypes, hout⟩ := reconcileBucket_eq_ok.mp h
  obtain ⟨rfl, hcoincide⟩ := billedFor_eq_ok.mp hbilled
  have hmem := mem_billed.mpr ⟨hx, hconcerns⟩
  refine ⟨hcoincide x hmem, fun types' htypes' hne => ?_⟩
  obtain rfl : types = types' := Except.ok.inj (htypes.symm.trans htypes')
  obtain ⟨-, rolled, lines, -, hlines, -⟩ := hout.resolve_left fun hnone => hne hnone.1
  rw [SuitsPricing]
  cases hpricing : i.usage.pricing with
  | consumable =>
      rw [bucketLines, hpricing] at hlines
      exact checkUnitTypes_eq_ok.mp (consumableLines_eq_ok.mp hlines).1 x hmem
  | capacity =>
      rw [bucketLines, hpricing] at hlines
      exact checkNoUnitTypes_eq_ok.mp (capacityLines_eq_ok.mp hlines).1 x hmem

/-- A bucket that fails rejects one of the items that concern it, or fails in pricing after it has matched them. -/
theorem failed_of_outcome (hevent : ∃ ev, i.events[b.eventIndex]? = some ev)
    (htypes : ∃ types, i.governingUnitTypes b = .ok types) (h : outcome subscriptionId existing (i, b) = .error e) :
    (∃ x ∈ existing, concerns subscriptionId (i, b) x.toInvoiceLine = true ∧ ¬ i.Accepts b x ∧ Rejects i b x e) ∨
      (∀ x ∈ existing, concerns subscriptionId (i, b) x.toInvoiceLine = true → Coincides b x) ∧ IsPricingFault e := by
  obtain ⟨types, htypes⟩ := htypes
  rw [outcome, reconcileBucket_result] at h
  rcases bind_eq_error.mp h with hbilled | ⟨billed, hbilled, h⟩
  · obtain ⟨x, hx, hmisaligned, hrejects⟩ := rejects_of_billedFor hbilled
    obtain ⟨hx, hconcerns⟩ := mem_billed.mp hx
    exact Or.inl ⟨x, hx, hconcerns, fun haccepts => hmisaligned haccepts.coincides, hrejects⟩
  obtain ⟨rfl, hcoincide⟩ := billedFor_eq_ok.mp hbilled
  have hmatched (x : InvoiceItem) (hx : x ∈ existing)
      (hconcerns : concerns subscriptionId (i, b) x.toInvoiceLine = true) : Coincides b x :=
    hcoincide x (mem_billed.mpr ⟨hx, hconcerns⟩)
  dsimp only at h
  rw [htypes, ok_bind] at h
  split at h
  · cases h
  next hne =>
    rcases bind_eq_error.mp h with hrolled | ⟨rolled, -, h⟩
    · obtain ⟨fault, -, rfl⟩ := liftM_decimal_eq_error.mp hrolled
      exact Or.inr ⟨hmatched, Or.inr ⟨fault, rfl⟩⟩
    rcases bind_eq_error.mp h with hlines | ⟨_, -, h⟩
    · rcases rejects_of_bucketLines hevent hlines with ⟨x, hx, hunsuited, hrejects⟩ | hfault
      · obtain ⟨hx, hconcerns⟩ := mem_billed.mp hx
        refine Or.inl ⟨x, hx, hconcerns, fun haccepts => hunsuited (haccepts.suits types htypes ?_), hrejects⟩
        rintro rfl
        exact hne rfl
      · exact Or.inr ⟨hmatched, hfault⟩
    · cases h

/-! ### All buckets -/

theorem Reachable.computed (h : Reachable i) (hb : b ∈ i.buckets) : i.computeBuckets = .ok i.buckets := by
  have hnone (hbuckets : i.buckets = []) : i.computeBuckets = .ok i.buckets := by
    rw [hbuckets] at hb
    cases hb
  cases h.standing with
  | accumulating _ hbuckets _ => exact hnone hbuckets
  | built _ hbuckets _ => exact hbuckets
  | unscheduled _ _ hbuckets _ => exact hnone hbuckets
  | undated _ hbuckets _ _ => exact hbuckets

theorem Does.events_ne {c : Call} {r : Except Error Unit} (h : Does i c j r)
    (hi : i.isBuilt = true → i.events ≠ []) (hbuilt : j.isBuilt = true) : j.events ≠ [] := by
  cases h with
  | refused _ => exact hi hbuilt
  | added hopen => exact absurd (hopen.symm.trans hbuilt) Bool.false_ne_true
  | tagged hopen _ => exact absurd (hopen.symm.trans hbuilt) Bool.false_ne_true
  | built h =>
      obtain ⟨-, hne, -, -, -, -, rfl⟩ := built_eq_ok.mp h
      exact hne
  | unscheduled _ hne _ => exact hne
  | undated _ hne _ _ => exact hne
  | reconciled => exact hi hbuilt

theorem Reachable.events_ne (h : Reachable i) : i.isBuilt = true → i.events ≠ [] := by
  induction h with
  | created h =>
      rw [create] at h
      split at h
      · obtain rfl := Except.ok.inj h
        exact fun hbuilt => absurd hbuilt Bool.false_ne_true
      · cases h
  | @called i _ c ih => exact (does_call i c).events_ne ih

theorem Reachable.exists_subscription (h : Reachable i) (hbuilt : i.isBuilt = true) :
    ∃ subscriptionId, i.subscriptionId = .ok subscriptionId := by
  obtain ⟨first, rest, hevents⟩ := List.exists_cons_of_ne_nil (h.events_ne hbuilt)
  refine ⟨first.event.subscriptionId, ?_⟩
  rw [subscriptionId, firstEvent, hevents]
  rfl

theorem exists_governing (h : i.computeBuckets = .ok i.buckets) (b : Bucket) :
    ∃ types, i.governingUnitTypes b = .ok types := by
  obtain ⟨bs, hbs, -⟩ := computeBuckets_eq_ok.mp h
  obtain ⟨-, finish, -, -, hfinish, -⟩ := boundaries_eq_ok.mp hbs
  exact ⟨_, bind_eq_ok.mpr ⟨finish, hfinish, rfl⟩⟩

/-- An item that coincides with a bucket concerns no other bucket. -/
theorem filter_concerns_eq (hapart : (i.buckets.map (i, ·)).Pairwise Run.Apart) (hb : b ∈ i.buckets)
    (hconcerns : concerns subscriptionId (i, b) x.toInvoiceLine = true) (hcoincides : Coincides b x) :
    i.buckets.filter (fun c => concerns subscriptionId (i, c) x.toInvoiceLine) = [b] := by
  have hother {c : Bucket} (h : Run.Apart (i, b) (i, c)) : concerns subscriptionId (i, c) x.toInvoiceLine = false := by
    rw [Bool.eq_false_iff]
    intro hc
    simp only [concerns, Bool.and_eq_true, decide_eq_true_eq] at hc
    obtain ⟨⟨hafter, hbefore⟩, -⟩ := hc
    rw [hcoincides.2] at hafter
    rw [hcoincides.1] at hbefore
    rcases h rfl with hle | hle
    · exact absurd hafter (Nat.not_lt.mpr hle)
    · exact absurd hbefore (Nat.not_lt.mpr hle)
  obtain ⟨before, after, hbuckets⟩ := List.append_of_mem hb
  rw [hbuckets, List.map_append, List.map_cons, List.pairwise_append, List.pairwise_cons] at hapart
  obtain ⟨-, ⟨hafter, -⟩, hbefore⟩ := hapart
  have hnone : before.filter (fun c => concerns subscriptionId (i, c) x.toInvoiceLine) = [] := by
    refine List.filter_eq_nil_iff.mpr fun c hc => ?_
    rw [hother (hbefore (i, c) (List.mem_map_of_mem hc) (i, b) List.mem_cons_self).symm]
    exact Bool.false_ne_true
  have hnone' : after.filter (fun c => concerns subscriptionId (i, c) x.toInvoiceLine) = [] := by
    refine List.filter_eq_nil_iff.mpr fun c hc => ?_
    rw [hother (hafter (i, c) (List.mem_map_of_mem hc))]
    exact Bool.false_ne_true
  rw [hbuckets, List.filter_append, hnone, List.filter_cons, if_pos hconcerns, hnone', List.nil_append]

/-- Reconciling fails at a bucket, after those before it were reconciled: an item that concerns the bucket is not
accepted by it and rejected, or pricing fails, where the bucket has the days of all items that concern it. -/
structure FailsAt (i : Interval) (subscriptionId : String) (existing : List InvoiceItem) (before : List Bucket)
    (b : Bucket) (after : List Bucket) (e : Error) : Prop where
  buckets : i.buckets = before ++ b :: after
  earlier : ∀ c ∈ before, ∃ out, outcome subscriptionId existing (i, c) = .ok out
  failing : outcome subscriptionId existing (i, b) = .error e
  cause : (∃ x ∈ existing, concerns subscriptionId (i, b) x.toInvoiceLine = true ∧ ¬ i.Accepts b x ∧ Rejects i b x e) ∨
    (∀ x ∈ existing, concerns subscriptionId (i, b) x.toInvoiceLine = true → Coincides b x) ∧ IsPricingFault e

/-- A built interval fails with the error of its first bucket that fails. -/
theorem Reachable.exists_failsAt (hi : Reachable i) (hbuilt : i.isBuilt = true)
    (hsub : i.subscriptionId = .ok subscriptionId) (h : (i.reconcile existing).result = .error e) :
    ∃ before b after, i.FailsAt subscriptionId existing before b after e := by
  rw [reconcile_result, hbuilt, hsub] at h
  simp only [Bool.not_true, Bool.false_eq_true, if_false, ok_bind] at h
  rcases bind_eq_error.mp h with hparts | ⟨_, -, h⟩
  · obtain ⟨before, b, after, hbuckets, hbefore, hb⟩ := exists_of_mapM_eq_error hparts
    have hmem : b ∈ i.buckets := hbuckets ▸ List.mem_append_right before List.mem_cons_self
    have hcomputed := hi.computed hmem
    obtain ⟨ev, hev⟩ := exists_lastReached hcomputed hmem
    exact ⟨before, b, after, hbuckets, hbefore, hb,
      failed_of_outcome ⟨ev, hev.recorded⟩ (exists_governing hcomputed b) hb⟩
  · cases h

/-- Reconciling fails at a bucket that does not accept an item that concerns it, if it has not failed before. -/
theorem FailsAt.mem_of_rejected {before after : List Bucket} (h : i.FailsAt subscriptionId existing before c after e)
    (hb : b ∈ i.buckets) (hx : x ∈ existing) (hconcerns : concerns subscriptionId (i, b) x.toInvoiceLine = true)
    (hnot : ¬ i.Accepts b x) : b ∈ c :: after := by
  rw [h.buckets] at hb
  refine (List.mem_append.mp hb).resolve_left fun hearlier => ?_
  obtain ⟨out, hout⟩ := h.earlier b hearlier
  exact hnot (accepts_of_outcome hout hx hconcerns)

/-- Whether an item concerns one of the buckets of an interval. -/
def concernsAny (i : Interval) (subscriptionId : String) (x : InvoiceItem) : Bool :=
  i.buckets.any fun b => concerns subscriptionId (i, b) x.toInvoiceLine

/-- What an interval gives depends on the items that concern its buckets only. -/
theorem reconcile_eq_of_concerned (hsub : i.subscriptionId = .ok subscriptionId)
    (hsame : existing'.filter (i.concernsAny subscriptionId) = existing.filter (i.concernsAny subscriptionId)) :
    i.reconcile existing' = i.reconcile existing := by
  have hany (items : List InvoiceItem) {b : Bucket} (hb : b ∈ i.buckets) :
      (i.relevantItems subscriptionId items).filter (overlaps b) =
        (items.filter (i.concernsAny subscriptionId)).filter
          fun x => concerns subscriptionId (i, b) x.toInvoiceLine := by
    rw [filter_overlaps subscriptionId (i, b), List.filter_filter]
    refine List.filter_congr fun x _ => ?_
    cases hconcerns : concerns subscriptionId (i, b) x.toInvoiceLine with
    | false => rfl
    | true => exact (List.any_eq_true.mpr ⟨b, hb, hconcerns⟩).symm
  have hbilled : ∀ b ∈ i.buckets, i.billedFor b (i.relevantItems subscriptionId existing') =
      i.billedFor b (i.relevantItems subscriptionId existing) := by
    intro b hb
    rw [billedFor, billedFor, hany existing' hb, hany existing hb, hsame]
  have hparts : i.buckets.mapM (i.reconcileBucket subscriptionId (i.relevantItems subscriptionId existing')) =
      i.buckets.mapM (i.reconcileBucket subscriptionId (i.relevantItems subscriptionId existing)) := by
    refine mapM_congr fun b hb => ?_
    rw [reconcileBucket, reconcileBucket, hbilled b hb]
  have hstart : (liftM i.subscriptionId : Logged String) = pure subscriptionId := by
    rw [hsub]
    rfl
  rw [reconcile, reconcile, hstart]
  simp only [pure_bind, hparts]

/-- The items that exist are matched to the buckets of a built interval all or none. If reconciling returns, each
bucket accepts the items that concern it; each of these is invoiced for that bucket alone, and no other item matters.
If reconciling fails, it is at the first bucket that fails, with the error of an item which this bucket does not
accept, or else with a fault of pricing, met after the bucket has matched the days of the items that concern it. So it
does if a bucket does not accept an item that concerns it, at this bucket or an earlier one. -/
theorem items_matched_or_rejected (hi : Reachable i) (hbuilt : i.isBuilt = true) :
    ∃ subscriptionId, i.subscriptionId = .ok subscriptionId ∧ ∀ existing,
      (∀ r, (i.reconcile existing).result = .ok r → ∀ b ∈ i.buckets,
        i.billedFor b (i.relevantItems subscriptionId existing) =
          .ok (existing.filter fun x => concerns subscriptionId (i, b) x.toInvoiceLine) ∧
        ∀ x ∈ existing, concerns subscriptionId (i, b) x.toInvoiceLine = true → i.Accepts b x ∧
          i.buckets.filter (fun c => concerns subscriptionId (i, c) x.toInvoiceLine) = [b]) ∧
      (∀ existing', existing'.filter (i.concernsAny subscriptionId) = existing.filter (i.concernsAny subscriptionId) →
        i.reconcile existing' = i.reconcile existing) ∧
      (∀ e, (i.reconcile existing).result = .error e →
        ∃ before c after, i.FailsAt subscriptionId existing before c after e) ∧
      ∀ b ∈ i.buckets, ∀ x ∈ existing, concerns subscriptionId (i, b) x.toInvoiceLine = true → ¬ i.Accepts b x →
        ∃ before c after e, b ∈ c :: after ∧ (i.reconcile existing).result = .error e ∧
          i.FailsAt subscriptionId existing before c after e := by
  obtain ⟨subscriptionId, hsub⟩ := hi.exists_subscription hbuilt
  refine ⟨subscriptionId, hsub, fun existing => ⟨fun r hr b hb => ?_, fun existing' => reconcile_eq_of_concerned hsub,
    fun e => hi.exists_failsAt hbuilt hsub, fun b hb x hx hconcerns hnot => ?_⟩⟩
  · obtain ⟨out, hout, -⟩ := hi.exists_outcome hsub hr hb
    obtain ⟨billed, -, hbilled, -⟩ := reconcileBucket_eq_ok.mp hout
    obtain ⟨rfl, -⟩ := billedFor_eq_ok.mp hbilled
    refine ⟨hbilled.trans (congrArg _ (filter_overlaps subscriptionId (i, b) existing)), fun x hx hconcerns => ?_⟩
    have haccepts := accepts_of_outcome hout hx hconcerns
    exact ⟨haccepts, filter_concerns_eq hi.buckets_apart.2 hb hconcerns haccepts.coincides⟩
  · cases hresult : (i.reconcile existing).result with
    | ok r =>
        obtain ⟨out, hout, -⟩ := hi.exists_outcome hsub hresult hb
        exact absurd (accepts_of_outcome hout hx hconcerns) hnot
    | error e =>
        obtain ⟨before, c, after, hfails⟩ := hi.exists_failsAt hbuilt hsub hresult
        exact ⟨before, c, after, e, hfails.mem_of_rejected hb hx hconcerns hnot, rfl, hfails⟩

namespace Sample

def invoiced : List InvoiceItem := InvoiceLine.issue 1 (issued .aggregate)

/-- They are invoiced up to the tenth of February. -/
def extended : List InvoiceItem := invoiced.map fun x => { x with endDate := tenthDay }

end Sample

theorem items_matched_or_rejected_calls :
    (∃ x ∈ Sample.invoiced, (Sample.metered .aggregate 15).Accepts Sample.january x) ∧
      ∃ x ∈ Sample.extended, ∃ e, Rejects (Sample.metered .aggregate 15) Sample.january x e ∧
        ((Sample.metered .aggregate 15).reconcile Sample.extended).result = .error e := by
  have hbuilt : (Sample.metered .aggregate 15).isBuilt = true := by decide +kernel
  have hbuckets : (Sample.metered .aggregate 15).buckets = [Sample.january] := by decide +kernel
  obtain ⟨subscriptionId, hsub, hitems⟩ := items_matched_or_rejected (Sample.reachable_metered .aggregate 15) hbuilt
  have hknown : (Sample.metered .aggregate 15).subscriptionId = .ok "subscription" := by decide +kernel
  obtain rfl := Except.ok.inj (hknown.symm.trans hsub)
  have hjanuary : Sample.january ∈ (Sample.metered .aggregate 15).buckets := by
    rw [hbuckets]
    exact List.mem_singleton_self _
  constructor
  · obtain ⟨r, hr⟩ : ∃ r, ((Sample.metered .aggregate 15).reconcile Sample.invoiced).result = .ok r :=
      exists_ok_of_isOk (by decide +kernel)
    obtain ⟨x, hx, hconcerns⟩ : ∃ x ∈ Sample.invoiced,
        concerns "subscription" (Sample.metered .aggregate 15, Sample.january) x.toInvoiceLine = true := by
      decide +kernel
    obtain ⟨haccepts, -⟩ := ((hitems Sample.invoiced).1 r hr Sample.january hjanuary).2 x hx hconcerns
    exact ⟨x, hx, haccepts⟩
  · obtain ⟨x, hx, hconcerns, hfinish⟩ : ∃ x ∈ Sample.extended,
        concerns "subscription" (Sample.metered .aggregate 15, Sample.january) x.toInvoiceLine = true ∧
          x.endDate ≠ Sample.january.finish := by
      decide +kernel
    have hmisaligned : ¬ Coincides Sample.january x := fun hcoincides => hfinish hcoincides.2
    obtain ⟨before, c, after, e, -, hresult, hfails⟩ :=
      (hitems Sample.extended).2.2.2 Sample.january hjanuary x hx hconcerns
        fun haccepts => hmisaligned haccepts.coincides
    obtain rfl : c = Sample.january := by
      have hmem : c ∈ before ++ c :: after := List.mem_append_right before List.mem_cons_self
      rw [← hfails.buckets, hbuckets] at hmem
      exact List.mem_singleton.mp hmem
    rcases hfails.cause with ⟨y, hy, -, -, hrejects⟩ | ⟨hcoincide, -⟩
    · exact ⟨y, hy, e, hrejects, hresult⟩
    · exact absurd (hcoincide x hx hconcerns) hmisaligned

end Interval
end UsageBilling
