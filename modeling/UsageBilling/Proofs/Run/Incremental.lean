import UsageBilling.Proofs.Run.Growth
import UsageBilling.Proofs.Run.Reconciliation

/-! Billing in steps. A run over a longer timeline, given the items and the tracking ids of a run made before,
adds just what is missing: buckets that were reached before owe nothing more (`outcome_again`), and the
further ones are billed as if nothing had been (`outcome_fresh`). Together the two runs give the items
and the tracking ids of a single run over the longer timeline (`incremental_billing`). -/

namespace UsageBilling

/-! ### Intervals with further tracking ids -/

def Interval.withTracking (ids : List TrackingId) (i : Interval) : Interval :=
  { i with terms := { i.terms with existingTrackingIds := ids } }

theorem ActivityRun.built_withTracking {terms : Terms} {events : List BillingEvent} {ρ : ActivityRun}
    {i : Interval} (ids : List TrackingId) (h : ρ.built terms events = .ok i) :
    ρ.built { terms with existingTrackingIds := ids } events = .ok (i.withTracking ids) := by
  obtain ⟨hstage, hevents, buckets, next, hbuckets, hnext, rfl⟩ := Interval.built_eq_ok.mp h
  exact Interval.built_eq_ok.mpr ⟨hstage, hevents, buckets, next, hbuckets, hnext, rfl⟩

theorem TrackingId.isIn_append (t : TrackingId) (xs ys : List TrackingId) :
    t.isIn (xs ++ ys) = (t.isIn xs || t.isIn ys) := List.any_append ..

namespace Interval

variable {subscriptionId : String} {p q : Interval × Bucket} {items : List InvoiceItem}
  {out : List InvoiceLine × List TrackingId}

theorem BillsAs.withTracking {i j : Interval} {b : Bucket} (h : BillsAs i j b) (ids : List TrackingId) :
    BillsAs i (j.withTracking ids) b :=
  ⟨h.usage, h.event, h.unitTypes, h.accountId, h.invoiceId, h.detailMode, h.zeroAmountDisabled, h.records⟩

/-- A bucket that was reached before adds nothing, once its lines and its tracking ids exist. -/
theorem outcome_again (hbills : BillsAs p.1 q.1 p.2) (hbucket : p.2 = q.2)
    (hsub : ∀ e ∈ p.1.events, e.event.subscriptionId = subscriptionId)
    (hprices : p.1.usage.pricing = .capacity → ∀ tier ∈ p.1.usage.tiers, ∀ price,
      tier.recurringPrice = some price → price.Settled)
    (h : outcome subscriptionId [] p = .ok out)
    (hown : (items.filter fun x => concerns subscriptionId q x.toInvoiceLine).map (·.toInvoiceLine) = out.1)
    (hids : ∀ t, t ∈ out.2 ∨ t.isIn p.1.terms.existingTrackingIds = true →
      t.isIn q.1.terms.existingTrackingIds = true) :
    outcome subscriptionId items q = .ok ([], []) := by
  obtain ⟨i, b⟩ := p
  obtain ⟨j, c⟩ := q
  dsimp only at hbucket
  subst hbucket
  obtain ⟨types, htypes, hout⟩ := reconcileBucket_nil_eq_ok.mp h
  refine reconcileBucket_eq_ok.mpr ⟨_, types,
    billedFor_eq_ok.mpr ⟨(filter_overlaps subscriptionId (j, b) items).symm, ?_⟩, hbills.unitTypes ▸ htypes, ?_⟩
  · intro x hx
    have hx : x.toInvoiceLine ∈ out.1 := hown ▸ List.mem_map_of_mem hx
    have hline := forBucket_of_outcome hsub h x.toInvoiceLine hx
    exact ⟨hline.startDate, hline.endDate⟩
  · rcases hout with ⟨rfl, -⟩ | ⟨hne, rolled, lines, hrolled, hlines, rfl⟩
    · exact Or.inl ⟨rfl, rfl⟩
    · refine Or.inr ⟨hne, rolled, [], hbills.ofRecords_eq subscriptionId types ▸ hrolled, ?_, ?_⟩
      · rw [← hbills.bucketLines_eq]
        refine bucketLines_again hsub (RolledUsage.nodup_amounts hrolled) (fun a ha => ?_) hprices hlines hown
        have hmem : a.1 ∈ UnitTypes.ofList types :=
          RolledUsage.map_fst_amounts hrolled ▸ List.mem_map_of_mem ha
        exact mem_unitTypes_of_governing htypes a.1 ((UnitTypes.mem_ofList _ _).mp hmem)
      · refine congrArg (Prod.mk []) (List.filter_eq_nil_iff.mpr fun t ht => ?_).symm
        have hin := hids t
        cases hold : t.isIn i.terms.existingTrackingIds with
        | true => simp [hin (Or.inr hold)]
        | false => simp [hin (Or.inl (List.mem_filter.mpr ⟨ht, by simp [hold]⟩))]

/-- A bucket that no item concerns adds what it adds without items, but for tracking ids that exist. -/
theorem outcome_fresh (h : outcome subscriptionId [] q = .ok out) (ids : List TrackingId)
    (hnone : items.filter (fun x => concerns subscriptionId q x.toInvoiceLine) = []) :
    outcome subscriptionId items (q.1.withTracking (q.1.terms.existingTrackingIds ++ ids), q.2) =
      .ok (out.1, out.2.filter fun t => !t.isIn ids) := by
  obtain ⟨j, b⟩ := q
  obtain ⟨types, htypes, hout⟩ := reconcileBucket_nil_eq_ok.mp h
  refine reconcileBucket_eq_ok.mpr ⟨[], types, billedFor_eq_ok.mpr ⟨?_, by simp⟩, htypes, ?_⟩
  · exact hnone.symm.trans (filter_overlaps subscriptionId (j, b) items).symm
  · rcases hout with ⟨rfl, rfl⟩ | ⟨hne, rolled, lines, hrolled, hlines, rfl⟩
    · exact Or.inl ⟨rfl, rfl⟩
    · refine Or.inr ⟨hne, rolled, lines, hrolled, hlines, ?_⟩
      dsimp only [withTracking]
      rw [List.filter_filter]
      refine congrArg (Prod.mk lines) (List.filter_congr fun t _ => ?_)
      rw [TrackingId.isIn_append, Bool.not_or, Bool.and_comm]

/-- Without items, a bucket that was reached before adds what it added then. -/
theorem BillsAs.outcome_eq (hbills : BillsAs p.1 q.1 p.2) (hbucket : p.2 = q.2)
    (hids : p.1.terms.existingTrackingIds = q.1.terms.existingTrackingIds)
    (h : outcome subscriptionId [] p = .ok out) : outcome subscriptionId [] q = .ok out := by
  obtain ⟨i, b⟩ := p
  obtain ⟨j, c⟩ := q
  dsimp only at hbucket
  subst hbucket
  obtain ⟨types, htypes, hout⟩ := reconcileBucket_nil_eq_ok.mp h
  refine reconcileBucket_nil_eq_ok.mpr ⟨types, hbills.unitTypes ▸ htypes, ?_⟩
  rcases hout with h | ⟨hne, rolled, lines, hrolled, hlines, rfl⟩
  · exact Or.inl h
  · refine Or.inr ⟨hne, rolled, lines, hbills.ofRecords_eq subscriptionId types ▸ hrolled, ?_, by rw [← hids]⟩
    rw [← hbills.bucketLines_eq]
    exact hlines

theorem BillsAs.concerns_eq (hbills : BillsAs p.1 q.1 p.2) (hbucket : p.2 = q.2) :
    concerns subscriptionId q = concerns subscriptionId p := by
  funext l
  rw [concerns, concerns, ← hbucket, hbills.usage]

end Interval

/-! ### Two runs in sequence -/

namespace Run

open UsageBilling.Interval
open scoped List

variable {subscriptionId : String}

def withTracking (ids : List TrackingId) (q : Interval × Bucket) : Interval × Bucket := (q.1.withTracking ids, q.2)

theorem schedule_withTracking (ids : List TrackingId) (js : List Interval) :
    schedule (js.map (·.withTracking ids)) = (schedule js).map (withTracking ids) := by
  rw [schedule, schedule, List.flatMap_map, List.map_flatMap]
  refine List.flatMap_congr fun j _ => ?_
  rw [List.map_map]
  rfl

/-- What is asked of the buckets of the first run. -/
structure Repeatable (subscriptionId : String) (ids : List TrackingId) (p : Interval × Bucket) : Prop where
  subscription : ∀ e ∈ p.1.events, e.event.subscriptionId = subscriptionId
  existing : p.1.terms.existingTrackingIds = ids
  nonempty : p.2.alignedStart < p.2.finish
  prices : p.1.usage.pricing = .capacity → ∀ tier ∈ p.1.usage.tiers, ∀ price,
    tier.recurringPrice = some price → price.Settled

section

variable {ids ids₁ : List TrackingId} {ps first old new qs : List (Interval × Bucket)}
  {outs outs₁ : List (List InvoiceLine × List TrackingId)} {items : List InvoiceItem}

/-- Given what the first run added, its buckets add nothing. -/
theorem outcomes_again (hfirst : first ~ ps)
    (hold : List.Forall₂ (fun p q => p.2 = q.2 ∧ BillsAs p.1 q.1 p.2) first old)
    (hps : ∀ p ∈ ps, Repeatable subscriptionId ids p) (hapart : ps.Pairwise Apart)
    (houts₁ : ps.mapM (outcome subscriptionId []) = .ok outs₁)
    (hitems : items.map (·.toInvoiceLine) = outs₁.flatMap (·.1))
    (hids₁ : ∀ t, t ∈ ids₁ ↔ ∃ out ∈ outs₁, t ∈ out.2) :
    (old.map (withTracking (ids ++ ids₁))).mapM (outcome subscriptionId items) = .ok (old.map fun _ => ([], [])) := by
  rw [mapM_eq_ok, List.forall₂_map_left_iff, List.forall₂_map_right_iff, List.forall₂_same]
  intro q hq
  obtain ⟨p, hp, hbucket, hbills⟩ := exists_of_forall₂_right hold hq
  obtain ⟨out, hmem, hout, hown⟩ := exists_own_lines houts₁ (fun p hp => (hps p hp).subscription)
    (fun p hp => (hps p hp).nonempty) hapart (hfirst.mem_iff.mp hp)
  have hp := hps p (hfirst.mem_iff.mp hp)
  refine outcome_again (q := withTracking (ids ++ ids₁) q) (hbills.withTracking _) hbucket hp.subscription
    hp.prices hout ?_ fun t ht => ?_
  · have hconcerns : concerns subscriptionId (withTracking (ids ++ ids₁) q) = concerns subscriptionId p :=
      (hbills.withTracking (ids ++ ids₁)).concerns_eq (q := withTracking (ids ++ ids₁) q) hbucket
    rw [map_filter_concerns hitems, hconcerns, hown]
  · change t.isIn (ids ++ ids₁) = true
    rw [TrackingId.isIn_append, Bool.or_eq_true]
    rcases ht with ht | ht
    · refine Or.inr (List.any_eq_true.mpr ⟨t, (hids₁ t).mpr ⟨out, hmem, ht⟩, ?_⟩)
      rw [(TrackingId.order_eq_iff rfl).mpr rfl]
      rfl
    · exact Or.inl (hp.existing ▸ ht)

theorem not_concerns_new (hfirst : first ~ ps)
    (hold : List.Forall₂ (fun p q => p.2 = q.2 ∧ BillsAs p.1 q.1 p.2) first old)
    (hps : ∀ p ∈ ps, Repeatable subscriptionId ids p) (hapart : (old ++ new).Pairwise Apart)
    (houts₁ : ps.mapM (outcome subscriptionId []) = .ok outs₁)
    (hitems : items.map (·.toInvoiceLine) = outs₁.flatMap (·.1)) {q : Interval × Bucket} (hq : q ∈ new) :
    items.filter (fun x => concerns subscriptionId q x.toInvoiceLine) = [] := by
  refine List.map_eq_nil_iff.mp ((map_filter_concerns hitems q).trans ?_)
  refine filter_concerns_of_apart houts₁ (fun p hp => (hps p hp).subscription) fun p hp => ?_
  obtain ⟨q', hq', hbucket, hbills⟩ := exists_of_forall₂_left hold (hfirst.mem_iff.mpr hp)
  have hqq' := ((List.pairwise_append.mp hapart).2.2 q' hq' q hq).symm
  rwa [Apart, hbucket, hbills.usage]

/-- What a bucket adds where some tracking ids exist. -/
def withoutTracking (ids : List TrackingId) (out : List InvoiceLine × List TrackingId) :
    List InvoiceLine × List TrackingId := (out.1, out.2.filter fun t => !t.isIn ids)

/-- A second run adds what a single run adds, less what the first run added. -/
theorem outcomes_incremental (hfirst : first ~ ps) (hqs : (old ++ new) ~ qs)
    (hold : List.Forall₂ (fun p q => p.2 = q.2 ∧ BillsAs p.1 q.1 p.2) first old)
    (hps : ∀ p ∈ ps, Repeatable subscriptionId ids p) (hexisting : ∀ q ∈ qs, q.1.terms.existingTrackingIds = ids)
    (hpsapart : ps.Pairwise Apart) (hqsapart : qs.Pairwise Apart)
    (houts₁ : ps.mapM (outcome subscriptionId []) = .ok outs₁) (houts : qs.mapM (outcome subscriptionId []) = .ok outs)
    (hitems : items.map (·.toInvoiceLine) = outs₁.flatMap (·.1))
    (hids₁ : ∀ t, t ∈ ids₁ ↔ ∃ out ∈ outs₁, t ∈ out.2) : ∃ further outs₂,
    (outs₁ ++ further) ~ outs ∧
    (qs.map (withTracking (ids ++ ids₁))).mapM (outcome subscriptionId items) = .ok outs₂ ∧
    outs₂ ~ ((old.map fun _ => ([], [])) ++ further.map (withoutTracking ids₁)) := by
  have hapart : (old ++ new).Pairwise Apart :=
    (hqs.pairwise_iff fun h => h.symm).mpr hqsapart
  obtain ⟨outs', houts', hperm⟩ := exists_perm_of_forall₂ hqs (mapM_eq_ok.mp houts)
  obtain ⟨again, further, rfl, hagain, hfurther⟩ := exists_append_of_forall₂ houts'
  obtain ⟨again', hagain', hperm'⟩ := exists_perm_of_forall₂ hfirst (mapM_eq_ok.mp houts₁)
  obtain rfl : again = again' := by
    have hexisting' : ∀ q ∈ old, q.1.terms.existingTrackingIds = ids := fun q hq =>
      hexisting q (hqs.mem_iff.mp (List.mem_append_left _ hq))
    have hold := ((List.forall₂_and_left _ _).mpr ⟨hexisting', hold.flip⟩).flip
    have hagain' := (List.forall₂_and_left _ _).mpr
      ⟨fun p hp => (hps p (hfirst.mem_iff.mp hp)).existing, hagain'⟩
    have hold' := forall₂_of_common hold hagain' fun p q out hpq hout =>
      hpq.2.2.outcome_eq hpq.2.1 (hout.1.trans hpq.1.symm) hout.2
    exact Except.ok.inj ((mapM_eq_ok.mpr hagain).symm.trans (mapM_eq_ok.mpr hold'))
  have hfresh : (new.map (withTracking (ids ++ ids₁))).mapM (outcome subscriptionId items) =
      .ok (further.map (withoutTracking ids₁)) := by
    rw [mapM_eq_ok, List.forall₂_map_left_iff, List.forall₂_map_right_iff]
    refine ((List.forall₂_and_left _ _).mpr ⟨fun q hq => hq, hfurther⟩).imp fun q out hq => ?_
    have hfresh := outcome_fresh hq.2 ids₁ (not_concerns_new hfirst hold hps hapart houts₁ hitems hq.1)
    rwa [hexisting q (hqs.mem_iff.mp (List.mem_append_right _ hq.1))] at hfresh
  have hboth := mapM_append_eq_ok.mpr
    ⟨_, _, outcomes_again hfirst hold hps hpsapart houts₁ hitems hids₁, hfresh, rfl⟩
  rw [← List.map_append] at hboth
  obtain ⟨outs₂, houts₂, hperm₂⟩ := exists_perm_of_forall₂ (hqs.map _).symm (mapM_eq_ok.mp hboth)
  exact ⟨further, outs₂, (hperm'.symm.append_right _).trans hperm, mapM_eq_ok.mpr houts₂, hperm₂⟩

variable {invoiceId : Option String} {further outs₂ : List (List InvoiceLine × List TrackingId)}
  {s s₁ s₂ : Summary InvoiceLine}

/-- Two runs in sequence give the items of the single run. -/
theorem Summarizes.items_incremental (h : Summarizes s outs) (h₁ : Summarizes s₁ outs₁) (h₂ : Summarizes s₂ outs₂)
    (hperm : (outs₁ ++ further) ~ outs)
    (hperm₂ : outs₂ ~ ((old.map fun _ => ([], [])) ++ further.map (withoutTracking s₁.trackingIds))) :
    (s₁.items ++ s₂.items) ~ s.items := by
  have hagain : (old.map fun _ => (([], []) : List InvoiceLine × List TrackingId)).flatMap (·.1) = [] :=
    List.flatMap_eq_nil_iff.mpr fun out hout => by
      obtain ⟨_, -, rfl⟩ := List.mem_map.mp hout
      rfl
  have hlines : (further.map (withoutTracking s₁.trackingIds)).flatMap (·.1) = further.flatMap (·.1) := by
    rw [List.flatMap_map]
    rfl
  rw [h.items, h₁.items, h₂.items]
  calc outs₁.flatMap (·.1) ++ outs₂.flatMap (·.1)
      ~ outs₁.flatMap (·.1) ++ further.flatMap (·.1) := by
        refine List.Perm.append_left _ ((hperm₂.flatMap_right _).trans ?_)
        rw [List.flatMap_append, hagain, hlines, List.nil_append]
    _ = (outs₁ ++ further).flatMap (·.1) := (List.flatMap_append ..).symm
    _ ~ outs.flatMap (·.1) := hperm.flatMap_right _

/-- The second of two runs consumes what its further buckets consume, less what the first run did. -/
theorem Summarizes.mem_further (h₁ : Summarizes s₁ outs₁) (h₂ : Summarizes s₂ outs₂)
    (hinvoice : ∀ out ∈ outs, ∀ t ∈ out.2, t.invoiceId = invoiceId) (hperm : (outs₁ ++ further) ~ outs)
    (hperm₂ : outs₂ ~ ((old.map fun _ => ([], [])) ++ further.map (withoutTracking s₁.trackingIds))) (t : TrackingId) :
    t ∈ s₂.trackingIds ↔ (∃ out ∈ further, t ∈ out.2) ∧ t ∉ s₁.trackingIds := by
  have hin₁ : ∀ t ∈ s₁.trackingIds, t.invoiceId = invoiceId := by
    intro t ht
    obtain ⟨out, hout, ht⟩ := (h₁.trackingIds t).mp ht
    exact hinvoice out (hperm.mem_iff.mp (List.mem_append_left _ hout)) t ht
  rw [h₂.trackingIds]
  constructor
  · rintro ⟨out, hout, ht⟩
    rcases List.mem_append.mp (hperm₂.mem_iff.mp hout) with hout | hout
    · obtain ⟨_, -, rfl⟩ := List.mem_map.mp hout
      cases ht
    · obtain ⟨out, hmem, rfl⟩ := List.mem_map.mp hout
      obtain ⟨ht, hnew⟩ := List.mem_filter.mp ht
      have hinv := hinvoice out (hperm.mem_iff.mp (List.mem_append_right _ hmem)) t ht
      refine ⟨⟨out, hmem, ht⟩, fun ht₁ => ?_⟩
      rw [(TrackingId.isIn_iff hinv hin₁).mpr ht₁] at hnew
      cases hnew
  · rintro ⟨⟨out, hout, ht⟩, hnew⟩
    have hinv := hinvoice out (hperm.mem_iff.mp (List.mem_append_right _ hout)) t ht
    refine ⟨withoutTracking s₁.trackingIds out,
      hperm₂.mem_iff.mpr (List.mem_append_right _ (List.mem_map_of_mem hout)), List.mem_filter.mpr ⟨ht, ?_⟩⟩
    rw [Bool.not_eq_true', Bool.eq_false_iff]
    exact fun hisIn => hnew ((TrackingId.isIn_iff hinv hin₁).mp hisIn)

/-- Two runs in sequence give the items of the single run, and share its tracking ids out. -/
theorem Summarizes.incremental (h : Summarizes s outs) (h₁ : Summarizes s₁ outs₁) (h₂ : Summarizes s₂ outs₂)
    (hinvoice : ∀ out ∈ outs, ∀ t ∈ out.2, t.invoiceId = invoiceId) (hperm : (outs₁ ++ further) ~ outs)
    (hperm₂ : outs₂ ~ ((old.map fun _ => ([], [])) ++ further.map (withoutTracking s₁.trackingIds))) :
    (s₁.items ++ s₂.items) ~ s.items ∧
      (∀ t, t ∈ s.trackingIds ↔ t ∈ s₁.trackingIds ∨ t ∈ s₂.trackingIds) ∧
      ∀ t ∈ s₁.trackingIds, t ∉ s₂.trackingIds := by
  have hfurther := h₁.mem_further h₂ hinvoice hperm hperm₂
  refine ⟨h.items_incremental h₁ h₂ hperm hperm₂, fun t => ?_, fun t ht₁ ht₂ => ((hfurther t).mp ht₂).2 ht₁⟩
  rw [hfurther, h.trackingIds, h₁.trackingIds]
  constructor
  · rintro ⟨out, hout, ht⟩
    rcases List.mem_append.mp (hperm.mem_iff.mpr hout) with hout | hout
    · exact Or.inl ⟨out, hout, ht⟩
    · by_cases hfirst : ∃ out ∈ outs₁, t ∈ out.2
      · exact Or.inl hfirst
      · exact Or.inr ⟨⟨out, hout, ht⟩, hfirst⟩
  · rintro (⟨out, hout, ht⟩ | ⟨⟨out, hout, ht⟩, -⟩)
    · exact ⟨out, hperm.mem_iff.mp (List.mem_append_left _ hout), ht⟩
    · exact ⟨out, hperm.mem_iff.mp (List.mem_append_right _ hout), ht⟩

end

/-! ### Runs that are made again -/

/-- The request for a run over a longer timeline, with further metered records and tracking ids. -/
def extended (request : RunRequest) (events : List BillingEvent) (rawUsage : List RawUsage) (target : Date)
    (ids : List TrackingId) : RunRequest :=
  { request with
    events := request.events ++ events
    rawUsage := request.rawUsage ++ rawUsage
    target
    existingTrackingIds := request.existingTrackingIds ++ ids }

def withExisting (ids : List TrackingId) (run : Run) : Run :=
  { run with terms := { run.terms with existingTrackingIds := ids } }

variable {request : RunRequest} {given : Option Settings} {inUse : Except Error Settings} {run₁ run : Run}
  {events : List BillingEvent} {rawUsage : List RawUsage} {target : Date} {ids : List TrackingId}
  {is js : List Interval}

theorem create_withExisting (ids : List TrackingId)
    (h : create (extended request events rawUsage target []) given inUse = .ok run) :
    create (extended request events rawUsage target ids) given inUse =
      .ok (run.withExisting (request.existingTrackingIds ++ ids)) := by
  obtain ⟨hid, hsorted, hevents, settings, hsettings, hterms⟩ := create_eq_ok.mp h
  refine create_eq_ok.mpr ⟨hid, hsorted, hevents, settings, hsettings, ?_⟩
  rw [withExisting, hterms]
  rfl

theorem intervals_withExisting (ids : List TrackingId) (hcreate : create request given inUse = .ok run)
    (h : run.intervals = .ok js) :
    (run.withExisting ids).intervals = .ok (js.map (·.withTracking ids)) := by
  have hsame := same_subscription hcreate
  obtain ⟨hkeys, hbuilt⟩ := (Timeline.intervals_eq_ok hsame).mp h
  refine (Timeline.intervals_eq_ok hsame).mpr ⟨hkeys, mapM_eq_ok.mpr ?_⟩
  exact List.forall₂_map_right_iff.mpr ((mapM_eq_ok.mp hbuilt).imp fun ρ i => ActivityRun.built_withTracking ids)

theorem terms_extended (hcreate₁ : create request given inUse = .ok run₁)
    (hcreate : create (extended request events rawUsage target []) given inUse = .ok run) :
    run.subscriptionId = run₁.subscriptionId ∧
      run.terms = { run₁.terms with
        rawUsage := RawUsage.ofSubscription (request.rawUsage ++ rawUsage) run₁.subscriptionId
        target } := by
  obtain ⟨hid₁, -, -, settings₁, hsettings₁, hterms₁⟩ := create_eq_ok.mp hcreate₁
  obtain ⟨hid, -, -, settings, hsettings, hterms⟩ := create_eq_ok.mp hcreate
  obtain rfl : settings₁ = settings := Except.ok.inj (hsettings₁.symm.trans hsettings)
  have hsub : run.subscriptionId = run₁.subscriptionId := by
    obtain ⟨hne, hall₁⟩ := subscriptionOf_eq_ok.mp hid₁
    obtain ⟨e, he⟩ := List.exists_mem_of_ne_nil _ hne
    rw [← hall₁ e he, (subscriptionOf_eq_ok.mp hid).2 e (List.mem_append_left _ he)]
  refine ⟨hsub, ?_⟩
  rw [hterms, hterms₁, hsub]
  dsimp only [termsOf, extended]
  rw [List.append_nil]

/-- Further records that are dated after a bucket have no part in what it counts. -/
theorem filter_ofSubscription_append {subscriptionId : String} {start finish : Date} {types : List String}
    {records : List RawUsage} (h : ∀ r ∈ rawUsage, finish ≤ r.date) :
    (RawUsage.ofSubscription records subscriptionId).filter (RolledUsage.counts start finish types) =
      (RawUsage.ofSubscription (records ++ rawUsage) subscriptionId).filter
        (RolledUsage.counts start finish types) := by
  have hnone : (rawUsage.filter (·.subscriptionId = subscriptionId)).filter
      (RolledUsage.counts start finish types) = [] := by
    refine List.filter_eq_nil_iff.mpr fun r hr hcounts => ?_
    simp only [RolledUsage.counts, Bool.and_eq_true, decide_eq_true_eq] at hcounts
    exact absurd hcounts.1.2 (Nat.not_lt.mpr (h r (List.mem_filter.mp hr).1))
  rw [RawUsage.filter_ofSubscription, RawUsage.filter_ofSubscription, List.filter_append, List.filter_append,
    hnone, List.append_nil]

/-- The buckets of a run may be billed again. -/
theorem repeatable_of_mem_schedule (hcreate : create request given inUse = .ok run) (his : run.intervals = .ok is)
    (hprices : ∀ e ∈ request.events, ∀ u ∈ e.usages, u.pricing = .capacity → ∀ tier ∈ u.tiers, ∀ price,
      tier.recurringPrice = some price → price.Settled) {p : Interval × Bucket} (hp : p ∈ schedule is) :
    Repeatable run.subscriptionId request.existingTrackingIds p := by
  obtain ⟨-, -, hevents, settings, -, hterms⟩ := create_eq_ok.mp hcreate
  obtain ⟨start, finish, -, -, hwithin⟩ := within_of_mem_schedule hcreate his hp
  obtain ⟨ρ, hρ⟩ := exists_built hcreate his (mem_schedule.mp hp).1
  refine ⟨subscription_of_mem_schedule hcreate his hp, ?_, hwithin.nonempty, fun hcapacity => ?_⟩
  · rw [hρ.terms, hterms]
    rfl
  · obtain ⟨e, he, husage⟩ := usage_of_mem_schedule hcreate his hp
    exact hprices e he p.1.usage husage hcapacity

/-- The schedule of a run over a longer timeline has the buckets of the first run, billed as they were. -/
theorem schedule_extended (hcreate₁ : create request given inUse = .ok run₁)
    (hcreate : create (extended request events rawUsage target []) given inUse = .ok run)
    (htarget : request.target ≤ target)
    (hlater : ∀ e ∈ events, ∀ d, run.terms.zone.localDate e.effective = .ok d → request.target < d)
    (hreported : ∀ r ∈ rawUsage, request.target ≤ r.date)
    (his : run₁.intervals = .ok is) (hjs : run.intervals = .ok js) : ∃ first old new,
    first ~ schedule is ∧ (old ++ new) ~ schedule js ∧
      List.Forall₂ (fun p q => p.2 = q.2 ∧ BillsAs p.1 q.1 p.2) first old := by
  obtain ⟨-, -, hevents₁, settings, -, hterms₁⟩ := create_eq_ok.mp hcreate₁
  obtain ⟨-, -, hevents, -, -, -⟩ := create_eq_ok.mp hcreate
  obtain ⟨-, hterms⟩ := terms_extended hcreate₁ hcreate
  have htarget₁ : run₁.terms.target = request.target := by
    rw [hterms₁]
    rfl
  have hevents : run.events = run₁.events ++ events := by
    rw [hevents, hevents₁]
    rfl
  have hall₁ := built_intervals hcreate₁ his
  have hall := hevents ▸ built_intervals hcreate hjs
  have hprecedes : run₁.terms.Precedes run.terms := ⟨by rw [hterms], by rw [hterms], by
    rw [hterms, htarget₁]
    exact htarget⟩
  obtain ⟨first, old, new, hfirst, hqs, hgrows, -⟩ :=
    schedule_grows hprecedes (fun e he d hd => htarget₁ ▸ hlater e he d hd) hall₁ hall
  refine ⟨first, old, new, hfirst, hqs, ?_⟩
  have hps := (List.forall₂_and_left _ _).mpr ⟨fun p hp => hfirst.mem_iff.mp hp, hgrows⟩
  have hqs := (List.forall₂_and_left _ _).mpr
    ⟨fun q hq => hqs.mem_iff.mp (List.mem_append_left new hq), hps.flip⟩
  refine hqs.flip.imp fun p q h => ?_
  obtain ⟨hq, hp, hbucket, hgrows⟩ := h
  obtain ⟨hi, hb⟩ := mem_schedule.mp hp
  obtain ⟨ρ, hρ⟩ := exists_built hcreate₁ his hi
  obtain ⟨σ, hσ⟩ := exists_built hcreate hjs (mem_schedule.mp hq).1
  obtain ⟨_, _, -, -, hwithin⟩ := within_of_mem_schedule hcreate₁ his hp
  have hreached : p.2.finish ≤ request.target := by
    rw [← htarget₁, ← hρ.terms]
    exact hwithin.reached
  refine ⟨hbucket, hgrows.billsAs hρ.buckets hσ.buckets hb ?_ ?_ ?_ ?_ fun types => ?_⟩
  · rw [hρ.terms, hσ.terms, hterms]
  · rw [hρ.terms, hσ.terms, hterms]
  · rw [hρ.terms, hσ.terms, hterms]
  · rw [hρ.terms, hσ.terms, hterms]
  · rw [hρ.terms, hσ.terms, hterms, hterms₁]
    exact filter_ofSubscription_append fun r hr => Nat.le_trans hreached (hreported r hr)

/-- Incremental billing is one-shot billing. A first run succeeds without items, and so does a run over
further events after the first target, with further records that are dated on or after it, up to the same or
a later target. Then the second run, given the items and the tracking ids of the first one, succeeds;
the two runs together give the items of the single run, and its tracking ids, none of them twice. With
nothing further the second run bills nothing. -/
theorem incremental_billing (hcreate₁ : create request given inUse = .ok run₁)
    (hcreate : create (extended request events rawUsage target []) given inUse = .ok run)
    (hzone : run.terms.zone.Covered) (htarget : request.target ≤ target)
    (hlater : ∀ e ∈ events, ∀ d, run.terms.zone.localDate e.effective = .ok d → request.target < d)
    (hreported : ∀ r ∈ rawUsage, request.target ≤ r.date)
    (hprices : ∀ e ∈ request.events, ∀ u ∈ e.usages, u.pricing = .capacity → ∀ tier ∈ u.tiers, ∀ price,
      tier.recurringPrice = some price → ∃ kept, price.add .zero = .ok kept ∧ kept.equals price = true)
    {s₁ s : Summary InvoiceLine} (h₁ : (run₁.reconcile []).result = .ok s₁) (h : (run.reconcile []).result = .ok s)
    {items : List InvoiceItem} (hitems : items.map (·.toInvoiceLine) = s₁.items) : ∃ run₂ s₂,
    create (extended request events rawUsage target s₁.trackingIds) given inUse = .ok run₂ ∧
      (run₂.reconcile items).result = .ok s₂ ∧ (s₁.items ++ s₂.items) ~ s.items ∧
      (∀ t, t ∈ s.trackingIds ↔ t ∈ s₁.trackingIds ∨ t ∈ s₂.trackingIds) ∧
      (∀ t ∈ s₁.trackingIds, t ∉ s₂.trackingIds) ∧
      (events = [] → rawUsage = [] → target = request.target → s₂.items = [] ∧ s₂.trackingIds = []) := by
  obtain ⟨is, outs₁, his, houts₁, hsum₁⟩ := reconcile_spec hcreate₁ h₁
  obtain ⟨js, outs, hjs, houts, hsum⟩ := reconcile_spec hcreate h
  obtain ⟨hid, hterms⟩ := terms_extended hcreate₁ hcreate
  obtain ⟨-, -, -, settings, -, hterms₁⟩ := create_eq_ok.mp hcreate₁
  obtain ⟨first, old, new, hfirst, hqs, hold⟩ :=
    schedule_extended hcreate₁ hcreate htarget hlater hreported his hjs
  have hzone₁ : run₁.terms.zone.Covered := by
    rw [hterms] at hzone
    exact hzone
  have hsettled : ∀ e ∈ request.events, ∀ u ∈ e.usages, u.pricing = .capacity → ∀ tier ∈ u.tiers, ∀ price,
      tier.recurringPrice = some price → price.Settled := by
    intro e he u hu hcapacity tier htier price hprice
    obtain ⟨kept, hkept, hequals⟩ := hprices e he u hu hcapacity tier htier price hprice
    exact Decimal.settled_of_add_zero hkept hequals
  have hjterms (q : Interval × Bucket) (hq : q ∈ schedule js) := terms_of_mem_schedule hcreate hjs hq
  rw [hid] at houts
  obtain ⟨further, outs₂, hperm, houts₂, hperm₂⟩ := outcomes_incremental hfirst hqs hold
    (fun p hp => repeatable_of_mem_schedule hcreate₁ his hsettled hp)
    (fun q hq => by
      rw [hjterms q hq, hterms, hterms₁]
      rfl)
    (schedule_pairwise_apart hcreate₁ hzone₁ his) (schedule_pairwise_apart hcreate hzone hjs)
    houts₁ houts (hitems.trans hsum₁.items) hsum₁.trackingIds
  have hcreate₂ := create_withExisting s₁.trackingIds hcreate
  have hintervals := intervals_withExisting (request.existingTrackingIds ++ s₁.trackingIds) hcreate hjs
  rw [← schedule_withTracking, ← hid] at houts₂
  obtain ⟨s₂, hs₂, hsum₂⟩ := reconcile_of_outcomes hcreate₂ hintervals houts₂
  obtain ⟨hlines, hids, hapart⟩ := hsum.incremental hsum₁ hsum₂ (fun out hout t ht => by
    obtain ⟨q, hq, hqo⟩ := exists_of_forall₂_right (mapM_eq_ok.mp houts) hout
    rw [invoiceId_of_outcome hqo t ht, hjterms q hq]) hperm hperm₂
  refine ⟨_, s₂, hcreate₂, hs₂, hlines, hids, hapart, ?_⟩
  rintro rfl rfl rfl
  have hsame : run₁ = run := by
    rw [extended, List.append_nil, List.append_nil, List.append_nil] at hcreate
    exact Except.ok.inj (hcreate₁.symm.trans hcreate)
  obtain rfl : s₁ = s := Except.ok.inj (h₁.symm.trans (hsame ▸ h))
  constructor
  · have hlength := hlines.length_eq
    rw [List.length_append] at hlength
    exact List.length_eq_zero_iff.mp (by omega)
  · refine List.eq_nil_iff_forall_not_mem.mpr fun t ht => ?_
    exact hapart t ((hids t).mpr (Or.inr ht)) ht

/-- Five more calls on the fifth of February 2022. -/
def Sample.laterReport : RawUsage :=
  { Sample.report with date := ⟨738191, by decide, by decide⟩, trackingId := "later", recordId := 2 }

/-- Billing up to February and then, once the subscription was cancelled, up to April. -/
theorem incremental_billing_cancelled : ∃ s₁ s s₂ : Summary InvoiceLine, ∃ run₂ : Run,
    ((Sample.run [Sample.opening] [Sample.report] Sample.february).reconcile []).result = .ok s₁ ∧
      s₁.items.length = 1 ∧
      ((Sample.run [Sample.opening, Sample.cancellation] [Sample.report, Sample.laterReport]
        Sample.april).reconcile []).result = .ok s ∧
      (run₂.reconcile (InvoiceLine.issue 1 s₁.items)).result = .ok s₂ ∧ (s₁.items ++ s₂.items) ~ s.items := by
  have hcreate₁ : create (Sample.request [Sample.opening] [Sample.report] Sample.february)
      (some Sample.settings) (.ok Sample.settings) =
      .ok (Sample.run [Sample.opening] [Sample.report] Sample.february) := by decide +kernel
  have hcreate : create (extended (Sample.request [Sample.opening] [Sample.report] Sample.february)
      [Sample.cancellation] [Sample.laterReport] Sample.april []) (some Sample.settings) (.ok Sample.settings) =
      .ok (Sample.run [Sample.opening, Sample.cancellation] [Sample.report, Sample.laterReport] Sample.april) := by
    refine create_eq_ok.mpr ⟨by decide +kernel, by decide +kernel, rfl, Sample.settings, rfl, ?_⟩
    have hsorted : [Sample.report, Sample.laterReport] =
        RawUsage.ofSubscription [Sample.report, Sample.laterReport] "subscription" :=
      (List.mergeSort_of_pairwise (by decide +kernel)).symm
    exact congrArg (fun records => (Sample.run [] records Sample.april).terms) hsorted
  obtain ⟨s₁, hs₁⟩ := exists_ok_of_isOk (x := ((Sample.run [Sample.opening] [Sample.report]
    Sample.february).reconcile []).result) (by decide +kernel)
  obtain ⟨s, hs⟩ := exists_ok_of_isOk (x := ((Sample.run [Sample.opening, Sample.cancellation]
    [Sample.report, Sample.laterReport] Sample.april).reconcile []).result) (by decide +kernel)
  have hone : s₁.items.length = 1 := by
    have hlength : (((Sample.run [Sample.opening] [Sample.report] Sample.february).reconcile []).result.map
        (·.items.length)) = .ok 1 := by decide +kernel
    rw [hs₁] at hlength
    exact Except.ok.inj hlength
  have hitems := InvoiceLine.map_issue 1 s₁.items
  have hdate : Zone.utc.localDate Sample.cancellation.effective = .ok ⟨738206, by decide, by decide⟩ := by
    decide +kernel
  obtain ⟨run₂, s₂, -, hs₂, hlines, -⟩ := incremental_billing hcreate₁ hcreate Zone.covered_utc (by decide)
    (fun e he d hd => by
      obtain rfl := List.mem_singleton.mp he
      obtain rfl := Except.ok.inj (hdate.symm.trans hd)
      decide)
    (by decide)
    (fun e he u hu hcapacity => by
      obtain rfl := List.mem_singleton.mp he
      obtain rfl := List.mem_singleton.mp hu
      cases hcapacity)
    hs₁ hs hitems
  exact ⟨s₁, s, s₂, run₂, hs₁, hone, hs, hs₂, hlines⟩

end Run
end UsageBilling
