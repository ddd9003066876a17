import UsageBilling.Proofs.Interval.Clipping
import UsageBilling.Proofs.ItemFaults
import UsageBilling.Proofs.Run.Reconciliation

/-! A run that is made again from a later start of the raw usage on, given the items of the first run. Each of its
buckets is one of the first run, perhaps with usage clipped off, or ends after the first target and lies apart from
all of them (`Run.schedule_advances`). So no item is rejected, and none is billed again
(`Run.later_start_neutral`). -/

namespace UsageBilling

/-- Terms under which a run is made again: from the same or a later start of the raw usage on and up to the same or
a later target. -/
structure Terms.Advances (t t' : Terms) : Prop where
  zone : t.zone = t'.zone
  rawUsage : t.rawUsage = t'.rawUsage
  zeroAmountDisabled : t.zeroAmountDisabled = t'.zeroAmountDisabled
  target : t.target ≤ t'.target
  rawUsageStart : t.rawUsageStart ≤ t'.rawUsageStart

/-- The interval of an activity run, built under two terms. -/
theorem ActivityRun.Built.advances {terms terms' : Terms} {events : List BillingEvent} {ρ : ActivityRun}
    {i j : Interval} (hterms : terms.Advances terms') (hi : Built terms events ρ i) (hj : Built terms' events ρ j) :
    i.Advances j where
  usage := hi.usage.trans hj.usage.symm
  events := hi.recorded.trans hj.recorded.symm
  nonempty := hi.events_ne_nil
  closed := hi.closed.trans hj.closed.symm
  zone := by rw [hi.terms, hj.terms, hterms.zone]
  rawUsage := by rw [hi.terms, hj.terms, hterms.rawUsage]
  zeroAmountDisabled := by rw [hi.terms, hj.terms, hterms.zeroAmountDisabled]
  target := by
    rw [hi.terms, hj.terms]
    exact hterms.target
  rawUsageStart := by
    rw [hi.terms, hj.terms]
    exact hterms.rawUsageStart

namespace Interval

/-- A bucket and what is left of it where its interval is built again from a later start of the raw usage on. -/
structure Clipped (p q : Interval × Bucket) : Prop where
  advances : p.1.Advances q.1
  clips : p.2.Clips q.2

variable {subscriptionId : String} {p q : Interval × Bucket} {items : List InvoiceItem}
  {out out' : List InvoiceLine × List TrackingId}

theorem Clipped.concerns_eq (h : Clipped p q) : concerns subscriptionId q = concerns subscriptionId p := by
  funext l
  rw [concerns, concerns, h.clips.alignedStart, h.clips.finish, h.advances.usage]

/-- Given its lines, a clipped bucket coincides with their items, and these have its unit types. -/
theorem Clipped.checks (hclipped : Clipped p q) (hsub : ∀ e ∈ p.1.events, e.event.subscriptionId = subscriptionId)
    (h : outcome subscriptionId [] p = .ok out)
    (hown : (items.filter fun x => concerns subscriptionId q x.toInvoiceLine).map (·.toInvoiceLine) = out.1) :
    q.1.billedFor q.2 (q.1.relevantItems subscriptionId items) =
        .ok (items.filter fun x => concerns subscriptionId q x.toInvoiceLine) ∧
      (q.1.usage.pricing = .consumable →
        q.1.checkUnitTypes (items.filter fun x => concerns subscriptionId q x.toInvoiceLine) = .ok ()) ∧
      (q.1.usage.pricing = .capacity →
        checkNoUnitTypes (items.filter fun x => concerns subscriptionId q x.toInvoiceLine) = .ok ()) := by
  generalize hmine : (items.filter fun x => concerns subscriptionId q x.toInvoiceLine) = mine at hown
  constructor
  · refine billedFor_eq_ok.mpr ⟨by rw [filter_overlaps, hmine], fun x hx => ?_⟩
    have hx : x.toInvoiceLine ∈ out.1 := hown ▸ List.mem_map_of_mem hx
    have hline := forBucket_of_outcome hsub h x.toInvoiceLine hx
    exact ⟨hline.startDate.trans hclipped.clips.alignedStart, hline.endDate.trans hclipped.clips.finish⟩
  · obtain ⟨types, htypes, hout⟩ := reconcileBucket_nil_eq_ok.mp h
    rcases hout with ⟨-, rfl⟩ | ⟨-, rolled, lines, hrolled, hlines, rfl⟩
    · obtain rfl := List.map_eq_nil_iff.mp hown
      exact ⟨fun _ => rfl, fun _ => rfl⟩
    · have hchecks := checks_of_bucketLines hsub (fun a ha => ?_) hlines hown
      · rw [checkUnitTypes, ← hclipped.advances.usage]
        exact hchecks
      · have hmem : a.1 ∈ UnitTypes.ofList types := RolledUsage.map_fst_amounts hrolled ▸ List.mem_map_of_mem ha
        exact mem_unitTypes_of_governing htypes a.1 ((UnitTypes.mem_ofList _ _).mp hmem)

theorem Clipped.sparesItems (hclipped : Clipped p q)
    (hsub : ∀ e ∈ p.1.events, e.event.subscriptionId = subscriptionId) (h : outcome subscriptionId [] p = .ok out)
    (hown : (items.filter fun x => concerns subscriptionId q x.toInvoiceLine).map (·.toInvoiceLine) = out.1) :
    SparesItems (outcome subscriptionId items q) := by
  obtain ⟨hbilled, htypes, hnone⟩ := hclipped.checks hsub h hown
  exact sparesItems_reconcileBucket hbilled htypes hnone

/-- Given its lines, a clipped bucket adds no further ones. -/
theorem Clipped.lines_eq_nil (hclipped : Clipped p q)
    (hsub : ∀ e ∈ p.1.events, e.event.subscriptionId = subscriptionId) (hpriced : p.1.usage.WellPriced)
    (hrecords : ∀ r ∈ p.1.terms.rawUsage, r.amount.IsFinite ∧ 0 ≤ r.amount.value)
    (h : outcome subscriptionId [] p = .ok out)
    (hown : (items.filter fun x => concerns subscriptionId q x.toInvoiceLine).map (·.toInvoiceLine) = out.1)
    (h' : outcome subscriptionId items q = .ok out') : out'.1 = [] := by
  obtain ⟨hbilled', -, -⟩ := hclipped.checks hsub h hown
  have hadvances := hclipped.advances
  have hclips := hclipped.clips
  obtain ⟨types, htypes, hout⟩ := reconcileBucket_nil_eq_ok.mp h
  obtain ⟨mine, types', hmine, htypes', hout'⟩ := reconcileBucket_eq_ok.mp h'
  obtain rfl := Except.ok.inj (hbilled'.symm.trans hmine)
  rw [← hadvances.governingUnitTypes_eq hclips] at htypes'
  obtain rfl : types = types' := Except.ok.inj (htypes.symm.trans htypes')
  rcases hout' with ⟨-, rfl⟩ | ⟨hne, rolled', lines', hrolled', hlines', rfl⟩
  · rfl
  rcases hout with ⟨hnil, -⟩ | ⟨-, rolled, lines, hrolled, hlines, rfl⟩
  · exact absurd hnil hne
  rw [← hadvances.rawUsage, ← hclips.finish] at hrolled'
  refine bucketLines_clipped hsub (hadvances.events ▸ hsub) hadvances.usage hadvances.zeroAmountDisabled hpriced
    (RolledUsage.nodup_amounts hrolled) ?_ hlines hown hlines'
  exact RolledUsage.amounts_within hrecords hclips.start hrolled hrolled'

theorem not_isIn_of_outcome (h : outcome subscriptionId items q = .ok out) :
    ∀ t ∈ out.2, t.isIn q.1.terms.existingTrackingIds = false := by
  obtain ⟨billed, types, -, -, hout⟩ := reconcileBucket_eq_ok.mp h
  rcases hout with ⟨-, rfl⟩ | ⟨-, rolled, lines, -, -, rfl⟩
  · simp
  · intro t ht
    simpa using (List.mem_filter.mp ht).2

theorem sparesItems_of_unconcerned (h : items.filter (fun x => concerns subscriptionId q x.toInvoiceLine) = []) :
    SparesItems (outcome subscriptionId items q) := by
  have hbilled : q.1.billedFor q.2 (q.1.relevantItems subscriptionId items) = .ok [] :=
    billedFor_eq_ok.mpr ⟨h.symm.trans (filter_overlaps subscriptionId q items).symm, by simp⟩
  exact sparesItems_reconcileBucket hbilled (fun _ => rfl) fun _ => rfl

end Interval

namespace Run

open UsageBilling.Interval

section

variable {existing : List InvoiceItem} {subscriptionId : String}

/-- An interval rejects no item if none of its buckets does. -/
theorem sparesItems_addInterval {i : Interval} (hsub : i.subscriptionId = .ok subscriptionId)
    (h : ∀ b ∈ i.buckets, SparesItems (outcome subscriptionId existing (i, b))) (s : Summary InvoiceLine) :
    SparesItems (addInterval existing s i).result := by
  have hreconcile : SparesItems (i.reconcile existing).result := by
    rw [Interval.reconcile_result, hsub]
    cases i.isBuilt with
    | false => exact sparesItems_error fun _ h => by cases h
    | true => exact (sparesItems_mapM h).bind fun _ _ => sparesItems_pure _
  rw [addInterval_result]
  refine hreconcile.bind fun r _ => SparesItems.bind ?_ fun key _ => sparesItems_pure _
  exact i.sparesItems_firstEvent.bind fun _ _ => sparesItems_pure _

end

/-- A run rejects no item if none of its buckets does. -/
theorem sparesItems_reconcile {request : RunRequest} {given : Option Settings} {inUse : Except Error Settings}
    {run : Run} {existing : List InvoiceItem} (hcreate : create request given inUse = .ok run)
    (h : ∀ is, run.intervals = .ok is → ∀ q ∈ schedule is, SparesItems (outcome run.subscriptionId existing q)) :
    SparesItems (run.reconcile existing).result := by
  rw [reconcile_result]
  refine (Timeline.sparesItems_intervals run.terms run.events).bind fun is his => ?_
  refine sparesItems_foldlM (fun i hi s => ?_) _
  refine sparesItems_addInterval (subscriptionId_of_interval hcreate his hi) (fun b hb => ?_) s
  exact h is his (i, b) (mem_schedule.mpr ⟨hi, hb⟩)

/-! ### Schedules -/

section

variable {terms terms' : Terms} {events : List BillingEvent} {is js : List Interval}

/-- Each bucket is one of the first run, perhaps clipped, or it ends after the first target and lies apart from all
buckets of the first run. -/
theorem schedule_advances (hterms : terms.Advances terms') (hzone : terms.zone.Covered)
    (hsorted : events.Pairwise fun a b => a.effective.utc ≤ b.effective.utc)
    (his : List.Forall₂ (ActivityRun.Built terms events) (activityRuns events) is)
    (hjs : List.Forall₂ (ActivityRun.Built terms' events) (activityRuns events) js) {q : Interval × Bucket}
    (hq : q ∈ schedule js) : (∃ p ∈ schedule is, Clipped p q) ∨
      terms.target < q.2.finish ∧ ∀ p ∈ schedule is, Apart q p := by
  obtain ⟨hj, hc⟩ := mem_schedule.mp hq
  obtain ⟨ρ, hρ, hbuilt⟩ := exists_of_forall₂_right hjs hj
  obtain ⟨i, hi, hbuilt'⟩ := exists_of_forall₂_left his hρ
  have hadvances := hbuilt'.advances hterms hbuilt
  rcases hadvances.buckets hbuilt'.buckets hbuilt.buckets hc with ⟨b, hb, hclips⟩ | ⟨hlater, -⟩
  · exact Or.inl ⟨(i, b), mem_schedule.mpr ⟨hi, hb⟩, hadvances, hclips⟩
  right
  rw [hbuilt'.terms] at hlater
  refine ⟨hlater, fun p hp hname => ?_⟩
  obtain ⟨hi, hb⟩ := mem_schedule.mp hp
  obtain ⟨σ, -, hσ⟩ := exists_of_forall₂_right his hi
  have hruns : ρ.usage.name = σ.usage.name := by rw [← hbuilt.usage, ← hσ.usage, hname]
  rcases hbuilt.maximal.eq_or_disjoint hσ.maximal hruns with rfl | hlt | hlt
  · right
    exact (hσ.advances hterms hbuilt).finish_le_of_later hσ.buckets hbuilt.buckets hc (hσ.terms ▸ hlater) p.2 hb
  · left
    exact hbuilt.finish_le_alignedStart hterms.zone.symm (hterms.zone ▸ hzone) hsorted hσ hlt hc hb
  · right
    exact hσ.finish_le_alignedStart hterms.zone hzone hsorted hbuilt hlt hb hc

end

/-! ### Runs that are made again -/

/-- A request for a run over the same events and records, from the same or a later start of the raw usage on and up
to the same or a later target. -/
structure Advances (request later : RunRequest) : Prop where
  events : later.events = request.events
  rawUsage : later.rawUsage = request.rawUsage
  rawUsageStart : request.rawUsageStart ≤ later.rawUsageStart
  target : request.target ≤ later.target

variable {request later : RunRequest} {given : Option Settings} {inUse : Except Error Settings} {run run' : Run}
  {is js : List Interval} {items : List InvoiceItem}

theorem exists_create (hlater : Advances request later) (hcreate : create request given inUse = .ok run) :
    ∃ run', create later given inUse = .ok run' ∧ run'.subscriptionId = run.subscriptionId ∧
      run'.events = run.events ∧ run.terms.Advances run'.terms ∧
      run'.terms.existingTrackingIds = later.existingTrackingIds := by
  obtain ⟨hid, hsorted, hevents, settings, hsettings, hterms⟩ := create_eq_ok.mp hcreate
  refine ⟨⟨run.subscriptionId, termsOf later run.subscriptionId settings, later.events⟩,
    create_eq_ok.mpr ⟨?_, ?_, rfl, settings, hsettings, rfl⟩, rfl, hlater.events.trans hevents.symm, ?_, rfl⟩
  · rw [hlater.events]
    exact hid
  · rw [hlater.events]
    exact hsorted
  · rw [hterms]
    exact ⟨rfl, by rw [termsOf, termsOf, hlater.rawUsage], rfl, hlater.target, hlater.rawUsageStart⟩

/-- Given the lines of the first run, a bucket rejects no item, and the lines it adds end after the first target. -/
theorem outcome_advances (hcreate : create request given inUse = .ok run)
    (hcreate' : create later given inUse = .ok run') (hsame : run'.subscriptionId = run.subscriptionId)
    (hevents : run'.events = run.events) (hterms : run.terms.Advances run'.terms) (hzone : run.terms.zone.Covered)
    (hrecords : ∀ r ∈ request.rawUsage, r.amount.IsFinite ∧ 0 ≤ r.amount.value)
    (hpriced : ∀ e ∈ request.events, ∀ u ∈ e.usages, u.WellPriced) (his : run.intervals = .ok is)
    (hjs : run'.intervals = .ok js) {outs : List (List InvoiceLine × List TrackingId)}
    (houts : (schedule is).mapM (outcome run.subscriptionId []) = .ok outs)
    (hitems : items.map (·.toInvoiceLine) = outs.flatMap (·.1)) {q : Interval × Bucket} (hq : q ∈ schedule js) :
    SparesItems (outcome run.subscriptionId items q) ∧
      ∀ out, outcome run.subscriptionId items q = .ok out → ∀ l ∈ out.1, run.terms.target < l.endDate := by
  have hbuilt := built_intervals hcreate his
  have hbuilt' := hevents ▸ built_intervals hcreate' hjs
  have hsub (p : Interval × Bucket) (hp : p ∈ schedule is) := subscription_of_mem_schedule hcreate his hp
  have hapart := schedule_pairwise_apart hcreate hzone his
  rcases schedule_advances hterms hzone (events_sorted hcreate) hbuilt hbuilt' hq with
    ⟨p, hp, hclipped⟩ | ⟨hafter, haparts⟩
  · obtain ⟨out, -, hout, hown⟩ := exists_own_lines houts hsub (fun p hp => by
      obtain ⟨_, _, -, -, hwithin⟩ := within_of_mem_schedule hcreate his hp
      exact hwithin.nonempty) hapart hp
    have hmine : (items.filter fun x => concerns run.subscriptionId q x.toInvoiceLine).map (·.toInvoiceLine) =
        out.1 := by
      rw [map_filter_concerns hitems, hclipped.concerns_eq, hown]
    obtain ⟨e, he, husage⟩ := usage_of_mem_schedule hcreate his hp
    have hfinite : ∀ r ∈ p.1.terms.rawUsage, r.amount.IsFinite ∧ 0 ≤ r.amount.value := by
      obtain ⟨-, -, -, settings, -, hterms⟩ := create_eq_ok.mp hcreate
      intro r hr
      rw [terms_of_mem_schedule hcreate his hp, hterms] at hr
      exact hrecords r (List.mem_filter.mp ((List.mergeSort_perm _ _).mem_iff.mp hr)).1
    refine ⟨hclipped.sparesItems (hsub p hp) hout hmine, fun out' hout' => ?_⟩
    rw [hclipped.lines_eq_nil (hsub p hp) (hpriced e he p.1.usage husage) hfinite hout hmine hout']
    simp
  · have hnone : items.filter (fun x => concerns run.subscriptionId q x.toInvoiceLine) = [] :=
      List.map_eq_nil_iff.mp ((map_filter_concerns hitems q).trans (filter_concerns_of_apart houts hsub haparts))
    refine ⟨sparesItems_of_unconcerned hnone, fun out hout l hl => ?_⟩
    have hsub' := subscription_of_mem_schedule hcreate' hjs hq
    rw [(forBucket_of_outcome (hsame ▸ hsub') hout l hl).endDate]
    exact hafter

/-- A later start of the raw usage bills nothing again. A first run succeeds without items, over records with finite
amounts that are not below zero and over usage sections whose prices do not fall. Then a run over the same events
and records, with the same settings, from the same or a later start of the raw usage on and up to the same or a
later target, given the items of the first run, rejects none of them; if it succeeds, all its lines are for buckets
that end after the first target, and it consumes no tracking id that exists, so none of the first run once these
exist. -/
theorem later_start_rebills_nothing (hcreate : create request given inUse = .ok run)
    (hzone : run.terms.zone.Covered) (hlater : Advances request later)
    (hrecords : ∀ r ∈ request.rawUsage, r.amount.IsFinite ∧ 0 ≤ r.amount.value)
    (hpriced : ∀ e ∈ request.events, ∀ u ∈ e.usages, u.WellPriced) {s₁ : Summary InvoiceLine}
    (h₁ : (run.reconcile []).result = .ok s₁) (hitems : items.map (·.toInvoiceLine) = s₁.items) : ∃ run',
    create later given inUse = .ok run' ∧ (∀ fault, (run'.reconcile items).result ≠ .error (.invoice fault)) ∧
      ∀ s₂, (run'.reconcile items).result = .ok s₂ → (∀ l ∈ s₂.items, request.target < l.endDate) ∧
        ∀ t ∈ s₁.trackingIds, t.isIn later.existingTrackingIds = true → t.isIn s₂.trackingIds = false := by
  obtain ⟨is, outs, his, houts, hsum⟩ := reconcile_spec hcreate h₁
  obtain ⟨run', hcreate', hsame, hevents, hterms, hexisting⟩ := exists_create hlater hcreate
  have htarget : run.terms.target = request.target := by
    obtain ⟨-, -, -, settings, -, hterms⟩ := create_eq_ok.mp hcreate
    rw [hterms]
    rfl
  have hall (js : List Interval) (hjs : run'.intervals = .ok js) (q : Interval × Bucket) (hq : q ∈ schedule js) :=
    outcome_advances hcreate hcreate' hsame hevents hterms hzone hrecords hpriced his hjs houts
      (hitems.trans hsum.items) hq
  refine ⟨run', hcreate', ?_, fun s₂ h₂ => ?_⟩
  · refine sparesItems_reconcile hcreate' fun js hjs q hq => ?_
    rw [hsame]
    exact (hall js hjs q hq).1
  obtain ⟨js, outs', hjs, houts', hsum'⟩ := reconcile_spec hcreate' h₂
  rw [hsame] at houts'
  constructor
  · intro l hl
    rw [hsum'.items] at hl
    obtain ⟨out, hout, hl⟩ := List.mem_flatMap.mp hl
    obtain ⟨q, hq, hqo⟩ := exists_of_forall₂_right (mapM_eq_ok.mp houts') hout
    exact htarget ▸ (hall js hjs q hq).2 out hqo l hl
  · intro t _ hexists
    rw [Bool.eq_false_iff]
    intro hconsumed
    obtain ⟨u, hu, htu⟩ := List.any_eq_true.mp hconsumed
    obtain ⟨out, hout, hu⟩ := (hsum'.trackingIds u).mp hu
    obtain ⟨q, hq, hqo⟩ := exists_of_forall₂_right (mapM_eq_ok.mp houts') hout
    have hfresh := not_isIn_of_outcome hqo u hu
    rw [← TrackingId.isIn_congr (by simpa using htu), terms_of_mem_schedule hcreate' hjs hq, hexisting] at hfresh
    rw [hexists] at hfresh
    cases hfresh

namespace Sample

/-- The request for a run up to April, from the middle of January on, once the calls of January were billed. -/
def resumed : RunRequest :=
  { Sample.request [opening] [report] april with
    rawUsageStart := midJanuary
    existingTrackingIds := [report.mark "subscription" "invoice"] }

theorem wellPriced_calls : calls.WellPriced where
  blocks _ t ht b hb := by
    obtain rfl := List.mem_singleton.mp ht
    obtain rfl := List.mem_singleton.mp hb
    exact ⟨trivial, trivial, by norm_num [Decimal.ofNat, Decimal.value, Decimal.signed], nofun⟩
  limits := nofun
  prices := nofun
  sorted := nofun

end Sample

/-- Five calls were billed for January before the start of the raw usage moves on to the middle of the month: the
run up to April takes their item and has no line for January. -/
theorem later_start_rebills_nothing_resumed : ∃ (s₁ s₂ : Summary InvoiceLine) (run' : Run),
    ((Sample.run [Sample.opening] [Sample.report] Sample.february).reconcile []).result = .ok s₁ ∧
      s₁.items.length = 1 ∧ create Sample.resumed (some Sample.settings) (.ok Sample.settings) = .ok run' ∧
      (run'.reconcile (InvoiceLine.issue 1 s₁.items)).result = .ok s₂ ∧
      ∀ l ∈ s₂.items, Sample.february < l.endDate := by
  have hcreate : create (Sample.request [Sample.opening] [Sample.report] Sample.february)
      (some Sample.settings) (.ok Sample.settings) =
      .ok (Sample.run [Sample.opening] [Sample.report] Sample.february) := by decide +kernel
  have hsequence : (do
      let s₁ ← ((Sample.run [Sample.opening] [Sample.report] Sample.february).reconcile []).result
      let run' ← create Sample.resumed (some Sample.settings) (.ok Sample.settings)
      (run'.reconcile (InvoiceLine.issue 1 s₁.items)).result : Except Error _).isOk = true := by decide +kernel
  obtain ⟨s₂, hsequence⟩ := exists_ok_of_isOk hsequence
  obtain ⟨s₁, hs₁, hsequence⟩ := bind_eq_ok.mp hsequence
  obtain ⟨run₂, hcreate₂, hs₂⟩ := bind_eq_ok.mp hsequence
  have hone : s₁.items.length = 1 := by
    have hlength : (((Sample.run [Sample.opening] [Sample.report] Sample.february).reconcile []).result.map
        (·.items.length)) = .ok 1 := by decide +kernel
    rw [hs₁] at hlength
    exact Except.ok.inj hlength
  have hlater : Advances (Sample.request [Sample.opening] [Sample.report] Sample.february) Sample.resumed :=
    ⟨rfl, rfl, by decide, by decide⟩
  obtain ⟨run', hcreate', -, hlines⟩ := later_start_rebills_nothing hcreate Zone.covered_utc hlater
    (fun r hr => by
      obtain rfl := List.mem_singleton.mp hr
      exact ⟨trivial, by norm_num [Sample.report, Decimal.ofNat, Decimal.value, Decimal.signed]⟩)
    (fun e he u hu => by
      obtain rfl := List.mem_singleton.mp he
      obtain rfl := List.mem_singleton.mp hu
      exact Sample.wellPriced_calls)
    hs₁ (InvoiceLine.map_issue 1 s₁.items)
  obtain rfl : run' = run₂ := Except.ok.inj (hcreate'.symm.trans hcreate₂)
  exact ⟨s₁, s₂, run', hs₁, hone, hcreate', hs₂, (hlines s₂ hs₂).1⟩

end Run
end UsageBilling
