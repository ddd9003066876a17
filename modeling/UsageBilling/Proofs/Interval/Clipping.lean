import UsageBilling.Proofs.Interval.Growth
import UsageBilling.Proofs.Pricing.Order

/-! An interval that is built again from a later start of the raw usage on. Each of its buckets is one that it had,
perhaps with usage clipped off at the start, or ends after the first target (`Advances.buckets`). What is clipped
off can only lower what is due: where the lines of the bucket were invoiced, nothing more is owed for it
(`bucketLines_clipped`). -/

namespace UsageBilling

/-! ### What is owed of less -/

namespace Decimal

variable {zeroDisabled : Bool} {due less rest t : Decimal} {owed : Option Decimal} {invoiced amounts : List Decimal}

/-- What was invoiced comes to no less than what is due; where nothing was, the amount due is not one to invoice. -/
def Cleared (zeroDisabled : Bool) (due : Decimal) (invoiced : List Decimal) : Prop :=
  ∃ t, sum invoiced = .ok t ∧ t.IsFinite ∧ due.value ≤ t.value ∧
    (invoiced = [] → due.value < 0 ∨ zeroDisabled = true)

/-- Nothing is owed of an amount that is not above one that was cleared. -/
theorem Cleared.owed_eq_none (h : Cleared zeroDisabled due invoiced) (hless : less.IsFinite)
    (hle : less.value ≤ due.value) (howed : Decimal.owed zeroDisabled less invoiced = .ok owed) : owed = none := by
  obtain ⟨t, ht, hfinite, hdue, hnone⟩ := h
  obtain ⟨t', ht', howes⟩ := owes_of_owed howed
  obtain rfl : t = t' := Except.ok.inj (ht.symm.trans ht')
  cases howes with
  | settled _ _ => rfl
  | exceeded _ => rfl
  | zero _ _ _ _ => rfl
  | @rest rest hdiffers hbelow hrest hworth =>
      rw [below_eq hless hfinite] at hbelow
      have habove : t.value ≤ less.value := by simpa using hbelow
      have heq : t.value = less.value := le_antisymm habove (hle.trans hdue)
      obtain rfl : invoiced = [] := by
        by_contra hne
        exact Bool.false_ne_true ((hdiffers hne).symm.trans ((equals_iff hfinite hless).mpr heq))
      obtain rfl : zero = t := Except.ok.inj ht
      rw [value_zero] at heq
      have hdisabled : zeroDisabled = true := by
        refine (hnone rfl).resolve_left (not_lt.mpr ?_)
        rw [heq]
        exact hle
      have hsub : less.value - zero.value = 0 := by rw [value_zero, sub_zero, heq]
      obtain ⟨hfinite', hvalue⟩ := sub_of_written hless isFinite_zero (by rw [hsub]; exact holds_zero.written) hrest
      have hzero : rest.equals zero = true := by
        rw [equals_iff hfinite' isFinite_zero, hvalue, hsub, value_zero]
      cases (hworth hzero).symm.trans hdisabled

/-- An amount is cleared by the line for what is owed of it. -/
theorem cleared_of_owed (hdue : due.IsFinite) (hsettled : due.Settled)
    (h : Decimal.owed zeroDisabled due [] = .ok owed) : Cleared zeroDisabled due owed.toList := by
  cases owed with
  | some rest =>
      have hrest := (owed_nil h).2 rest rfl hsettled
      obtain ⟨t, ht, htr⟩ := sum_singleton_equals (hsettled.congr (equals_symm hrest))
      obtain ⟨hfinite, hvalue⟩ := isFinite_of_equals (equals_trans htr hrest) hdue
      exact ⟨t, ht, hfinite, hvalue.ge, nofun⟩
  | none =>
      have hcases : due.value < 0 ∨ due.value = 0 ∧ zeroDisabled = true := by
        obtain ⟨billed, hbilled, howes⟩ := owes_of_owed h
        obtain rfl : zero = billed := Except.ok.inj hbilled
        cases howes with
        | settled hne _ => exact absurd rfl hne
        | exceeded hbelow =>
            rw [below_eq hdue isFinite_zero, value_zero] at hbelow
            exact Or.inl (of_decide_eq_true (Except.ok.inj hbelow))
        | zero _ hrest hzero hdisabled =>
            obtain ⟨hfinite, hvalue⟩ := sub_zero_value hsettled hdue hrest
            rw [equals_iff hfinite isFinite_zero, value_zero, hvalue] at hzero
            exact Or.inr ⟨hzero, hdisabled⟩
      refine ⟨zero, rfl, isFinite_zero, ?_, fun _ => hcases.imp_right And.right⟩
      rw [value_zero]
      rcases hcases with hneg | ⟨hzero, -⟩
      · exact hneg.le
      · exact hzero.le

/-- An amount is cleared by the amounts that make it up, but for those that are zero and not to invoice. -/
theorem cleared_of_parts (hdue : due.IsFinite) (hsum : sum amounts = .ok due) (hne : amounts ≠ [])
    {keep : Decimal → Bool} (hkeep : ∀ x ∈ amounts, keep x = false → x.equals zero = true ∧ zeroDisabled = true) :
    Cleared zeroDisabled due (amounts.filter keep) := by
  obtain ⟨t, ht, hequals⟩ := sum_filter_equals keep (fun x hx h => (hkeep x hx h).1) hsum (ne_nan_of_isFinite hdue)
  obtain ⟨hfinite, hvalue⟩ := isFinite_of_equals (equals_symm hequals) hdue
  refine ⟨t, ht, hfinite, hvalue.ge, fun hnil => Or.inr ?_⟩
  obtain ⟨x, hx⟩ := List.exists_mem_of_ne_nil _ hne
  exact (hkeep x hx (Bool.eq_false_iff.mpr (List.filter_eq_nil_iff.mp hnil x hx))).2

end Decimal

/-- A bucket as it is when usage before a later date is clipped off. -/
structure Bucket.Clips (b c : Bucket) : Prop where
  alignedStart : b.alignedStart = c.alignedStart
  finish : b.finish = c.finish
  eventIndex : b.eventIndex = c.eventIndex
  start : b.start ≤ c.start

namespace Interval

variable {i j : Interval} {b c : Bucket} {subscriptionId : String} {items : List InvoiceItem}

/-- What is due for a unit type is cleared by the lines for it. -/
theorem cleared_lineAmounts {amounts : List Decimal} {due : Decimal} {owed : Option Decimal} (hdue : due.IsFinite)
    (hsum : Decimal.sum amounts = .ok due) (h : Decimal.owed i.terms.zeroAmountDisabled due [] = .ok owed) :
    Decimal.Cleared i.terms.zeroAmountDisabled due (i.lineAmounts owed [] amounts) := by
  have hsettled := Decimal.settled_foldlM_add Decimal.settled_zero hsum (Decimal.owed_nil h).1
  have howed := Decimal.cleared_of_owed hdue hsettled h
  cases owed with
  | none => exact howed
  | some rest =>
      rw [lineAmounts]
      split
      next hdetail =>
        simp only [Bool.and_eq_true, Bool.not_eq_true', List.isEmpty_eq_false_iff] at hdetail
        refine Decimal.cleared_of_parts hdue hsum hdetail.2 fun x _ hx => ?_
        rwa [keeps, Bool.not_eq_false', Bool.and_eq_true] at hx
      next => exact howed

/-! ### Intervals with a later start of the raw usage -/

def withRawUsageStart (start : Date) (i : Interval) : Interval :=
  { i with terms := { i.terms with rawUsageStart := start } }

/-- An interval as it is built from the same or a later start of the raw usage on, and up to the same or a later
target. -/
structure Advances (i j : Interval) : Prop where
  usage : i.usage = j.usage
  events : i.events = j.events
  nonempty : i.events ≠ []
  closed : i.isClosed = j.isClosed
  zone : i.terms.zone = j.terms.zone
  rawUsage : i.terms.rawUsage = j.terms.rawUsage
  zeroAmountDisabled : i.terms.zeroAmountDisabled = j.terms.zeroAmountDisabled
  target : i.terms.target ≤ j.terms.target
  rawUsageStart : i.terms.rawUsageStart ≤ j.terms.rawUsageStart

namespace Advances

theorem grows (h : Advances i j) : i.Grows (j.withRawUsageStart i.terms.rawUsageStart) where
  usage := h.usage
  zone := h.zone
  rawUsageStart := rfl
  target := h.target
  nonempty := h.nonempty
  events := ⟨[], by rw [List.append_nil]; exact h.events.symm, by simp⟩
  ended hclosed := ⟨h.closed.symm.trans hclosed, h.events.symm⟩
  ongoing hopen f hf := by
    have hopen : j.isClosed = false := h.closed.symm.trans hopen
    have hnone : j.endDate = .ok none := by
      rw [Interval.endDate, hopen]
      rfl
    cases hnone.symm.trans hf

theorem dateOf_eq (h : Advances i j) : i.dateOf = j.dateOf := h.grows.dateOf_eq

theorem eventIndexAt_eq (h : Advances i j) : i.eventIndexAt = j.eventIndexAt := by
  funext day
  rw [eventIndexAt, eventIndexAt, h.events, h.dateOf_eq]

theorem endDate_eq (h : Advances i j) : i.endDate = j.endDate := by
  rw [Interval.endDate, Interval.endDate, h.closed, h.events, h.dateOf_eq]

/-- Each bucket is one that the interval had, perhaps clipped, or it ends after the first target and begins after
all that the interval had. -/
theorem buckets (h : Advances i j) {bs cs : List Bucket} (hi : i.computeBuckets = .ok bs)
    (hj : j.computeBuckets = .ok cs) (hc : c ∈ cs) : (∃ b ∈ bs, b.Clips c) ∨
      i.terms.target < c.finish ∧ ∀ b ∈ bs, b.finish ≤ c.alignedStart := by
  obtain ⟨ds, hds, hbs⟩ := computeBuckets_eq_ok.mp hi
  obtain ⟨ds', hds', hcs⟩ := computeBuckets_eq_ok.mp hj
  obtain ⟨start, finish, -, hstart, hfinish, -⟩ := boundaries_eq_ok.mp hds'
  obtain ⟨hne, days, rfl, hdays⟩ := h.grows.boundaries hds hds'
  obtain ⟨ps, hps, hpsmore⟩ := spans_append hne days
  have hspans : (spans ds ++ ps).Pairwise fun p q => p.2 ≤ q.1 := by
    obtain ⟨rest, hrest, hsorted, hreached⟩ := boundaries_spec hstart hfinish hds'
    rw [← hps, hrest]
    exact (spans_sorted (List.pairwise_cons.mpr ⟨fun d hd => (hreached d hd).1, hsorted⟩)).2
  obtain ⟨p, hp, hpc⟩ := exists_of_forall₂_right (mapM_eq_ok.mp hcs) hc
  obtain ⟨hcaligned, hcfinish, hcstart, hcindex⟩ := bucketOf_eq_ok hpc
  obtain ⟨hp, hlater⟩ := List.mem_filter.mp hp
  rw [hps] at hp
  rcases List.mem_append.mp hp with hp | hp
  · left
    have hkept : i.terms.rawUsageStart < p.2 := Nat.lt_of_le_of_lt h.rawUsageStart (of_decide_eq_true hlater)
    obtain ⟨b, hb, hpb⟩ := exists_of_forall₂_left (mapM_eq_ok.mp hbs)
      (List.mem_filter.mpr ⟨hp, decide_eq_true hkept⟩)
    obtain ⟨hbaligned, hbfinish, hbstart, hbindex⟩ := bucketOf_eq_ok hpb
    refine ⟨b, hb, hbaligned.trans hcaligned.symm, hbfinish.trans hcfinish.symm, ?_, ?_⟩
    · rw [h.eventIndexAt_eq] at hbindex
      exact Except.ok.inj (hbindex.symm.trans hcindex)
    · rw [hbstart, hcstart]
      exact Date.max_le_max_left p.1 h.rawUsageStart
  · right
    rw [hcfinish, hcaligned]
    refine ⟨hdays p.2 (hpsmore p hp), fun b hb => ?_⟩
    obtain ⟨q, hq, hqb⟩ := exists_of_forall₂_right (mapM_eq_ok.mp hbs) hb
    rw [(bucketOf_eq_ok hqb).2.1]
    exact (List.pairwise_append.mp hspans).2.2 q (List.mem_filter.mp hq).1 p hp

/-- What ends after the first target begins after all buckets that the interval had. -/
theorem finish_le_of_later (h : Advances i j) {bs cs : List Bucket} (hi : i.computeBuckets = .ok bs)
    (hj : j.computeBuckets = .ok cs) (hc : c ∈ cs) (hlater : i.terms.target < c.finish) :
    ∀ b ∈ bs, b.finish ≤ c.alignedStart := by
  rcases h.buckets hi hj hc with ⟨b, hb, hclips⟩ | ⟨-, hafter⟩
  · obtain ⟨ds, hds, -⟩ := computeBuckets_eq_ok.mp hi
    obtain ⟨start, finish, -, hstart, hfinish, -⟩ := boundaries_eq_ok.mp hds
    have hreached := ((buckets_spec hstart hfinish hi).1 b hb).reached
    rw [hclips.finish] at hreached
    exact absurd hreached (Nat.not_le.mpr hlater)
  · exact hafter

theorem governingUnitTypes_eq (h : Advances i j) (hclips : b.Clips c) :
    i.governingUnitTypes b = j.governingUnitTypes c := by
  rw [governingUnitTypes, governingUnitTypes, h.endDate_eq, h.events, h.usage, hclips.finish, hclips.eventIndex]

end Advances

/-! ### Lines -/

/-- Nothing is owed for a unit type of which there is less than what was invoiced. -/
theorem unitTypeLines_clipped (hsub : ∀ e ∈ i.events, e.event.subscriptionId = subscriptionId)
    (hsub' : ∀ e ∈ j.events, e.event.subscriptionId = subscriptionId) (husage : i.usage = j.usage)
    (hzero : i.terms.zeroAmountDisabled = j.terms.zeroAmountDisabled)
    (hpriced : ∀ t ∈ i.usage.tiers, ∀ b ∈ t.blocks, b.Priced) {unitType : String} {quantity quantity' : Decimal}
    (hquantity : quantity'.Within quantity) {lines lines' : List InvoiceLine}
    (h : (i.unitTypeLines b unitType quantity []).result = .ok lines)
    (hitems : (items.filter (·.unitType = some unitType)).map (·.toInvoiceLine) = lines)
    (h' : (j.unitTypeLines c unitType quantity' items).result = .ok lines') : lines' = [] := by
  obtain ⟨charges, amounts, due, owed, hcharges, hamounts, hsum, howed, hlines, -⟩ := unitTypeLines_spec hsub h
  obtain ⟨charges', amounts', due', owed', hcharges', hamounts', hsum', howed', hlines', -⟩ :=
    unitTypeLines_spec hsub' h'
  rw [← husage] at hcharges'
  have hblocks : ∀ p ∈ i.usage.blocksFor unitType, p.2.Priced := by
    intro p hp
    obtain ⟨t, ht, hb⟩ := mem_blocksFor hp
    exact hpriced t ht p.2 hb
  have hdue : due'.Within due := due_within hblocks hquantity.finite hquantity.finite_bound hquantity.le hcharges'
    hcharges (Charge.total_eq_ok.mpr ⟨amounts', hamounts', hsum'⟩)
    (Charge.total_eq_ok.mpr ⟨amounts, hamounts, hsum⟩)
  have hinvoiced : (items.filter (·.unitType = some unitType)).map (·.amount) = i.lineAmounts owed [] amounts := by
    rw [List.filter_nil] at hlines
    rw [← hlines, ← hitems, List.map_map]
    rfl
  rw [hinvoiced, ← hzero] at howed'
  obtain rfl := (cleared_lineAmounts hdue.finite_bound hsum howed).owed_eq_none hdue.finite hdue.le howed'
  exact List.map_eq_nil_iff.mp hlines'

theorem consumableLines_clipped (hsub : ∀ e ∈ i.events, e.event.subscriptionId = subscriptionId)
    (hsub' : ∀ e ∈ j.events, e.event.subscriptionId = subscriptionId) (husage : i.usage = j.usage)
    (hzero : i.terms.zeroAmountDisabled = j.terms.zeroAmountDisabled)
    (hpriced : ∀ t ∈ i.usage.tiers, ∀ b ∈ t.blocks, b.Priced) {rolled rolled' : RolledUsage}
    (hnodup : (rolled.amounts.map (·.1)).Nodup)
    (hamounts : List.Forall₂ (fun p p' => p.1 = p'.1 ∧ p.2.Within p'.2) rolled'.amounts rolled.amounts)
    {lines lines' : List InvoiceLine} (h : (i.consumableLines b rolled []).result = .ok lines)
    (hitems : items.map (·.toInvoiceLine) = lines) (h' : (j.consumableLines c rolled' items).result = .ok lines') :
    lines' = [] := by
  obtain ⟨-, parts, hparts, rfl⟩ := consumableLines_eq_ok.mp h
  obtain ⟨-, parts', hparts', rfl⟩ := consumableLines_eq_ok.mp h'
  have hown := filter_unitType_flatten hsub hnodup hparts
  have hboth := hparts.mp (fun p ls hp hown => And.intro hp hown) hown
  refine List.flatten_eq_nil_iff.mpr fun ls' hls' => ?_
  obtain ⟨p', hp', hlines'⟩ := exists_of_forall₂_right hparts' hls'
  obtain ⟨p, hp, hname, hwithin⟩ := exists_of_forall₂_left hamounts hp'
  obtain ⟨ls, -, hlines, hown⟩ := exists_of_forall₂_left hboth hp
  refine unitTypeLines_clipped hsub hsub' husage hzero hpriced hwithin hlines ?_ (hname ▸ hlines')
  rw [← hown, ← hitems, List.filter_map]
  rfl

theorem capacityLines_clipped (hsub : ∀ e ∈ i.events, e.event.subscriptionId = subscriptionId)
    (hsub' : ∀ e ∈ j.events, e.event.subscriptionId = subscriptionId) (husage : i.usage = j.usage)
    (hzero : i.terms.zeroAmountDisabled = j.terms.zeroAmountDisabled) (hpricing : i.usage.pricing = .capacity)
    (hpriced : i.usage.WellPriced) {rolled rolled' : RolledUsage}
    (hamounts : List.Forall₂ (fun p p' => p.1 = p'.1 ∧ p.2.Within p'.2) rolled'.amounts rolled.amounts)
    {lines lines' : List InvoiceLine} (h : (i.capacityLines b rolled []).result = .ok lines)
    (hitems : items.map (·.toInvoiceLine) = lines) (h' : (j.capacityLines c rolled' items).result = .ok lines') :
    lines' = [] := by
  obtain ⟨tier, owed, -, htier, howed, hlines, -⟩ := capacityLines_spec hsub h
  obtain ⟨tier', owed', -, htier', howed', hlines', -⟩ := capacityLines_spec hsub' h'
  rw [← husage] at htier'
  obtain ⟨t, ht, hprice⟩ := price_of_capacityTier htier
  obtain ⟨hfinite, kept, hkept, hequals⟩ := hpriced.prices hpricing t ht tier.price hprice
  obtain ⟨t', ht', hprice'⟩ := price_of_capacityTier htier'
  have hfinite' := (hpriced.prices hpricing t' ht' tier'.price hprice').1
  have hle := price_mono (hpriced.limits hpricing) (hpriced.sorted hpricing) hamounts htier' htier
  have hcleared := Decimal.cleared_of_owed hfinite (Decimal.settled_of_add_zero hkept hequals) howed
  have hinvoiced : items.map (·.amount) = owed.toList := by
    rw [← hlines, ← hitems, List.map_map]
    rfl
  rw [hinvoiced, ← hzero] at howed'
  obtain rfl := hcleared.owed_eq_none hfinite' hle howed'
  exact List.map_eq_nil_iff.mp hlines'

/-- Nothing is owed for a bucket with less usage than what was invoiced for it. -/
theorem bucketLines_clipped (hsub : ∀ e ∈ i.events, e.event.subscriptionId = subscriptionId)
    (hsub' : ∀ e ∈ j.events, e.event.subscriptionId = subscriptionId) (husage : i.usage = j.usage)
    (hzero : i.terms.zeroAmountDisabled = j.terms.zeroAmountDisabled) (hpriced : i.usage.WellPriced)
    {rolled rolled' : RolledUsage} (hnodup : (rolled.amounts.map (·.1)).Nodup)
    (hamounts : List.Forall₂ (fun p p' => p.1 = p'.1 ∧ p.2.Within p'.2) rolled'.amounts rolled.amounts)
    {lines lines' : List InvoiceLine} (h : (i.bucketLines b rolled []).result = .ok lines)
    (hitems : items.map (·.toInvoiceLine) = lines) (h' : (j.bucketLines c rolled' items).result = .ok lines') :
    lines' = [] := by
  rw [bucketLines] at h h'
  rw [← husage] at h'
  cases hpricing : i.usage.pricing with
  | consumable =>
      rw [hpricing] at h h'
      exact consumableLines_clipped hsub hsub' husage hzero (hpriced.blocks hpricing) hnodup hamounts h hitems h'
  | capacity =>
      rw [hpricing] at h h'
      exact capacityLines_clipped hsub hsub' husage hzero hpricing hpriced hamounts h hitems h'

end Interval
end UsageBilling
