import UsageBilling.Proofs.Interval.Repetition
import UsageBilling.Proofs.Run.Terms

/-! Detail modes. A bucket bills the same money in both of them: what the aggregate mode has as one line for a unit
type, the detail mode has as lines that add up to an equal number, rounding included, and where one has no line
the other has none (`outcome_modes`). Capacity usage has the same line, and the tracking ids are the same. -/

namespace UsageBilling

def Terms.inMode (mode : DetailMode) (t : Terms) : Terms := { t with detailMode := mode }

theorem Terms.keepsDates_inMode (mode : DetailMode) : KeepsDates (inMode mode) :=
  ⟨fun _ => rfl, fun _ => rfl, fun _ => rfl⟩

/-! ### Equal sums -/

namespace Decimal

/-- Two lists of numbers that have sums of equal value, and of which both are empty or none is. -/
structure SameSum (xs ys : List Decimal) : Prop where
  empty : xs = [] ↔ ys = []
  sums : ∃ s t, sum xs = .ok s ∧ sum ys = .ok t ∧ s.equals t = true

theorem sameSum_nil : SameSum [] [] := ⟨Iff.rfl, zero, zero, rfl, rfl, equals_refl nofun⟩

theorem ne_nan_of_below {a b : Decimal} {x : Bool} (h : a.below b = .ok x) : a ≠ nan ∧ b ≠ nan := by
  constructor
  · rintro rfl
    cases b <;> cases h
  · rintro rfl
    cases a <;> cases h

theorem negate_ne_nan {a : Decimal} (h : a ≠ nan) : a.negate ≠ nan := by
  cases a with
  | finite n c e => nofun
  | infinity n => nofun
  | nan => exact absurd rfl h

variable {zeroDisabled : Bool} {due rest : Decimal} {invoiced amounts : List Decimal}

theorem settled_of_owed (h : owed zeroDisabled due invoiced = .ok (some rest)) : rest.Settled := by
  obtain ⟨billed, -, howes⟩ := owes_of_owed h
  cases howes with
  | rest _ hbelow hrest _ =>
      obtain ⟨hdue, hbilled⟩ := ne_nan_of_below hbelow
      exact settled_add hdue (negate_ne_nan hbilled) hrest

/-- The single amount that is owed has a sum. -/
theorem sameSum_of_owed (h : owed zeroDisabled due invoiced = .ok (some rest)) : SameSum [rest] [rest] := by
  obtain ⟨t, ht, hequals⟩ := sum_singleton_equals (settled_of_owed h)
  exact ⟨Iff.rfl, t, t, ht, ht, equals_refl (ne_nan_of_equals hequals)⟩

/-- What is owed of an amount that nothing was invoiced for has the sum of the parts worth a line, and one of the
parts is. -/
theorem sameSum_filter_of_owed (hsum : sum amounts = .ok due) (hne : amounts ≠ [])
    (h : owed zeroDisabled due [] = .ok (some rest)) :
    SameSum [rest] (amounts.filter fun x => !(x.equals zero && zeroDisabled)) := by
  obtain ⟨hdue, hequal⟩ := owed_nil h
  have hrest : rest.equals due = true := hequal rest rfl (settled_foldlM_add settled_zero hsum hdue)
  obtain ⟨s, hs, hsrest⟩ := sum_singleton_equals (settled_of_owed h)
  obtain ⟨t, ht, hduet⟩ := sum_filter_equals (fun x => !(x.equals zero && zeroDisabled)) (fun x _ hx => by
    rw [Bool.not_eq_false', Bool.and_eq_true] at hx
    exact hx.1) hsum hdue
  refine ⟨iff_of_false (List.cons_ne_nil _ _) fun hempty => ?_, s, t, hs, ht,
    equals_trans hsrest (equals_trans hrest hduet)⟩
  -- Without any part left, the amount is zero and zero amounts are disabled: then nothing is owed.
  have hzero : rest.equals zero = true := by
    rw [hempty] at ht
    obtain rfl : zero = t := Except.ok.inj ht
    exact equals_trans hrest hduet
  obtain ⟨x, hx⟩ := List.exists_mem_of_ne_nil amounts hne
  have hdropped := List.filter_eq_nil_iff.mp hempty x hx
  rw [Bool.not_eq_true, Bool.not_eq_false', Bool.and_eq_true] at hdropped
  obtain ⟨billed, -, howes⟩ := owes_of_owed h
  cases howes with
  | rest _ _ _ hworth => exact Bool.false_ne_true ((hworth hzero).symm.trans hdropped.2)

end Decimal

namespace Interval

open Terms Decimal

variable {i : Interval} {b : Bucket} {subscriptionId : String} {items : List InvoiceItem}
  {lines lines' : List InvoiceLine}

theorem zeroAmountDisabled_inMode (i : Interval) (mode : DetailMode) :
    (i.under (inMode mode)).terms.zeroAmountDisabled = i.terms.zeroAmountDisabled := rfl

theorem detailMode_inMode (i : Interval) (mode : DetailMode) : (i.under (inMode mode)).terms.detailMode = mode := rfl

/-! ### Consumable usage -/

/-- The lines for a unit type have sums of equal value in both modes. -/
theorem unitTypeLines_modes (hsub : ∀ e ∈ i.events, e.event.subscriptionId = subscriptionId) {unitType : String}
    {quantity : Decimal}
    (ha : ((i.under (inMode .aggregate)).unitTypeLines b unitType quantity items).result = .ok lines)
    (hd : ((i.under (inMode .detail)).unitTypeLines b unitType quantity items).result = .ok lines') :
    SameSum (lines.map (·.amount)) (lines'.map (·.amount)) := by
  obtain ⟨charges, amounts, due, owed, hcharges, hamounts, hsum, howed, hlines, -⟩ :=
    unitTypeLines_spec (i := i.under (inMode .aggregate)) hsub ha
  obtain ⟨charges', amounts', due', owed', hcharges', hamounts', hsum', howed', hlines', -⟩ :=
    unitTypeLines_spec (i := i.under (inMode .detail)) hsub hd
  rw [zeroAmountDisabled_inMode] at howed howed'
  obtain rfl : charges = charges' := Except.ok.inj (hcharges.symm.trans hcharges')
  obtain rfl : amounts = amounts' := Except.ok.inj (hamounts.symm.trans hamounts')
  obtain rfl : due = due' := Except.ok.inj (hsum.symm.trans hsum')
  obtain rfl : owed = owed' := Except.ok.inj (howed.symm.trans howed')
  rw [hlines, hlines']
  cases owed with
  | none => exact sameSum_nil
  | some rest =>
      have haggregate : (i.under (inMode .aggregate)).lineAmounts (some rest)
          (items.filter (·.unitType = some unitType)) amounts = [rest] := by
        rw [lineAmounts, if_neg]
        simp [detailMode_inMode]
      rw [haggregate, lineAmounts]
      split
      next hdetail =>
        simp only [Bool.and_eq_true, List.isEmpty_iff, Bool.not_eq_true', List.isEmpty_eq_false_iff] at hdetail
        obtain ⟨⟨-, hnone⟩, hne⟩ := hdetail
        rw [hnone] at howed
        exact sameSum_filter_of_owed hsum hne howed
      next => exact sameSum_of_owed howed

theorem consumableLines_modes (hsub : ∀ e ∈ i.events, e.event.subscriptionId = subscriptionId)
    {rolled : RolledUsage} (hnodup : (rolled.amounts.map (·.1)).Nodup)
    (ha : ((i.under (inMode .aggregate)).consumableLines b rolled items).result = .ok lines)
    (hd : ((i.under (inMode .detail)).consumableLines b rolled items).result = .ok lines') (unitType : Option String) :
    SameSum ((lines.filter (·.unitType = unitType)).map (·.amount))
      ((lines'.filter (·.unitType = unitType)).map (·.amount)) := by
  obtain ⟨-, parts, hparts, rfl⟩ := consumableLines_eq_ok.mp ha
  obtain ⟨-, parts', hparts', rfl⟩ := consumableLines_eq_ok.mp hd
  by_cases hknown : ∃ p ∈ rolled.amounts, unitType = some p.1
  · obtain ⟨p, hp, rfl⟩ := hknown
    have hown := (filter_unitType_flatten (i := i.under (inMode .aggregate)) hsub hnodup hparts).mp
      (fun p ls hown h => And.intro hown h) hparts
    have hown' := (filter_unitType_flatten (i := i.under (inMode .detail)) hsub hnodup hparts').mp
      (fun p ls hown h => And.intro hown h) hparts'
    obtain ⟨ls, -, hown, hls⟩ := exists_of_forall₂_left hown hp
    obtain ⟨ls', -, hown', hls'⟩ := exists_of_forall₂_left hown' hp
    rw [hown, hown']
    exact unitTypeLines_modes hsub hls hls'
  · have hnone (mode : DetailMode) {parts : List (List InvoiceLine)} (hparts : List.Forall₂ (fun p ls =>
        ((i.under (inMode mode)).unitTypeLines b p.1 p.2 items).result = .ok ls) rolled.amounts parts) :
        parts.flatten.filter (·.unitType = unitType) = [] := by
      refine List.filter_eq_nil_iff.mpr fun l hl hunit => hknown ?_
      obtain ⟨ls, hls, hl⟩ := List.mem_flatten.mp hl
      obtain ⟨p, hp, hls⟩ := exists_of_forall₂_right hparts hls
      obtain ⟨_, _, _, _, -, -, -, -, -, hall⟩ := unitTypeLines_spec (i := i.under (inMode mode)) hsub hls
      exact ⟨p, hp, (of_decide_eq_true hunit).symm.trans (hall l hl).2⟩
    rw [hnone .aggregate hparts, hnone .detail hparts']
    exact sameSum_nil

/-! ### Capacity usage -/

theorem capacityLines_inMode (i : Interval) (mode : DetailMode) (b : Bucket) (rolled : RolledUsage)
    (items : List InvoiceItem) :
    (i.under (inMode mode)).capacityLines b rolled items = i.capacityLines b rolled items := rfl

theorem sameSum_capacityLines (hsub : ∀ e ∈ i.events, e.event.subscriptionId = subscriptionId) {rolled : RolledUsage}
    (h : (i.capacityLines b rolled items).result = .ok lines) (unitType : Option String) :
    SameSum ((lines.filter (·.unitType = unitType)).map (·.amount))
      ((lines.filter (·.unitType = unitType)).map (·.amount)) := by
  obtain ⟨tier, owed, -, -, howed, hlines, hall⟩ := capacityLines_spec hsub h
  cases owed with
  | none =>
      rw [List.map_eq_nil_iff.mp hlines]
      exact sameSum_nil
  | some rest =>
      obtain ⟨line, rfl, rfl⟩ := List.map_eq_singleton_iff.mp hlines
      obtain ⟨-, hunit⟩ := hall line List.mem_cons_self
      by_cases hnone : line.unitType = unitType
      · rw [List.filter_cons_of_pos (by simpa using hnone), List.filter_nil]
        exact sameSum_of_owed howed
      · rw [List.filter_cons_of_neg (by simpa using hnone), List.filter_nil]
        exact sameSum_nil

/-! ### Buckets -/

/-- The lines of a bucket in two modes bill the same money: they are lines for the bucket that have sums of equal
value for each unit type, and those of a capacity section are the same. -/
structure SameMoney (subscriptionId : String) (p : Interval × Bucket) (lines lines' : List InvoiceLine) : Prop where
  aggregate : ∀ l ∈ lines, l.ForBucket p.1 p.2 subscriptionId
  detail : ∀ l ∈ lines', l.ForBucket p.1 p.2 subscriptionId
  sums (unitType : Option String) : SameSum ((lines.filter (·.unitType = unitType)).map (·.amount))
    ((lines'.filter (·.unitType = unitType)).map (·.amount))
  capacity : p.1.usage.pricing = .capacity → lines = lines'

/-- A bucket adds the same money and the same tracking ids in both modes. -/
theorem outcome_modes {p : Interval × Bucket} (hsub : ∀ e ∈ p.1.events, e.event.subscriptionId = subscriptionId)
    {existing : List InvoiceItem} {out out' : List InvoiceLine × List TrackingId}
    (ha : outcome subscriptionId existing (p.1.under (inMode .aggregate), p.2) = .ok out)
    (hd : outcome subscriptionId existing (p.1.under (inMode .detail), p.2) = .ok out') :
    SameMoney subscriptionId p out.1 out'.1 ∧ out.2 = out'.2 := by
  obtain ⟨i, b⟩ := p
  have hlines : ∀ l ∈ out.1, l.ForBucket i b subscriptionId := fun l hl => InvoiceLine.forBucket_under.mp
    (forBucket_of_outcome (p := (i.under (inMode .aggregate), b)) hsub ha l hl)
  have hlines' : ∀ l ∈ out'.1, l.ForBucket i b subscriptionId := fun l hl => InvoiceLine.forBucket_under.mp
    (forBucket_of_outcome (p := (i.under (inMode .detail), b)) hsub hd l hl)
  obtain ⟨billed, types, hbilled, htypes, hout⟩ := reconcileBucket_eq_ok.mp ha
  obtain ⟨billed', types', hbilled', htypes', hout'⟩ := reconcileBucket_eq_ok.mp hd
  obtain rfl : billed = billed' := Except.ok.inj (hbilled.symm.trans hbilled')
  rw [governingUnitTypes_under (keepsDates_inMode _)] at htypes htypes'
  obtain rfl : types = types' := Except.ok.inj (htypes.symm.trans htypes')
  rcases hout with ⟨rfl, rfl⟩ | ⟨hne, rolled, found, hrolled, hfound, rfl⟩
  · obtain rfl : out' = ([], []) := (hout'.resolve_right fun h => h.1 rfl).2
    exact ⟨⟨hlines, hlines', fun _ => sameSum_nil, fun _ => rfl⟩, rfl⟩
  · obtain ⟨-, rolled', found', hrolled', hfound', rfl⟩ := hout'.resolve_left fun h => hne h.1
    obtain rfl : rolled = rolled' := Except.ok.inj (hrolled.symm.trans hrolled')
    refine ⟨⟨hlines, hlines', ?_, ?_⟩, rfl⟩
    · intro unitType
      rw [bucketLines, usage_under] at hfound hfound'
      cases hpricing : i.usage.pricing with
      | consumable =>
          rw [hpricing] at hfound hfound'
          exact consumableLines_modes hsub (RolledUsage.nodup_amounts hrolled) hfound hfound' unitType
      | capacity =>
          rw [hpricing] at hfound hfound'
          dsimp only at hfound hfound'
          rw [capacityLines_inMode] at hfound hfound'
          obtain rfl : found = found' := Except.ok.inj (hfound.symm.trans hfound')
          exact sameSum_capacityLines hsub hfound unitType
    · intro hpricing
      rw [bucketLines, usage_under, hpricing] at hfound hfound'
      dsimp only at hfound hfound'
      rw [capacityLines_inMode] at hfound hfound'
      exact Except.ok.inj (hfound.symm.trans hfound')

end Interval
end UsageBilling
