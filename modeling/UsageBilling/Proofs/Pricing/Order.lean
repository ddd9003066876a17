import UsageBilling.Proofs.Decimal.Exact
import UsageBilling.Proofs.Decimal.Quotient
import UsageBilling.Proofs.Pricing.Charges

/-! Prices and order: less usage is never priced higher. A smaller quantity takes no more blocks of each tier
(`fillBlocks_mono`), so that its charges do not add up to more (`due_within`), and smaller amounts are covered by
every tier that covers larger ones (`Tier.covers_mono`), so that they have no higher price (`price_mono`). -/

namespace UsageBilling

theorem Decimal.atMost_eq {a b : Decimal} (ha : a.IsFinite) (hb : b.IsFinite) :
    a.atMost b = .ok (decide (a.value ≤ b.value)) := by
  rw [Decimal.atMost, Decimal.below_eq hb ha, ok_bind, ← decide_not]
  simp only [not_lt]
  rfl

theorem Decimal.isFinite_mul {a b d : Decimal} (ha : a.IsFinite) (hb : b.IsFinite) (h : a.mul b = .ok d) :
    d.IsFinite := by
  obtain ⟨n, c, e, hmul, -⟩ := Decimal.mul_eq ha hb
  exact (Decimal.holds_of_round (hmul ▸ h)).1

/-! ### Blocks -/

/-- A block with finite numbers and a price that is not below zero. -/
structure Block.Priced (b : Block) : Prop where
  size : b.size.IsFinite
  price : b.price.IsFinite
  nonneg : 0 ≤ b.price.value
  maxBlocks : ∀ limit, b.maxBlocks = some limit → limit.IsFinite

/-- A block with finite numbers for what it takes. -/
structure Block.Sized (b : Block) : Prop where
  size : b.size.IsFinite
  maxBlocks : ∀ limit, b.maxBlocks = some limit → limit.IsFinite

theorem Block.Priced.sized {b : Block} (hb : b.Priced) : b.Sized := ⟨hb.size, hb.maxBlocks⟩

section

variable {b : Block} {q q' used used' left left' : Decimal}

/-- A quantity takes the blocks that it needs and leaves nothing, or it takes all blocks there are. -/
theorem Block.take_spec (hb : b.Sized) (hsize : 0 < b.size.value) (hq : q.IsFinite) (hpos : 0 < q.value)
    (h : b.take q = .ok (used, left)) : ∃ quotient, q.div b.size = .ok quotient ∧ quotient.IsFinite ∧
      ((∀ limit, b.maxBlocks = some limit → quotient.ceil.value ≤ limit.value) ∧
          used = quotient.ceil ∧ left = .zero ∨
        ∃ limit units, b.maxBlocks = some limit ∧ limit.value < quotient.ceil.value ∧
          limit.mul b.size = .ok units ∧ q.sub units = .ok left ∧ used = limit) := by
  rw [Block.take, blocksNeeded] at h
  obtain ⟨needed, hneeded, h⟩ := bind_eq_ok.mp h
  obtain ⟨quotient, hquotient, hneeded⟩ := bind_eq_ok.mp hneeded
  obtain rfl := pure_eq_ok.mp hneeded
  have hfinite := (Decimal.isFinite_of_div hq hpos hb.size hsize hquotient).1
  refine ⟨quotient, hquotient, hfinite, ?_⟩
  cases hmax : b.maxBlocks with
  | none =>
      rw [hmax] at h
      obtain ⟨rfl, rfl⟩ := Prod.mk.inj (pure_eq_ok.mp h)
      exact Or.inl ⟨by simp, rfl, rfl⟩
  | some limit =>
      rw [hmax] at h
      dsimp only at h
      rw [Decimal.below_eq (hb.maxBlocks limit hmax) (Decimal.isFinite_ceil hfinite), ok_bind] at h
      by_cases hless : limit.value < quotient.ceil.value
      · rw [decide_eq_true hless, if_pos rfl] at h
        obtain ⟨units, hunits, h⟩ := bind_eq_ok.mp h
        obtain ⟨rest, hrest, h⟩ := bind_eq_ok.mp h
        obtain ⟨rfl, rfl⟩ := Prod.mk.inj (pure_eq_ok.mp h)
        exact Or.inr ⟨limit, units, rfl, hless, hunits, hrest, rfl⟩
      · rw [decide_eq_false hless, if_neg Bool.false_ne_true] at h
        obtain ⟨rfl, rfl⟩ := Prod.mk.inj (pure_eq_ok.mp h)
        refine Or.inl ⟨fun limit' hlimit => ?_, rfl, rfl⟩
        rw [← Option.some.inj hlimit]
        exact not_lt.mp hless

theorem Block.isFinite_take (hb : b.Sized) (hsize : 0 < b.size.value) (hq : q.IsFinite) (hpos : 0 < q.value)
    (h : b.take q = .ok (used, left)) : used.IsFinite ∧ left.IsFinite := by
  obtain ⟨quotient, -, hfinite, ⟨-, rfl, rfl⟩ | ⟨limit, units, hmax, -, hunits, hleft, rfl⟩⟩ :=
    Block.take_spec hb hsize hq hpos h
  · exact ⟨Decimal.isFinite_ceil hfinite, Decimal.isFinite_zero⟩
  · have hlimit := hb.maxBlocks used hmax
    have hnegated := (Decimal.isFinite_negate (Decimal.isFinite_mul hlimit hb.size hunits)).1
    exact ⟨hlimit, (Decimal.holds_of_add hq hnegated hleft).1⟩

/-- A smaller quantity takes no more blocks, and leaves no more or nothing. -/
theorem Block.take_mono (hb : b.Sized) (hsize : 0 < b.size.value) (hq : q.IsFinite) (hq' : q'.IsFinite)
    (hpos : 0 < q.value) (hle : q.value ≤ q'.value) (h : b.take q = .ok (used, left))
    (h' : b.take q' = .ok (used', left')) :
    used.value ≤ used'.value ∧ (left.value ≤ left'.value ∨ left.value ≤ 0) := by
  obtain ⟨quotient, hdiv, hfinite, hcases⟩ := Block.take_spec hb hsize hq hpos h
  obtain ⟨quotient', hdiv', hfinite', hcases'⟩ := Block.take_spec hb hsize hq' (hpos.trans_le hle) h'
  have hneeded : quotient.ceil.value ≤ quotient'.ceil.value :=
    Decimal.ceil_mono hfinite hfinite' (Decimal.div_mono hq hq' hpos hb.size hsize hle hdiv hdiv')
  rcases hcases with ⟨hfits, rfl, rfl⟩ | ⟨limit, units, hmax, hexceeds, hunits, hleft, rfl⟩
  · have hnothing : Decimal.zero.value ≤ 0 := Decimal.value_zero.le
    rcases hcases' with ⟨-, rfl, rfl⟩ | ⟨limit, units, hmax, -, -, -, rfl⟩
    · exact ⟨hneeded, Or.inr hnothing⟩
    · exact ⟨hfits used' hmax, Or.inr hnothing⟩
  · rcases hcases' with ⟨hfits', -, -⟩ | ⟨limit', units', hmax', -, hunits', hleft', rfl⟩
    · exact absurd (hneeded.trans (hfits' used hmax)) (not_le.mpr hexceeds)
    · obtain rfl : used = used' := Option.some.inj (hmax.symm.trans hmax')
      obtain rfl : units = units' := Except.ok.inj (hunits.symm.trans hunits')
      have hnegated := (Decimal.isFinite_negate
        (Decimal.isFinite_mul (hb.maxBlocks used hmax) hb.size hunits)).1
      refine ⟨le_rfl, Or.inl ?_⟩
      apply Decimal.add_mono hq hnegated hq' hnegated hleft hleft'
      exact add_le_add_left hle _

end

/-! ### Charges -/

/-- A charge for finitely many blocks at a finite price, neither of them below zero. -/
structure Charge.Priced (c : Charge) : Prop where
  blocks : c.blocks.IsFinite
  nonneg_blocks : 0 ≤ c.blocks.value
  price : c.price.IsFinite
  nonneg_price : 0 ≤ c.price.value

/-- A charge takes no more blocks than another one at the same price. -/
structure Charge.Within (c c' : Charge) : Prop where
  price : c.price = c'.price
  blocks : c.blocks.value ≤ c'.blocks.value

theorem Charge.Priced.amount {c : Charge} (hc : c.Priced) {a : Decimal} (h : c.amount = .ok a) :
    a.IsFinite ∧ 0 ≤ a.value := by
  have hfinite := Decimal.isFinite_mul hc.blocks hc.price h
  refine ⟨hfinite, ?_⟩
  rcases Decimal.nonneg_mul (Or.inr ⟨hc.blocks, hc.nonneg_blocks⟩) (Or.inr ⟨hc.price, hc.nonneg_price⟩) h with
    rfl | ⟨-, hnonneg⟩
  · exact hfinite.elim
  · exact hnonneg

theorem Charge.Within.amount {c c' : Charge} (h : c.Within c') (hc : c.Priced) (hc' : c'.Priced) {a a' : Decimal}
    (ha : c.amount = .ok a) (ha' : c'.amount = .ok a') : a.Within a' := by
  obtain ⟨hfinite, hnonneg⟩ := hc.amount ha
  refine ⟨hfinite, (hc'.amount ha').1, hnonneg, ?_⟩
  apply Decimal.mul_mono hc.blocks hc.price hc'.blocks hc'.price ha ha'
  rw [← h.price]
  exact mul_le_mul_of_nonneg_right h.blocks hc.nonneg_price

section

variable {charges charges' : List Charge} {amounts amounts' : List Decimal}

theorem Charge.amounts_nonneg (hcharges : ∀ c ∈ charges, c.Priced) (hamounts : charges.mapM amount = .ok amounts) :
    ∀ a ∈ amounts, a.IsFinite ∧ 0 ≤ a.value := by
  intro a ha
  obtain ⟨c, hc, hamount⟩ := exists_of_forall₂_right (mapM_eq_ok.mp hamounts) ha
  exact (hcharges c hc).amount hamount

theorem Charge.amounts_within (hwithin : List.SublistForall₂ Within charges charges')
    (hcharges : ∀ c ∈ charges, c.Priced) (hcharges' : ∀ c ∈ charges', c.Priced)
    (hamounts : charges.mapM amount = .ok amounts) (hamounts' : charges'.mapM amount = .ok amounts') :
    List.SublistForall₂ Decimal.Within amounts amounts' :=
  sublistForall₂_of_mapM hwithin hamounts hamounts' fun c hc c' hc' _ _ hcc' =>
    hcc'.amount (hcharges c hc) (hcharges' c' hc')

end

section

variable {usage unitType : String} {blocks : List (Nat × Block)} {q q' rest rest' due due' : Decimal}
  {charges charges' : List Charge} {u : Usage}

theorem fillBlocks_cons {tier : Nat} {b : Block} (hb : b.Sized) (hq : q.IsFinite)
    (h : fillBlocks usage unitType ((tier, b) :: blocks) q = .ok (charges, rest)) :
    q.value ≤ 0 ∧ charges = [] ∨ 0 < q.value ∧ 0 < b.size.value ∧ ∃ used left charges',
      b.take q = .ok (used, left) ∧ fillBlocks usage unitType blocks left = .ok (charges', rest) ∧
      charges = if 0 < used.value then ⟨tier, unitType, b.size, used, b.price⟩ :: charges' else charges' := by
  rw [fillBlocks, Decimal.atMost_eq hq Decimal.isFinite_zero, Decimal.atMost_eq hb.size Decimal.isFinite_zero,
    Decimal.value_zero] at h
  obtain ⟨done, hdone, h⟩ := bind_eq_ok.mp h
  obtain rfl : decide (q.value ≤ 0) = done := Except.ok.inj hdone
  by_cases hnone : q.value ≤ 0
  · rw [decide_eq_true hnone, if_pos rfl] at h
    exact Or.inl ⟨hnone, (Prod.mk.inj (pure_eq_ok.mp h)).1.symm⟩
  rw [decide_eq_false hnone, if_neg Bool.false_ne_true] at h
  obtain ⟨empty, hempty, h⟩ := bind_eq_ok.mp h
  obtain rfl : decide (b.size.value ≤ 0) = empty := Except.ok.inj hempty
  by_cases hsize : b.size.value ≤ 0
  · rw [decide_eq_true hsize] at h
    cases h
  rw [decide_eq_false hsize, if_neg Bool.false_ne_true] at h
  rw [not_le] at hnone hsize
  obtain ⟨⟨used, left⟩, htake, h⟩ := bind_eq_ok.mp h
  have htake := liftM_decimal_eq_ok.mp htake
  obtain ⟨charged, hcharged, h⟩ := bind_eq_ok.mp h
  obtain ⟨⟨charges', final⟩, hrest, h⟩ := bind_eq_ok.mp h
  rw [Decimal.below_eq Decimal.isFinite_zero (Block.isFinite_take hb hsize hq hnone htake).1,
    Decimal.value_zero] at hcharged
  obtain rfl : decide (0 < used.value) = charged := Except.ok.inj hcharged
  refine Or.inr ⟨hnone, hsize, used, left, charges', htake, ?_⟩
  by_cases hused : 0 < used.value
  · rw [decide_eq_true hused] at h
    obtain ⟨rfl, rfl⟩ := Prod.mk.inj (pure_eq_ok.mp h)
    exact ⟨hrest, (if_pos hused).symm⟩
  · rw [decide_eq_false hused] at h
    obtain ⟨rfl, rfl⟩ := Prod.mk.inj (pure_eq_ok.mp h)
    exact ⟨hrest, (if_neg hused).symm⟩

theorem priced_fillBlocks (hblocks : ∀ p ∈ blocks, p.2.Priced) (hq : q.IsFinite)
    (h : fillBlocks usage unitType blocks q = .ok (charges, rest)) : ∀ c ∈ charges, c.Priced := by
  induction blocks generalizing q charges with
  | nil =>
      obtain ⟨rfl, -⟩ := Prod.mk.inj (Except.ok.inj h)
      simp
  | cons p blocks ih =>
      obtain ⟨hb, hblocks⟩ := List.forall_mem_cons.mp hblocks
      rcases fillBlocks_cons hb.sized hq h with ⟨-, rfl⟩ | ⟨hpos, hsize, used, left, charges', htake, hrest, rfl⟩
      · simp
      · obtain ⟨hused, hleft⟩ := Block.isFinite_take hb.sized hsize hq hpos htake
        have hpriced := ih hblocks hleft hrest
        split
        next hcharged => exact List.forall_mem_cons.mpr ⟨⟨hused, hcharged.le, hb.price, hb.nonneg⟩, hpriced⟩
        next => exact hpriced

/-- A smaller quantity has no further charges, and none of them is for more blocks. -/
theorem fillBlocks_mono (hblocks : ∀ p ∈ blocks, p.2.Priced) (hq : q.IsFinite) (hq' : q'.IsFinite)
    (hle : q.value ≤ q'.value ∨ q.value ≤ 0) (h : fillBlocks usage unitType blocks q = .ok (charges, rest))
    (h' : fillBlocks usage unitType blocks q' = .ok (charges', rest')) :
    List.SublistForall₂ Charge.Within charges charges' := by
  induction blocks generalizing q q' charges charges' with
  | nil =>
      obtain ⟨rfl, -⟩ := Prod.mk.inj (Except.ok.inj h)
      exact .nil
  | cons p blocks ih =>
      obtain ⟨hb, hblocks⟩ := List.forall_mem_cons.mp hblocks
      rcases fillBlocks_cons hb.sized hq h with ⟨-, rfl⟩ | ⟨hpos, hsize, used, left, more, htake, hrest, rfl⟩
      · exact .nil
      have hle : q.value ≤ q'.value := hle.resolve_right (not_le.mpr hpos)
      rcases fillBlocks_cons hb.sized hq' h' with ⟨hnone, -⟩ | ⟨hpos', -, used', left', more', htake', hrest', rfl⟩
      · exact absurd (hle.trans hnone) (not_le.mpr hpos)
      obtain ⟨hused, hleft⟩ := Block.take_mono hb.sized hsize hq hq' hpos hle htake htake'
      have hmore := ih hblocks (Block.isFinite_take hb.sized hsize hq hpos htake).2
        (Block.isFinite_take hb.sized hsize hq' hpos' htake').2 hleft hrest hrest'
      by_cases hcharged : 0 < used.value
      · rw [if_pos hcharged, if_pos (hcharged.trans_le hused)]
        exact .cons ⟨rfl, hused⟩ hmore
      · rw [if_neg hcharged]
        split
        · exact .cons_right hmore
        · exact hmore

/-- The charges for a quantity are those of the blocks of its unit type, where these leave nothing. -/
theorem consumableCharges_eq_ok : u.consumableCharges unitType q = .ok charges ↔ u.blocksFor unitType ≠ [] ∧
    ∃ rest, fillBlocks u.name unitType (u.blocksFor unitType) q = .ok (charges, rest) ∧
      Decimal.zero.below rest = .ok false := by
  rw [Usage.consumableCharges]
  dsimp only
  by_cases hnone : u.blocksFor unitType = []
  · rw [if_pos hnone]
    exact iff_of_false error_ne_ok fun h => h.1 hnone
  rw [if_neg hnone, bind_eq_ok]
  constructor
  · rintro ⟨⟨charges', rest⟩, hfill, h⟩
    obtain ⟨exceeds, hexceeds, h⟩ := bind_eq_ok.mp h
    cases exceeds with
    | true => cases h
    | false => exact ⟨hnone, rest, pure_eq_ok.mp h ▸ hfill, liftM_decimal_eq_ok.mp hexceeds⟩
  · rintro ⟨-, rest, hfill, hbelow⟩
    exact ⟨(charges, rest), hfill, bind_eq_ok.mpr ⟨false, liftM_decimal_eq_ok.mpr hbelow, rfl⟩⟩

theorem mem_blocksFor {p : Nat × Block} (hp : p ∈ u.blocksFor unitType) : ∃ t ∈ u.tiers, p.2 ∈ t.blocks := by
  obtain ⟨⟨m, t⟩, ht, hp⟩ := List.mem_flatMap.mp hp
  obtain ⟨b, hb, rfl⟩ := List.mem_map.mp hp
  obtain ⟨⟨t', k⟩, ht', heq⟩ := List.mem_map.mp ht
  obtain ⟨-, rfl⟩ := Prod.mk.inj heq
  exact ⟨t', List.fst_mem_of_mem_zipIdx ht', (List.mem_filter.mp hb).1⟩

/-- The charges for a smaller quantity do not add up to more. -/
theorem due_within (hblocks : ∀ p ∈ u.blocksFor unitType, p.2.Priced) (hq : q.IsFinite) (hq' : q'.IsFinite)
    (hle : q.value ≤ q'.value) (h : u.consumableCharges unitType q = .ok charges)
    (h' : u.consumableCharges unitType q' = .ok charges') (hdue : Charge.total charges = .ok due)
    (hdue' : Charge.total charges' = .ok due') : due.Within due' := by
  obtain ⟨-, rest, hfill, -⟩ := consumableCharges_eq_ok.mp h
  obtain ⟨-, rest', hfill', -⟩ := consumableCharges_eq_ok.mp h'
  obtain ⟨amounts, hamounts, hsum⟩ := Charge.total_eq_ok.mp hdue
  obtain ⟨amounts', hamounts', hsum'⟩ := Charge.total_eq_ok.mp hdue'
  have hcharges := priced_fillBlocks hblocks hq hfill
  have hcharges' := priced_fillBlocks hblocks hq' hfill'
  have hwithin := fillBlocks_mono hblocks hq hq' (Or.inl hle) hfill hfill'
  exact Decimal.sum_within (Charge.amounts_within hwithin hcharges hcharges' hamounts hamounts')
    (Charge.amounts_nonneg hcharges' hamounts') hsum hsum'

end

/-! ### Capacity tiers -/

/-- A usage section with finite numbers whose further tiers are not cheaper: no price of blocks is below zero, and the
recurring prices, which the context can hold, do not fall from tier to tier. -/
structure Usage.WellPriced (u : Usage) : Prop where
  blocks : u.pricing = .consumable → ∀ t ∈ u.tiers, ∀ b ∈ t.blocks, b.Priced
  limits : u.pricing = .capacity → ∀ t ∈ u.tiers, ∀ l ∈ t.limits, ∀ most, l.maxValue = some most → most.IsFinite
  prices : u.pricing = .capacity → ∀ t ∈ u.tiers, ∀ p, t.recurringPrice = some p →
    p.IsFinite ∧ ∃ kept, p.add .zero = .ok kept ∧ kept.equals p = true
  sorted : u.pricing = .capacity →
    (u.tiers.filterMap (·.recurringPrice)).Pairwise fun p p' => p.value ≤ p'.value

section

variable {amounts amounts' : List (String × Decimal)} {t : Tier} {u : Usage} {tier tier' : CapacityTier}

theorem Tier.covers_cons {p : String × Decimal} : t.covers (p :: amounts) = .ok true ↔
    (p.2.equals .zero = true ∨ ∃ limit, t.limitFor p.1 = some limit ∧ limit.covers p.2 = .ok true) ∧
      t.covers amounts = .ok true := by
  rw [Tier.covers]
  by_cases hzero : p.2.equals .zero = true
  · simp [hzero]
  rw [if_neg hzero]
  cases hlimit : t.limitFor p.1 with
  | none => simp [hzero]
  | some limit =>
      dsimp only
      rw [bind_eq_ok]
      constructor
      · rintro ⟨covered, hcovered, h⟩
        cases covered with
        | false => cases h
        | true => exact ⟨Or.inr ⟨limit, rfl, hcovered⟩, h⟩
      · rintro ⟨hzero' | ⟨limit', hlimit', hcovered⟩, h⟩
        · exact absurd hzero' hzero
        · obtain rfl := Option.some.inj hlimit'
          exact ⟨true, hcovered, h⟩

theorem Limit.covers_mono {l : Limit} (hl : ∀ most, l.maxValue = some most → most.IsFinite) {a a' : Decimal}
    (ha : a.Within a') (h : l.covers a' = .ok true) : l.covers a = .ok true := by
  rw [Limit.covers] at h ⊢
  cases hmax : l.maxValue with
  | none => rfl
  | some most =>
      rw [hmax] at h
      dsimp only at h ⊢
      rw [Decimal.atMost_eq ha.finite_bound (hl most hmax)] at h
      rw [Decimal.atMost_eq ha.finite (hl most hmax)]
      exact congrArg Except.ok (decide_eq_true (ha.le.trans (of_decide_eq_true (Except.ok.inj h))))

theorem Tier.covers_mono (hlimits : ∀ l ∈ t.limits, ∀ most, l.maxValue = some most → most.IsFinite)
    (hamounts : List.Forall₂ (fun p p' => p.1 = p'.1 ∧ p.2.Within p'.2) amounts amounts')
    (h : t.covers amounts' = .ok true) : t.covers amounts = .ok true := by
  induction hamounts with
  | nil => rfl
  | @cons p p' amounts amounts' hp _ ih =>
      obtain ⟨hname, hwithin⟩ := hp
      obtain ⟨hfirst, hrest⟩ := Tier.covers_cons.mp h
      refine Tier.covers_cons.mpr ⟨?_, ih hrest⟩
      rcases hfirst with hzero | ⟨limit, hlimit, hcovers⟩
      · left
        rw [Decimal.equals_iff hwithin.finite_bound Decimal.isFinite_zero, Decimal.value_zero] at hzero
        rw [Decimal.equals_iff hwithin.finite Decimal.isFinite_zero, Decimal.value_zero]
        exact le_antisymm (hzero ▸ hwithin.le) hwithin.nonneg
      · right
        have hmem : limit ∈ t.limits := List.mem_reverse.mp (List.mem_of_find?_eq_some hlimit)
        exact ⟨limit, hname ▸ hlimit, Limit.covers_mono (hlimits limit hmem) hwithin hcovers⟩

theorem firstCovering_mono {usage : String} {tiers : List (Nat × Tier)}
    (hlimits : ∀ p ∈ tiers, ∀ l ∈ p.2.limits, ∀ most, l.maxValue = some most → most.IsFinite)
    (hsorted : (tiers.filterMap (·.2.recurringPrice)).Pairwise fun p p' => p.value ≤ p'.value)
    (hamounts : List.Forall₂ (fun p p' => p.1 = p'.1 ∧ p.2.Within p'.2) amounts amounts')
    (h : firstCovering usage amounts tiers = .ok tier) (h' : firstCovering usage amounts' tiers = .ok tier') :
    tier.price.value ≤ tier'.price.value := by
  induction tiers with
  | nil => cases h
  | cons p tiers ih =>
      obtain ⟨hlimit, hlimits⟩ := List.forall_mem_cons.mp hlimits
      rcases firstCovering_cons h' with ⟨hcovers', hprice'⟩ | ⟨-, hrest'⟩
      · have hcovers := Tier.covers_mono hlimit hamounts hcovers'
        rcases firstCovering_cons h with ⟨-, hprice⟩ | ⟨hnot, -⟩
        · rw [Option.some.inj (hprice.symm.trans hprice')]
        · cases hcovers.symm.trans hnot
      · rcases firstCovering_cons h with ⟨-, hprice⟩ | ⟨-, hrest⟩
        · obtain ⟨p', hp', hprice'⟩ := price_of_firstCovering hrest'
          exact (List.pairwise_cons.mp (List.pairwise_filterMap.mp hsorted)).1 p' hp' _ hprice _ hprice'
        · exact ih hlimits (hsorted.sublist ((List.sublist_cons_self p tiers).filterMap _)) hrest hrest'

theorem price_mono (hlimits : ∀ t ∈ u.tiers, ∀ l ∈ t.limits, ∀ most, l.maxValue = some most → most.IsFinite)
    (hsorted : (u.tiers.filterMap (·.recurringPrice)).Pairwise fun p p' => p.value ≤ p'.value)
    (hamounts : List.Forall₂ (fun p p' => p.1 = p'.1 ∧ p.2.Within p'.2) amounts amounts')
    (h : u.capacityTier amounts = .ok tier) (h' : u.capacityTier amounts' = .ok tier') :
    tier.price.value ≤ tier'.price.value := by
  refine firstCovering_mono (fun p hp => ?_) ?_ hamounts h h'
  · obtain ⟨q, hq, rfl⟩ := List.mem_map.mp hp
    exact hlimits q.1 (List.fst_mem_of_mem_zipIdx hq)
  · have hnumbered : u.numberedTiers.map (·.2) = u.tiers := by
      rw [Usage.numberedTiers, List.map_map]
      exact List.zipIdx_map_fst 0 u.tiers
    rwa [← hnumbered, List.filterMap_map] at hsorted

end

end UsageBilling
