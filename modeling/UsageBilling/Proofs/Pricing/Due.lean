import UsageBilling.Proofs.Decimal.Overflow
import UsageBilling.Proofs.Pricing.Order

/-! What is due for less usage. Where a quantity can be charged, so can every smaller one: no step of its waterfall
and no sum of its amounts has a larger exact result (`Block.exists_take`, `exists_fillBlocks_of_le`,
`exists_total_of_le`), and what is due for it is not more (`due_mono`). -/

namespace UsageBilling

namespace Decimal

variable {a b a' b' d' : Decimal}

theorem exists_add_of_le (ha : a.IsFinite) (hb : b.IsFinite) (ha' : a'.IsFinite) (hb' : b'.IsFinite)
    (hle : |a.value + b.value| ≤ |a'.value + b'.value|) (h' : a'.add b' = .ok d') : ∃ d, a.add b = .ok d :=
  (exists_add_iff ha hb).mpr (hle.trans_lt ((exists_add_iff ha' hb').mp ⟨d', h'⟩))

theorem exists_mul_of_le (ha : a.IsFinite) (hb : b.IsFinite) (ha' : a'.IsFinite) (hb' : b'.IsFinite)
    (hle : |a.value * b.value| ≤ |a'.value * b'.value|) (h' : a'.mul b' = .ok d') : ∃ d, a.mul b = .ok d :=
  (exists_mul_iff ha hb).mpr (hle.trans_lt ((exists_mul_iff ha' hb').mp ⟨d', h'⟩))

theorem exists_div_of_le (ha : a.IsFinite) (ha' : a'.IsFinite) (hpos : 0 < a.value) (hb : b.IsFinite)
    (hbpos : 0 < b.value) (hle : a.value ≤ a'.value) (h' : a'.div b = .ok d') : ∃ d, a.div b = .ok d := by
  have hexact := div_le_div_of_nonneg_right hle hbpos.le
  exact (exists_div_iff ha hpos hb hbpos).mpr
    (hexact.trans_lt ((exists_div_iff ha' (hpos.trans_le hle) hb hbpos).mp ⟨d', h'⟩))

/-- A number that the context holds can be taken off a smaller one, and off those up to one that it was taken off. -/
theorem exists_sub_of_le (ha : a.IsFinite) (ha' : a'.IsFinite) (hb : b.IsFinite) (hholds : money.Holds b.value)
    (hpos : 0 < a.value) (hle : a.value ≤ a'.value) (h' : a'.sub b = .ok d') : ∃ d, a.sub b = .ok d := by
  rw [exists_sub_iff ha hb]
  rcases le_total b.value a.value with hless | hmore
  · have hlt := (exists_sub_iff ha' hb).mp ⟨d', h'⟩
    rw [abs_of_nonneg (sub_nonneg.mpr hless)]
    calc a.value - b.value ≤ a'.value - b.value := sub_le_sub_right hle _
      _ ≤ |a'.value - b.value| := le_abs_self _
      _ < money.overflow := hlt
  · rw [abs_of_nonpos (sub_nonpos.mpr hmore)]
    calc -(a.value - b.value) ≤ b.value := by linarith
      _ ≤ |b.value| := le_abs_self _
      _ < money.overflow := lt_overflow_of_holds hholds hb

theorem Nonneg.value_nonneg (h : a.Nonneg) : 0 ≤ a.value := by
  rcases h with rfl | ⟨-, hnonneg⟩
  · exact le_rfl
  · exact hnonneg

/-- Smaller and fewer numbers, none of them below zero, have a sum where the others have one. -/
theorem exists_foldlM_add {xs ys : List Decimal} {s s' t' : Decimal} (hxy : List.SublistForall₂ Within xs ys)
    (hys : ∀ y ∈ ys, y.IsFinite ∧ 0 ≤ y.value) (hs : s.IsFinite) (hs' : s'.IsFinite) (hw : money.Written s'.value)
    (hnonneg : 0 ≤ s.value) (hstart : s.value ≤ s'.value) (h' : ys.foldlM add s' = .ok t') :
    ∃ t, xs.foldlM add s = .ok t := by
  induction hxy generalizing s s' with
  | nil => exact ⟨s, rfl⟩
  | @cons x y xs ys hxy _ ih =>
      obtain ⟨-, hys⟩ := List.forall_mem_cons.mp hys
      obtain ⟨u', hu', h'⟩ := foldlM_cons_eq_ok.mp h'
      have hsum : s.value + x.value ≤ s'.value + y.value := add_le_add hstart hxy.le
      have hsumpos : 0 ≤ s.value + x.value := add_nonneg hnonneg hxy.nonneg
      obtain ⟨u, hu⟩ := exists_add_of_le hs hxy.finite hs' hxy.finite_bound (abs_le_abs_of_nonneg hsumpos hsum) hu'
      obtain ⟨hfinite', hholds'⟩ := holds_of_add hs' hxy.finite_bound hu'
      have hunonneg := (nonneg_add (Or.inr ⟨hs, hnonneg⟩) (Or.inr ⟨hxy.finite, hxy.nonneg⟩) hu).value_nonneg
      obtain ⟨t, ht⟩ := ih hys (holds_of_add hs hxy.finite hu).1 hfinite' hholds'.written hunonneg
        (add_mono hs hxy.finite hs' hxy.finite_bound hu hu' hsum) h'
      exact ⟨t, foldlM_cons_eq_ok.mpr ⟨u, hu, ht⟩⟩
  | cons_right _ ih =>
      obtain ⟨⟨hy, hpos⟩, hys⟩ := List.forall_mem_cons.mp hys
      obtain ⟨u', hu', h'⟩ := foldlM_cons_eq_ok.mp h'
      obtain ⟨hfinite', hholds'⟩ := holds_of_add hs' hy hu'
      exact ih hys hs hfinite' hholds'.written hnonneg (hstart.trans (le_add_of_written hs' hy hw hpos hu')) h'

end Decimal

section

variable {b : Block} {blocks : List (Nat × Block)} {q q' used used' left left' rest rest' due' : Decimal}
  {usage unitType : String} {more charges charges' : List Charge} {u : Usage}

theorem Block.exists_take (hb : b.Sized) (hsize : 0 < b.size.value) (hq : q.IsFinite) (hq' : q'.IsFinite)
    (hpos : 0 < q.value) (hle : q.value ≤ q'.value) (h' : b.take q' = .ok (used', left')) :
    ∃ used left, b.take q = .ok (used, left) := by
  obtain ⟨quotient', hdiv', hfinite', hcases'⟩ := Block.take_spec hb hsize hq' (hpos.trans_le hle) h'
  obtain ⟨quotient, hdiv⟩ := Decimal.exists_div_of_le hq hq' hpos hb.size hsize hle hdiv'
  have hfinite := (Decimal.isFinite_of_div hq hpos hb.size hsize hdiv).1
  have hneeded : quotient.ceil.value ≤ quotient'.ceil.value :=
    Decimal.ceil_mono hfinite hfinite' (Decimal.div_mono hq hq' hpos hb.size hsize hle hdiv hdiv')
  have hblocks : blocksNeeded q b.size = .ok quotient.ceil := by
    rw [blocksNeeded, hdiv]
    rfl
  rw [Block.take, hblocks, ok_bind]
  cases hmax : b.maxBlocks with
  | none => exact ⟨_, _, rfl⟩
  | some limit =>
      dsimp only
      rw [Decimal.below_eq (hb.maxBlocks limit hmax) (Decimal.isFinite_ceil hfinite), ok_bind]
      by_cases hless : limit.value < quotient.ceil.value
      · rcases hcases' with ⟨hfits', -⟩ | ⟨limit', units, hmax', -, hunits, hleft', -⟩
        · exact absurd (hneeded.trans (hfits' limit hmax)) (not_le.mpr hless)
        obtain rfl : limit = limit' := Option.some.inj (hmax.symm.trans hmax')
        obtain ⟨n, c, e, hmul, -⟩ := Decimal.mul_eq (hb.maxBlocks limit hmax) hb.size
        obtain ⟨hunitsFinite, hholds⟩ := Decimal.holds_of_round (hmul ▸ hunits)
        obtain ⟨left, hleft⟩ := Decimal.exists_sub_of_le hq hq' hunitsFinite hholds hpos hle hleft'
        rw [decide_eq_true hless, if_pos rfl, hunits, ok_bind, hleft]
        exact ⟨_, _, rfl⟩
      · rw [decide_eq_false hless, if_neg Bool.false_ne_true]
        exact ⟨_, _, rfl⟩

/-! ### Filling blocks -/

theorem fillBlocks_of_none (hq : q.IsFinite) (hnone : q.value ≤ 0) :
    fillBlocks usage unitType blocks q = .ok ([], q) := by
  cases blocks with
  | nil => rfl
  | cons p blocks =>
      rw [fillBlocks, Decimal.atMost_eq hq Decimal.isFinite_zero, Decimal.value_zero, decide_eq_true hnone]
      rfl

/-- What remains fills the first block, and what that leaves the further ones. -/
theorem fillBlocks_of_take {tier : Nat} (hb : b.Sized) (hsize : 0 < b.size.value) (hq : q.IsFinite) (hpos : 0 < q.value)
    (htake : b.take q = .ok (used, left)) (hrest : fillBlocks usage unitType blocks left = .ok (more, rest)) :
    fillBlocks usage unitType ((tier, b) :: blocks) q =
      .ok (if 0 < used.value then ⟨tier, unitType, b.size, used, b.price⟩ :: more else more, rest) := by
  obtain ⟨hused, -⟩ := Block.isFinite_take hb hsize hq hpos htake
  rw [fillBlocks, Decimal.atMost_eq hq Decimal.isFinite_zero, Decimal.atMost_eq hb.size Decimal.isFinite_zero,
    Decimal.value_zero, decide_eq_false (not_le.mpr hpos), decide_eq_false (not_le.mpr hsize), htake]
  change ((liftM (Decimal.zero.below used) : Except Error Bool) >>= fun charged =>
    fillBlocks usage unitType blocks left >>= _) = _
  rw [Decimal.below_eq Decimal.isFinite_zero hused, Decimal.value_zero, hrest]
  split
  next hcharged =>
    rw [decide_eq_true hcharged]
    rfl
  next hfree =>
    rw [decide_eq_false hfree]
    rfl

theorem isFinite_fillBlocks (hblocks : ∀ p ∈ blocks, p.2.Sized) (hq : q.IsFinite)
    (h : fillBlocks usage unitType blocks q = .ok (charges, rest)) : rest.IsFinite := by
  induction blocks generalizing q charges with
  | nil =>
      obtain ⟨-, rfl⟩ := Prod.mk.inj (Except.ok.inj h)
      exact hq
  | cons p blocks ih =>
      obtain ⟨hb, hblocks⟩ := List.forall_mem_cons.mp hblocks
      rcases fillBlocks_cons hb hq h with ⟨hnone, -⟩ | ⟨hpos, hsize, used, left, more, htake, hrest, -⟩
      · rw [fillBlocks_of_none hq hnone] at h
        obtain ⟨-, rfl⟩ := Prod.mk.inj (Except.ok.inj h)
        exact hq
      · exact ih hblocks (Block.isFinite_take hb hsize hq hpos htake).2 hrest

/-- A quantity up to one that fills blocks fills blocks as well, and leaves no more than that one or nothing. -/
theorem exists_fillBlocks_of_le (hblocks : ∀ p ∈ blocks, p.2.Sized) (hq : q.IsFinite) (hq' : q'.IsFinite)
    (hle : q.value ≤ q'.value ∨ q.value ≤ 0) (h' : fillBlocks usage unitType blocks q' = .ok (charges', rest')) :
    ∃ charges rest, fillBlocks usage unitType blocks q = .ok (charges, rest) ∧
      (rest.value ≤ rest'.value ∨ rest.value ≤ 0) := by
  induction blocks generalizing q q' charges' with
  | nil =>
      obtain ⟨-, rfl⟩ := Prod.mk.inj (Except.ok.inj h')
      exact ⟨[], q, rfl, hle⟩
  | cons p blocks ih =>
      obtain ⟨hb, hblocks⟩ := List.forall_mem_cons.mp hblocks
      rcases le_or_gt q.value 0 with hnone | hpos
      · exact ⟨[], q, fillBlocks_of_none hq hnone, Or.inr hnone⟩
      have hle : q.value ≤ q'.value := hle.resolve_right (not_le.mpr hpos)
      rcases fillBlocks_cons hb hq' h' with ⟨hnone, -⟩ | ⟨hpos', hsize, used', left', more', htake', hrest', -⟩
      · exact absurd (hle.trans hnone) (not_le.mpr hpos)
      obtain ⟨used, left, htake⟩ := Block.exists_take hb hsize hq hq' hpos hle htake'
      obtain ⟨-, hless⟩ := Block.take_mono hb hsize hq hq' hpos hle htake htake'
      obtain ⟨more, rest, hrest, hleft⟩ := ih hblocks (Block.isFinite_take hb hsize hq hpos htake).2
        (Block.isFinite_take hb hsize hq' hpos' htake').2 hless hrest'
      exact ⟨_, rest, fillBlocks_of_take hb hsize hq hpos htake hrest, hleft⟩

/-- Charges for no more blocks at the same prices have a total where the others have one. -/
theorem exists_total_of_le (hcharges : ∀ c ∈ charges, c.Priced) (hcharges' : ∀ c ∈ charges', c.Priced)
    (hwithin : List.SublistForall₂ Charge.Within charges charges') (hdue' : Charge.total charges' = .ok due') :
    ∃ due, Charge.total charges = .ok due := by
  obtain ⟨amounts', hamounts', hsum'⟩ := Charge.total_eq_ok.mp hdue'
  obtain ⟨matched, hmatched, hsublist⟩ := List.sublistForall₂_iff.mp hwithin
  have hamount : ∀ c ∈ charges, ∃ a, c.amount = .ok a := by
    intro c hc
    obtain ⟨c', hc', hcc'⟩ := exists_of_forall₂_left hmatched hc
    have hmem := hsublist.subset hc'
    obtain ⟨a', -, ha'⟩ := exists_of_forall₂_left (mapM_eq_ok.mp hamounts') hmem
    have hpriced := hcharges c hc
    have hpriced' := hcharges' c' hmem
    refine Decimal.exists_mul_of_le hpriced.blocks hpriced.price hpriced'.blocks hpriced'.price ?_ ha'
    rw [← hcc'.price]
    exact abs_le_abs_of_nonneg (mul_nonneg hpriced.nonneg_blocks hpriced.nonneg_price)
      (mul_le_mul_of_nonneg_right hcc'.blocks hpriced.nonneg_price)
  obtain ⟨amounts, hamounts⟩ := exists_mapM_eq_ok hamount
  have hzero : Decimal.money.Written Decimal.zero.value := Decimal.value_zero ▸ Decimal.holds_zero.written
  obtain ⟨due, hsum⟩ := Decimal.exists_foldlM_add
    (Charge.amounts_within hwithin hcharges hcharges' hamounts hamounts') (Charge.amounts_nonneg hcharges' hamounts')
    Decimal.isFinite_zero Decimal.isFinite_zero hzero Decimal.value_zero.ge le_rfl hsum'
  exact ⟨due, Charge.total_eq_ok.mpr ⟨amounts, hamounts, hsum⟩⟩

/-- What can be charged and added up for a quantity can be for every smaller one, and comes to no more. -/
theorem due_mono (hblocks : ∀ p ∈ u.blocksFor unitType, p.2.Priced) (hq : q.IsFinite) (hq' : q'.IsFinite)
    (hle : q.value ≤ q'.value) (h' : u.consumableCharges unitType q' = .ok charges')
    (hdue' : Charge.total charges' = .ok due') :
    ∃ charges due, u.consumableCharges unitType q = .ok charges ∧ Charge.total charges = .ok due ∧ due.Within due' := by
  have hsized : ∀ p ∈ u.blocksFor unitType, p.2.Sized := fun p hp => (hblocks p hp).sized
  obtain ⟨hsome, rest', hfill', hbelow'⟩ := consumableCharges_eq_ok.mp h'
  obtain ⟨charges, rest, hfill, hless⟩ := exists_fillBlocks_of_le hsized hq hq' (Or.inl hle) hfill'
  have hrest := isFinite_fillBlocks hsized hq hfill
  have hnone : rest.value ≤ 0 := by
    rw [Decimal.below_eq Decimal.isFinite_zero (isFinite_fillBlocks hsized hq' hfill'), Decimal.value_zero] at hbelow'
    have hnone' := not_lt.mp (of_decide_eq_false (Except.ok.inj hbelow'))
    exact hless.elim (fun hle => hle.trans hnone') id
  have hcharges : u.consumableCharges unitType q = .ok charges := by
    refine consumableCharges_eq_ok.mpr ⟨hsome, rest, hfill, ?_⟩
    rw [Decimal.below_eq Decimal.isFinite_zero hrest, Decimal.value_zero, decide_eq_false (not_lt.mpr hnone)]
  obtain ⟨due, hdue⟩ := exists_total_of_le (priced_fillBlocks hblocks hq hfill) (priced_fillBlocks hblocks hq' hfill')
    (fillBlocks_mono hblocks hq hq' (Or.inl hle) hfill hfill') hdue'
  exact ⟨charges, due, hcharges, hdue, due_within hblocks hq hq' hle hcharges h' hdue hdue'⟩

end

namespace Usage.Sample

/-- Ten calls one by one, and packs of three calls after these. -/
def packedCalls : Usage where
  name := "api"
  billingMode := .inArrear
  pricing := .consumable
  period := .monthly
  tiers := [⟨[⟨"calls", .ofNat 1, .finite false 1 (-1), some (.ofNat 10)⟩], [], none⟩,
    ⟨[⟨"calls", .ofNat 3, .finite false 25 (-2), none⟩], [], none⟩]

theorem priced_packedCalls : ∀ p ∈ packedCalls.blocksFor "calls", p.2.Priced := by
  have hblocks : packedCalls.blocksFor "calls" =
      [(1, ⟨"calls", .ofNat 1, .finite false 1 (-1), some (.ofNat 10)⟩),
        (2, ⟨"calls", .ofNat 3, .finite false 25 (-2), none⟩)] := by decide
  rw [hblocks]
  refine List.forall_mem_cons.mpr ⟨⟨trivial, trivial, ?_, ?_⟩,
    List.forall_mem_singleton.mpr ⟨trivial, trivial, ?_, nofun⟩⟩
  · norm_num [Decimal.value, Decimal.signed]
  · rintro limit h
    obtain rfl := Option.some.inj h
    exact trivial
  · norm_num [Decimal.value, Decimal.signed]

end Usage.Sample

/-- Three packs follow ten single calls for 17.2 calls; 9.5 calls need the single ones only. -/
theorem due_mono_packed : ∃ charges due,
    Usage.Sample.packedCalls.consumableCharges "calls" (.finite false 95 (-1)) = .ok charges ∧
      Charge.total charges = .ok due ∧ due.Within (.finite false 175 (-2)) := by
  have hcharges : Usage.Sample.packedCalls.consumableCharges "calls" (.finite false 172 (-1)) =
      .ok [⟨1, "calls", .ofNat 1, .ofNat 10, .finite false 1 (-1)⟩,
        ⟨2, "calls", .ofNat 3, .ofNat 3, .finite false 25 (-2)⟩] := by decide +kernel
  refine due_mono Usage.Sample.priced_packedCalls (Decimal.isFinite_finite _ _ _) (Decimal.isFinite_finite _ _ _) ?_
    hcharges (by decide +kernel)
  norm_num [Decimal.value, Decimal.signed]

end UsageBilling
