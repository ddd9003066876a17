import UsageBilling.Proofs.Decimal.Counting
import UsageBilling.Proofs.Pricing.Due

/-! The waterfall of a quantity through the blocks of its unit type. What reaches a block is what all blocks before it
have no room for (`leftAfter`), and it takes as many blocks as that needs, up to the limit (`fillings`). With few
digits no rounding moves a count: one block takes and leaves just that (`Block.take_exact`), and so do the blocks in
their order (`fillBlocks_exact`). The blocks that are charged cover the quantity, with the last of them only in part
(`covers_fillings`). -/

namespace UsageBilling

/-! ### The closed form -/

structure Block.Whole (b : Block) : Prop where
  size : b.size.IsFinite
  pos : 0 < b.size.value
  limit : ∀ m, b.maxBlocks = some m → m.IsFinite ∧ ∃ n : ℕ, m.value = n

/-- The units that the blocks of one kind have room for, where there is a limit to them. -/
def Block.room (b : Block) : ℚ := b.maxBlocks.elim 0 fun m => m.value * b.size.value

/-- What a quantity leaves after some blocks; nothing is left after blocks without a limit. -/
def leftAfter (q : ℚ) (earlier : List Block) : ℚ :=
  if ∀ b ∈ earlier, b.maxBlocks.isSome then max 0 (q - (earlier.map Block.room).sum) else 0

/-- How many blocks some units fill, the last of them perhaps in part. -/
def Block.filled (b : Block) (units : ℚ) : ℚ :=
  b.maxBlocks.elim ⌈units / b.size.value⌉ fun m => min m.value ⌈units / b.size.value⌉

/-- Blocks of one tier and how many of them are filled. -/
structure Filling where
  tier : Nat
  block : Block
  count : ℚ

def Filling.units (f : Filling) : ℚ := f.count * f.block.size.value

/-- How a quantity fills each of some blocks in turn. -/
def fillings (q : ℚ) (blocks : List (Nat × Block)) : List Filling :=
  blocks.zipIdx.map fun (p, i) => ⟨p.1, p.2, p.2.filled (leftAfter q ((blocks.take i).map (·.2)))⟩

def filledBlocks (q : ℚ) (blocks : List (Nat × Block)) : List Filling :=
  (fillings q blocks).filter (0 < ·.count)

/-- What a quantity leaves after one block, below zero where there is more room. -/
def Block.leaves (b : Block) (q : ℚ) : ℚ := b.maxBlocks.elim 0 fun m => q - m.value * b.size.value

section

variable {b : Block} {bs : List Block} {blocks : List (Nat × Block)} {q : ℚ} {tier : Nat}

theorem Block.Whole.sized (hb : b.Whole) : b.Sized := ⟨hb.size, fun m hm => (hb.limit m hm).1⟩

theorem Block.Whole.room_nonneg (hb : b.Whole) : 0 ≤ b.room := by
  rw [Block.room]
  cases hmax : b.maxBlocks with
  | none => exact le_rfl
  | some m =>
      obtain ⟨-, n, hn⟩ := hb.limit m hmax
      exact mul_nonneg (hn ▸ Nat.cast_nonneg n) hb.pos.le

theorem sum_room_nonneg (hbs : ∀ b ∈ bs, b.Whole) : 0 ≤ (bs.map Block.room).sum := by
  refine List.sum_nonneg fun x hx => ?_
  obtain ⟨b, hb, rfl⟩ := List.mem_map.mp hx
  exact (hbs b hb).room_nonneg

theorem whole_map (hblocks : ∀ p ∈ blocks, p.2.Whole) : ∀ b ∈ blocks.map (·.2), b.Whole := by
  intro b hb
  obtain ⟨p, hp, rfl⟩ := List.mem_map.mp hb
  exact hblocks p hp

theorem leftAfter_nil : leftAfter q [] = max 0 q := by
  simp [leftAfter]

theorem leftAfter_of_nonpos (hbs : ∀ b ∈ bs, b.Whole) (hq : q ≤ 0) : leftAfter q bs = 0 := by
  have hroom := sum_room_nonneg hbs
  rw [leftAfter]
  split
  · exact max_eq_left (by linarith)
  · rfl

theorem leftAfter_max (hbs : ∀ b ∈ bs, b.Whole) : leftAfter (max 0 q) bs = leftAfter q bs := by
  rcases le_total q 0 with hneg | hpos
  · rw [max_eq_left hneg, leftAfter_of_nonpos hbs le_rfl, leftAfter_of_nonpos hbs hneg]
  · rw [max_eq_right hpos]

theorem leftAfter_cons (hbs : ∀ b ∈ bs, b.Whole) : leftAfter q (b :: bs) = leftAfter (b.leaves q) bs := by
  cases hmax : b.maxBlocks with
  | none =>
      have hleaves : b.leaves q = 0 := by rw [Block.leaves, hmax]; rfl
      have hnot : ¬ ∀ x ∈ b :: bs, x.maxBlocks.isSome := fun h => by
        have hb := h b List.mem_cons_self
        rw [hmax] at hb
        cases hb
      rw [hleaves, leftAfter_of_nonpos hbs le_rfl, leftAfter, if_neg hnot]
  | some m =>
      have hroom : b.room = m.value * b.size.value := by rw [Block.room, hmax]; rfl
      have hleaves : b.leaves q = q - m.value * b.size.value := by rw [Block.leaves, hmax]; rfl
      have hall : (∀ x ∈ b :: bs, x.maxBlocks.isSome) ↔ ∀ x ∈ bs, x.maxBlocks.isSome := by
        rw [List.forall_mem_cons, hmax]
        exact and_iff_right rfl
      rw [leftAfter, leftAfter, if_congr hall rfl rfl, List.map_cons, List.sum_cons, hroom, hleaves, sub_sub]

theorem fillings_cons (hblocks : ∀ p ∈ blocks, p.2.Whole) :
    fillings q ((tier, b) :: blocks) = ⟨tier, b, b.filled (max 0 q)⟩ :: fillings (b.leaves q) blocks := by
  rw [fillings, List.zipIdx_cons, List.map_cons, Nat.zero_add, List.zipIdx_succ, List.map_map, fillings]
  refine congrArg₂ _ ?_ (List.map_congr_left fun p hp => ?_)
  · dsimp only
    rw [List.take_zero, List.map_nil, leftAfter_nil]
  have hearlier := whole_map fun x hx => hblocks x (List.mem_of_mem_take (i := p.2) hx)
  dsimp only [Function.comp]
  rw [List.take_succ_cons, List.map_cons, leftAfter_cons hearlier]

theorem Block.Whole.filled_of_nonpos (hb : b.Whole) : b.filled 0 = 0 := by
  rw [Block.filled, zero_div, Int.ceil_zero, Int.cast_zero]
  cases hmax : b.maxBlocks with
  | none => rfl
  | some m =>
      obtain ⟨-, n, hn⟩ := hb.limit m hmax
      exact min_eq_right (hn ▸ Nat.cast_nonneg n)

theorem filledBlocks_of_nonpos (hblocks : ∀ p ∈ blocks, p.2.Whole) (hq : q ≤ 0) : filledBlocks q blocks = [] := by
  rw [filledBlocks, List.filter_eq_nil_iff]
  intro f hf
  obtain ⟨⟨p, i⟩, hp, rfl⟩ := List.mem_map.mp hf
  have hearlier := whole_map fun x hx => hblocks x (List.mem_of_mem_take (i := i) hx)
  rw [decide_eq_true_eq, not_lt]
  dsimp only
  rw [leftAfter_of_nonpos hearlier hq, (hblocks p (List.fst_mem_of_mem_zipIdx hp)).filled_of_nonpos]

theorem filledBlocks_cons (hblocks : ∀ p ∈ blocks, p.2.Whole) (hpos : 0 < q) :
    filledBlocks q ((tier, b) :: blocks) =
      if 0 < b.filled q then ⟨tier, b, b.filled q⟩ :: filledBlocks (b.leaves q) blocks
      else filledBlocks (b.leaves q) blocks := by
  rw [filledBlocks, fillings_cons hblocks, max_eq_right hpos.le]
  split
  next hfilled => exact List.filter_cons_of_pos (decide_eq_true hfilled)
  next hfree => exact List.filter_cons_of_neg (by simpa using hfree)

theorem filledBlocks_max (hblocks : ∀ p ∈ blocks, p.2.Whole) :
    filledBlocks (max 0 q) blocks = filledBlocks q blocks := by
  rcases le_total q 0 with hneg | hpos
  · rw [max_eq_left hneg, filledBlocks_of_nonpos hblocks le_rfl, filledBlocks_of_nonpos hblocks hneg]
  · rw [max_eq_right hpos]

/-! ### What the blocks cover -/

/-- Units fill all blocks of one kind and leave some, or they find room in them. -/
theorem Block.Whole.cases_filled (hb : b.Whole) :
    (∃ m, b.maxBlocks = some m ∧ b.filled q = m.value ∧ 0 ≤ m.value ∧ b.leaves q = q - m.value * b.size.value ∧
        0 < b.leaves q) ∨
      b.filled q = ⌈q / b.size.value⌉ ∧ b.leaves q ≤ 0 := by
  cases hmax : b.maxBlocks with
  | none =>
      right
      rw [Block.filled, Block.leaves, hmax]
      exact ⟨rfl, le_rfl⟩
  | some m =>
      obtain ⟨-, n, hn⟩ := hb.limit m hmax
      have hfilled : b.filled q = min m.value ⌈q / b.size.value⌉ := by rw [Block.filled, hmax]; rfl
      have hleaves : b.leaves q = q - m.value * b.size.value := by rw [Block.leaves, hmax]; rfl
      rcases lt_or_ge (m.value * b.size.value) q with hmore | hroom
      · have hless : m.value ≤ ⌈q / b.size.value⌉ := by
          refine le_trans ?_ (Int.le_ceil _)
          exact (le_div_iff₀ hb.pos).mpr hmore.le
        left
        exact ⟨m, rfl, by rw [hfilled, min_eq_left hless], hn ▸ Nat.cast_nonneg n, hleaves, by rw [hleaves]; linarith⟩
      · have hless : (⌈q / b.size.value⌉ : ℚ) ≤ m.value := by
          rw [hn]
          have hceil : ⌈q / b.size.value⌉ ≤ (n : ℤ) := by
            rw [Int.ceil_le, Int.cast_natCast, ← hn]
            exact (div_le_iff₀ hb.pos).mpr hroom
          exact_mod_cast hceil
        right
        exact ⟨by rw [hfilled, min_eq_right hless], by rw [hleaves]; linarith⟩

/-- Blocks that hold a quantity: all of it, the last block perhaps in part, and the others up to their limits. -/
structure Covers (q : ℚ) (filled : List Filling) : Prop where
  enough : q ≤ (filled.map Filling.units).sum
  tight : ∀ f, filled.getLast? = some f → (filled.map Filling.units).sum < q + f.block.size.value
  full : ∀ f ∈ filled.dropLast, ∃ m, f.block.maxBlocks = some m ∧ f.count = m.value

theorem covers_singleton {f : Filling} (hlow : q ≤ f.units) (hhigh : f.units < q + f.block.size.value) :
    Covers q [f] := by
  have hsum : ([f].map Filling.units).sum = f.units := by rw [List.map_singleton, List.sum_singleton]
  refine ⟨hsum ▸ hlow, fun g hg => ?_, fun g hg => absurd hg List.not_mem_nil⟩
  obtain rfl : f = g := Option.some.inj hg
  exact hsum ▸ hhigh

/-- Blocks that are filled up to their limit come before those that cover the rest. -/
theorem Covers.cons {f : Filling} {filled : List Filling} (h : Covers (q - f.units) filled) (hmore : 0 < q - f.units)
    (hfull : ∃ m, f.block.maxBlocks = some m ∧ f.count = m.value) : Covers q (f :: filled) := by
  have henough := h.enough
  have hne : filled ≠ [] := by
    rintro rfl
    rw [List.map_nil, List.sum_nil] at henough
    linarith
  refine ⟨?_, fun g hg => ?_, fun g hg => ?_⟩
  · rw [List.map_cons, List.sum_cons]
    linarith
  · rw [List.getLast?_cons_of_ne_nil hne] at hg
    have htight := h.tight g hg
    rw [List.map_cons, List.sum_cons]
    linarith
  · rw [List.dropLast_cons_of_ne_nil hne] at hg
    rcases List.mem_cons.mp hg with rfl | hg
    · exact hfull
    · exact h.full g hg

/-- Where nothing is left of a quantity, the filled blocks cover it. -/
theorem covers_filledBlocks (hblocks : ∀ p ∈ blocks, p.2.Whole) (hpos : 0 < q)
    (hleft : leftAfter q (blocks.map (·.2)) = 0) : Covers q (filledBlocks q blocks) := by
  induction blocks generalizing q with
  | nil =>
      rw [List.map_nil, leftAfter_nil, max_eq_right hpos.le] at hleft
      exact absurd hleft hpos.ne'
  | cons p blocks ih =>
      obtain ⟨tier, b⟩ := p
      obtain ⟨hb, hblocks⟩ := List.forall_mem_cons.mp hblocks
      have hb : b.Whole := hb
      have hleft : leftAfter (b.leaves q) (blocks.map (·.2)) = 0 :=
        (leftAfter_cons (whole_map hblocks)).symm.trans hleft
      rw [filledBlocks_cons hblocks hpos]
      rcases hb.cases_filled with ⟨m, hmax, hfilled, hnonneg, hleaves, hmore⟩ | ⟨hfilled, hnone⟩
      · have hrest := ih hblocks hmore hleft
        rw [hfilled]
        split
        next _ =>
          rw [hleaves] at hrest hmore ⊢
          exact Covers.cons hrest hmore ⟨m, hmax, rfl⟩
        next hzero =>
          have hm : m.value = 0 := le_antisymm (not_lt.mp hzero) hnonneg
          rw [hm, zero_mul, sub_zero] at hleaves
          rwa [hleaves] at hrest ⊢
      · have hceil : 0 < ⌈q / b.size.value⌉ := Int.ceil_pos.mpr (div_pos hpos hb.pos)
        have hlow := Int.le_ceil (q / b.size.value)
        have hhigh := Int.ceil_lt_add_one (q / b.size.value)
        rw [div_le_iff₀ hb.pos] at hlow
        rw [← sub_lt_iff_lt_add, lt_div_iff₀ hb.pos, sub_mul, one_mul, sub_lt_iff_lt_add] at hhigh
        rw [if_pos (by rw [hfilled]; exact_mod_cast hceil), filledBlocks_of_nonpos hblocks hnone, hfilled]
        exact covers_singleton hlow hhigh

end

/-! ### Filling blocks -/

section

open Decimal

variable {b : Block} {q : Decimal} {k : Int} {blocks : List (Nat × Block)} {usage unitType : String}

/-- The units in whole blocks that a quantity more than fills are exact, and so is what they leave. -/
theorem exists_left (hk : k ≤ 1000026) (hb : b.Whole) (hsize : b.size.Coarse k) (hq : q.Coarse k)
    (hbelow : q.value < 10 ^ (money.maxExponent + 1)) {m : Decimal} (hmax : b.maxBlocks = some m)
    (hmore : m.value * b.size.value < q.value) : ∃ units left, m.mul b.size = .ok units ∧ q.sub units = .ok left ∧
      left.Coarse k ∧ left.value = q.value - m.value * b.size.value := by
  obtain ⟨hm, n, hn⟩ := hb.limit m hmax
  have hnonneg : 0 ≤ m.value * b.size.value := mul_nonneg (hn ▸ Nat.cast_nonneg n) hb.pos.le
  have hmultiple : MultipleOf k (m.value * b.size.value) := by
    obtain ⟨c, hc⟩ := hsize.multiple
    exact ⟨n * c, by rw [hn, hc]; push_cast; ring⟩
  have hqpos : |q.value| = q.value := abs_of_pos (hnonneg.trans_lt hmore)
  have hqsmall : q.value < 10 ^ (14 - k) := hqpos ▸ hq.small
  have hheld {x : ℚ} (hx : MultipleOf k x) (hpos : 0 ≤ x) (hle : x ≤ q.value) :
      |x| < 10 ^ (14 - k) ∧ money.Holds x := by
    have habs : |x| ≤ q.value := (abs_of_nonneg hpos).trans_le hle
    exact ⟨habs.trans_lt hqsmall, hx.holds hk (habs.trans_lt hqsmall) (habs.trans_lt hbelow)⟩
  obtain ⟨-, hunitsHeld⟩ := hheld hmultiple hnonneg hmore.le
  obtain ⟨units, hunits, hunitsFinite, hunitsValue⟩ := mul_of_holds hm hsize.finite hunitsHeld
  have hleftMultiple := hq.multiple.sub hmultiple
  obtain ⟨hleftSmall, hleftHeld⟩ := hheld hleftMultiple (sub_nonneg.mpr hmore.le) (by linarith)
  rw [← hunitsValue] at hleftMultiple hleftSmall hleftHeld ⊢
  obtain ⟨left, hleft, hleftFinite, hleftValue⟩ := sub_of_holds hq.finite hunitsFinite hleftHeld
  exact ⟨units, left, hunits, hleft, ⟨hleftFinite, hleftValue ▸ hleftMultiple, hleftValue ▸ hleftSmall⟩, hleftValue⟩

/-- With few digits a block takes and leaves just what the closed form says. -/
theorem Block.take_exact (hk : k ≤ 1000026) (hb : b.Whole) (hsize : b.size.Coarse k) (hq : q.Coarse k)
    (hpos : 0 < q.value) (hbelow : q.value < 10 ^ (money.maxExponent + 1)) : ∃ used left,
      b.take q = .ok (used, left) ∧ used.IsFinite ∧ used.value = b.filled q.value ∧
        left.Coarse k ∧ left.value = max 0 (b.leaves q.value) ∧ left.value ≤ q.value := by
  obtain ⟨quotient, hdiv, hfinite, hneeded⟩ := exists_ceil_div hq hpos hsize hb.pos
  have hblocks : blocksNeeded q b.size = .ok quotient.ceil := by
    rw [blocksNeeded, hdiv]
    rfl
  have hceil : quotient.ceil.IsFinite := isFinite_ceil hfinite
  rw [Block.take, hblocks, ok_bind]
  rcases hb.cases_filled (q := q.value) with ⟨m, hmax, hfilled, hnonneg, hleaves, hmore⟩ | ⟨hfilled, hnone⟩
  · obtain ⟨hm, -⟩ := hb.limit m hmax
    have hless : m.value < quotient.ceil.value := by
      rw [hneeded]
      refine lt_of_lt_of_le ?_ (Int.le_ceil _)
      exact (lt_div_iff₀ hb.pos).mpr (by linarith)
    obtain ⟨units, left, hunits, hleft, hcoarse, hvalue⟩ := exists_left hk hb hsize hq hbelow hmax (by linarith)
    rw [← hleaves] at hvalue
    refine ⟨m, left, ?_, hm, hfilled.symm, hcoarse, by rw [hvalue, max_eq_right hmore.le], ?_⟩
    · rw [hmax]
      dsimp only
      rw [below_eq hm hceil, ok_bind, decide_eq_true hless, if_pos rfl, hunits, ok_bind, hleft]
      rfl
    · have hunitsNonneg := mul_nonneg hnonneg hb.pos.le
      rw [hvalue, hleaves]
      linarith
  · refine ⟨quotient.ceil, zero, ?_, hceil, by rw [hneeded, hfilled], coarse_zero k, ?_, ?_⟩
    · cases hmax : b.maxBlocks with
      | none => rfl
      | some m =>
          have hfits : ¬ m.value < quotient.ceil.value := by
            rw [Block.filled, hmax] at hfilled
            rw [hneeded]
            exact not_lt.mpr (min_eq_right_iff.mp hfilled)
          dsimp only
          rw [below_eq (hb.limit m hmax).1 hceil, ok_bind, decide_eq_false hfits]
          rfl
    · rw [value_zero, max_eq_left hnone]
    · rw [value_zero]
      exact hpos.le

/-- A charge for the blocks that are filled. -/
structure Filling.Charged (unitType : String) (f : Filling) (c : Charge) : Prop where
  tier : c.tier = f.tier
  unitType : c.unitType = unitType
  size : c.blockSize = f.block.size
  price : c.price = f.block.price
  finite : c.blocks.IsFinite
  count : c.blocks.value = f.count

/-- With few digits the charges are those for the blocks that are filled. -/
theorem fillBlocks_exact (hk : k ≤ 1000026) (hblocks : ∀ p ∈ blocks, p.2.Whole ∧ p.2.size.Coarse k)
    (hfinite : q.IsFinite) (hq : 0 < q.value → q.Coarse k) (hbelow : q.value < 10 ^ (money.maxExponent + 1)) :
    ∃ charges rest,
      fillBlocks usage unitType blocks q = .ok (charges, rest) ∧ rest.IsFinite ∧
        max 0 rest.value = leftAfter q.value (blocks.map (·.2)) ∧
        List.Forall₂ (Filling.Charged unitType) (filledBlocks q.value blocks) charges := by
  induction blocks generalizing q with
  | nil =>
      refine ⟨[], q, rfl, hfinite, ?_, .nil⟩
      rw [List.map_nil, leftAfter_nil]
  | cons p blocks ih =>
      obtain ⟨tier, b⟩ := p
      have hwhole : ∀ p ∈ (tier, b) :: blocks, p.2.Whole := fun p hp => (hblocks p hp).1
      rcases le_or_gt q.value 0 with hnone | hpos
      · refine ⟨[], q, fillBlocks_of_none hfinite hnone, hfinite, ?_, ?_⟩
        · rw [leftAfter_of_nonpos (whole_map hwhole) hnone, max_eq_left hnone]
        · rw [filledBlocks_of_nonpos hwhole hnone]
          exact .nil
      · obtain ⟨⟨hb, hsize⟩, hblocks⟩ := List.forall_mem_cons.mp hblocks
        have hrestWhole := (List.forall_mem_cons.mp hwhole).2
        obtain ⟨used, left, htake, hused, hcount, hleft, hleftValue, hle⟩ :=
          Block.take_exact hk hb hsize (hq hpos) hpos hbelow
        obtain ⟨charges, rest, hfill, hrest, hafter, hcharges⟩ := ih hblocks hleft.finite (fun _ => hleft)
          (hle.trans_lt hbelow)
        refine ⟨_, rest, fillBlocks_of_take hb.sized hb.pos hfinite hpos htake hfill, hrest, ?_, ?_⟩
        · rw [hafter, hleftValue, leftAfter_max (whole_map hrestWhole)]
          exact (leftAfter_cons (whole_map hrestWhole)).symm
        · rw [hleftValue, filledBlocks_max hrestWhole] at hcharges
          rw [filledBlocks_cons hrestWhole hpos, hcount]
          split
          · exact .cons ⟨rfl, rfl, rfl, rfl, hused, hcount⟩ hcharges
          · exact hcharges

end

/-! ### The charges for a quantity -/

def Exceeds (q : ℚ) (bs : List Block) : Prop :=
  (∀ b ∈ bs, b.maxBlocks.isSome) ∧ (bs.map Block.room).sum < q

def Charge.units (charges : List Charge) : ℚ := (charges.map fun c => c.blocks.value * c.blockSize.value).sum

section

variable {u : Usage} {unitType : String} {q rest : Decimal} {k : Int} {blocks : List (Nat × Block)}
  {filled : List Filling} {charges : List Charge}

theorem leftAfter_pos_iff {x : ℚ} {bs : List Block} : 0 < leftAfter x bs ↔ Exceeds x bs := by
  rw [leftAfter, Exceeds]
  split
  next hlimited =>
    rw [lt_max_iff, sub_pos, or_iff_right (lt_irrefl _)]
    exact (and_iff_right hlimited).symm
  next hfree => exact iff_of_false (lt_irrefl _) fun h => hfree h.1

theorem consumableCharges_of_fill (hsome : u.blocksFor unitType ≠ [])
    (hfill : fillBlocks u.name unitType (u.blocksFor unitType) q = .ok (charges, rest)) (hrest : rest.IsFinite) :
    u.consumableCharges unitType q =
      if 0 < rest.value then .error (.catalog (.quantityExceedsTiers q unitType u.name)) else .ok charges := by
  rw [Usage.consumableCharges]
  dsimp only
  rw [if_neg hsome, hfill, ok_bind, Decimal.below_eq Decimal.isFinite_zero hrest, Decimal.value_zero]
  split
  next hmore =>
    rw [decide_eq_true hmore]
    rfl
  next hnone =>
    rw [decide_eq_false hnone]
    rfl

theorem units_charged (h : List.Forall₂ (Filling.Charged unitType) filled charges) :
    Charge.units charges = (filled.map Filling.units).sum := by
  rw [Charge.units]
  congr 1
  refine (map_eq_map_iff_forall₂.mpr (h.imp fun f c hc => ?_)).symm
  rw [Filling.units, hc.count, hc.size]

/-- With few digits the charges for a quantity are those for the blocks that it fills, in their order, each with the
number of its tier, its size and its price. For a quantity above zero these cover it with less than one block to
spare, all but the last being filled up to their limits. There are no such charges just where all blocks are limited
and have no room for the quantity. -/
theorem consumableCharges_exact (hk : k ≤ 1000026)
    (hblocks : ∀ p ∈ u.blocksFor unitType, p.2.Whole ∧ p.2.size.Coarse k) (hfinite : q.IsFinite)
    (hq : 0 < q.value → q.Coarse k) (hbelow : q.value < 10 ^ (Decimal.money.maxExponent + 1)) :
    (u.blocksFor unitType = [] → u.consumableCharges unitType q = .error (.catalog (.noBlock unitType u.name))) ∧
    (u.blocksFor unitType ≠ [] →
      (u.consumableCharges unitType q = .error (.catalog (.quantityExceedsTiers q unitType u.name)) ↔
        Exceeds q.value ((u.blocksFor unitType).map (·.2))) ∧
      (¬ Exceeds q.value ((u.blocksFor unitType).map (·.2)) → ∃ charges,
        u.consumableCharges unitType q = .ok charges ∧
        List.Forall₂ (Filling.Charged unitType) (filledBlocks q.value (u.blocksFor unitType)) charges ∧
        (0 < q.value → q.value ≤ Charge.units charges ∧
          (∀ c, charges.getLast? = some c → Charge.units charges < q.value + c.blockSize.value) ∧
          List.Forall₂ (fun f c => ∃ m, f.block.maxBlocks = some m ∧ c.blocks.value = m.value)
            (filledBlocks q.value (u.blocksFor unitType)).dropLast charges.dropLast))) := by
  have hwhole : ∀ p ∈ u.blocksFor unitType, p.2.Whole := fun p hp => (hblocks p hp).1
  refine ⟨fun hnone => ?_, fun hsome => ?_⟩
  · rw [Usage.consumableCharges]
    exact if_pos hnone
  obtain ⟨charges, rest, hfill, hrest, hafter, hcharges⟩ := fillBlocks_exact hk hblocks hfinite hq hbelow
  have hcases := consumableCharges_of_fill hsome hfill hrest
  have hexceeds : 0 < rest.value ↔ Exceeds q.value ((u.blocksFor unitType).map (·.2)) := by
    rw [← leftAfter_pos_iff, ← hafter, lt_max_iff, or_iff_right (lt_irrefl _)]
  rw [hcases, ← hexceeds]
  refine ⟨?_, fun hfits => ⟨charges, if_neg hfits, hcharges, fun hpos => ?_⟩⟩
  · split
    next hmore => exact iff_of_true rfl hmore
    next hfits => exact iff_of_false (fun h => error_ne_ok h.symm) hfits
  · have hleft : leftAfter q.value ((u.blocksFor unitType).map (·.2)) = 0 := by
      rw [← hafter, max_eq_left (not_lt.mp hfits)]
    have hcovers := covers_filledBlocks hwhole hpos hleft
    rw [units_charged hcharges]
    refine ⟨hcovers.enough, fun c hc => ?_, ?_⟩
    · have hlast := rel_getLast? hcharges
      rw [hc] at hlast
      generalize hf : (filledBlocks q.value (u.blocksFor unitType)).getLast? = last at hlast
      cases hlast with
      | some hcf =>
          rw [hcf.size]
          exact hcovers.tight _ hf
    · have hfull := hcovers.full
      rw [List.dropLast_eq_take] at hfull ⊢
      rw [List.dropLast_eq_take, ← hcharges.length_eq]
      refine ((List.forall₂_and_left _ _).mpr ⟨hfull, List.forall₂_take _ hcharges⟩).imp ?_
      rintro f c ⟨⟨m, hmax, hcount⟩, hfc⟩
      exact ⟨m, hmax, hfc.count.trans hcount⟩

end

namespace Usage.Sample

theorem whole_packedCalls : ∀ p ∈ packedCalls.blocksFor "calls", p.2.Whole ∧ p.2.size.Coarse 1 := by
  have hblocks : packedCalls.blocksFor "calls" =
      [(1, ⟨"calls", .ofNat 1, .finite false 1 (-1), some (.ofNat 10)⟩),
        (2, ⟨"calls", .ofNat 3, .finite false 25 (-2), none⟩)] := by decide
  rw [hblocks]
  refine List.forall_mem_cons.mpr ⟨⟨⟨trivial, ?_, ?_⟩, ?_⟩, List.forall_mem_singleton.mpr ⟨⟨trivial, ?_, nofun⟩, ?_⟩⟩
  · norm_num [Decimal.ofNat, Decimal.value, Decimal.signed]
  · rintro limit h
    obtain rfl := Option.some.inj h
    exact ⟨trivial, 10, by norm_num [Decimal.ofNat, Decimal.value, Decimal.signed]⟩
  · exact Decimal.coarse_finite (by decide) (by decide)
  · norm_num [Decimal.ofNat, Decimal.value, Decimal.signed]
  · exact Decimal.coarse_finite (by decide) (by decide)

end Usage.Sample

/-- There is room for 17.2 calls, in ten single ones and packs of three. -/
theorem consumableCharges_exact_packed : ∃ charges,
    Usage.Sample.packedCalls.consumableCharges "calls" (.finite false 172 (-1)) = .ok charges ∧
      (Decimal.finite false 172 (-1)).value ≤ Charge.units charges := by
  have hvalue : (Decimal.finite false 172 (-1)).value = 172 / 10 := by norm_num [Decimal.value, Decimal.signed]
  have hbelow : (Decimal.finite false 172 (-1)).value < 10 ^ (Decimal.money.maxExponent + 1) := by
    calc (Decimal.finite false 172 (-1)).value < 10 ^ (2 : ℤ) := by norm_num [hvalue]
      _ ≤ 10 ^ (Decimal.money.maxExponent + 1) := zpow_le_zpow_right₀ (by norm_num) (by decide)
  obtain ⟨-, hcharges⟩ := consumableCharges_exact (by decide) Usage.Sample.whole_packedCalls
    (Decimal.isFinite_finite false 172 (-1)) (fun _ => Decimal.coarse_finite (by decide) (by decide)) hbelow
  obtain ⟨-, hfits⟩ := hcharges (by decide)
  obtain ⟨charges, hok, -, hcovered⟩ := hfits fun hexceeds => absurd hexceeds.1 (by decide)
  exact ⟨charges, hok, (hcovered (by norm_num [hvalue])).1⟩

/-! ### The ends of the range -/

namespace Usage.Sample

/-- Two blocks of one unit of a power of ten. -/
def pairOfCalls (e : Int) : Usage where
  name := "api"
  billingMode := .inArrear
  pricing := .consumable
  period := .monthly
  tiers := [⟨[⟨"calls", .finite false 1 e, .ofNat 2, some (.ofNat 2)⟩], [], none⟩]

theorem blocksFor_pairOfCalls (e : Int) : (pairOfCalls e).blocksFor "calls" =
    [(1, ⟨"calls", .finite false 1 e, .ofNat 2, some (.ofNat 2)⟩)] := rfl

theorem whole_pairOfCalls (e : Int) : ∀ p ∈ (pairOfCalls e).blocksFor "calls", p.2.Whole ∧ p.2.size.Coarse (-e) := by
  rw [blocksFor_pairOfCalls]
  refine List.forall_mem_singleton.mpr ⟨⟨trivial, ?_, ?_⟩, Decimal.coarse_finite (by simp) ?_⟩
  · rw [Decimal.value_finite, if_neg Bool.false_ne_true]
    exact Decimal.scaled_pos Nat.one_pos
  · rintro limit h
    obtain rfl := Option.some.inj h
    exact ⟨trivial, 2, by norm_num [Decimal.ofNat, Decimal.value, Decimal.signed]⟩
  · rw [neg_neg, Int.sub_self]
    decide

theorem exceeds_pairOfCalls (e : Int) :
    Exceeds (Decimal.finite false 3 e).value (((pairOfCalls e).blocksFor "calls").map (·.2)) := by
  have hroom : Block.room ⟨"calls", .finite false 1 e, .ofNat 2, some (.ofNat 2)⟩ =
      (Decimal.ofNat 2).value * (Decimal.finite false 1 e).value := rfl
  have htwo : (Decimal.ofNat 2).value = 2 := by norm_num [Decimal.ofNat, Decimal.value, Decimal.signed]
  have hten : (0 : ℚ) < 10 ^ e := by positivity
  rw [blocksFor_pairOfCalls, Exceeds, List.map_singleton, List.map_singleton, List.sum_singleton, hroom, htwo,
    Decimal.value_finite, Decimal.value_finite, if_neg Bool.false_ne_true, if_neg Bool.false_ne_true, Decimal.scaled,
    Decimal.scaled]
  refine ⟨List.forall_mem_singleton.mpr rfl, ?_⟩
  push_cast
  linarith

end Usage.Sample

/-- At the ends of the range of exponents a quantity that exceeds its blocks is not told so: the product of two
blocks of the finest unit is rounded to nothing, and so is what remains; the product of two of the coarsest
overflows. A unit type without blocks has no charges, whatever the quantity. -/
theorem consumableCharges_inexact :
    ((∀ p ∈ (Usage.Sample.pairOfCalls (-1000027)).blocksFor "calls", p.2.Whole ∧ p.2.size.Coarse 1000027) ∧
      (Decimal.finite false 3 (-1000027)).Coarse 1000027 ∧
      Exceeds (Decimal.finite false 3 (-1000027)).value
        (((Usage.Sample.pairOfCalls (-1000027)).blocksFor "calls").map (·.2)) ∧
      (Usage.Sample.pairOfCalls (-1000027)).consumableCharges "calls" (.finite false 3 (-1000027)) =
        .ok [⟨1, "calls", .finite false 1 (-1000027), .ofNat 2, .ofNat 2⟩]) ∧
    ((∀ p ∈ (Usage.Sample.pairOfCalls 1000000).blocksFor "calls", p.2.Whole ∧ p.2.size.Coarse (-1000000)) ∧
      (Decimal.finite false 3 1000000).Coarse (-1000000) ∧
      Exceeds (Decimal.finite false 3 1000000).value
        (((Usage.Sample.pairOfCalls 1000000).blocksFor "calls").map (·.2)) ∧
      (Usage.Sample.pairOfCalls 1000000).consumableCharges "calls" (.finite false 3 1000000) =
        .error (.decimal .overflow)) ∧
    ((Usage.Sample.pairOfCalls 0).blocksFor "texts" = [] ∧
      (Usage.Sample.pairOfCalls 0).consumableCharges "texts" (.ofNat 0) =
        .error (.catalog (.noBlock "texts" "api"))) := by
  refine ⟨⟨Usage.Sample.whole_pairOfCalls _, ?_, Usage.Sample.exceeds_pairOfCalls _, by decide +kernel⟩,
    ⟨Usage.Sample.whole_pairOfCalls _, ?_, Usage.Sample.exceeds_pairOfCalls _, by decide +kernel⟩, by decide +kernel,
    by decide +kernel⟩
  · exact Decimal.coarse_finite (by decide) (by decide)
  · exact Decimal.coarse_finite (by decide) (by decide)

end UsageBilling
