import UsageBilling.Proofs.Decimal.Exact
import UsageBilling.Proofs.Decimal.Quotient

/-! Overflow and order. Rounding fails on large values only, and where it fails is told by the value: from half a
unit below the first power of ten that is too large (`Context.exists_round_iff`). An operation that succeeds
therefore succeeds on whatever has no larger exact result (`exists_add_iff`, `exists_sub_iff`, `exists_mul_iff`,
`exists_div_iff`). -/

namespace UsageBilling.Decimal

/-- A number is rounded below an even one up to half a unit below it, where the tie goes to the even one. -/
theorem halfEven_lt_iff {n d bound : Nat} (hd : 0 < d) (heven : bound % 2 = 0) (hpos : 0 < bound) :
    halfEven n d < bound ↔ 2 * n < (2 * bound - 1) * d := by
  have hn : d * (n / d) + n % d = n := Nat.div_add_mod n d
  have hr : n % d < d := Nat.mod_lt n hd
  obtain ⟨b, rfl⟩ : ∃ b, bound = b + 1 := ⟨bound - 1, by omega⟩
  have hbound : (2 * (b + 1) - 1) * d = 2 * (d * b) + d := by
    rw [show 2 * (b + 1) - 1 = 2 * b + 1 by omega]
    ring
  rw [hbound, halfEven]
  generalize n / d = q at hn
  generalize n % d = r at hn hr
  rcases Nat.lt_trichotomy q b with hlt | rfl | hgt
  · have hmul : d * (q + 1) ≤ d * b := Nat.mul_le_mul_left d hlt
    rw [Nat.mul_succ] at hmul
    refine iff_of_true ?_ (by omega)
    split <;> omega
  · have hodd : ¬ q % 2 = 0 := by omega
    simp only [hodd, and_false, or_false]
    split <;> omega
  · have hmul : d * (b + 1) ≤ d * q := Nat.mul_le_mul_left d hgt
    rw [Nat.mul_succ] at hmul
    refine iff_of_false ?_ (by omega)
    split <;> omega

namespace Context

variable {ctx : Context} {c q : Nat} {e t : Int} {negative : Bool}

/-- Rounding overflows from here on: half a unit below the first power of ten that is too large. -/
def overflow (ctx : Context) : ℚ := (10 ^ ctx.precision - 1 / 2) * 10 ^ (ctx.maxExponent + 1 - ctx.precision)

/-- A context with some digit and with normal numbers. -/
structure Wide (ctx : Context) : Prop where
  precision : 0 < ctx.precision
  exponents : ctx.tiny + ctx.precision ≤ ctx.maxExponent

theorem wide_money : money.Wide := ⟨by decide, by decide⟩

theorem lt_pow_iff (hc : 0 < c) {a : Int} : scaled c e < 10 ^ a ↔ e + digitCount c ≤ a :=
  ⟨leading_le_of_lt hc, fun h => (scaled_bounds hc e).2.trans_le (zpow_le_zpow_right₀ (by norm_num) h)⟩

/-- The first power of ten that is too large, in units of the last digit of the largest numbers. -/
theorem pow_maxExponent (ctx : Context) :
    (10 : ℚ) ^ (ctx.maxExponent + 1) = 10 ^ ctx.precision * 10 ^ (ctx.maxExponent + 1 - ctx.precision) := by
  rw [← zpow_natCast, ← zpow_add₀ (by norm_num), add_sub_cancel]

theorem overflow_bounds (hctx : ctx.Wide) :
    (10 : ℚ) ^ ctx.maxExponent ≤ ctx.overflow ∧ ctx.overflow < 10 ^ (ctx.maxExponent + 1) := by
  have hunit : (0 : ℚ) < 10 ^ (ctx.maxExponent + 1 - ctx.precision) := by positivity
  have hten : (10 : ℚ) ≤ 10 ^ ctx.precision := by
    calc (10 : ℚ) = 10 ^ 1 := (pow_one _).symm
      _ ≤ 10 ^ ctx.precision := pow_le_pow_right₀ (by norm_num) hctx.precision
  have hhigh := pow_maxExponent ctx
  have hlow : (10 : ℚ) ^ (ctx.maxExponent + 1) = 10 ^ ctx.maxExponent * 10 := zpow_add_one₀ (by norm_num) _
  rw [overflow, hhigh]
  rw [hhigh] at hlow
  constructor <;> nlinarith

/-- A rounded coefficient is settled unless its value has too large an exponent. -/
theorem exists_settle_iff (hctx : ctx.Wide) (hq : q ≤ pow10 ctx.precision) (hzero : q = 0 → t ≤ ctx.maxExponent) :
    (∃ d, ctx.settle negative q t = .ok d) ↔ scaled q t < 10 ^ (ctx.maxExponent + 1) := by
  have hprecision := hctx.precision
  have hsettle (q' : Nat) (t' : Int) :
      (∃ d, (if ctx.maxExponent < t' + digitCount q' - 1 then .error .overflow
        else .ok (.finite negative q' t') : Except Fault Decimal) = .ok d) ↔
      t' + digitCount q' ≤ ctx.maxExponent + 1 := by
    split
    next hover => exact iff_of_false (by rintro ⟨d, hd⟩; cases hd) (by omega)
    next hfits => exact iff_of_true ⟨_, rfl⟩ (by omega)
  rw [settle]
  by_cases hcarried : pow10 ctx.precision ≤ q
  · obtain rfl : q = pow10 ctx.precision := Nat.le_antisymm hq hcarried
    obtain ⟨p, hp⟩ : ∃ p, ctx.precision = p + 1 := ⟨ctx.precision - 1, by omega⟩
    have hdiv : pow10 ctx.precision / 10 = pow10 p := by rw [hp, pow10_succ, Nat.mul_div_cancel_left _ (by decide)]
    have hsame : scaled (pow10 p) (t + 1) = scaled (pow10 ctx.precision) t := by
      rw [hp, pow10_succ, scaled, scaled, zpow_add_one₀ (by norm_num)]
      push_cast
      ring
    rw [if_pos hcarried, if_pos hcarried, hdiv, hsettle, ← hsame, lt_pow_iff (pow10_pos p)]
  · rw [if_neg hcarried, if_neg hcarried, hsettle]
    rcases Nat.eq_zero_or_pos q with rfl | hpos
    · have ht := hzero rfl
      have hdigits : digitCount 0 = 1 := by decide
      rw [scaled, Nat.cast_zero, zero_mul, hdigits]
      exact iff_of_true (by omega) (by positivity)
    · exact (lt_pow_iff hpos).symm

theorem pow10_le_halfEven (hprecision : 0 < ctx.precision) (hc : 0 < c)
    (h : ctx.target c e = e + digitCount c - ctx.precision) :
    pow10 (ctx.precision - 1) ≤ halfEven c (pow10 (ctx.target c e - e).toNat) := by
  obtain ⟨hle, -, -⟩ := ctx.le_target c e
  have hlead : pow10 (ctx.precision - 1) * pow10 (ctx.target c e - e).toNat ≤ c := by
    rw [← pow10_add]
    exact Nat.le_trans (pow10_le_pow10 (by omega)) (digitCount_bounds hc).2
  have hpos := pow10_pos (ctx.target c e - e).toNat
  generalize pow10 (ctx.target c e - e).toNat = d at hlead hpos
  have hhalf := @le_halfEven_mul c d hpos
  by_contra hless
  have hmul : (halfEven c d + 1) * d ≤ pow10 (ctx.precision - 1) * d := Nat.mul_le_mul_right d (Nat.not_le.mp hless)
  rw [Nat.add_mul] at hmul
  omega

theorem target_cases (ctx : Context) (c : Nat) (e : Int) : ctx.target c e = e ∨
    ctx.target c e = e + digitCount c - ctx.precision ∨
      ctx.target c e = ctx.tiny ∧ e + digitCount c - ctx.precision < ctx.tiny := by
  rw [target]
  omega

theorem halfEven_of_target_eq (h : ctx.target c e = e) : halfEven c (pow10 (ctx.target c e - e).toNat) = c := by
  rw [h, Int.sub_self, Int.toNat_zero, pow10_zero, halfEven_one]

theorem scaled_halfEven_lt (hctx : ctx.Wide) (hc : 0 < c) (hlead : e + digitCount c ≤ ctx.maxExponent) :
    scaled (halfEven c (pow10 (ctx.target c e - e).toNat)) (ctx.target c e) < 10 ^ (ctx.maxExponent + 1) := by
  have hexp := hctx.exponents
  have hcases := ctx.target_cases c e
  by_cases hkeep : ctx.target c e = e
  · rw [halfEven_of_target_eq hkeep, hkeep]
    exact (lt_pow_iff hc).mpr (by omega)
  · have hcoefficient : ((halfEven c (pow10 (ctx.target c e - e).toNat) : Nat) : ℚ) ≤ 10 ^ ctx.precision := by
      rw [← cast_pow10]
      exact_mod_cast halfEven_le_pow10 ctx c e
    calc scaled (halfEven c (pow10 (ctx.target c e - e).toNat)) (ctx.target c e)
        ≤ 10 ^ ctx.precision * 10 ^ ctx.target c e := mul_le_mul_of_nonneg_right hcoefficient (by positivity)
      _ = 10 ^ (ctx.precision + ctx.target c e) := by rw [zpow_add₀ (by norm_num), zpow_natCast]
      _ < 10 ^ (ctx.maxExponent + 1) := zpow_lt_zpow_right₀ (by norm_num) (by omega)

theorem le_scaled_halfEven (hctx : ctx.Wide) (hc : 0 < c) (hlead : ctx.maxExponent + 1 < e + digitCount c) :
    10 ^ (ctx.maxExponent + 1) ≤ scaled (halfEven c (pow10 (ctx.target c e - e).toNat)) (ctx.target c e) := by
  have hexp := hctx.exponents
  have hprecision := hctx.precision
  have hpower : (10 : ℚ) ^ (ctx.maxExponent + 1) ≤ 10 ^ (e + digitCount c - 1) :=
    zpow_le_zpow_right₀ (by norm_num) (by omega)
  refine hpower.trans ?_
  rcases ctx.target_cases c e with hkeep | hends | ⟨htiny, hless⟩
  · rw [halfEven_of_target_eq hkeep, hkeep]
    exact (scaled_bounds hc e).1
  · have hcoefficient : (10 : ℚ) ^ (ctx.precision - 1) ≤ (halfEven c (pow10 (ctx.target c e - e).toNat) : Nat) := by
      rw [← cast_pow10]
      exact_mod_cast pow10_le_halfEven hprecision hc hends
    calc (10 : ℚ) ^ (e + digitCount c - 1) = 10 ^ (ctx.precision - 1) * 10 ^ ctx.target c e := by
          rw [← zpow_natCast, ← zpow_add₀ (by norm_num), hends]
          congr 1
          omega
      _ ≤ _ := mul_le_mul_of_nonneg_right hcoefficient (by positivity)
  · omega

/-- A number of whole units of the largest numbers is a unit below the first power of ten that is too large, and so
below the threshold. -/
theorem scaled_lt_overflow (hc : 0 < c) (hlead : e + digitCount c = ctx.maxExponent + 1)
    (hwhole : ctx.maxExponent + 1 - ctx.precision ≤ e) : scaled c e < ctx.overflow := by
  have hunit : (0 : ℚ) < 10 ^ (ctx.maxExponent + 1 - ctx.precision) := by positivity
  have hmost := (lt_pow_iff hc).mpr (le_of_eq hlead)
  have hunits := scaled_shift (n := c) hwhole
  generalize c * pow10 (e - (ctx.maxExponent + 1 - ctx.precision)).toNat = n at hunits
  rw [← hunits, scaled, pow_maxExponent, mul_lt_mul_iff_left₀ hunit] at hmost
  have hbelow : (n : ℚ) + 1 ≤ 10 ^ ctx.precision := by
    rw [← cast_pow10] at hmost ⊢
    exact_mod_cast hmost
  rw [← hunits, scaled, overflow]
  refine mul_lt_mul_of_pos_right ?_ hunit
  linarith

/-- A coefficient is rounded to fewer than an even number of units when it lies below that by more than half a unit. -/
theorem halfEven_lt_iff_cast {d n : Nat} (hd : 0 < d) (hn : 0 < n) (heven : n % 2 = 0) :
    halfEven c d < n ↔ (c : ℚ) < ((n : ℚ) - 1 / 2) * d := by
  have hcast : (((2 * n - 1) * d : Nat) : ℚ) = (2 * n - 1) * d := by
    rw [Nat.cast_mul, Nat.cast_sub (by omega)]
    push_cast
    ring
  rw [halfEven_lt_iff hd heven hn, ← Nat.cast_lt (α := ℚ), hcast]
  push_cast
  constructor <;> intro h <;> linarith

/-- With the largest leading exponent, a number is rounded up to a larger one from half a unit below that. -/
theorem scaled_halfEven_lt_iff (hctx : ctx.Wide) (hc : 0 < c) (hlead : e + digitCount c = ctx.maxExponent + 1) :
    scaled (halfEven c (pow10 (ctx.target c e - e).toNat)) (ctx.target c e) < 10 ^ (ctx.maxExponent + 1) ↔
      scaled c e < ctx.overflow := by
  have hexp := hctx.exponents
  have hprecision := hctx.precision
  obtain ⟨hle, hdigits, -⟩ := ctx.le_target c e
  by_cases hkeep : ctx.target c e = e
  · rw [halfEven_of_target_eq hkeep, hkeep]
    exact iff_of_true ((lt_pow_iff hc).mpr (le_of_eq hlead)) (scaled_lt_overflow hc hlead (by omega))
  · have hends : ctx.target c e = ctx.maxExponent + 1 - ctx.precision := by
      have hcases := ctx.target_cases c e
      omega
    have hunit : (0 : ℚ) < 10 ^ (ctx.maxExponent + 1 - ctx.precision) := by positivity
    have hten : (0 : ℚ) < 10 ^ e := by positivity
    have hshift : (10 : ℚ) ^ (ctx.maxExponent + 1 - ctx.precision) =
        (pow10 (ctx.target c e - e).toNat : ℚ) * 10 ^ e := by
      have hone := scaled_shift (n := 1) hle
      rw [scaled, scaled, one_mul, Nat.cast_one, one_mul] at hone
      rw [← hends, hone]
    have heven : pow10 ctx.precision % 2 = 0 := by
      obtain ⟨p, hp⟩ : ∃ p, ctx.precision = p + 1 := ⟨ctx.precision - 1, by omega⟩
      rw [hp, pow10_succ]
      omega
    rw [scaled, hends, pow_maxExponent, mul_lt_mul_iff_left₀ hunit, ← hends, ← cast_pow10, Nat.cast_lt,
      halfEven_lt_iff_cast (pow10_pos _) (pow10_pos _) heven, overflow, hshift, ← mul_assoc, scaled,
      mul_lt_mul_iff_left₀ hten, cast_pow10 ctx.precision]

/-- Rounding fails from half a unit below the first power of ten that is too large. -/
theorem exists_round_iff (hctx : ctx.Wide) (hc : 0 < c) :
    (∃ d, ctx.round negative c e = .ok d) ↔ scaled c e < ctx.overflow := by
  have hexp := hctx.exponents
  obtain ⟨hlow, hhigh⟩ := overflow_bounds hctx
  obtain ⟨hleast, hmost⟩ := scaled_bounds hc e
  have hzero (hq : halfEven c (pow10 (ctx.target c e - e).toNat) = 0) : ctx.target c e ≤ ctx.maxExponent := by
    rcases ctx.target_cases c e with hkeep | hends | ⟨htiny, -⟩
    · rw [halfEven_of_target_eq hkeep] at hq
      omega
    · have hpos := Nat.lt_of_lt_of_le (pow10_pos _) (pow10_le_halfEven hctx.precision hc hends)
      omega
    · omega
  rw [round_of_pos ctx negative hc e, exists_settle_iff hctx (halfEven_le_pow10 ctx c e) hzero]
  rcases lt_trichotomy (e + digitCount c) (ctx.maxExponent + 1) with hless | heq | hmore
  · refine iff_of_true (scaled_halfEven_lt hctx hc (by omega)) (hmost.trans_le (le_trans ?_ hlow))
    exact zpow_le_zpow_right₀ (by norm_num) (by omega)
  · exact scaled_halfEven_lt_iff hctx hc heq
  · refine iff_of_false (not_lt.mpr (le_scaled_halfEven hctx hc hmore))
      (not_lt.mpr (hhigh.le.trans (le_trans ?_ hleast)))
    exact zpow_le_zpow_right₀ (by norm_num) (by omega)

theorem overflow_pos (hctx : ctx.Wide) : 0 < ctx.overflow := lt_of_lt_of_le (by positivity) (overflow_bounds hctx).1

end Context

/-! ### Operations -/

section

variable {a b : Decimal}

/-- Whether rounding to money succeeds is a matter of the value. -/
theorem exists_round_iff {n : Bool} {c : Nat} {e : Int} :
    (∃ d, money.round n c e = .ok d) ↔ |(finite n c e).value| < money.overflow := by
  rw [abs_value_finite]
  rcases Nat.eq_zero_or_pos c with rfl | hc
  · rw [Context.round, if_pos rfl, scaled, Nat.cast_zero, zero_mul]
    exact iff_of_true ⟨_, rfl⟩ (Context.overflow_pos Context.wide_money)
  · exact Context.exists_round_iff Context.wide_money hc

theorem exists_add_iff (ha : a.IsFinite) (hb : b.IsFinite) :
    (∃ d, a.add b = .ok d) ↔ |a.value + b.value| < money.overflow := by
  obtain ⟨n, c, e, hadd, hvalue⟩ := add_eq ha hb
  rw [hadd, ← hvalue, exists_round_iff]

theorem exists_sub_iff (ha : a.IsFinite) (hb : b.IsFinite) :
    (∃ d, a.sub b = .ok d) ↔ |a.value - b.value| < money.overflow := by
  obtain ⟨hfinite, hvalue⟩ := isFinite_negate hb
  rw [sub, exists_add_iff ha hfinite, hvalue, sub_eq_add_neg]

theorem exists_mul_iff (ha : a.IsFinite) (hb : b.IsFinite) :
    (∃ d, a.mul b = .ok d) ↔ |a.value * b.value| < money.overflow := by
  obtain ⟨n, c, e, hmul, hvalue⟩ := mul_eq ha hb
  rw [hmul, ← hvalue, exists_round_iff]

theorem lt_overflow_of_holds (h : money.Holds a.value) (ha : a.IsFinite) : |a.value| < money.overflow := by
  obtain ⟨d, hd, -⟩ := add_of_holds ha isFinite_zero (by rwa [value_zero, add_zero])
  have hlt := (exists_add_iff ha isFinite_zero).mp ⟨d, hd⟩
  rwa [value_zero, add_zero] at hlt

/-- Marking a part does not move a number across a whole one. -/
theorem marked_lt_iff {x : ℚ} (hx : 0 ≤ x) {n : Nat} : marked x < n ↔ x < n := by
  rw [marked]
  split
  · exact Iff.rfl
  · rw [← Nat.floor_lt hx]
    constructor
    · intro h
      have hlt : (⌊x⌋₊ : ℚ) < n := by linarith
      exact_mod_cast hlt
    · intro h
      have hle : (⌊x⌋₊ : ℚ) + 1 ≤ n := by exact_mod_cast h
      linarith

theorem marked_mul_lt_iff {x : ℚ} (hlarge : 10 ^ money.precision ≤ x) (g : Int) :
    marked x * 10 ^ g < money.overflow ↔ x * 10 ^ g < money.overflow := by
  have hten : (0 : ℚ) < 10 ^ g := by positivity
  have hnonneg : 0 ≤ x := le_trans (by positivity) hlarge
  rcases lt_or_ge g (money.maxExponent + 1 - money.precision) with hfine | hcoarse
  · obtain ⟨j, hj⟩ : ∃ j : Nat, money.maxExponent + 1 - money.precision = g + 1 + j :=
      ⟨(money.maxExponent + 1 - money.precision - g - 1).toNat, by omega⟩
    have hwhole : money.overflow = (((10 * pow10 money.precision - 5) * pow10 j : Nat) : ℚ) * 10 ^ g := by
      have hfive : 5 ≤ 10 * pow10 money.precision := by
        have hpos := pow10_pos money.precision
        omega
      rw [Context.overflow, hj, zpow_add₀ (by norm_num), zpow_add_one₀ (by norm_num), zpow_natCast, Nat.cast_mul,
        Nat.cast_sub hfive, Nat.cast_mul, cast_pow10, cast_pow10]
      push_cast
      ring
    rw [hwhole, mul_lt_mul_iff_left₀ hten, mul_lt_mul_iff_left₀ hten, marked_lt_iff hnonneg]
  · have hover {y : ℚ} (hy : 10 ^ money.precision ≤ y) : ¬ y * 10 ^ g < money.overflow := by
      refine not_lt.mpr ((Context.overflow_bounds Context.wide_money).2.le.trans ?_)
      rw [Context.pow_maxExponent]
      exact mul_le_mul hy (zpow_le_zpow_right₀ (by norm_num) hcoarse) (by positivity) (le_trans (by positivity) hy)
    refine iff_of_false (hover ?_) (hover hlarge)
    have hnot : ¬ marked x < pow10 money.precision := by
      rw [marked_lt_iff hnonneg, cast_pow10]
      exact not_lt.mpr hlarge
    rwa [cast_pow10, not_lt] at hnot

/-- Whether a quotient overflows is a matter of the exact one. -/
theorem exists_div_iff (ha : a.IsFinite) (hapos : 0 < a.value) (hb : b.IsFinite) (hbpos : 0 < b.value) :
    (∃ d, a.div b = .ok d) ↔ a.value / b.value < money.overflow := by
  obtain ⟨ca, ea, rfl, hca, hav⟩ := exists_of_pos ha hapos
  obtain ⟨cb, eb, rfl, hcb, hbv⟩ := exists_of_pos hb hbpos
  rw [div_of_pos hca hcb, exists_round_iff, abs_value_finite, scaled_quotient hcb, hav, hbv, value_div_value]
  exact marked_mul_lt_iff (pow_le_shifted hca hcb) _

end

end UsageBilling.Decimal
