import UsageBilling.Proofs.Decimal.Overflow

/-! Counting in blocks. A quotient of two multiples of one power of ten with few digits is rounded so little that no
whole number is reached or left: rounding it up gives what rounding the exact quotient up gives
(`exists_ceil_div`). Products with whole numbers and differences of such multiples are exact as long as they do not
overflow (`mul_of_holds`, `sub_of_holds`). -/

namespace UsageBilling.Decimal

variable {a b : Decimal} {k : Int}

/-- A finite multiple of a power of ten with a coefficient of 14 digits at most. -/
structure Coarse (k : Int) (a : Decimal) : Prop where
  finite : a.IsFinite
  multiple : MultipleOf k a.value
  small : |a.value| < 10 ^ (14 - k)

theorem coarse_zero (k : Int) : Coarse k zero := by
  refine ⟨isFinite_zero, ?_, ?_⟩
  · rw [value_zero]
    exact multipleOf_zero k
  · rw [value_zero, abs_zero]
    positivity

/-- A number that is written with few digits, counted from a power of ten that its last digit does not fall below. -/
theorem coarse_finite {n : Bool} {c : Nat} {e : Int} (he : -k ≤ e) (hc : c * pow10 (e - -k).toNat < pow10 14) :
    Coarse k (finite n c e) := by
  have hvalue := scaled_shift (n := c) he
  generalize c * pow10 (e - -k).toNat = m at hc hvalue
  refine ⟨trivial, ?_, ?_⟩
  · rw [value_finite, ← hvalue]
    cases n with
    | false => exact ⟨m, by rw [if_neg Bool.false_ne_true, scaled, Int.cast_natCast]⟩
    | true => exact ⟨-m, by rw [if_pos rfl, scaled, Int.cast_neg, Int.cast_natCast, neg_mul]⟩
  · rw [abs_value_finite, ← hvalue, scaled, sub_eq_add_neg, zpow_add₀ (by norm_num)]
    refine mul_lt_mul_of_pos_right ?_ (by positivity)
    have hlt : (m : ℚ) < pow10 14 := by exact_mod_cast hc
    rw [cast_pow10] at hlt
    exact_mod_cast hlt

theorem Coarse.exists_coefficient (h : Coarse k a) : ∃ n : ℤ, a.value = n * 10 ^ (-k) ∧ |n| < 10 ^ 14 := by
  obtain ⟨n, hn⟩ := h.multiple
  have hten : (0 : ℚ) < 10 ^ (-k) := by positivity
  have hsmall := h.small
  rw [hn, abs_mul, abs_of_pos hten, sub_eq_add_neg, zpow_add₀ (by norm_num), mul_lt_mul_iff_left₀ hten] at hsmall
  exact ⟨n, hn, by exact_mod_cast hsmall⟩

/-- Multiples of the smallest subnormal number of few digits are held where they do not overflow. -/
theorem MultipleOf.holds (hk : k ≤ 1000026) {x : ℚ} (h : MultipleOf k x) (hsmall : |x| < 10 ^ (14 - k))
    (hbelow : |x| < 10 ^ (money.maxExponent + 1)) : money.Holds x := by
  refine ⟨h.written hk (hsmall.trans_le ?_), hbelow⟩
  exact zpow_le_zpow_right₀ (by norm_num) (by omega)

theorem holds_natCast {n : Nat} (hn : n < 10 ^ 14) : money.Holds n := by
  have hsmall : |(n : ℚ)| < 10 ^ (14 : ℤ) := by
    rw [abs_of_nonneg (Nat.cast_nonneg n)]
    exact_mod_cast hn
  exact MultipleOf.holds (k := 0) (by decide) ⟨n, by simp⟩ hsmall
    (hsmall.trans_le (zpow_le_zpow_right₀ (by norm_num) (by decide)))

/-! ### Exact products and differences -/

theorem mul_of_holds (ha : a.IsFinite) (hb : b.IsFinite) (h : money.Holds (a.value * b.value)) :
    ∃ d, a.mul b = .ok d ∧ d.IsFinite ∧ d.value = a.value * b.value := by
  obtain ⟨n, c, e, hmul, hvalue⟩ := mul_eq ha hb
  rw [← hvalue] at h
  obtain ⟨d, hd, hsame⟩ := round_of_holds h
  exact ⟨d, hmul.trans hd, (holds_of_round hd).1, hsame.trans hvalue⟩

theorem sub_of_holds (ha : a.IsFinite) (hb : b.IsFinite) (h : money.Holds (a.value - b.value)) :
    ∃ d, a.sub b = .ok d ∧ d.IsFinite ∧ d.value = a.value - b.value := by
  obtain ⟨hfinite, hvalue⟩ := isFinite_negate hb
  rw [sub_eq_add_neg, ← hvalue] at h ⊢
  exact add_of_holds ha hfinite h

/-! ### Quotients -/

/-- A quotient that is no whole number is apart from each of them by a part of its denominator. -/
theorem one_div_le_abs_sub {m n z : ℤ} (hn : 0 < n) (hne : (m : ℚ) / n ≠ z) : (1 : ℚ) / n ≤ |(m : ℚ) / n - z| := by
  have hn' : (0 : ℚ) < n := by exact_mod_cast hn
  have hdiff : (m : ℚ) / n - z = ((m - z * n : ℤ) : ℚ) / n := by
    push_cast
    rw [sub_div, mul_div_cancel_right₀ _ hn'.ne']
  have hnonzero : m - z * n ≠ 0 := by
    intro hzero
    rw [hzero, Int.cast_zero, zero_div] at hdiff
    exact hne (sub_eq_zero.mp hdiff)
  have hone : (1 : ℚ) ≤ |((m - z * n : ℤ) : ℚ)| := by exact_mod_cast Int.one_le_abs hnonzero
  rw [hdiff, abs_div, abs_of_pos hn']
  exact div_le_div_of_nonneg_right hone hn'.le

/-- Cutting a number after `10 ^ 14` parts leaves a whole number as it is. -/
theorem cut_of_whole (z : ℤ) : (⌊(z : ℚ) * 10 ^ 14⌋ : ℚ) / 10 ^ 14 = z := by
  have hproduct : (z : ℚ) * 10 ^ 14 = ((z * 10 ^ 14 : ℤ) : ℚ) := by
    rw [Int.cast_mul, Int.cast_pow, Int.cast_ofNat]
  rw [hproduct, Int.floor_intCast, ← hproduct]
  exact mul_div_cancel_right₀ _ (by norm_num)

/-- What is left of a small number by the cut has 28 digits. -/
theorem written_cut {x : ℚ} (hnonneg : 0 ≤ x) (hless : x < 10 ^ 14) :
    money.Written (⌊x * 10 ^ 14⌋ / 10 ^ 14) := by
  refine MultipleOf.written (k := 14) (by norm_num) ⟨⌊x * 10 ^ 14⌋, ?_⟩ ?_
  · rw [zpow_neg, div_eq_mul_inv]
    rfl
  · have hfloor : (0 : ℚ) ≤ ⌊x * 10 ^ 14⌋ := by
      exact_mod_cast Int.floor_nonneg.mpr (mul_nonneg hnonneg (by norm_num))
    rw [abs_of_nonneg (div_nonneg hfloor (by norm_num)), div_lt_iff₀ (by norm_num)]
    calc (⌊x * 10 ^ 14⌋ : ℚ) ≤ x * 10 ^ 14 := Int.floor_le _
      _ < 10 ^ 14 * 10 ^ 14 := mul_lt_mul_of_pos_right hless (by norm_num)
      _ = 10 ^ (28 - 14 : ℤ) * 10 ^ 14 := by norm_num

/-- A number that is as near to a quotient of whole numbers as the quotient cut after `10 ^ 14` parts is rounded up
like the quotient: what is cut off is less than the distance to a whole number. -/
theorem ceil_eq_of_near {m n : ℤ} {d : ℚ} (hn : 0 < n) (hsmall : n < 10 ^ 14)
    (hnear : |(m : ℚ) / n - d| ≤ |(m : ℚ) / n - ⌊(m : ℚ) / n * 10 ^ 14⌋ / 10 ^ 14|) : ⌈d⌉ = ⌈(m : ℚ) / n⌉ := by
  have hparts : (1 : ℚ) / 10 ^ 14 < 1 / n := by
    have hsmall' : (n : ℚ) < 10 ^ 14 := by exact_mod_cast hsmall
    exact one_div_lt_one_div_of_lt (by exact_mod_cast hn) hsmall'
  have hapart {z : ℤ} (hz : (m : ℚ) / n ≠ z) := one_div_le_abs_sub hn hz
  generalize (m : ℚ) / n = x at *
  by_cases hwhole : x = ⌈x⌉
  · rw [hwhole, cut_of_whole, sub_self, abs_zero] at hnear
    have hsame := sub_eq_zero.mp (abs_eq_zero.mp (le_antisymm hnear (abs_nonneg _)))
    rw [← hsame, Int.ceil_intCast]
  have hcutoff : |x - ⌊x * 10 ^ 14⌋ / 10 ^ 14| < 1 / 10 ^ 14 := by
    have hfloor := Int.floor_le (x * 10 ^ 14)
    have hcut := Int.lt_floor_add_one (x * 10 ^ 14)
    generalize (⌊x * 10 ^ 14⌋ : ℚ) = y at hfloor hcut
    rw [abs_lt]
    constructor <;> linarith
  obtain ⟨hless, hmore⟩ := abs_lt.mp (hnear.trans_lt hcutoff)
  have hceil := Int.ceil_lt_add_one x
  have hlt : x < ⌈x⌉ := lt_of_le_of_ne (Int.le_ceil x) hwhole
  have hbelow : 1 / n ≤ x - (⌈x⌉ - 1 : ℤ) := by
    have hpos : 0 < x - (⌈x⌉ - 1 : ℤ) := by
      push_cast
      linarith
    have hpart := hapart (z := ⌈x⌉ - 1) (sub_ne_zero.mp hpos.ne')
    rwa [abs_of_pos hpos] at hpart
  have habove : 1 / n ≤ ⌈x⌉ - x := by
    have hpart := hapart hwhole
    rwa [abs_of_neg (sub_neg.mpr hlt), neg_sub] at hpart
  push_cast at hbelow
  rw [Int.ceil_eq_iff]
  constructor <;> linarith

/-- Few digits leave a quotient room enough: rounded to 28 digits, it is rounded up like the exact one. -/
theorem exists_ceil_div (ha : Coarse k a) (hapos : 0 < a.value) (hb : Coarse k b) (hbpos : 0 < b.value) :
    ∃ d, a.div b = .ok d ∧ d.IsFinite ∧ d.ceil.value = ⌈a.value / b.value⌉ := by
  obtain ⟨m, hm, hmsmall⟩ := ha.exists_coefficient
  obtain ⟨n, hn, hnsmall⟩ := hb.exists_coefficient
  have hten : (0 : ℚ) < 10 ^ (-k) := by positivity
  have hmpos : 0 < m := by
    rw [hm] at hapos
    exact_mod_cast (pos_iff_pos_of_mul_pos hapos).mpr hten
  have hnpos : 0 < n := by
    rw [hn] at hbpos
    exact_mod_cast (pos_iff_pos_of_mul_pos hbpos).mpr hten
  have hn' : (0 : ℚ) < n := by exact_mod_cast hnpos
  have hquotient : a.value / b.value = m / n := by
    rw [hm, hn, mul_div_mul_right _ _ hten.ne']
  have hpos : (0 : ℚ) < m / n := div_pos (by exact_mod_cast hmpos) hn'
  have hless : (m : ℚ) / n < 10 ^ 14 := by
    have hone : (1 : ℚ) ≤ n := by exact_mod_cast hnpos
    have hlarge : (m : ℚ) < 10 ^ 14 := by exact_mod_cast (abs_lt.mp hmsmall).2
    exact (div_le_self (by exact_mod_cast hmpos.le) hone).trans_lt hlarge
  obtain ⟨d, hd⟩ := (exists_div_iff ha.finite hapos hb.finite hbpos).mpr (by
    rw [hquotient]
    refine hless.trans_le (le_trans ?_ (Context.overflow_bounds Context.wide_money).1)
    rw [← zpow_natCast]
    exact zpow_le_zpow_right₀ (by norm_num) (by decide))
  have hfinite := (isFinite_of_div ha.finite hapos hb.finite hbpos hd).1
  have hnear := nearest_of_div ha.finite hapos hb.finite hbpos hd _ (written_cut hpos.le hless)
  rw [hquotient] at hnear ⊢
  refine ⟨d, hd, hfinite, ?_⟩
  rw [value_ceil hfinite, ceil_eq_of_near hnpos (abs_lt.mp hnsmall).2 hnear]

end UsageBilling.Decimal
