import Mathlib.Algebra.Order.Floor.Semifield
import Mathlib.Data.Rat.Floor
import UsageBilling.Decimal.Arithmetic
import UsageBilling.Proofs.Decimal.Nearest

/-! Quotients and order. A quotient is rounded from a number that stands for the exact one: it is the exact one, or
it lies between the same multiples of a unit that is finer than what rounding can tell apart (`scaled_quotient`).
So a quotient is a value as near to the exact one as any (`nearest_of_div`), and larger numbers have no smaller
quotients (`div_mono`), nor fewer whole parts (`ceil_mono`). -/

namespace UsageBilling.Decimal

/-! ### Quotients before rounding -/

theorem scaled_shedZeros (steps c : Nat) (e : Int) :
    scaled (shedZeros steps c e).1 (shedZeros steps c e).2 = scaled c e := by
  induction steps generalizing c e with
  | zero => rfl
  | succ steps ih =>
      rw [shedZeros]
      split
      next hzero =>
        have hten : c = c / 10 * 10 := (Nat.div_mul_cancel (Nat.dvd_of_mod_eq_zero hzero)).symm
        rw [ih, scaled, scaled, zpow_add_one₀ (by norm_num)]
        conv_rhs => rw [hten, Nat.cast_mul]
        push_cast
        ring
      · rfl

/-- How far a quotient is shifted, so that it has one digit more than the context at least. -/
def shiftFor (ca cb : Nat) : Int := digitCount cb - digitCount ca + 29

/-- The number a shifted quotient is rounded from: the number itself if it is whole, and otherwise the whole part
with a further digit. -/
def marked (x : ℚ) : ℚ := if (⌊x⌋₊ : ℚ) = x then x else ⌊x⌋₊ + 1 / 10

variable {ca cb : Nat}

theorem shifted_quotient (shift : Int) : ((ca * pow10 shift.toNat : Nat) : ℚ) / (cb * pow10 (-shift).toNat : Nat) =
    ca / cb * 10 ^ shift := by
  rw [Nat.cast_mul, Nat.cast_mul, cast_pow10, cast_pow10]
  have hcases : shift = shift.toNat ∧ (-shift).toNat = 0 ∨ shift = -((-shift).toNat : Int) ∧ shift.toNat = 0 := by omega
  rcases hcases with ⟨hshift, hzero⟩ | ⟨hshift, hzero⟩
  · rw [hzero, pow_zero, mul_one]
    conv_rhs => rw [hshift, zpow_natCast]
    ring
  · rw [hzero, pow_zero, mul_one]
    conv_rhs => rw [hshift, zpow_neg, zpow_natCast]
    rw [div_mul_eq_div_div, div_eq_mul_inv (_ / _)]

/-- What a quotient is rounded from. -/
theorem scaled_quotient (hcb : 0 < cb) (ideal : Int) :
    scaled (quotient ca cb ideal).1 (quotient ca cb ideal).2 =
      marked (ca / cb * 10 ^ shiftFor ca cb) * 10 ^ (ideal - shiftFor ca cb) := by
  have hshift : (digitCount cb - digitCount ca + money.precision + 1 : Int) = shiftFor ca cb := by
    rw [shiftFor]
    change (_ : Int) + 28 + 1 = _
    omega
  rw [quotient, hshift, ← shifted_quotient]
  generalize ca * pow10 (shiftFor ca cb).toNat = n
  have hd : 0 < cb * pow10 (-shiftFor ca cb).toNat := Nat.mul_pos hcb (pow10_pos _)
  generalize cb * pow10 (-shiftFor ca cb).toNat = d at hd
  have hfloor : ⌊(n : ℚ) / d⌋₊ = n / d := Nat.floor_div_eq_div n d
  have hd' : (d : ℚ) ≠ 0 := by exact_mod_cast hd.ne'
  rw [marked, hfloor]
  by_cases hexact : n % d = 0
  · have hwhole : ((n / d : Nat) : ℚ) = n / d := by
      rw [eq_div_iff hd']
      exact_mod_cast Nat.div_mul_cancel (Nat.dvd_of_mod_eq_zero hexact)
    rw [if_pos hexact, if_pos hwhole, scaled_shedZeros, scaled, hwhole]
  · have hpart : ((n / d : Nat) : ℚ) ≠ n / d := by
      rw [Ne, eq_div_iff hd']
      intro h
      have hmul : n / d * d = n := by exact_mod_cast h
      exact hexact (Nat.mod_eq_zero_of_dvd ⟨n / d, by rw [Nat.mul_comm, hmul]⟩)
    rw [if_neg hexact, if_neg hpart, scaled, sub_eq_add_neg _ (1 : Int), zpow_add₀ (by norm_num)]
    push_cast
    ring

/-- A shifted quotient has 29 digits before the point. -/
theorem pow_le_shifted (hca : 0 < ca) (hcb : 0 < cb) : (10 : ℚ) ^ 28 ≤ ca / cb * 10 ^ shiftFor ca cb := by
  have hlow := (scaled_bounds hca 0).1
  have hhigh := (scaled_bounds hcb 0).2
  rw [scaled, zpow_zero, mul_one] at hlow hhigh
  have hcb' : (0 : ℚ) < cb := by exact_mod_cast hcb
  rw [div_mul_eq_mul_div, le_div_iff₀ hcb']
  calc (10 : ℚ) ^ 28 * cb ≤ 10 ^ (28 : ℤ) * 10 ^ (0 + digitCount cb : ℤ) := by
        rw [zpow_ofNat]
        gcongr
    _ = 10 ^ (0 + digitCount ca - 1 : ℤ) * 10 ^ shiftFor ca cb := by
        rw [← zpow_add₀ (by norm_num), ← zpow_add₀ (by norm_num), shiftFor]
        congr 1
        ring
    _ ≤ ca * 10 ^ shiftFor ca cb := by gcongr

/-! ### What dividing gives -/

/-- A number between two whole ones is as near to a whole number as the marked one, up to a whole distance. -/
theorem abs_sub_le_of_marked {whole n m : Nat} {x : ℚ} (hlow : (whole : ℚ) < x) (hhigh : x < whole + 1)
    (hmark : |(whole + 1 / 10 : ℚ) - n| ≤ m) : |x - n| ≤ m := by
  rw [abs_le] at hmark ⊢
  have hbelow : whole < n + m := by
    have hlt : (whole : ℚ) < n + m := by linarith [hmark.2]
    exact_mod_cast hlt
  have habove : n < whole + m + 1 := by
    have hlt : (n : ℚ) < whole + m + 1 := by linarith [hmark.1]
    exact_mod_cast hlt
  have hbelow' : (whole : ℚ) + 1 ≤ n + m := by exact_mod_cast hbelow
  have habove' : (n : ℚ) ≤ whole + m := by exact_mod_cast Nat.lt_succ_iff.mp habove
  constructor <;> linarith

/-- A whole part of 29 digits is rounded above the further digit: in its 28 leading digits, or as far as the range
of exponents makes it. -/
theorem target_of_marked {whole : Nat} (hlarge : 10 ^ 28 ≤ whole) (g : Int) :
    ∃ j : Nat, money.target (10 * whole + 1) (g - 1) = g + (j + 1 : Nat) ∧
      (money.target (10 * whole + 1) (g - 1) = money.tiny ∨ 10 ^ (j + 28) ≤ whole) := by
  have hpos : 0 < 10 * whole + 1 := Nat.succ_pos _
  have hdigits : 30 ≤ digitCount (10 * whole + 1) := by
    by_contra hfew
    have hbound : 10 * whole + 1 < pow10 29 := lt_pow10_of_digitCount_le (by omega)
    have hpower : pow10 29 = 10 * 10 ^ 28 := by decide
    omega
  have hlead : 10 ^ (digitCount (10 * whole + 1) - 2) ≤ whole := by
    have hbound : pow10 (digitCount (10 * whole + 1) - 1) ≤ 10 * whole + 1 := (digitCount_bounds hpos).2
    have hstep : digitCount (10 * whole + 1) - 1 = digitCount (10 * whole + 1) - 2 + 1 := by omega
    rw [hstep, pow10_succ] at hbound
    change pow10 (digitCount (10 * whole + 1) - 2) ≤ whole
    omega
  rw [money_target]
  generalize digitCount (10 * whole + 1) = digits at hdigits hlead
  rcases le_total (g - 1 + digits - 28) money.tiny with htiny | hleads
  · refine ⟨(money.tiny - g - 1).toNat, ?_, Or.inl ?_⟩ <;> omega
  · refine ⟨digits - 30, ?_, Or.inr ?_⟩
    · omega
    · have hexp : digits - 30 + 28 = digits - 2 := by omega
      rw [hexp]
      exact hlead

/-- Numbers between two multiples of a unit have the nearest value of one of them, where these have 29 digits. -/
theorem nearest_of_part {whole : Nat} {x : ℚ} {g : Int} {d : Decimal} (hlarge : 10 ^ 28 ≤ whole)
    (hlow : (whole : ℚ) < x) (hhigh : x < whole + 1) (h : money.round false (10 * whole + 1) (g - 1) = .ok d) :
    Nearest (x * 10 ^ g) d.value := by
  have hten : (0 : ℚ) < 10 ^ g := by positivity
  have hpos : 0 < 10 * whole + 1 := Nat.succ_pos _
  rw [value_of_round_pos hpos h, value_finite, if_neg Bool.false_ne_true]
  have hhalf := abs_sub_halfEven_le (c := 10 * whole + 1) (Context.le_target money (10 * whole + 1) (g - 1)).1
  obtain ⟨j, htarget, hfine⟩ := target_of_marked hlarge g
  rw [htarget] at hhalf hfine ⊢
  generalize halfEven (10 * whole + 1) (pow10 (g + (j + 1 : Nat) - (g - 1)).toNat) = q at hhalf
  have hmark : scaled (10 * whole + 1) (g - 1) = (whole + 1 / 10) * 10 ^ g := by
    rw [scaled, zpow_sub_one₀ (by norm_num)]
    push_cast
    ring
  have hscaled : scaled q (g + (j + 1 : Nat)) = ((q * 10 ^ (j + 1) : Nat) : ℚ) * 10 ^ g := by
    rw [scaled, zpow_add₀ (by norm_num), zpow_natCast]
    push_cast
    ring
  -- In units of `10 ^ g`, the middle between two results is a whole number.
  have hmiddle : (10 : ℚ) ^ (g + (j + 1 : Nat)) / 2 = ((5 * 10 ^ j : Nat) : ℚ) * 10 ^ g := by
    rw [zpow_add₀ (by norm_num), zpow_natCast, pow_succ]
    push_cast
    ring
  apply nearest_of_half
  · rw [hmark, hscaled, hmiddle, ← sub_mul, abs_mul, abs_of_pos hten, mul_le_mul_iff_left₀ hten] at hhalf
    rw [hscaled, hmiddle, ← sub_mul, abs_mul, abs_of_pos hten, mul_le_mul_iff_left₀ hten]
    exact abs_sub_le_of_marked hlow hhigh hhalf
  · right
    rcases hfine with htiny | hlead
    · exact Or.inl htiny
    · right
      have hexp : g + (j + 1 : Nat) + 27 = ((j + 28 : Nat) : Int) + g := by omega
      rw [hexp, zpow_add₀ (by norm_num), zpow_natCast]
      refine mul_le_mul_of_nonneg_right ?_ hten.le
      calc (10 : ℚ) ^ (j + 28) ≤ whole := by exact_mod_cast hlead
        _ ≤ x := hlow.le

/-- What a shifted quotient is rounded from has a nearest value of the quotient. -/
theorem nearest_of_marked {x : ℚ} {c : Nat} {e g : Int} {d : Decimal} (hlarge : 10 ^ 28 ≤ x)
    (hvalue : scaled c e = marked x * 10 ^ g) (h : money.round false c e = .ok d) : Nearest (x * 10 ^ g) d.value := by
  rw [marked] at hvalue
  by_cases hwhole : (⌊x⌋₊ : ℚ) = x
  · rw [if_pos hwhole] at hvalue
    have hnear := nearest_of_round h
    rw [value_finite, if_neg Bool.false_ne_true, hvalue] at hnear
    exact hnear
  · rw [if_neg hwhole] at hvalue
    have hnonneg : 0 ≤ x := le_trans (by positivity) hlarge
    have hmark : (finite false c e).value = (finite false (10 * ⌊x⌋₊ + 1) (g - 1)).value := by
      rw [value_finite, value_finite, if_neg Bool.false_ne_true, if_neg Bool.false_ne_true, hvalue, scaled,
        zpow_sub_one₀ (by norm_num)]
      push_cast
      ring
    obtain ⟨d', hd', hsame⟩ := round_congr hmark h
    rw [← hsame]
    apply nearest_of_part _ _ (Nat.lt_floor_add_one x) hd'
    · exact Nat.le_floor (by exact_mod_cast hlarge)
    · exact lt_of_le_of_ne (Nat.floor_le hnonneg) hwhole

section

variable {a a' b d d' : Decimal}

theorem exists_of_pos (ha : a.IsFinite) (hpos : 0 < a.value) :
    ∃ c e, a = finite false c e ∧ 0 < c ∧ a.value = scaled c e := by
  obtain ⟨n, c, e, rfl⟩ := ha.exists
  have hc : 0 < c := by
    refine Nat.pos_of_ne_zero ?_
    rintro rfl
    rw [value_finite_zero] at hpos
    exact lt_irrefl _ hpos
  cases n with
  | false => exact ⟨c, e, rfl, hc, by rw [value_finite, if_neg Bool.false_ne_true]⟩
  | true =>
      rw [value_finite, if_pos rfl] at hpos
      linarith [scaled_pos (e := e) hc]

theorem div_of_pos {ca cb : Nat} (hca : 0 < ca) (hcb : 0 < cb) (ea eb : Int) :
    (finite false ca ea).div (finite false cb eb) =
      money.round false (quotient ca cb (ea - eb)).1 (quotient ca cb (ea - eb)).2 := by
  rw [div, if_neg hcb.ne', if_neg hca.ne']
  rfl

theorem value_div_value {ca cb : Nat} (ea eb : Int) : scaled ca ea / scaled cb eb =
    ca / cb * 10 ^ shiftFor ca cb * 10 ^ (ea - eb - shiftFor ca cb) := by
  rw [mul_assoc, ← zpow_add₀ (by norm_num), add_sub_cancel, scaled, scaled, mul_div_mul_comm, zpow_sub₀ (by norm_num)]

/-- A quotient has a value as near to the exact one as any. -/
theorem nearest_of_div (ha : a.IsFinite) (hapos : 0 < a.value) (hb : b.IsFinite) (hbpos : 0 < b.value)
    (h : a.div b = .ok d) : Nearest (a.value / b.value) d.value := by
  obtain ⟨ca, ea, rfl, hca, hav⟩ := exists_of_pos ha hapos
  obtain ⟨cb, eb, rfl, hcb, hbv⟩ := exists_of_pos hb hbpos
  rw [hav, hbv, value_div_value]
  rw [div_of_pos hca hcb] at h
  exact nearest_of_marked (pow_le_shifted hca hcb) (scaled_quotient hcb (ea - eb)) h

theorem div_congr (ha : a.IsFinite) (ha' : a'.IsFinite) (hpos : 0 < a.value) (hb : b.IsFinite) (hbpos : 0 < b.value)
    (heq : a.value = a'.value) (h : a.div b = .ok d) (h' : a'.div b = .ok d') : d.value = d'.value := by
  obtain ⟨ca, ea, rfl, hca, hav⟩ := exists_of_pos ha hpos
  obtain ⟨ca', ea', rfl, hca', hav'⟩ := exists_of_pos ha' (heq ▸ hpos)
  obtain ⟨cb, eb, rfl, hcb, hbv⟩ := exists_of_pos hb hbpos
  have hscaled : scaled ca ea = scaled ca' ea' := by rw [← hav, ← hav', heq]
  have hlead := leading_eq hca hca' hscaled
  rw [div_of_pos hca hcb] at h
  rw [div_of_pos hca' hcb] at h'
  have hunit : ea - eb - shiftFor ca cb = ea' - eb - shiftFor ca' cb := by
    rw [shiftFor, shiftFor]
    omega
  have hquotient : (ca : ℚ) / cb * 10 ^ shiftFor ca cb = ca' / cb * 10 ^ shiftFor ca' cb := by
    have hten : (10 : ℚ) ^ (ea - eb - shiftFor ca cb) ≠ 0 := by positivity
    refine mul_right_cancel₀ hten ?_
    conv_rhs => rw [hunit]
    rw [← value_div_value, ← value_div_value, hscaled]
  have hsame : (finite false (quotient ca cb (ea - eb)).1 (quotient ca cb (ea - eb)).2).value =
      (finite false (quotient ca' cb (ea' - eb)).1 (quotient ca' cb (ea' - eb)).2).value := by
    rw [value_finite, value_finite, if_neg Bool.false_ne_true, if_neg Bool.false_ne_true, scaled_quotient hcb,
      scaled_quotient hcb, hquotient, hunit]
  obtain ⟨d'', hd'', hvalue⟩ := round_congr hsame h
  obtain rfl : d' = d'' := Except.ok.inj (h'.symm.trans hd'')
  exact hvalue.symm

theorem isFinite_of_div (ha : a.IsFinite) (hapos : 0 < a.value) (hb : b.IsFinite) (hbpos : 0 < b.value)
    (h : a.div b = .ok d) : d.IsFinite ∧ money.Holds d.value := by
  obtain ⟨ca, ea, rfl, hca, -⟩ := exists_of_pos ha hapos
  obtain ⟨cb, eb, rfl, hcb, -⟩ := exists_of_pos hb hbpos
  rw [div_of_pos hca hcb] at h
  exact holds_of_round h

theorem div_mono (ha : a.IsFinite) (ha' : a'.IsFinite) (hpos : 0 < a.value) (hb : b.IsFinite) (hbpos : 0 < b.value)
    (hle : a.value ≤ a'.value) (h : a.div b = .ok d) (h' : a'.div b = .ok d') : d.value ≤ d'.value := by
  have hpos' : 0 < a'.value := lt_of_lt_of_le hpos hle
  rcases hle.lt_or_eq with hlt | heq
  · apply le_of_nearest (nearest_of_div ha hpos hb hbpos h) (nearest_of_div ha' hpos' hb hbpos h')
      (isFinite_of_div ha hpos hb hbpos h).2.written (isFinite_of_div ha' hpos' hb hbpos h').2.written
    exact div_lt_div_of_pos_right hlt hbpos
  · exact (div_congr ha ha' hpos hb hbpos heq h h').le

/-! ### Whole numbers -/

theorem isFinite_ceil (ha : a.IsFinite) : (ceil a).IsFinite := by
  obtain ⟨n, c, e, rfl⟩ := ha.exists
  rw [ceil]
  split <;> exact trivial

theorem ceil_neg_div (c p : Nat) : ⌈-(c : ℚ) / p⌉ = -((c / p : Nat) : ℤ) := by
  rw [neg_div, Int.ceil_neg, Rat.floor_natCast_div_natCast]
  rfl

theorem ceil_div_of_pos {c p : Nat} (hp : 0 < p) :
    ⌈(c : ℚ) / p⌉ = ((if c % p = 0 then c / p else c / p + 1 : Nat) : ℤ) := by
  have hp' : (0 : ℚ) < p := by exact_mod_cast hp
  have hdiv : c / p * p + c % p = c := Nat.div_add_mod' c p
  have hmod : c % p < p := Nat.mod_lt c hp
  rw [Int.ceil_eq_iff, lt_div_iff₀ hp', div_le_iff₀ hp']
  generalize c / p = f at hdiv
  split
  next hexact =>
    have hc : (f : ℚ) * p = c := by
      rw [hexact, Nat.add_zero] at hdiv
      exact_mod_cast hdiv
    push_cast
    constructor <;> linarith
  next hpart =>
    have hlow : (f : ℚ) * p < c := by exact_mod_cast (show f * p < c by omega)
    have hhigh : (c : ℚ) < (f + 1) * p := by exact_mod_cast (show c < (f + 1) * p by rw [Nat.add_mul]; omega)
    push_cast
    constructor <;> linarith

theorem value_ceil (ha : a.IsFinite) : (ceil a).value = ⌈a.value⌉ := by
  obtain ⟨n, c, e, rfl⟩ := ha.exists
  have hwhole (m : Bool) (k : Nat) : (finite m k 0).value = ((signed m k : Int) : ℚ) := by
    rw [value, zpow_zero, mul_one]
  rw [ceil]
  by_cases hexp : 0 ≤ e
  · have hvalue : (finite n c e).value = ((signed n c * 10 ^ e.toNat : Int) : ℚ) := by
      have hnat : e = (e.toNat : Int) := (Int.toNat_of_nonneg hexp).symm
      rw [value]
      conv_lhs => rw [hnat, zpow_natCast]
      push_cast
      ring
    rw [if_pos hexp, hvalue, Int.ceil_intCast]
  · have hvalue : (finite n c e).value = signed n c / pow10 (-e).toNat := by
      have hneg : e = -((-e).toNat : Int) := by omega
      rw [value, cast_pow10, div_eq_mul_inv]
      conv_lhs => rw [hneg, zpow_neg, zpow_natCast]
    rw [if_neg hexp, hwhole, hvalue, Int.cast_inj, signed, signed]
    cases n with
    | true => rw [if_pos rfl, if_pos rfl, Bool.true_or, if_pos rfl, Int.cast_neg, Int.cast_natCast, ceil_neg_div]
    | false =>
        rw [if_neg Bool.false_ne_true, if_neg Bool.false_ne_true, Int.cast_natCast, ceil_div_of_pos (pow10_pos _)]
        simp only [Bool.false_or, decide_eq_true_eq]

theorem ceil_mono (ha : a.IsFinite) (hb : b.IsFinite) (hle : a.value ≤ b.value) : (ceil a).value ≤ (ceil b).value := by
  rw [value_ceil ha, value_ceil hb]
  exact_mod_cast Int.ceil_le_ceil hle

end

end UsageBilling.Decimal
