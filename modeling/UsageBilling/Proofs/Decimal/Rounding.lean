import Mathlib.Algebra.Order.Field.Power
import Mathlib.Algebra.Order.Field.Rat
import Mathlib.Data.Rat.Cast.Defs
import Mathlib.Tactic.FieldSimp
import Mathlib.Tactic.Linarith
import Mathlib.Tactic.Positivity
import Mathlib.Tactic.Ring
import UsageBilling.Decimal.Basic

/-! What rounding does to values. A context holds the values that it has digits and exponents for
(`Context.Holds`). Rounding leaves these as they are and gives nothing else (`round_of_holds`,
`holds_of_round`), and it depends on the value that is rounded, not on how that is written
(`round_congr`). -/

namespace UsageBilling.Decimal

/-! ### Powers of ten and digits -/

theorem cast_pow10 (n : Nat) : ((pow10 n : Nat) : ℚ) = 10 ^ n := by
  rw [show pow10 n = 10 ^ n from rfl, Nat.cast_pow, Nat.cast_ofNat]

/-- The value of a coefficient at an exponent. -/
def scaled (coefficient : Nat) (exponent : Int) : ℚ := coefficient * 10 ^ exponent

variable {c n : Nat} {e f : Int}

theorem scaled_shift {t : Int} (h : f ≤ t) : scaled (n * pow10 (t - f).toNat) f = scaled n t := by
  have hexp : t = ((t - f).toNat : Int) + f := by omega
  rw [scaled, scaled, Nat.cast_mul, cast_pow10]
  conv_rhs => rw [hexp, zpow_add₀ (by norm_num), zpow_natCast]
  ring

theorem scaled_pos (h : 0 < c) : 0 < scaled c e := by
  rw [scaled]
  positivity

theorem digitCount_pos (h : 0 < n) : 0 < digitCount n := by
  refine Nat.pos_of_ne_zero fun h0 => ?_
  have hlt := (digitCount_bounds h).1
  rw [h0, pow10_zero] at hlt
  omega

/-- The digits of a number tell between which powers of ten its value lies. -/
theorem scaled_bounds (h : 0 < c) (e : Int) :
    (10 : ℚ) ^ (e + digitCount c - 1) ≤ scaled c e ∧ scaled c e < 10 ^ (e + digitCount c) := by
  obtain ⟨hlt, hle⟩ := digitCount_bounds h
  have hpos := digitCount_pos h
  have hten : (0 : ℚ) < 10 ^ e := by positivity
  constructor
  · have hexp : e + digitCount c - 1 = ((digitCount c - 1 : Nat) : Int) + e := by omega
    rw [scaled, hexp, zpow_add₀ (by norm_num), zpow_natCast, ← cast_pow10]
    exact mul_le_mul_of_nonneg_right (by exact_mod_cast hle) hten.le
  · rw [scaled, add_comm, zpow_add₀ (by norm_num), zpow_natCast, ← cast_pow10]
    exact mul_lt_mul_of_pos_right (by exact_mod_cast hlt) hten

theorem exponent_lt_of_lt {a b : Int} (h : (10 : ℚ) ^ a < 10 ^ b) : a < b :=
  (zpow_lt_zpow_iff_right₀ (by norm_num)).mp h

theorem leading_le_of_lt (hc : 0 < c) {a : Int} (h : scaled c e < 10 ^ a) : e + digitCount c ≤ a := by
  have := exponent_lt_of_lt ((scaled_bounds hc e).1.trans_lt h)
  omega

theorem leading_eq (hc : 0 < c) (hn : 0 < n) (h : scaled c e = scaled n f) :
    e + digitCount c = f + digitCount n := by
  have hle := leading_le_of_lt hc (h ▸ (scaled_bounds hn f).2)
  have hge := leading_le_of_lt hn (h ▸ (scaled_bounds hc e).2)
  omega

theorem digitCount_le_of_lt {k : Nat} (hn : 0 < n) (h : n < pow10 k) : digitCount n ≤ k := by
  have hlt : scaled n 0 < 10 ^ (k : Int) := by
    rw [scaled, zpow_zero, mul_one, zpow_natCast, ← cast_pow10]
    exact_mod_cast h
  have := leading_le_of_lt hn hlt
  omega

theorem lt_pow10_of_digitCount_le {k : Nat} (h : digitCount n ≤ k) : n < pow10 k :=
  Nat.lt_of_lt_of_le (lt_pow10_digitCount n) (pow10_le_pow10 h)

/-! ### Nearest whole numbers -/

theorem halfEven_mul_self (q : Nat) {d : Nat} (h : 0 < d) : halfEven (q * d) d = q := by
  rw [halfEven, Nat.mul_div_cancel q h, Nat.mul_mod_left]
  simp [h]

theorem halfEven_mul_mul (n d : Nat) {k : Nat} (h : 0 < k) : halfEven (n * k) (d * k) = halfEven n d := by
  have hdiv : n * k / (d * k) = n / d := Nat.mul_div_mul_right n d h
  have hmod : n * k % (d * k) = n % d * k := Nat.mul_mod_mul_right k n d
  have hlt : 2 * (n % d * k) < d * k ↔ 2 * (n % d) < d := by
    rw [← Nat.mul_assoc, Nat.mul_lt_mul_right h]
  have heq : 2 * (n % d * k) = d * k ↔ 2 * (n % d) = d := by
    rw [← Nat.mul_assoc, Nat.mul_left_inj (by omega)]
  rw [halfEven, halfEven, hdiv, hmod]
  simp only [hlt, heq]

theorem scaled_inj {a b : Nat} (h : scaled a e = scaled b e) : a = b := by
  have hten : (10 : ℚ) ^ e ≠ 0 := by positivity
  exact_mod_cast mul_right_cancel₀ hten h

theorem pos_of_scaled_eq (hc : 0 < c) (h : scaled c e = scaled n f) : 0 < n := by
  refine Nat.pos_of_ne_zero fun h0 => ?_
  have hpos := scaled_pos (e := e) hc
  rw [h, h0, scaled, Nat.cast_zero, zero_mul] at hpos
  exact lt_irrefl _ hpos

theorem pow10_add (m n : Nat) : pow10 (m + n) = pow10 m * pow10 n := Nat.pow_add 10 m n

theorem halfEven_congr (h : scaled n f = scaled c e) {t : Int} (hf : f ≤ t) (he : e ≤ t) :
    halfEven n (pow10 (t - f).toNat) = halfEven c (pow10 (t - e).toNat) := by
  have hfiner {a b : Nat} {g k : Int} (h : scaled a g = scaled b k) (hgk : g ≤ k) (hk : k ≤ t) :
      halfEven a (pow10 (t - g).toNat) = halfEven b (pow10 (t - k).toNat) := by
    have ha : a = b * pow10 (k - g).toNat := scaled_inj (h.trans (scaled_shift hgk).symm)
    have ht : (t - g).toNat = (t - k).toNat + (k - g).toNat := by omega
    rw [ht, pow10_add, ha, halfEven_mul_mul b _ (pow10_pos _)]
  rcases Int.le_total f e with hfe | hef
  · exact hfiner h hfe he
  · exact (hfiner h.symm hef hf).symm

/-! ### Values that a context holds -/

namespace Context

/-- A value that can be written with the digits of a context, not below its subnormal range. -/
def Written (ctx : Context) (x : ℚ) : Prop :=
  ∃ (n : Nat) (f : Int), |x| = scaled n f ∧ n < pow10 ctx.precision ∧ ctx.tiny ≤ f

/-- A value that a context holds: written with its digits, and not above its largest exponent. -/
structure Holds (ctx : Context) (x : ℚ) : Prop where
  written : ctx.Written x
  below : |x| < 10 ^ (ctx.maxExponent + 1)

variable {ctx : Context} {negative : Bool}

theorem Holds.of_abs_eq {x y : ℚ} (h : ctx.Holds x) (hxy : |y| = |x|) : ctx.Holds y :=
  ⟨by rw [Written, hxy]; exact h.written, by rw [hxy]; exact h.below⟩

theorem abs_scaled (c : Nat) (e : Int) : |scaled c e| = scaled c e :=
  abs_of_nonneg (by rw [scaled]; positivity)

theorem le_target (ctx : Context) (c : Nat) (e : Int) : e ≤ ctx.target c e ∧
    e + digitCount c - ctx.precision ≤ ctx.target c e ∧ ctx.tiny ≤ ctx.target c e := by
  rw [target]
  omega

/-- A written value is a multiple of the power of ten at which its coefficient has to end. -/
theorem Written.exact (hc : 0 < c) (h : ctx.Written (scaled c e)) :
    ∃ q, scaled c e = scaled q (ctx.target c e) := by
  obtain ⟨n, f, heq, hn, hf⟩ := h
  rw [abs_scaled] at heq
  have hlead := leading_eq hc (pos_of_scaled_eq hc heq) heq
  have hdigits := digitCount_le_of_lt (pos_of_scaled_eq hc heq) hn
  by_cases htarget : ctx.target c e ≤ f
  · exact ⟨n * pow10 (f - ctx.target c e).toNat, by rw [heq, scaled_shift htarget]⟩
  · have hkeep : ctx.target c e = e := by
      rw [target] at *
      omega
    exact ⟨c, by rw [hkeep]⟩

/-- What rounding makes of a coefficient that ends where it has to: a carry into a further digit is
shifted out, and a leading digit above the largest exponent overflows. -/
def settle (ctx : Context) (negative : Bool) (q : Nat) (t : Int) : Except Fault Decimal :=
  let q' := if pow10 ctx.precision ≤ q then q / 10 else q
  let t' := if pow10 ctx.precision ≤ q then t + 1 else t
  if ctx.maxExponent < t' + digitCount q' - 1 then .error .overflow else .ok (.finite negative q' t')

theorem settle_eq_ok {q : Nat} {t : Int} {d : Decimal} (h : ctx.settle negative q t = .ok d) : ∃ q' t',
    d = .finite negative q' t' ∧ t' + digitCount q' - 1 ≤ ctx.maxExponent ∧ t ≤ t' ∧
      (q ≤ pow10 ctx.precision → q' < pow10 ctx.precision) := by
  have hpos := pow10_pos ctx.precision
  have hdigits : q ≤ pow10 ctx.precision →
      (if pow10 ctx.precision ≤ q then q / 10 else q) < pow10 ctx.precision := by
    intro hle
    split <;> omega
  have hexp : t ≤ (if pow10 ctx.precision ≤ q then t + 1 else t) := by
    split <;> omega
  rw [settle] at h
  generalize (if pow10 ctx.precision ≤ q then q / 10 else q) = q' at hdigits h
  generalize (if pow10 ctx.precision ≤ q then t + 1 else t) = t' at hexp h
  split at h
  · cases h
  next hfits => exact ⟨q', t', (Except.ok.inj h).symm, Int.not_lt.mp hfits, hexp, hdigits⟩

theorem round_of_pos (ctx : Context) (negative : Bool) (hc : 0 < c) (e : Int) :
    ctx.round negative c e = ctx.settle negative (halfEven c (pow10 (ctx.target c e - e).toNat)) (ctx.target c e) := by
  rw [round, if_neg (by omega), settle]
  simp only [decide_eq_true_eq]

/-- Rounding a written value keeps it, or overflows. -/
theorem round_exact (hc : 0 < c) {q : Nat} (h : scaled c e = scaled q (ctx.target c e)) :
    ctx.round negative c e = if ctx.maxExponent < e + digitCount c - 1 then .error .overflow
      else .ok (.finite negative q (ctx.target c e)) := by
  obtain ⟨hle, hdigits, -⟩ := ctx.le_target c e
  have hq := pos_of_scaled_eq hc h
  have hlead := leading_eq hc hq h
  have hcoefficient : c = q * pow10 (ctx.target c e - e).toNat :=
    scaled_inj (h.trans (scaled_shift hle).symm)
  have hhalf : halfEven c (pow10 (ctx.target c e - e).toNat) = q := by
    generalize (ctx.target c e - e).toNat = k at hcoefficient
    rw [hcoefficient]
    exact halfEven_mul_self q (pow10_pos k)
  have hcarried : ¬ pow10 ctx.precision ≤ q :=
    Nat.not_le.mpr (lt_pow10_of_digitCount_le (show digitCount q ≤ ctx.precision by omega))
  rw [round_of_pos ctx negative hc, hhalf, settle, if_neg hcarried, if_neg hcarried, hlead]

theorem round_of_holds (hc : 0 < c) (h : ctx.Holds (scaled c e)) : ∃ q f,
    ctx.round negative c e = .ok (.finite negative q f) ∧ scaled q f = scaled c e := by
  obtain ⟨q, hq⟩ := h.written.exact hc
  have hbelow := h.below
  rw [abs_scaled] at hbelow
  have hlead := leading_le_of_lt hc hbelow
  refine ⟨q, ctx.target c e, ?_, hq.symm⟩
  rw [round_exact hc hq, if_neg (by omega)]

/-- A coefficient that has few enough digits and ends high enough is written as it is. -/
theorem written_of_target_eq (h : ctx.target c e = e) : ctx.Written (scaled c e) := by
  obtain ⟨-, hdigits, htiny⟩ := ctx.le_target c e
  rw [h] at hdigits htiny
  exact ⟨c, e, abs_scaled c e, lt_pow10_of_digitCount_le (by omega), htiny⟩

theorem round_congr (hc : 0 < c) (h : scaled c e = scaled n f) {a : Nat} {t : Int}
    (hr : ctx.round negative c e = .ok (.finite negative a t)) : ∃ b s,
    ctx.round negative n f = .ok (.finite negative b s) ∧ scaled b s = scaled a t := by
  have hn := pos_of_scaled_eq hc h
  have hlead := leading_eq hc hn h
  by_cases hwritten : ctx.Written (scaled c e)
  · obtain ⟨q, hq⟩ := hwritten.exact hc
    obtain ⟨q', hq'⟩ := (h ▸ hwritten).exact hn
    rw [round_exact hc hq] at hr
    split at hr
    · cases hr
    next hfits =>
      obtain ⟨rfl, rfl⟩ : q = a ∧ ctx.target c e = t := by simpa using hr
      refine ⟨q', ctx.target n f, ?_, by rw [← hq', ← h, hq]⟩
      rw [round_exact hn hq', ← hlead, if_neg hfits]
  · have hce : ctx.target c e ≠ e := fun heq => hwritten (written_of_target_eq heq)
    have hnf : ctx.target n f ≠ f := fun heq => hwritten (h ▸ written_of_target_eq heq)
    have htc : ctx.target c e = max (max e (e + digitCount c - ctx.precision)) ctx.tiny := rfl
    have htn : ctx.target n f = max (max f (f + digitCount n - ctx.precision)) ctx.tiny := rfl
    have htarget : ctx.target n f = ctx.target c e := by omega
    have hhalf : halfEven n (pow10 (ctx.target n f - f).toNat) =
        halfEven c (pow10 (ctx.target c e - e).toNat) := by
      rw [htarget]
      exact halfEven_congr h.symm (by omega) (by omega)
    refine ⟨a, t, ?_, rfl⟩
    rw [round_of_pos ctx negative hn, hhalf, htarget, ← round_of_pos ctx negative hc, hr]

theorem finite_of_round {d : Decimal} (hr : ctx.round negative c e = .ok d) : ∃ a t, d = .finite negative a t := by
  rcases Nat.eq_zero_or_pos c with rfl | hc
  · rw [round, if_pos rfl] at hr
    exact ⟨_, _, (Except.ok.inj hr).symm⟩
  · rw [round_of_pos ctx negative hc] at hr
    obtain ⟨a, t, hd, -⟩ := settle_eq_ok hr
    exact ⟨a, t, hd⟩

/-- The nearest number of units has the digits of the context, or is the next power of ten. -/
theorem halfEven_le_pow10 (ctx : Context) (c : Nat) (e : Int) :
    halfEven c (pow10 (ctx.target c e - e).toNat) ≤ pow10 ctx.precision := by
  obtain ⟨-, hdigits, -⟩ := ctx.le_target c e
  have hc := lt_pow10_digitCount c
  have hexp : digitCount c ≤ (ctx.target c e - e).toNat + ctx.precision := by omega
  have hbound := Nat.lt_of_lt_of_le hc (pow10_le_pow10 hexp)
  rw [pow10_add] at hbound
  generalize pow10 (ctx.target c e - e).toNat = d at hbound
  have hhalf := @halfEven_mul_le c d
  by_contra hgt
  have hmul : (pow10 ctx.precision + 1) * d ≤ halfEven c d * d := Nat.mul_le_mul_right d (by omega)
  have hcomm : (pow10 ctx.precision + 1) * d = d * pow10 ctx.precision + d := by ring
  omega

theorem holds_of_round (hc : 0 < c) {a : Nat} {t : Int}
    (hr : ctx.round negative c e = .ok (.finite negative a t)) : ctx.Holds (scaled a t) := by
  obtain ⟨-, -, htiny⟩ := ctx.le_target c e
  rw [round_of_pos ctx negative hc] at hr
  obtain ⟨b, s, hd, hfits, hexp, hdigits⟩ := settle_eq_ok hr
  injection hd with _ ha ht
  subst ha ht
  refine ⟨⟨a, t, abs_scaled a t, hdigits (halfEven_le_pow10 ctx c e), by omega⟩, ?_⟩
  rw [abs_scaled]
  rcases Nat.eq_zero_or_pos a with rfl | hpos
  · rw [scaled, Nat.cast_zero, zero_mul]
    positivity
  · exact (scaled_bounds hpos t).2.trans_le (zpow_le_zpow_right₀ (by norm_num) (by omega))

end Context
end UsageBilling.Decimal
