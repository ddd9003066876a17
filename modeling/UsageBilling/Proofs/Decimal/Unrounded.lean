import Mathlib.Algebra.BigOperators.Ring.List
import Mathlib.Data.List.Infix
import UsageBilling.Proofs.Decimal.Value

/-! Sums that need no rounding. What some finite numbers come to exactly does not depend on their order
(`exactSum_perm`), and they are added up to just that where no sum of the first ones has to be rounded
(`Unrounded.sum_eq`). -/

namespace UsageBilling.Decimal

variable {xs ys : List Decimal}

/-! ### Exact sums -/

def exponent : Decimal → Int
  | finite _ _ e => e
  | _ => 0

/-- A finite number in units of `10 ^ unit`, where that is not above its exponent. -/
def units (unit : Int) : Decimal → Int
  | finite n c e => inUnits unit n c e
  | _ => 0

/-- The least of the exponents of some numbers and that of zero. -/
def leastExponent (xs : List Decimal) : Int := (xs.map exponent).foldl min 0

/-- What finite numbers come to when they are added to zero and no sum is rounded. -/
def exactSum (xs : List Decimal) : Decimal :=
  let total := (xs.map (units (leastExponent xs))).sum
  finite (total < 0) total.natAbs (leastExponent xs)

theorem exactSum_perm (h : ys.Perm xs) : exactSum ys = exactSum xs := by
  have hunit : leastExponent ys = leastExponent xs := (h.map exponent).foldl_eq 0
  rw [exactSum, exactSum, hunit, (h.map _).sum_eq]

theorem leastExponent_concat (xs : List Decimal) (x : Decimal) :
    leastExponent (xs ++ [x]) = min (leastExponent xs) x.exponent := by
  rw [leastExponent, List.map_append, List.foldl_append]
  rfl

theorem leastExponent_le {x : Decimal} (hx : x ∈ xs) : leastExponent xs ≤ x.exponent := by
  induction xs using List.reverseRecOn with
  | nil => cases hx
  | append_singleton xs y ih =>
      rw [leastExponent_concat]
      rcases List.mem_append.mp hx with hx | hx
      · exact (min_le_left _ _).trans (ih hx)
      · rw [List.mem_singleton.mp hx]
        exact min_le_right _ _

theorem units_mul {unit unit' : Int} (hunit : unit' ≤ unit) {x : Decimal} (hx : unit ≤ x.exponent) :
    units unit' x = units unit x * pow10 (unit - unit').toNat := by
  cases x with
  | infinity => simp [units]
  | nan => simp [units]
  | finite n c e =>
      have hsteps : (e - unit').toNat = (e - unit).toNat + (unit - unit').toNat := by
        change unit ≤ e at hx
        omega
      have hpow : pow10 (e - unit').toNat = pow10 (e - unit).toNat * pow10 (unit - unit').toNat := by
        rw [hsteps, pow10, pow10, pow10]
        exact Nat.pow_add 10 _ _
      rw [units, units, inUnits, inUnits, hpow, Nat.cast_mul, mul_assoc]

theorem sum_units_mul {unit unit' : Int} (hunit : unit' ≤ unit) (hxs : ∀ x ∈ xs, unit ≤ x.exponent) :
    (xs.map (units unit')).sum = (xs.map (units unit)).sum * pow10 (unit - unit').toNat := by
  rw [← List.sum_map_mul_right]
  exact congrArg List.sum (List.map_congr_left fun x hx => units_mul hunit (hxs x hx))

/-! ### Rounding -/

/-- A number as the context for money writes it. -/
def rounded : Decimal → Except Fault Decimal
  | finite n c e => money.round n c e
  | d => .ok d

theorem signed_natAbs (total : Int) : signed (decide (total < 0)) total.natAbs = total := by
  rcases Int.lt_or_le total 0 with hneg | hnonneg
  · rw [decide_eq_true hneg]
    change -(total.natAbs : Int) = total
    omega
  · rw [decide_eq_false (Int.not_lt.mpr hnonneg)]
    change (total.natAbs : Int) = total
    omega

/-- A sum of zero is not one of two negative numbers: the first is negative only below zero. -/
theorem sign_of_sum {total : Int} {n : Bool} {c p q : Nat} (hp : 0 < p) :
    (if total * p + signed n c * q = 0 then decide (total < 0) && n else decide (total * p + signed n c * q < 0)) =
      decide (total * p + signed n c * q < 0) := by
  split
  next hzero =>
    rw [hzero, decide_eq_false (Int.lt_irrefl 0), Bool.and_eq_false_iff]
    cases n with
    | false => exact Or.inr rfl
    | true =>
        refine Or.inl (decide_eq_false fun hneg => ?_)
        have hfirst : total * p < 0 := Int.mul_neg_of_neg_of_pos hneg (by exact_mod_cast hp)
        have hsecond : signed true c * q ≤ 0 :=
          Int.mul_nonpos_of_nonpos_of_nonneg (by simp [signed]) (Int.natCast_nonneg q)
        omega
  next => rfl

/-- A finite number is added to an exact sum by rounding the exact sum with it. -/
theorem add_exactSum {x : Decimal} (hx : x.IsFinite) : (exactSum xs).add x = (exactSum (xs ++ [x])).rounded := by
  obtain ⟨n, c, e, rfl⟩ := hx.exists
  have hunit : leastExponent (xs ++ [finite n c e]) = min (leastExponent xs) e := leastExponent_concat xs _
  generalize hu : min (leastExponent xs) e = unit at hunit
  have hle : unit ≤ leastExponent xs := hu ▸ min_le_left _ _
  have htotal : ((xs ++ [finite n c e]).map (units unit)).sum =
      (xs.map (units (leastExponent xs))).sum * pow10 (leastExponent xs - unit).toNat +
        signed n c * pow10 (e - unit).toNat := by
    rw [List.map_append, List.sum_append, sum_units_mul hle fun y hy => leastExponent_le hy, List.map_singleton,
      List.sum_singleton]
    rfl
  rw [exactSum, exactSum, hunit, htotal, add, hu]
  generalize (xs.map (units (leastExponent xs))).sum = total
  simp only [inUnits, signed_natAbs, rounded]
  rw [sign_of_sum (pow10_pos _)]

/-! ### Sums without rounding -/

/-- Finite numbers whose sums need no rounding, in the order in which they are added. -/
def Unrounded (xs : List Decimal) : Prop :=
  (∀ x ∈ xs, x.IsFinite) ∧ ∀ ys ∈ xs.inits, (exactSum ys).rounded = .ok (exactSum ys)

theorem Unrounded.sum_eq (h : Unrounded xs) : sum xs = .ok (exactSum xs) := by
  obtain ⟨hfinite, hkept⟩ := h
  simp only [List.mem_inits] at hkept
  induction xs using List.reverseRecOn with
  | nil => rfl
  | append_singleton xs x ih =>
      have hsum := ih (fun y hy => hfinite y (List.mem_append_left _ hy))
        (fun ys hys => hkept ys (hys.trans (List.prefix_append _ _)))
      rw [sum, List.foldlM_append, ← sum, hsum, ok_bind, List.foldlM_cons, add_exactSum (hfinite x (by simp)),
        hkept _ (List.prefix_refl _)]
      rfl

/-- Finite numbers that are added without rounding in two orders come to the same. -/
theorem Unrounded.sum_perm (h : Unrounded xs) (h' : Unrounded ys) (hperm : ys.Perm xs) : sum ys = sum xs := by
  rw [h.sum_eq, h'.sum_eq, exactSum_perm hperm]

instance : DecidablePred IsFinite
  | finite .. => isTrue trivial
  | infinity _ => isFalse id
  | nan => isFalse id

instance (xs : List Decimal) : Decidable (Unrounded xs) :=
  inferInstanceAs (Decidable (_ ∧ _))

end UsageBilling.Decimal
