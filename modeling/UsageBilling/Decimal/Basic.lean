/-! Decimal numbers and the one step that rounds them. A number is a sign, a coefficient and a power
of ten; equal values may be written with different coefficients (`1.5` and `1.50`), and that
difference is kept. Every operation is exact first and then passes through `Context.round` once. A
number of `digitCount n` digits lies below that power of ten and not below the one before
(`digitCount_bounds`); rounding to a whole number moves a quotient by half a unit at most
(`halfEven_mul_le`, `le_halfEven_mul`). -/

namespace UsageBilling

/-- A decimal number as it is written: `finite negative c e` is `± c · 10 ^ e`. -/
inductive Decimal where
  | finite (negative : Bool) (coefficient : Nat) (exponent : Int)
  | infinity (negative : Bool)
  | nan
  deriving DecidableEq, Inhabited

namespace Decimal

/-- Why an operation has no result. -/
inductive Fault where
  | invalidOperation
  | divisionByZero
  | overflow
  deriving DecidableEq

/-- The whole number `n`, written without a fraction. -/
def ofNat (n : Nat) : Decimal := .finite false n 0

def zero : Decimal := ofNat 0

def signed (negative : Bool) (coefficient : Nat) : Int :=
  if negative then -(coefficient : Int) else coefficient

/-! ### Powers of ten -/

def pow10 (n : Nat) : Nat := Nat.pow 10 n

theorem pow10_zero : pow10 0 = 1 := rfl

theorem pow10_succ (n : Nat) : pow10 (n + 1) = 10 * pow10 n := Nat.mul_comm _ _

theorem pow10_pos (n : Nat) : 0 < pow10 n := Nat.pow_pos (by decide)

theorem pow10_le_pow10 {m n : Nat} (h : m ≤ n) : pow10 m ≤ pow10 n :=
  Nat.pow_le_pow_right (by decide) h

/-! ### Counting digits -/

/-- The first `j` from `k` on with `n < 10 ^ j`, looking at `steps` candidates at most. -/
def firstPowerAbove (n : Nat) : Nat → Nat → Nat
  | 0, k => k
  | steps + 1, k => if n < pow10 k then k else firstPowerAbove n steps (k + 1)

/-- How many decimal digits a number is written with; zero has one. The search starts at a lower
bound read off the binary length, since `10 ^ 643 ≤ 2 ^ 2136`. -/
def digitCount (n : Nat) : Nat :=
  firstPowerAbove n (n.log2 + 1) (n.log2 * 643 / 2136 + 1)

theorem pow10_log2_le {n : Nat} (h : 0 < n) : pow10 (n.log2 * 643 / 2136) ≤ n := by
  have bound (p q l : Nat) (hq : q ≠ 0) (hbase : 10 ^ p ≤ 2 ^ q) : 10 ^ (l * p / q) ≤ 2 ^ l := by
    refine (Nat.pow_le_pow_iff_left hq).mp ?_
    calc (10 ^ (l * p / q)) ^ q
        = 10 ^ (l * p / q * q) := (Nat.pow_mul ..).symm
      _ ≤ 10 ^ (p * l) := Nat.pow_le_pow_right (by decide) (Nat.mul_comm l p ▸ Nat.div_mul_le_self ..)
      _ = (10 ^ p) ^ l := Nat.pow_mul ..
      _ ≤ (2 ^ q) ^ l := Nat.pow_le_pow_left hbase _
      _ = 2 ^ (q * l) := (Nat.pow_mul ..).symm
      _ = 2 ^ (l * q) := by rw [Nat.mul_comm]
      _ = (2 ^ l) ^ q := Nat.pow_mul ..
  exact Nat.le_trans (bound 643 2136 n.log2 (by decide) (by decide +kernel))
    (Nat.log2_self_le (Nat.ne_of_gt h))

theorem firstPowerAbove_bounds {n steps k : Nat} (h : n < pow10 (k + steps)) (hk : pow10 (k - 1) ≤ n) :
    n < pow10 (firstPowerAbove n steps k) ∧ pow10 (firstPowerAbove n steps k - 1) ≤ n := by
  induction steps generalizing k with
  | zero => exact ⟨h, hk⟩
  | succ steps ih =>
      rw [firstPowerAbove]
      split
      · exact ⟨by assumption, hk⟩
      · rename_i hn
        exact ih (by rwa [Nat.add_right_comm]) (Nat.not_lt.mp hn)

/-- A positive number lies between two powers of ten, as its digits tell. -/
theorem digitCount_bounds {n : Nat} (h : 0 < n) :
    n < pow10 (digitCount n) ∧ pow10 (digitCount n - 1) ≤ n := by
  refine firstPowerAbove_bounds ?_ (pow10_log2_le h)
  calc n < 2 ^ (n.log2 + 1) := Nat.lt_log2_self
    _ ≤ 10 ^ (n.log2 + 1) := Nat.pow_le_pow_left (by decide) _
    _ ≤ pow10 (n.log2 * 643 / 2136 + 1 + (n.log2 + 1)) := pow10_le_pow10 (by omega)

theorem lt_pow10_digitCount (n : Nat) : n < pow10 (digitCount n) := by
  by_cases h : 0 < n
  · exact (digitCount_bounds h).1
  · rw [Nat.eq_zero_of_not_pos h]
    exact pow10_pos _

/-! ### Rounding -/

/-- The whole number nearest to `n / d`; a tie goes to the even neighbour. -/
def halfEven (n d : Nat) : Nat :=
  let q := n / d
  let r := n % d
  if 2 * r < d ∨ (2 * r = d ∧ q % 2 = 0) then q else q + 1

/-- Rounding moves a quotient by half a unit at most. -/
theorem halfEven_mul_le {n d : Nat} : 2 * (halfEven n d * d) ≤ 2 * n + d := by
  have hn : d * (n / d) + n % d = n := Nat.div_add_mod n d
  unfold halfEven
  dsimp only
  split
  · have : n / d * d = d * (n / d) := Nat.mul_comm ..
    omega
  · have : (n / d + 1) * d = d * (n / d) + d := by rw [Nat.add_mul, Nat.one_mul, Nat.mul_comm]
    omega

theorem le_halfEven_mul {n d : Nat} (h : 0 < d) : 2 * n ≤ 2 * (halfEven n d * d) + d := by
  have hn : d * (n / d) + n % d = n := Nat.div_add_mod n d
  have hr : n % d < d := Nat.mod_lt n h
  unfold halfEven
  dsimp only
  split
  · have : n / d * d = d * (n / d) := Nat.mul_comm ..
    omega
  · have : (n / d + 1) * d = d * (n / d) + d := by rw [Nat.add_mul, Nat.one_mul, Nat.mul_comm]
    omega

theorem halfEven_one (n : Nat) : halfEven n 1 = n := by
  simp [halfEven, Nat.mod_one]

/-- The digits a result may have and the range of its exponent. -/
structure Context where
  precision : Nat
  minExponent : Int
  maxExponent : Int
  deriving DecidableEq

/-- Amounts and quantities are computed with 28 digits. -/
def money : Context := ⟨28, -999999, 999999⟩

/-- The exponent of the smallest subnormal number: no result has a smaller one. -/
def Context.tiny (c : Context) : Int := c.minExponent - c.precision + 1

/-- The exponent at which a coefficient has to end: it keeps its own unless it has too many digits
or reaches below the subnormal range. -/
def Context.target (c : Context) (coefficient : Nat) (exponent : Int) : Int :=
  max (max exponent (exponent + digitCount coefficient - c.precision)) c.tiny

/-- Rounds an exact result to the context: half to even, and an overflow where the leading digit lies
above the largest exponent. A zero only has its exponent moved into the range. -/
def Context.round (c : Context) (negative : Bool) (coefficient : Nat) (exponent : Int) :
    Except Fault Decimal :=
  if coefficient = 0 then
    .ok (.finite negative 0 (min (max exponent c.tiny) c.maxExponent))
  else
    let e := c.target coefficient exponent
    let q := halfEven coefficient (pow10 (e - exponent).toNat)
    let carried := decide (pow10 c.precision ≤ q)
    let q' := if carried then q / 10 else q
    let e' := if carried then e + 1 else e
    if c.maxExponent < e' + digitCount q' - 1 then .error .overflow
    else .ok (.finite negative q' e')

end Decimal
end UsageBilling
