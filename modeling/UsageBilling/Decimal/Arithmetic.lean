import UsageBilling.Decimal.Basic

/-! Arithmetic and order of decimals. A sum has the smaller exponent of its terms, a product the sum
of the exponents, a quotient comes as close as it can to their difference; all are exact up to the
rounding of `Decimal.money`. A NaN passes through arithmetic, equals nothing and has no order. -/

namespace UsageBilling.Decimal

/-! ### Order -/

/-- The value of `± c · 10 ^ e` in units of `10 ^ unit`, for `unit ≤ e`. -/
def inUnits (unit : Int) (negative : Bool) (coefficient : Nat) (exponent : Int) : Int :=
  signed negative coefficient * pow10 (exponent - unit).toNat

/-- How two numbers compare by value; `none` when one of them is a NaN. -/
def compare? : Decimal → Decimal → Option Ordering
  | .nan, _ => none
  | _, .nan => none
  | .infinity a, .infinity b => some (compare b.toNat a.toNat)
  | .infinity a, .finite .. => some (if a then .lt else .gt)
  | .finite .., .infinity b => some (if b then .gt else .lt)
  | .finite na ca ea, .finite nb cb eb =>
      let unit := min ea eb
      some (compare (inUnits unit na ca ea) (inUnits unit nb cb eb))

/-- Equality of values. A NaN is equal to nothing. -/
def equals (a b : Decimal) : Bool := compare? a b == some .eq

/-- Whether `a` is below `b`; the question is invalid for a NaN. -/
def below (a b : Decimal) : Except Fault Bool :=
  match compare? a b with
  | some o => .ok o.isLT
  | none => .error .invalidOperation

/-! ### Sum, difference and product -/

def negate : Decimal → Decimal
  | .finite n c e => .finite (!n) c e
  | .infinity n => .infinity (!n)
  | .nan => .nan

/-- The sum. A sum that is zero is negative only when both terms are. -/
def add : Decimal → Decimal → Except Fault Decimal
  | .nan, _ => .ok .nan
  | _, .nan => .ok .nan
  | .infinity a, .infinity b => if a = b then .ok (.infinity a) else .error .invalidOperation
  | .infinity a, .finite .. => .ok (.infinity a)
  | .finite .., .infinity b => .ok (.infinity b)
  | .finite na ca ea, .finite nb cb eb =>
      let unit := min ea eb
      let s := inUnits unit na ca ea + inUnits unit nb cb eb
      money.round (if s = 0 then na && nb else s < 0) s.natAbs unit

def sub (a b : Decimal) : Except Fault Decimal := add a (negate b)

def sum (xs : List Decimal) : Except Fault Decimal := xs.foldlM add zero

/-- The product. Zero times infinity is invalid. -/
def mul : Decimal → Decimal → Except Fault Decimal
  | .nan, _ => .ok .nan
  | _, .nan => .ok .nan
  | .infinity a, .infinity b => .ok (.infinity (a != b))
  | .infinity a, .finite nb cb _ =>
      if cb = 0 then .error .invalidOperation else .ok (.infinity (a != nb))
  | .finite na ca _, .infinity b =>
      if ca = 0 then .error .invalidOperation else .ok (.infinity (na != b))
  | .finite na ca ea, .finite nb cb eb => money.round (na != nb) (ca * cb) (ea + eb)

/-! ### Quotient -/

/-- Sheds up to `steps` trailing zeros of a coefficient. -/
def shedZeros : Nat → Nat → Int → Nat × Int
  | 0, c, e => (c, e)
  | steps + 1, c, e => if c % 10 = 0 then shedZeros steps (c / 10) (e + 1) else (c, e)

/-- The quotient of two positive coefficients before rounding: one digit more than the precision
holds, or the exact quotient with its exponent as near as possible to the ideal one. A remainder is
recorded in a further last digit `1`, which cannot fall on a tie. -/
def quotient (ca cb : Nat) (ideal : Int) : Nat × Int :=
  let shift : Int := digitCount cb - digitCount ca + money.precision + 1
  let n := ca * pow10 shift.toNat
  let d := cb * pow10 (-shift).toNat
  if n % d = 0 then shedZeros shift.toNat (n / d) (ideal - shift)
  else (10 * (n / d) + 1, ideal - shift - 1)

/-- The quotient. Dividing by infinity gives the smallest zero. -/
def div : Decimal → Decimal → Except Fault Decimal
  | .nan, _ => .ok .nan
  | _, .nan => .ok .nan
  | .infinity _, .infinity _ => .error .invalidOperation
  | .infinity a, .finite nb _ _ => .ok (.infinity (a != nb))
  | .finite na _ _, .infinity b => .ok (.finite (na != b) 0 money.tiny)
  | .finite na ca ea, .finite nb cb eb =>
      if cb = 0 then .error (if ca = 0 then .invalidOperation else .divisionByZero)
      else if ca = 0 then money.round (na != nb) 0 (ea - eb)
      else
        let q := quotient ca cb (ea - eb)
        money.round (na != nb) q.1 q.2

/-- The least whole number that is not below the number. One whose exponent is not negative is whole
already and stays as it is written. -/
def ceil : Decimal → Decimal
  | .finite n c e =>
      if 0 ≤ e then .finite n c e
      else
        let p := pow10 (-e).toNat
        .finite n (if n || c % p = 0 then c / p else c / p + 1) 0
  | x => x

end UsageBilling.Decimal
