import UsageBilling.Decimal.Basic
import UsageBilling.Text.Digits

/-! How decimals are written and read. Writing keeps the coefficient and the exponent: plain notation
while the exponent is not positive and the leading digit is at most six places behind the point,
scientific notation otherwise. Reading accepts both notations, the names of infinity and NaN, and
underscores between digits. -/

namespace UsageBilling.Decimal

/-! ### Writing -/

/-- A signed exponent, always with its sign. -/
def exponentText (e : Int) : List Char :=
  'E' :: (if e < 0 then '-' else '+') :: Digits.decimal e.natAbs

def magnitudeText (coefficient : Nat) (exponent : Int) : List Char :=
  let ds := Digits.decimal coefficient
  let leading := exponent + ds.length - 1
  if exponent ≤ 0 ∧ -6 ≤ leading then Digits.withPoint ds (-exponent).toNat
  else Digits.withPoint ds (ds.length - 1) ++ exponentText leading

def toText : Decimal → String
  | .finite n c e => String.ofList ((if n then ['-'] else []) ++ magnitudeText c e)
  | .infinity n => if n then "-Infinity" else "Infinity"
  | .nan => "NaN"

/-! ### Reading -/

/-- A sign, where there is one, and what follows it. -/
def readSign : List Char → Bool × List Char
  | '-' :: rest => (true, rest)
  | '+' :: rest => (false, rest)
  | cs => (false, cs)

/-- The exponent part: nothing, or `E` with an optional sign and at least one digit. -/
def readExponent : List Char → Option Int
  | [] => some 0
  | c :: rest =>
      let (negative, ds) := readSign rest
      if c.toLower = 'e' ∧ ds ≠ [] ∧ ds.all Char.isDigit then
        some (signed negative (Digits.value ds))
      else none

/-- A magnitude: digits with at most one point and at least one digit, then an exponent part. -/
def readMagnitude (negative : Bool) (cs : List Char) : Option Decimal :=
  let whole := cs.takeWhile Char.isDigit
  let (fraction, rest) := match cs.dropWhile Char.isDigit with
    | '.' :: more => (more.takeWhile Char.isDigit, more.dropWhile Char.isDigit)
    | more => ([], more)
  if whole ++ fraction = [] then none
  else (readExponent rest).map fun e =>
    .finite negative (Digits.value (whole ++ fraction)) (e - fraction.length)

/-- Reads a number exactly, with all its digits. -/
def ofText? (text : String) : Option Decimal :=
  let (negative, cs) := readSign ((text.trimAscii.toString.toList).filter (· ≠ '_'))
  match String.ofList (cs.map Char.toLower) with
  | "inf" | "infinity" => some (.infinity negative)
  | "nan" => some .nan
  | _ => readMagnitude negative cs

end UsageBilling.Decimal
