import UsageBilling.Calendar.Date

/-! Instants: a date, a time of day and, mostly, the offset from UTC at which they were written. An
instant without an offset is read as UTC, but it is not comparable with one that has an offset. -/

namespace UsageBilling

/-- The number of microseconds of a day. -/
def dayLength : Nat := 86400000000

/-- A point in time as it is written; `offset` is in seconds east of UTC. -/
structure Instant where
  date : Date
  microsecond : Nat
  offset : Option Int
  deriving DecidableEq

namespace Instant

/-- Microseconds of the written clock since the day numbered 0. -/
def clock (i : Instant) : Int := i.date.ordinal * dayLength + i.microsecond

def utc (i : Instant) : Int := i.clock - i.offset.getD 0 * 1000000

/-- The date shown by a clock that stands at a count of microseconds. -/
def dateAt (clock : Int) : Except Calendar.Fault Date := Date.ofOrdinal (clock / dayLength).toNat

/-- The count of the UTC clock, when that clock shows a date. -/
def utc? (i : Instant) : Except Calendar.Fault Int := do
  let _ ← dateAt i.utc
  return i.utc

/-- Whether one instant lies before another; `none` when only one of them has an offset. -/
def before? (a b : Instant) : Option Bool :=
  if a.offset.isSome = b.offset.isSome then some (a.utc < b.utc) else none

/-! ### Text -/

/-- Hours and minutes of an offset, and its seconds where there are any, with the sign in front. -/
def offsetChars (offset : Int) : List Char :=
  let n := offset.natAbs
  (if offset < 0 then '-' else '+') :: Date.padded 2 (n / 3600) ++ ':' :: Date.padded 2 (n / 60 % 60)
    ++ (if n % 60 = 0 then [] else ':' :: Date.padded 2 (n % 60))

/-- `YYYY-MM-DDTHH:MM:SS`, the fraction in six digits unless it is zero, and the offset. -/
def toText (i : Instant) : String :=
  let second := i.microsecond / 1000000
  let fraction := i.microsecond % 1000000
  String.ofList (i.date.toChars ++ 'T' :: Date.padded 2 (second / 3600)
    ++ ':' :: Date.padded 2 (second / 60 % 60) ++ ':' :: Date.padded 2 (second % 60)
    ++ (if fraction = 0 then [] else '.' :: Date.padded 6 fraction)
    ++ (match i.offset with | some o => offsetChars o | none => []))

/-- Reads an offset: a sign, hours and minutes, and seconds where they are given. -/
def offsetOfChars? : List Char → Option Int
  | [] => none
  | sign :: rest => do
      let seconds ← match rest with
        | [h₁, h₂, ':', m₁, m₂] =>
            some ((← Digits.number? [h₁, h₂]) * 3600 + (← Digits.number? [m₁, m₂]) * 60)
        | [h₁, h₂, ':', m₁, m₂, ':', s₁, s₂] =>
            some ((← Digits.number? [h₁, h₂]) * 3600 + (← Digits.number? [m₁, m₂]) * 60
              + (← Digits.number? [s₁, s₂]))
        | _ => none
      match sign with
      | '+' => some (seconds : Int)
      | '-' => some (-(seconds : Int))
      | _ => none

/-- Reads the fraction of a second, in microseconds, and gives back what follows it. -/
def fractionOfChars? : List Char → Option (Nat × List Char)
  | '.' :: rest => do
      let ds := rest.takeWhile Char.isDigit
      let micro ← Digits.number? ((ds ++ List.replicate 6 '0').take 6)
      if ds = [] then none else some (micro, rest.dropWhile Char.isDigit)
  | rest => some (0, rest)

/-- Reads the time of day and the offset. -/
def clockOfChars? : List Char → Option (Nat × Option Int)
  | h₁ :: h₂ :: ':' :: m₁ :: m₂ :: ':' :: s₁ :: s₂ :: rest => do
      let hour ← Digits.number? [h₁, h₂]
      let minute ← Digits.number? [m₁, m₂]
      let second ← Digits.number? [s₁, s₂]
      let (micro, rest) ← fractionOfChars? rest
      let offset ← if rest = [] then some none else (offsetOfChars? rest).map some
      if hour < 24 ∧ minute < 60 ∧ second < 60 then
        some (((hour * 60 + minute) * 60 + second) * 1000000 + micro, offset)
      else none
  | _ => none

/-- Reads what `toText` writes. -/
def ofText? (text : String) : Option Instant := do
  let cs := text.toList
  let date ← Date.ofChars? (cs.take 10)
  match cs.drop 10 with
  | 'T' :: rest => do
      let (microsecond, offset) ← clockOfChars? rest
      some ⟨date, microsecond, offset⟩
  | _ => none

end Instant
end UsageBilling
