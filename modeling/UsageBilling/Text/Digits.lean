/-! Digits: how whole numbers are written and read. Writing a number and reading it gives the number
back (`value_decimal`), and zeros in front do not change what is read (`value_filled`). -/

namespace UsageBilling.Digits

/-! ### Writing -/

def decimal (n : Nat) : List Char := Nat.toDigits 10 n

def hexadecimal (n : Nat) : List Char := Nat.toDigits 16 n

/-- Digits filled up with zeros in front to a width. -/
def filled (width : Nat) (ds : List Char) : List Char := List.replicate (width - ds.length) '0' ++ ds

/-- Digits with a point in front of the last `places` ones, and zeros in front where they are missing. -/
def withPoint (ds : List Char) (places : Nat) : List Char :=
  if places = 0 then ds
  else
    let all := filled (places + 1) ds
    all.take (all.length - places) ++ '.' :: all.drop (all.length - places)

/-! ### Reading -/

/-- The number that decimal digits stand for. -/
def value (ds : List Char) : Nat := ds.foldl (fun v c => 10 * v + (c.toNat - '0'.toNat)) 0

/-- The number written by some decimal digits; `none` if another character is among them. -/
def number? (ds : List Char) : Option Nat :=
  if ds ≠ [] ∧ ds.all Char.isDigit then some (value ds) else none

theorem value_append_singleton (ds : List Char) (c : Char) :
    value (ds ++ [c]) = 10 * value ds + (c.toNat - '0'.toNat) := by
  simp [value]

theorem value_decimal (n : Nat) : value (decimal n) = n := by
  induction n using Nat.strongRecOn with
  | ind n ih =>
      have hdigit : ((n % 10).digitChar).toNat - '0'.toNat = n % 10 := by
        rw [Nat.toNat_digitChar_of_lt_ten (Nat.mod_lt n (by decide))]
        exact Nat.add_sub_cancel_left ..
      rw [decimal, Nat.toDigits_eq_if (by decide)]
      split
      · rename_i hn
        rw [Nat.mod_eq_of_lt hn] at hdigit
        simpa [value] using hdigit
      · rename_i hn
        have hrec : value (Nat.toDigits 10 (n / 10)) = n / 10 := ih (n / 10) (by omega)
        rw [value_append_singleton, hrec, hdigit]
        omega

theorem value_filled (width : Nat) (ds : List Char) : value (filled width ds) = value ds := by
  unfold filled
  generalize width - ds.length = zeros
  induction zeros with
  | zero => rfl
  | succ zeros ih =>
      rw [List.replicate_succ, List.cons_append]
      exact ih

end UsageBilling.Digits
