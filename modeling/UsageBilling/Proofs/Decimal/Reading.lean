import UsageBilling.Decimal.Text
import UsageBilling.Proofs.Text.Digits

/-! Decimals are read back as they are written, with their signs, all their digits and their exponents
(`ofText?_toText`). -/

namespace UsageBilling.Decimal

theorem readMagnitude_eq (negative : Bool) (cs : List Char) : readMagnitude negative cs =
    match Digits.pointed cs with
    | (whole, fraction, rest) =>
        if whole ++ fraction = [] then none
        else (readExponent rest).map fun e =>
          .finite negative (Digits.value (whole ++ fraction)) (e - fraction.length) := by
  rw [readMagnitude, Digits.pointed]
  generalize cs.dropWhile Char.isDigit = behind
  cases behind with
  | nil => rfl
  | cons c more =>
      by_cases hc : c = '.'
      · subst hc
        rfl
      · simp [hc]

/-- Digits with a point and an exponent behind them are read as a coefficient and an exponent. -/
theorem readMagnitude_withPoint (negative : Bool) {ds rest : List Char} (hne : ds ≠ [])
    (hds : ∀ c ∈ ds, c.isDigit = true) (places : Nat) (hrest : Digits.Ended rest) {e : Int}
    (he : readExponent rest = some e) :
    readMagnitude negative (Digits.withPoint ds places ++ rest) =
      some (.finite negative (Digits.value ds) (e - places)) := by
  obtain ⟨whole, fraction, hpointed, hwhole, hfraction, hvalue⟩ := Digits.pointed_withPoint hne hds places hrest
  have hall : whole ++ fraction ≠ [] := fun h => hwhole (List.append_eq_nil_iff.mp h).1
  rw [readMagnitude_eq, hpointed]
  dsimp only
  rw [if_neg hall, he, hvalue, hfraction]
  rfl

theorem readExponent_exponentText (e : Int) : readExponent (exponentText e) = some e := by
  have hds : Digits.decimal e.natAbs ≠ [] ∧ (Digits.decimal e.natAbs).all Char.isDigit = true :=
    ⟨Digits.decimal_ne_nil _, List.all_eq_true.mpr fun c hc => Digits.isDigit_of_mem_decimal hc⟩
  have hletter : Char.toLower 'E' = 'e' := rfl
  rcases Int.lt_or_le e 0 with hneg | hnonneg
  · rw [exponentText, if_pos hneg]
    simp only [readExponent, readSign, hletter, hds, ne_eq, not_false_eq_true, and_self, if_true,
      Digits.value_decimal, signed]
    exact congrArg some (by omega)
  · rw [exponentText, if_neg (Int.not_lt.mpr hnonneg)]
    simp only [readExponent, readSign, hletter, hds, ne_eq, not_false_eq_true, and_self, if_true,
      Digits.value_decimal, signed, Bool.false_eq_true, if_false]
    exact congrArg some (by omega)

theorem readMagnitude_magnitudeText (negative : Bool) (c : Nat) (e : Int) :
    readMagnitude negative (magnitudeText c e) = some (.finite negative c e) := by
  have hne := Digits.decimal_ne_nil c
  have hlength : 0 < (Digits.decimal c).length := List.length_pos_iff.mpr hne
  have hread {rest : List Char} {places : Nat} {x : Int} (hrest : Digits.Ended rest) (hx : readExponent rest = some x)
      (he : x - places = e) : readMagnitude negative (Digits.withPoint (Digits.decimal c) places ++ rest) =
        some (.finite negative c e) := by
    rw [readMagnitude_withPoint negative hne (fun _ => Digits.isDigit_of_mem_decimal) places hrest hx,
      Digits.value_decimal, he]
  rw [magnitudeText]
  split
  next hplain =>
    rw [← List.append_nil (Digits.withPoint _ _)]
    exact hread Digits.ended_nil rfl (by omega)
  next => exact hread (Digits.ended_cons (by decide) _) (readExponent_exponentText _) (by omega)

/-! ### The text as a whole -/

def InNumber (c : Char) : Prop := c.isDigit = true ∨ c ∈ ['.', 'E', '+', '-']

instance : DecidablePred InNumber := fun _ => inferInstanceAs (Decidable (_ ∨ _))

theorem inNumber_magnitudeText {n : Nat} {e : Int} {c : Char} (h : c ∈ magnitudeText n e) : InNumber c := by
  have hpoint {places : Nat} (h : c ∈ Digits.withPoint (Digits.decimal n) places) : InNumber c :=
    (Digits.mem_withPoint (fun _ => Digits.isDigit_of_mem_decimal) h).imp_right fun h => by simp [h]
  rw [magnitudeText] at h
  split at h
  next => exact hpoint h
  next =>
    rcases List.mem_append.mp h with h | h
    · exact hpoint h
    · rw [exponentText, List.mem_cons, List.mem_cons] at h
      rcases h with rfl | rfl | h
      · exact Or.inr (by decide)
      · exact Or.inr (by split <;> decide)
      · exact Or.inl (Digits.isDigit_of_mem_decimal h)

theorem not_blank_of_inNumber {c : Char} (h : InNumber c) : c.isWhitespace = false ∧ c ≠ '_' := by
  have hne {d : Char} (hd : ¬ InNumber d) : c ≠ d := by
    rintro rfl
    exact hd h
  have hblank : c ≠ ' ' ∧ c ≠ '\t' ∧ c ≠ '\r' ∧ c ≠ '\n' :=
    ⟨hne (by decide), hne (by decide), hne (by decide), hne (by decide)⟩
  exact ⟨by simp [Char.isWhitespace, hblank], hne (by decide)⟩

theorem trimAscii_ofList {cs : List Char} (h : ∀ c ∈ cs, c.isWhitespace = false) :
    (String.ofList cs).trimAscii.toString = String.ofList cs := by
  have hany {o : Option Char} (ho : ∀ c ∈ o, c ∈ cs) : o.any Char.isWhitespace = false := by
    cases o with
    | none => rfl
    | some c => exact h c (ho c rfl)
  have hstart : (String.ofList cs).toSlice.trimAsciiStart = (String.ofList cs).toSlice := by
    apply String.Slice.dropWhile_eq_self
    rw [String.Slice.startsWith_bool_eq_head?, String.copy_toSlice, String.toList_ofList]
    exact hany fun c hc => List.mem_of_mem_head? hc
  have hend : (String.ofList cs).toSlice.trimAsciiEnd = (String.ofList cs).toSlice := by
    apply String.Slice.dropEndWhile_eq_self
    rw [String.Slice.endsWith_bool_eq_getLast?, String.copy_toSlice, String.toList_ofList]
    exact hany fun c hc => List.mem_of_getLast? hc
  rw [String.trimAscii, String.Slice.trimAscii, hstart, hend]
  simp

/-- What characters without blanks are read as: a sign, and a name or a magnitude. -/
def readSigned (cs : List Char) : Option Decimal :=
  let (negative, cs) := readSign cs
  match String.ofList (cs.map Char.toLower) with
  | "inf" | "infinity" => some (.infinity negative)
  | "nan" => some .nan
  | _ => readMagnitude negative cs

theorem ofText?_ofList {cs : List Char} (h : ∀ c ∈ cs, c.isWhitespace = false ∧ c ≠ '_') :
    ofText? (String.ofList cs) = readSigned cs := by
  have hkept : cs.filter (· ≠ '_') = cs := List.filter_eq_self.mpr fun c hc => decide_eq_true (h c hc).2
  rw [ofText?, trimAscii_ofList fun c hc => (h c hc).1, String.toList_ofList, hkept]
  rfl

theorem exists_cons_magnitudeText (c : Nat) (e : Int) :
    ∃ d more, magnitudeText c e = d :: more ∧ d.isDigit = true := by
  have hpoint := Digits.exists_cons_withPoint (Digits.decimal_ne_nil c) fun _ => Digits.isDigit_of_mem_decimal
  rw [magnitudeText]
  split
  next => exact hpoint _
  next =>
    obtain ⟨d, more, hcons, hd⟩ := hpoint ((Digits.decimal c).length - 1)
    exact ⟨d, _, by rw [hcons, List.cons_append], hd⟩

/-- A sign and digits are not mistaken for a name. -/
theorem readSign_magnitude {d : Char} (hd : d.isDigit = true) (negative : Bool) (more : List Char) :
    readSign ((if negative then ['-'] else []) ++ d :: more) = (negative, d :: more) := by
  cases negative with
  | true => rfl
  | false =>
      rw [if_neg Bool.false_ne_true, List.nil_append, readSign]
      · rintro _ ⟨⟩
        exact absurd hd (by decide)
      · rintro _ ⟨⟩
        exact absurd hd (by decide)

/-- A number is read back as it is written. -/
theorem ofText?_toText (d : Decimal) : ofText? d.toText = some d := by
  cases d with
  | infinity negative =>
      cases negative with
      | false =>
          change ofText? (String.ofList ['I', 'n', 'f', 'i', 'n', 'i', 't', 'y']) = _
          rw [ofText?_ofList (by simp [Char.isWhitespace])]
          decide +kernel
      | true =>
          change ofText? (String.ofList ['-', 'I', 'n', 'f', 'i', 'n', 'i', 't', 'y']) = _
          rw [ofText?_ofList (by simp [Char.isWhitespace])]
          decide +kernel
  | nan =>
      change ofText? (String.ofList ['N', 'a', 'N']) = _
      rw [ofText?_ofList (by simp [Char.isWhitespace])]
      decide +kernel
  | finite negative c e =>
      obtain ⟨d, more, hcons, hd⟩ := exists_cons_magnitudeText c e
      have hinside : ∀ x ∈ (if negative then ['-'] else []) ++ magnitudeText c e, InNumber x := by
        intro x hx
        rcases List.mem_append.mp hx with hx | hx
        · cases negative with
          | true => exact List.mem_singleton.mp hx ▸ Or.inr (by decide)
          | false => exact absurd hx List.not_mem_nil
        · exact inNumber_magnitudeText hx
      have hread := readMagnitude_magnitudeText negative c e
      rw [toText, ofText?_ofList fun x hx => not_blank_of_inNumber (hinside x hx)]
      rw [hcons] at hread ⊢
      rw [readSigned, readSign_magnitude hd]
      have hnamed {name : Char} (names : List Char) (hname : name.isDigit = false) :
          String.ofList ((d :: more).map Char.toLower) ≠ String.ofList (name :: names) := by
        intro h
        have hlower : d.toLower = name := (List.cons.inj (String.ofList_injective h)).1
        rw [← hlower, Digits.toLower_of_isDigit hd] at hname
        exact Bool.false_ne_true (hname.symm.trans hd)
      dsimp only
      split
      next h => exact absurd h (hnamed ['n', 'f'] (by decide))
      next h => exact absurd h (hnamed ['n', 'f', 'i', 'n', 'i', 't', 'y'] (by decide))
      next h => exact absurd h (hnamed ['a', 'n'] (by decide))
      next => exact hread

end UsageBilling.Decimal
