import UsageBilling.Proofs.Sequencing
import UsageBilling.Proofs.Text.Digits

/-! JSON texts are read. Numbers are read in plain notation only. The text of a value is read as the value, with the
fields of its objects in the order of their keys (`read?_toText`): strings unit by unit, elements one by one up to the
closing mark, and values by recursion on how deep they are nested. -/

namespace UsageBilling.Json

open Digits (Ended)

/-! ### Strings -/

def hexValue? (c : Char) : Option Nat :=
  if c.isDigit then some (c.toNat - '0'.toNat)
  else if 'a' ≤ c ∧ c ≤ 'f' then some (c.toNat - 'a'.toNat + 10)
  else if 'A' ≤ c ∧ c ≤ 'F' then some (c.toNat - 'A'.toNat + 10)
  else none

def unit? (a b c d : Char) : Option Nat := do
  return ((16 * (← hexValue? a) + (← hexValue? b)) * 16 + (← hexValue? c)) * 16 + (← hexValue? d)

/-- The character that an escape of one letter stands for. -/
def escaped? : Char → Option Char
  | '"' => some '"'
  | '\\' => some '\\'
  | '/' => some '/'
  | 'b' => some (Char.ofNat 8)
  | 'f' => some (Char.ofNat 12)
  | 'n' => some '\n'
  | 'r' => some '\r'
  | 't' => some '\t'
  | _ => none

/-- The units of a string up to its closing mark, and what follows. Characters that are not escaped stand for
themselves; control characters have to be escaped. -/
def readUnits : List Char → Option (List Nat × List Char)
  | [] => none
  | '"' :: rest => some ([], rest)
  | '\\' :: 'u' :: a :: b :: c :: d :: rest => do
      let u ← unit? a b c d
      let (us, rest) ← readUnits rest
      return (u :: us, rest)
  | '\\' :: c :: rest => do
      let e ← escaped? c
      let (us, rest) ← readUnits rest
      return (e.toNat :: us, rest)
  | c :: rest =>
      if c = '\\' ∨ c.toNat < 0x20 then none
      else do
        let (us, rest) ← readUnits rest
        return (c.toNat :: us, rest)

/-- The characters of some units. A high surrogate makes up a character with the low one behind it. -/
def joinUnits : List Nat → Option (List Char)
  | [] => some []
  | u :: us =>
      if u.isValidChar then (joinUnits us).map (Char.ofNat u :: ·)
      else
        match us with
        | v :: vs =>
            if 0xd800 ≤ u ∧ u < 0xdc00 ∧ 0xdc00 ≤ v ∧ v < 0xe000 then
              (joinUnits vs).map (Char.ofNat (0x10000 + (u - 0xd800) * 0x400 + (v - 0xdc00)) :: ·)
            else none
        | [] => none

/-- A string behind its opening mark, and what follows it. -/
def readString (cs : List Char) : Option (String × List Char) := do
  let (us, rest) ← readUnits cs
  return (String.ofList (← joinUnits us), rest)

/-! ### Values -/

def isBlank (c : Char) : Bool := c = ' ' || c = '\t' || c = '\n' || c = '\r'

def skipBlanks (cs : List Char) : List Char := cs.dropWhile isBlank

/-- A number without its sign, in plain notation: no zero in front of other digits, and a digit behind the point if
there is one. -/
def readMagnitude (negative : Bool) (cs : List Char) : Option (Json × List Char) :=
  let (whole, fraction, rest) := Digits.pointed cs
  let magnitude := Digits.value (whole ++ fraction)
  if whole = [] ∨ (whole.head? = some '0' ∧ whole ≠ ['0']) ∨ (fraction = [] ∧ whole ++ rest ≠ cs) then none
  else some (.number (if negative then -magnitude else magnitude) fraction.length, rest)

def readNumber : List Char → Option (Json × List Char)
  | '-' :: rest => readMagnitude true rest
  | cs => readMagnitude false cs

/-- Elements divided by commas, at least one, up to a closing mark. There are `n` of them at most. -/
def readSeparated {α : Type} (read : List Char → Option (α × List Char)) (close : Char) :
    Nat → List Char → Option (List α × List Char)
  | 0, _ => none
  | n + 1, cs => do
      let (x, rest) ← read cs
      match skipBlanks rest with
      | [] => none
      | c :: rest =>
          if c = close then return ([x], rest)
          else if c = ',' then do
            let (xs, rest) ← readSeparated read close n rest
            return (x :: xs, rest)
          else none

/-- Elements up to a closing mark, perhaps none. -/
def readAll {α : Type} (read : List Char → Option (α × List Char)) (close : Char) (cs : List Char) :
    Option (List α × List Char) :=
  match skipBlanks cs with
  | [] => none
  | c :: rest => if c = close then some ([], rest) else readSeparated read close cs.length cs

/-- A field: its key, a colon and its value. -/
def readField (read : List Char → Option (Json × List Char)) (cs : List Char) :
    Option ((String × Json) × List Char) :=
  match skipBlanks cs with
  | '"' :: rest => do
      let (key, rest) ← readString rest
      match skipBlanks rest with
      | ':' :: rest => do
          let (x, rest) ← read rest
          return ((key, x), rest)
      | _ => none
  | _ => none

/-- A value nested less deep than `depth`, and what follows it. -/
def readValue : Nat → List Char → Option (Json × List Char)
  | 0, _ => none
  | depth + 1, cs =>
      match skipBlanks cs with
      | 'n' :: 'u' :: 'l' :: 'l' :: rest => some (.null, rest)
      | 't' :: 'r' :: 'u' :: 'e' :: rest => some (.bool true, rest)
      | 'f' :: 'a' :: 'l' :: 's' :: 'e' :: rest => some (.bool false, rest)
      | '"' :: rest => (readString rest).map fun (s, rest) => (.text s, rest)
      | '[' :: rest => (readAll (readValue depth) ']' rest).map fun (xs, rest) => (.list xs, rest)
      | '\x7b' :: rest =>
          (readAll (readField (readValue depth)) '\x7d' rest).map fun (fields, rest) => (.object fields, rest)
      | cs => readNumber cs

def read? (text : String) : Option Json := do
  let (j, rest) ← readValue (text.length + 1) text.toList
  if skipBlanks rest = [] then return j else none

/-! ### Strings read back -/

theorem hexValue?_digitChar : ∀ d < 16, hexValue? d.digitChar = some d := by decide

theorem filled_hexadecimal_succ {width : Nat} (hwidth : 0 < width) (n : Nat) :
    Digits.filled (width + 1) (Digits.hexadecimal n) =
      Digits.filled width (Digits.hexadecimal (n / 16)) ++ [(n % 16).digitChar] := by
  rw [Digits.hexadecimal, Nat.toDigits_eq_if (by decide)]
  split
  next hn =>
    obtain ⟨k, rfl⟩ := Nat.exists_eq_add_one.mpr hwidth
    rw [Nat.div_eq_of_lt hn, Nat.mod_eq_of_lt hn]
    simp [Digits.filled, Digits.hexadecimal, List.replicate_succ']
  next => simp [Digits.filled, Digits.hexadecimal]

theorem filled_hexadecimal {n : Nat} (h : n < 0x10000) : Digits.filled 4 (Digits.hexadecimal n) =
    [(n / 16 / 16 / 16).digitChar, (n / 16 / 16 % 16).digitChar, (n / 16 % 16).digitChar, (n % 16).digitChar] := by
  have hfirst : n / 16 / 16 / 16 < 16 := by omega
  rw [filled_hexadecimal_succ (by decide), filled_hexadecimal_succ (by decide), filled_hexadecimal_succ (by decide),
    Digits.hexadecimal, Nat.toDigits_of_lt_base hfirst]
  rfl

theorem readUnits_unitText {n : Nat} (h : n < 0x10000) (rest : List Char) :
    readUnits (unitText n ++ rest) = (readUnits rest).map fun p => (n :: p.1, p.2) := by
  have hn : ((16 * (n / 16 / 16 / 16) + n / 16 / 16 % 16) * 16 + n / 16 % 16) * 16 + n % 16 = n := by omega
  rw [unitText, filled_hexadecimal h]
  simp only [List.cons_append, List.nil_append, readUnits, unit?]
  rw [hexValue?_digitChar _ (by omega), hexValue?_digitChar _ (by omega), hexValue?_digitChar _ (by omega),
    hexValue?_digitChar _ (by omega)]
  simp only [Option.bind_eq_bind, Option.bind_some, Option.pure_def, hn]
  cases readUnits rest <;> rfl

/-- The units that a character is written with. -/
def unitsOf (c : Char) : List Nat :=
  if c.toNat < 0x10000 then [c.toNat]
  else [0xd800 + (c.toNat - 0x10000) / 0x400, 0xdc00 + (c.toNat - 0x10000) % 0x400]

theorem toNat_lt (c : Char) : c.toNat < 0x110000 := by
  rcases c.valid with h | h
  · exact Nat.lt_trans h (by decide)
  · exact h.2

theorem readUnits_escaped {c e : Char} (h : escaped? c = some e) (rest : List Char) :
    readUnits ('\\' :: c :: rest) = (readUnits rest).map fun p => (e.toNat :: p.1, p.2) := by
  rw [readUnits]
  · rw [h]
    simp only [Option.bind_eq_bind, Option.bind_some, Option.pure_def]
    cases readUnits rest <;> rfl
  · rintro _ _ _ _ _ rfl
    cases h

theorem readUnits_plain {c : Char} (hquote : c ≠ '"') (hslash : c ≠ '\\') (hc : 0x20 ≤ c.toNat) (rest : List Char) :
    readUnits (c :: rest) = (readUnits rest).map fun p => (c.toNat :: p.1, p.2) := by
  rw [readUnits]
  · rw [if_neg (by simp [hslash, hc])]
    simp only [Option.bind_eq_bind, Option.pure_def]
    cases readUnits rest <;> rfl
  · exact hquote
  · rintro _ _ _ _ _ rfl
    exact absurd rfl hslash
  · rintro _ _ rfl
    exact absurd rfl hslash

theorem readUnits_charText (c : Char) (rest : List Char) :
    readUnits (charText c ++ rest) = (readUnits rest).map fun p => (unitsOf c ++ p.1, p.2) := by
  have hescaped {letter : Char} (h : escaped? letter = some c) (hsmall : c.toNat < 0x10000) :
      readUnits (['\\', letter] ++ rest) = (readUnits rest).map fun p => (unitsOf c ++ p.1, p.2) := by
    rw [unitsOf, if_pos hsmall]
    exact readUnits_escaped h rest
  have hcode {n : Nat} (h : c.toNat = n) : Char.ofNat n = c := by rw [← h, Char.ofNat_toNat]
  rw [charText]
  split
  next h => rcases h with rfl | rfl <;> exact hescaped rfl (by decide)
  split
  next h => exact hescaped (h ▸ rfl) (h ▸ by decide)
  split
  next h => exact hescaped (h ▸ rfl) (h ▸ by decide)
  split
  next h => exact hescaped (h ▸ rfl) (h ▸ by decide)
  split
  next h => exact hescaped (congrArg some (hcode h)) (h ▸ by decide)
  split
  next h => exact hescaped (congrArg some (hcode h)) (h ▸ by decide)
  split
  next hmarks _ _ _ _ _ h =>
    rw [not_or] at hmarks
    rw [unitsOf, if_pos (Nat.lt_of_le_of_lt h.2 (by decide))]
    exact readUnits_plain hmarks.1 hmarks.2 h.1 rest
  split
  next h =>
    rw [unitsOf, if_pos h]
    exact readUnits_unitText h rest
  next h =>
    have hc := toNat_lt c
    rw [unitsOf, if_neg h, List.append_assoc, readUnits_unitText (by omega), readUnits_unitText (by omega),
      Option.map_map]
    rfl

theorem joinUnits_unitsOf (c : Char) (us : List Nat) : joinUnits (unitsOf c ++ us) = (joinUnits us).map (c :: ·) := by
  have hc := toNat_lt c
  rw [unitsOf]
  split
  next =>
    have hvalid : c.toNat.isValidChar := c.valid
    rw [List.singleton_append, joinUnits.eq_def]
    dsimp only
    rw [if_pos hvalid, Char.ofNat_toNat]
  next h =>
    have hhigh : ¬ (0xd800 + (c.toNat - 0x10000) / 0x400).isValidChar := by
      rw [Nat.isValidChar]
      omega
    have hcode : 0x10000 + (0xd800 + (c.toNat - 0x10000) / 0x400 - 0xd800) * 0x400 +
        (0xdc00 + (c.toNat - 0x10000) % 0x400 - 0xdc00) = c.toNat := by omega
    rw [List.cons_append, List.singleton_append, joinUnits, if_neg hhigh, if_pos (by omega), hcode, Char.ofNat_toNat]

theorem readUnits_flatMap (cs rest : List Char) :
    readUnits (cs.flatMap charText ++ '"' :: rest) = some (cs.flatMap unitsOf, rest) := by
  induction cs with
  | nil => rfl
  | cons c cs ih =>
      rw [List.flatMap_cons, List.append_assoc, readUnits_charText, ih, List.flatMap_cons, Option.map_some]

theorem joinUnits_flatMap (cs : List Char) : joinUnits (cs.flatMap unitsOf) = some cs := by
  induction cs with
  | nil => rfl
  | cons c cs ih => rw [List.flatMap_cons, joinUnits_unitsOf, ih, Option.map_some]

theorem readString_flatMap (s : String) (rest : List Char) :
    readString (s.toList.flatMap charText ++ '"' :: rest) = some (s, rest) := by
  rw [readString, readUnits_flatMap]
  simp [joinUnits_flatMap]

/-! ### Numbers read back -/

/-- Digits of a number are read with its value, whatever stands behind them. -/
theorem readMagnitude_withPoint (negative : Bool) (n places : Nat) {rest : List Char} (hrest : Ended rest) :
    readMagnitude negative (Digits.withPoint (Digits.decimal n) places ++ rest) =
      some (.number (if negative then -(n : Int) else n) places, rest) := by
  have hds {c : Char} := Digits.isDigit_of_mem_decimal (n := n) (c := c)
  have hzero (h : (Digits.decimal n).head? = some '0') : Digits.decimal n = ['0'] := by
    rw [Digits.eq_zero_of_head? h]
    rfl
  by_cases hplaces : places = 0
  · have hpoint : Digits.withPoint (Digits.decimal n) places = Digits.decimal n := if_pos hplaces
    rw [readMagnitude, hpoint, Digits.pointed_digits (fun _ => hds) hrest]
    dsimp only
    rw [if_neg, List.append_nil, Digits.value_decimal, hplaces]
    · rfl
    · rintro (h | ⟨h, hne⟩ | ⟨-, hne⟩)
      · exact Digits.decimal_ne_nil n h
      · exact hne (hzero h)
      · exact hne rfl
  · obtain ⟨whole, fraction, hpoint, hfilled, hlength, hwhole, hfirst⟩ :=
      Digits.exists_withPoint hplaces (Digits.decimal n)
    have hall : ∀ c ∈ Digits.filled (places + 1) (Digits.decimal n), c.isDigit = true :=
      fun _ => Digits.isDigit_of_mem_filled fun _ => hds
    have hvalue := Digits.value_filled (places + 1) (Digits.decimal n)
    rw [hfilled] at hall hvalue
    rw [readMagnitude, hpoint, Digits.pointed_point (fun c hc => hall c (List.mem_append_left _ hc))
      (fun c hc => hall c (List.mem_append_right _ hc)) hrest]
    dsimp only
    rw [if_neg, hvalue, Digits.value_decimal, hlength]
    rintro (h | ⟨h, hne⟩ | ⟨h, -⟩)
    · exact hwhole h
    · rcases hfirst with hfirst | ⟨more, hfirst⟩
      · exact hne hfirst
      · have hhead : (Digits.decimal n).head? = some '0' := by
          rw [← hfirst, List.head?_append, h]
          rfl
        rw [hzero hhead] at hfirst
        obtain ⟨c, cs, rfl⟩ := List.exists_cons_of_ne_nil hwhole
        obtain ⟨rfl, hnil⟩ := List.cons.inj hfirst
        rw [(List.append_eq_nil_iff.mp hnil).1] at hne
        exact hne rfl
    · rw [h] at hlength
      exact hplaces hlength.symm

theorem exists_cons_numberText (c : Int) (places : Nat) :
    ∃ d more, numberText c places = d :: more ∧ (d.isDigit = true ∨ d = '-') := by
  rw [numberText]
  split
  next => exact ⟨'-', _, rfl, Or.inr rfl⟩
  next =>
    obtain ⟨d, more, hcons, hd⟩ := Digits.exists_cons_withPoint (Digits.decimal_ne_nil c.natAbs)
      (fun _ => Digits.isDigit_of_mem_decimal) places
    exact ⟨d, more, hcons, Or.inl hd⟩

theorem readNumber_numberText (c : Int) (places : Nat) {rest : List Char} (hrest : Ended rest) :
    readNumber (numberText c places ++ rest) = some (.number c places, rest) := by
  rw [numberText]
  rcases Int.lt_or_le c 0 with hneg | hnonneg
  · have hc : -(c.natAbs : Int) = c := by omega
    rw [if_pos hneg, List.singleton_append, List.cons_append, readNumber, readMagnitude_withPoint true _ _ hrest,
      if_pos rfl, hc]
  · have hc : (c.natAbs : Int) = c := by omega
    obtain ⟨d, more, hcons, hd⟩ := Digits.exists_cons_withPoint (Digits.decimal_ne_nil c.natAbs)
      (fun _ => Digits.isDigit_of_mem_decimal) places
    have hread := readMagnitude_withPoint false c.natAbs places hrest
    rw [if_neg (Int.not_lt.mpr hnonneg), List.nil_append]
    rw [hcons, List.cons_append] at hread ⊢
    rw [readNumber, hread, if_neg Bool.false_ne_true, hc]
    rintro _ ⟨⟩
    exact absurd hd (by decide)

/-! ### Lists and fields read back -/

/-- A text that begins with neither a blank nor a closing mark. -/
def Opens (text : List Char) : Prop := ∃ c more, text = c :: more ∧ isBlank c = false ∧ c ≠ ']' ∧ c ≠ '\x7d'

variable {α : Type} {read : List Char → Option (α × List Char)} {close : Char} {texts : List (List Char)} {xs : List α}

/-- What a text is read as, wherever it stands. -/
def ReadAs (read : List Char → Option (α × List Char)) (text : List Char) (x : α) : Prop :=
  ∀ rest, Ended rest → read (text ++ rest) = some (x, rest)

theorem skipBlanks_cons {c : Char} (h : isBlank c = false) (cs : List Char) : skipBlanks (c :: cs) = c :: cs :=
  List.dropWhile_cons_of_neg (by simp [h])

theorem readSeparated_blank (hblank : ∀ cs, read (' ' :: cs) = read cs) (n : Nat) (cs : List Char) :
    readSeparated read close n (' ' :: cs) = readSeparated read close n cs := by
  cases n with
  | zero => rfl
  | succ n => rw [readSeparated, readSeparated, hblank]

/-- The texts of some elements, divided by commas, are read as these elements. -/
theorem readSeparated_commaSeparated (hclose : close = ']' ∨ close = '\x7d') (hblank : ∀ cs, read (' ' :: cs) = read cs)
    (h : List.Forall₂ (ReadAs read) texts xs) (hne : texts ≠ []) {n : Nat} (hn : texts.length ≤ n)
    (rest : List Char) :
    readSeparated read close n (commaSeparated texts ++ close :: rest) = some (xs, rest) := by
  have hmark : isBlank close = false ∧ (close.isDigit = false ∧ close ≠ '.') ∧ close ≠ ',' := by
    rcases hclose with rfl | rfl <;> decide
  induction h generalizing n with
  | nil => exact absurd rfl hne
  | @cons text x texts xs hx hxs ih =>
      obtain ⟨n, rfl⟩ := Nat.exists_eq_add_one.mpr (Nat.lt_of_lt_of_le (Nat.succ_pos _) hn)
      cases texts with
      | nil =>
          cases hxs
          rw [commaSeparated, readSeparated, hx _ (Digits.ended_cons hmark.2.1 _)]
          simp [skipBlanks_cons hmark.1]
      | cons next texts =>
          have hrest := ih (List.cons_ne_nil _ _) (Nat.le_of_succ_le_succ hn)
          rw [commaSeparated, List.append_assoc, List.cons_append, List.cons_append, readSeparated,
            hx _ (Digits.ended_cons (by decide) _)]
          simp only [Option.bind_eq_bind, Option.bind_some, Option.pure_def]
          rw [skipBlanks_cons (by decide)]
          dsimp only
          rw [if_neg (Ne.symm hmark.2.2), if_pos rfl, readSeparated_blank hblank, hrest]
          rfl
          exact List.cons_ne_nil _ _

theorem length_commaSeparated_cons (text : List Char) (texts : List (List Char)) :
    text.length + (commaSeparated texts).length ≤ (commaSeparated (text :: texts)).length := by
  cases texts with
  | nil => exact Nat.le_refl _
  | cons next texts =>
      have hcons : commaSeparated (text :: next :: texts) = text ++ ',' :: ' ' :: commaSeparated (next :: texts) := rfl
      rw [hcons, List.length_append, List.length_cons, List.length_cons]
      omega

theorem length_le_commaSeparated {text : List Char} (h : text ∈ texts) :
    text.length ≤ (commaSeparated texts).length := by
  induction texts with
  | nil => cases h
  | cons t texts ih =>
      have hcons := length_commaSeparated_cons t texts
      rcases List.mem_cons.mp h with rfl | h
      · omega
      · have hrest := ih h
        omega

theorem length_texts_le (hopens : ∀ text ∈ texts, Opens text) : texts.length ≤ (commaSeparated texts).length := by
  induction texts with
  | nil => exact Nat.zero_le _
  | cons text texts ih =>
      obtain ⟨⟨c, more, rfl, -⟩, hothers⟩ := List.forall_mem_cons.mp hopens
      have hcons := length_commaSeparated_cons (c :: more) texts
      have hrest := ih hothers
      rw [List.length_cons] at hcons ⊢
      omega

theorem exists_cons_commaSeparated {c : Char} {more : List Char} :
    ∃ cs, commaSeparated ((c :: more) :: texts) = c :: cs := by
  cases texts with
  | nil => exact ⟨more, rfl⟩
  | cons next texts => exact ⟨_, rfl⟩

theorem readAll_commaSeparated (hclose : close = ']' ∨ close = '\x7d') (hblank : ∀ cs, read (' ' :: cs) = read cs)
    (hopens : ∀ text ∈ texts, Opens text) (h : List.Forall₂ (ReadAs read) texts xs) (rest : List Char) :
    readAll read close (commaSeparated texts ++ close :: rest) = some (xs, rest) := by
  cases texts with
  | nil =>
      cases h
      have hmark : isBlank close = false := by rcases hclose with rfl | rfl <;> rfl
      rw [commaSeparated, List.nil_append, readAll, skipBlanks_cons hmark]
      exact if_pos rfl
  | cons text texts =>
      have hread := readSeparated_commaSeparated hclose hblank h (List.cons_ne_nil _ _)
        (n := (commaSeparated (text :: texts) ++ close :: rest).length)
        (by rw [List.length_append]; exact Nat.le_add_right_of_le (length_texts_le hopens)) rest
      obtain ⟨c, more, rfl, hc, hlist, hobject⟩ := hopens text List.mem_cons_self
      obtain ⟨cs, hcs⟩ : ∃ cs, commaSeparated ((c :: more) :: texts) = c :: cs := exists_cons_commaSeparated
      have hne : c ≠ close := by rcases hclose with rfl | rfl <;> assumption
      rw [hcs, List.cons_append] at hread ⊢
      rw [readAll, skipBlanks_cons hc]
      dsimp only
      rw [if_neg hne, hread]

/-! ### Values read back -/

/-- A text is that of a value: it is read as the value, at any depth that its length allows. -/
structure Reads (text : List Char) (j : Json) : Prop where
  opens : Opens text
  reads : ∀ depth, text.length ≤ depth → ReadAs (readValue depth) text j

theorem readValue_blank (depth : Nat) (cs : List Char) : readValue depth (' ' :: cs) = readValue depth cs := by
  cases depth with
  | zero => rfl
  | succ depth => rfl

theorem readField_blank (read : List Char → Option (Json × List Char)) (cs : List Char) :
    readField read (' ' :: cs) = readField read cs := rfl

/-- A text that opens with some mark is read one level deeper. -/
theorem Reads.of_cons {c : Char} {more : List Char} {j : Json} (hc : isBlank c = false ∧ c ≠ ']' ∧ c ≠ '\x7d')
    (h : ∀ depth, more.length ≤ depth → ∀ rest, Ended rest →
      readValue (depth + 1) (c :: (more ++ rest)) = some (j, rest)) : Reads (c :: more) j := by
  refine ⟨⟨c, more, rfl, hc⟩, fun depth hdepth rest hrest => ?_⟩
  obtain ⟨depth, rfl⟩ := Nat.exists_eq_add_one.mpr (Nat.lt_of_lt_of_le (Nat.succ_pos _) hdepth)
  exact h depth (Nat.le_of_succ_le_succ hdepth) rest hrest

theorem stringText_append (s : String) (rest : List Char) :
    stringText s ++ rest = '"' :: (s.toList.flatMap charText ++ '"' :: rest) := by
  simp [stringText]

theorem reads_text (s : String) : Reads (stringText s) (.text s) := by
  rw [← List.append_nil (stringText s), stringText_append]
  refine Reads.of_cons (by decide) fun depth _ rest _ => ?_
  rw [List.append_assoc, List.singleton_append]
  change (readString _).map _ = _
  rw [readString_flatMap]
  rfl

/-- The marks that values other than numbers open with. -/
def openingMarks : List Char := ['n', 't', 'f', '"', '[', '\x7b']

theorem readValue_of_not_mem {c : Char} (hblank : isBlank c = false) (hmark : c ∉ openingMarks) (depth : Nat)
    (cs : List Char) : readValue (depth + 1) (c :: cs) = readNumber (c :: cs) := by
  have hne {x : Char} {xs : List Char} (hx : x ∈ openingMarks) : c :: cs ≠ x :: xs := by
    intro h
    rw [(List.cons.inj h).1] at hmark
    exact hmark hx
  rw [readValue, skipBlanks_cons hblank]
  split
  next h => exact absurd h (hne (by decide))
  next h => exact absurd h (hne (by decide))
  next h => exact absurd h (hne (by decide))
  next h => exact absurd h (hne (by decide))
  next h => exact absurd h (hne (by decide))
  next h => exact absurd h (hne (by decide))
  next => rfl

theorem reads_number (c : Int) (places : Nat) : Reads (numberText c places) (.number c places) := by
  obtain ⟨d, more, hcons, hd⟩ := exists_cons_numberText c places
  have hread {rest : List Char} (hrest : Ended rest) :
      readNumber (numberText c places ++ rest) = some (.number c places, rest) := readNumber_numberText c places hrest
  have hne {x : Char} (hx : x.isDigit = false ∧ x ≠ '-') : d ≠ x := by
    rintro rfl
    rcases hd with hd | hd
    · exact Bool.false_ne_true (hx.1.symm.trans hd)
    · exact hx.2 hd
  have hblank : isBlank d = false := by
    simp [isBlank, hne (x := ' ') (by decide), hne (x := '\t') (by decide), hne (x := '\n') (by decide),
      hne (x := '\r') (by decide)]
  have hmark : d ∉ openingMarks := by
    have hmarks : ∀ x ∈ openingMarks, x.isDigit = false ∧ x ≠ '-' := by simp [openingMarks, Char.isDigit]
    exact fun h => hne (hmarks d h) rfl
  rw [hcons] at hread ⊢
  refine Reads.of_cons ⟨hblank, hne (by decide), hne (by decide)⟩ fun depth _ rest hrest => ?_
  rw [readValue_of_not_mem hblank hmark, ← List.cons_append, hread hrest]

/-- Texts of values that fit into a depth, each opening with a mark. -/
theorem readAs_of_reads {depth : Nat} {texts : List (List Char)} {xs : List Json}
    (hdepth : (commaSeparated texts).length ≤ depth) (h : List.Forall₂ Reads texts xs) :
    List.Forall₂ (ReadAs (readValue depth)) texts xs :=
  ((List.forall₂_and_left _ _).mpr ⟨fun _ ht => Nat.le_trans (length_le_commaSeparated ht) hdepth, h⟩).imp
    fun _ _ ht => ht.2.reads depth ht.1

theorem reads_list {texts : List (List Char)} {xs : List Json} (h : List.Forall₂ Reads texts xs) :
    Reads ('[' :: (commaSeparated texts ++ [']'])) (.list xs) := by
  refine Reads.of_cons (by decide) fun depth hdepth rest _ => ?_
  rw [List.length_append] at hdepth
  have hread := readAs_of_reads (Nat.le_of_add_right_le hdepth) h
  have hopens : ∀ text ∈ texts, Opens text := fun text ht => by
    obtain ⟨x, -, hx⟩ := exists_of_forall₂_left h ht
    exact hx.opens
  rw [List.append_assoc, List.singleton_append]
  change (readAll (readValue depth) ']' _).map _ = _
  rw [readAll_commaSeparated (Or.inl rfl) (readValue_blank depth) hopens hread]
  rfl

def fieldText (e : String × List Char) : List Char := stringText e.1 ++ ':' :: ' ' :: e.2

def ReadsField (e : String × List Char) (f : String × Json) : Prop := e.1 = f.1 ∧ Reads e.2 f.2

theorem readField_fieldText {depth : Nat} {key : String} {text : List Char} {x : Json}
    (h : ReadAs (readValue depth) text x) : ReadAs (readField (readValue depth)) (fieldText (key, text)) (key, x) := by
  intro rest hrest
  rw [fieldText, List.append_assoc, stringText_append]
  change (readString _).bind _ = _
  rw [readString_flatMap]
  change (readValue depth (' ' :: (text ++ rest))).bind _ = _
  rw [readValue_blank, h rest hrest]
  rfl

theorem reads_object {entries : List (String × List Char)} {fields : List (String × Json)}
    (h : List.Forall₂ ReadsField entries fields) :
    Reads ('\x7b' :: (commaSeparated (entries.map fieldText) ++ ['\x7d'])) (.object fields) := by
  refine Reads.of_cons (by decide) fun depth hdepth rest _ => ?_
  rw [List.length_append] at hdepth
  have hread : List.Forall₂ (ReadAs (readField (readValue depth))) (entries.map fieldText) fields := by
    have hfits : ∀ e ∈ entries, (fieldText e).length ≤ depth := fun e he =>
      Nat.le_trans (length_le_commaSeparated (List.mem_map_of_mem he)) (Nat.le_of_add_right_le hdepth)
    refine List.forall₂_map_left_iff.mpr (((List.forall₂_and_left _ _).mpr ⟨hfits, h⟩).imp ?_)
    rintro ⟨key, text⟩ ⟨_, x⟩ ⟨hlength, rfl, hx⟩
    refine readField_fieldText (hx.reads depth ?_)
    rw [fieldText, List.length_append, List.length_cons, List.length_cons] at hlength
    change text.length ≤ depth
    dsimp only at hlength
    omega
  have hopens : ∀ text ∈ entries.map fieldText, Opens text := by
    intro text ht
    obtain ⟨e, -, rfl⟩ := List.mem_map.mp ht
    exact ⟨'"', _, rfl, by decide⟩
  rw [List.append_assoc, List.singleton_append]
  change (readAll (readField (readValue depth)) '\x7d' _).map _ = _
  rw [readAll_commaSeparated (Or.inr rfl) (readField_blank _) hopens hread]
  rfl

/-! ### Fields in order -/

/-- Keeps fields in the order of their keys. -/
def insertField (f : String × Json) : List (String × Json) → List (String × Json)
  | [] => [f]
  | g :: gs => if f.1 < g.1 then f :: g :: gs else g :: insertField f gs

mutual

/-- A value with the fields of all its objects in the order of their keys. -/
def ordered : Json → Json
  | .null => .null
  | .bool b => .bool b
  | .number c places => .number c places
  | .text s => .text s
  | .list xs => .list (orderedAll xs)
  | .object fields => .object ((orderedFields fields).foldr insertField [])

def orderedAll : List Json → List Json
  | [] => []
  | x :: xs => ordered x :: orderedAll xs

def orderedFields : List (String × Json) → List (String × Json)
  | [] => []
  | (key, x) :: fields => (key, ordered x) :: orderedFields fields

end

theorem forall₂_insertField {e : String × List Char} {f : String × Json} {entries : List (String × List Char)}
    {fields : List (String × Json)} (hef : ReadsField e f) (h : List.Forall₂ ReadsField entries fields) :
    List.Forall₂ ReadsField (insertByKey e entries) (insertField f fields) := by
  induction h with
  | nil => exact .cons hef .nil
  | cons hxy h ih =>
      rw [insertByKey, insertField, hef.1, hxy.1]
      split
      · exact .cons hef (.cons hxy h)
      · exact .cons hxy ih

theorem forall₂_foldr_insertField {entries : List (String × List Char)} {fields : List (String × Json)}
    (h : List.Forall₂ ReadsField entries fields) :
    List.Forall₂ ReadsField (entries.foldr insertByKey []) (fields.foldr insertField []) := by
  induction h with
  | nil => exact .nil
  | cons hxy _ ih => exact forall₂_insertField hxy ih

mutual

theorem reads_toChars : ∀ j : Json, Reads j.toChars j.ordered
  | .null => Reads.of_cons (by decide) fun _ _ _ _ => rfl
  | .bool true => Reads.of_cons (by decide) fun _ _ _ _ => rfl
  | .bool false => Reads.of_cons (by decide) fun _ _ _ _ => rfl
  | .number c places => reads_number c places
  | .text s => reads_text s
  | .list xs => reads_list (reads_listChars xs)
  | .object fields => reads_object (forall₂_foldr_insertField (reads_fieldChars fields))

theorem reads_listChars : ∀ xs : List Json, List.Forall₂ Reads (listChars xs) (orderedAll xs)
  | [] => .nil
  | x :: xs => .cons (reads_toChars x) (reads_listChars xs)

theorem reads_fieldChars : ∀ fields : List (String × Json),
    List.Forall₂ ReadsField (fieldChars fields) (orderedFields fields)
  | [] => .nil
  | (_, x) :: fields => .cons ⟨rfl, reads_toChars x⟩ (reads_fieldChars fields)

end

/-- The text of a value is read as the value, with the fields of its objects in order. -/
theorem read?_toText (j : Json) : read? j.toText = some j.ordered := by
  have hread := (reads_toChars j).reads (j.toText.length + 1) (by
    rw [toText, String.length_ofList]
    exact Nat.le_succ _) [] Digits.ended_nil
  rw [List.append_nil] at hread
  rw [read?, toText, String.toList_ofList, ← toText, hread]
  rfl

end UsageBilling.Json
