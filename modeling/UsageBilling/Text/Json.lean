import UsageBilling.Text.Digits

/-! JSON values and their text. The text is made of ASCII characters only: objects have their keys in
order, commas and colons are followed by a blank, and all other characters are escaped by their
UTF-16 units. -/

namespace UsageBilling

/-- A JSON value. A number is `coefficient / 10 ^ places`. -/
inductive Json where
  | null
  | bool (b : Bool)
  | number (coefficient : Int) (places : Nat)
  | text (s : String)
  | list (xs : List Json)
  | object (fields : List (String × Json))
  deriving Inhabited

namespace Json

def ofNat (n : Nat) : Json := .number n 0

/-- A text, or null where there is none. -/
def ofText? : Option String → Json
  | some s => .text s
  | none => .null

/-! ### Text -/

/-- One UTF-16 unit, escaped. -/
def unitText (n : Nat) : List Char := '\\' :: 'u' :: Digits.filled 4 (Digits.hexadecimal n)

/-- A character inside a string. Characters above the basic plane take two units. -/
def charText (c : Char) : List Char :=
  let n := c.toNat
  if c = '"' ∨ c = '\\' then ['\\', c]
  else if c = '\n' then ['\\', 'n']
  else if c = '\r' then ['\\', 'r']
  else if c = '\t' then ['\\', 't']
  else if n = 8 then ['\\', 'b']
  else if n = 12 then ['\\', 'f']
  else if 0x20 ≤ n ∧ n ≤ 0x7e then [c]
  else if n < 0x10000 then unitText n
  else unitText (0xd800 + (n - 0x10000) / 0x400) ++ unitText (0xdc00 + (n - 0x10000) % 0x400)

/-- A string in double quotes. -/
def stringText (s : String) : List Char := '"' :: s.toList.flatMap charText ++ ['"']

/-- A number, with a point where it has places. -/
def numberText (coefficient : Int) (places : Nat) : List Char :=
  (if coefficient < 0 then ['-'] else [])
    ++ Digits.withPoint (Digits.decimal coefficient.natAbs) places

def commaSeparated : List (List Char) → List Char
  | [] => []
  | [x] => x
  | x :: xs => x ++ ',' :: ' ' :: commaSeparated xs

/-- Keeps a list of keyed texts in the order of the keys. -/
def insertByKey (entry : String × List Char) : List (String × List Char) → List (String × List Char)
  | [] => [entry]
  | e :: es => if entry.1 < e.1 then entry :: e :: es else e :: insertByKey entry es

mutual

def toChars : Json → List Char
  | .null => ['n', 'u', 'l', 'l']
  | .bool true => ['t', 'r', 'u', 'e']
  | .bool false => ['f', 'a', 'l', 's', 'e']
  | .number c p => numberText c p
  | .text s => stringText s
  | .list xs => '[' :: commaSeparated (listChars xs) ++ [']']
  | .object fields =>
      let entries := (fieldChars fields).foldr insertByKey []
      '\x7b' :: commaSeparated (entries.map fun e => stringText e.1 ++ ':' :: ' ' :: e.2) ++ ['\x7d']

def listChars : List Json → List (List Char)
  | [] => []
  | x :: xs => toChars x :: listChars xs

def fieldChars : List (String × Json) → List (String × List Char)
  | [] => []
  | (k, v) :: rest => (k, toChars v) :: fieldChars rest

end

def toText (j : Json) : String := String.ofList j.toChars

end Json
end UsageBilling
