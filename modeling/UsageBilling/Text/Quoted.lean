import UsageBilling.Text.Digits
import UsageBilling.Text.Printable

/-! Text in quotes, as it stands in messages. Single quotes are used, unless the text has one and no
double quote. The backslash, the quote in use and characters that are not printable are escaped. -/

namespace UsageBilling.Text

def quoteFor (cs : List Char) : Char := if '\'' ∈ cs ∧ '"' ∉ cs then '"' else '\''

/-- A character as it is written between quotes. -/
def escaped (quote c : Char) : List Char :=
  if c = '\\' ∨ c = quote then ['\\', c]
  else if c = '\t' then ['\\', 't']
  else if c = '\n' then ['\\', 'n']
  else if c = '\r' then ['\\', 'r']
  else if printable c then [c]
  else if c.toNat < 0x100 then '\\' :: 'x' :: Digits.filled 2 (Digits.hexadecimal c.toNat)
  else if c.toNat < 0x10000 then '\\' :: 'u' :: Digits.filled 4 (Digits.hexadecimal c.toNat)
  else '\\' :: 'U' :: Digits.filled 8 (Digits.hexadecimal c.toNat)

def quoted (text : String) : String :=
  let cs := text.toList
  let quote := quoteFor cs
  String.ofList (quote :: cs.flatMap (escaped quote) ++ [quote])

/-- Some texts in quotes, in square brackets. -/
def quotedList (texts : List String) : String := "[" ++ ", ".intercalate (texts.map quoted) ++ "]"

end UsageBilling.Text
