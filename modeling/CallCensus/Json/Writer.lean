import CallCensus.Dict
import CallCensus.Text.Basic

/-!
Writing JSON.

Strings escape the quote, the backslash and the control characters, and nothing else.
Objects list their entries in the order of a dictionary, either without any blanks or
with one entry a line, two spaces deeper than the object.
-/

namespace CallCensus.Json

variable {α : Type}

/-- The lower-case hexadecimal digit of a number below 16. -/
def hexDigit (n : Nat) : Char :=
  if n < 10 then Char.ofNat ('0'.toNat + n) else Char.ofNat ('a'.toNat + (n - 10))

/-- A character as it stands in a JSON string. -/
def escaped (c : Char) : Text :=
  if c = '"' then ['\\', '"']
  else if c = '\\' then ['\\', '\\']
  else if c = '\x08' then ['\\', 'b']
  else if c = '\x0c' then ['\\', 'f']
  else if c = '\n' then ['\\', 'n']
  else if c = '\r' then ['\\', 'r']
  else if c = '\t' then ['\\', 't']
  else if c.toNat < 0x20 then
    ['\\', 'u', '0', '0', hexDigit (c.toNat / 16), hexDigit (c.toNat % 16)]
  else [c]

/-- A string in quotes. -/
def quoted (s : String) : Text :=
  '"' :: (s.toList.flatMap escaped ++ ['"'])

/-- A count in decimal digits. -/
def writeCount (n : UInt64) : Text :=
  Nat.toDigits 10 n.toNat

/-- Texts with a separator between them. -/
def joined (separator : Text) : List Text → Text
  | [] => []
  | [s] => s
  | s :: rest => s ++ (separator ++ joined separator rest)

/-- An object without blanks. -/
def compact (write : α → Text) (d : Dict α) : Text :=
  '\x7b' :: (joined [','] (d.entries.map fun e => quoted e.1 ++ (':' :: write e.2)) ++ ['\x7d'])

/-- The start of a line at a depth. -/
def newLine (depth : Nat) : Text :=
  '\n' :: List.replicate (2 * depth) ' '

/-- An object at a depth, with one entry a line. An empty object is written as two
brackets. -/
def pretty (write : α → Text) (depth : Nat) (d : Dict α) : Text :=
  if d.entries.isEmpty then ['\x7b', '\x7d']
  else
    '\x7b' ::
      (joined [','] (d.entries.map fun e =>
          newLine (depth + 1) ++ (quoted e.1 ++ (':' :: ' ' :: write e.2))) ++
        (newLine depth ++ ['\x7d']))

end CallCensus.Json
