import CallCensus.Unicode.Alphabetic
import CallCensus.Unicode.Mark
import CallCensus.Unicode.Numeric

/-!
Character classes over all of Unicode.

* `isBlank`: white space;
* `isAlphanumeric`: letters and numbers of every kind;
* `isWord`: the characters that names are made of, which differs from
  `isAlphanumeric` in three ways: combining marks, connecting punctuation such as
  `_` and the two joiners belong to names, while numbers belong to them only as
  letters or decimal digits.
-/

namespace CallCensus.Unicode

/-- White space: the Unicode property `White_Space`. -/
def isBlank (c : Char) : Bool :=
  let n := c.toNat
  (0x09 ≤ n && n ≤ 0x0d) || n == 0x20 || n == 0x85 || n == 0xa0 || n == 0x1680 ||
    (0x2000 ≤ n && n ≤ 0x200a) || n == 0x2028 || n == 0x2029 || n == 0x202f || n == 0x205f ||
    n == 0x3000

/-- Letters and numbers: `Alphabetic`, or one of the categories `Nd`, `Nl` and
`No`. -/
def isAlphanumeric (c : Char) : Bool :=
  if c.toNat < 0x80 then c.isAlphanum
  else alphabeticRanges.containsChar c || numberRanges.containsChar c

/-- Punctuation that joins words: the general category `Pc`. -/
def isConnector (c : Char) : Bool :=
  let n := c.toNat
  n == 0x5f || n == 0x203f || n == 0x2040 || n == 0x2054 || n == 0xfe33 || n == 0xfe34 ||
    (0xfe4d ≤ n && n ≤ 0xfe4f) || n == 0xff3f

/-- The zero-width joiner and non-joiner: the property `Join_Control`. -/
def isJoiner (c : Char) : Bool :=
  c.toNat == 0x200c || c.toNat == 0x200d

/-- Word characters: letters, marks, decimal digits, connecting punctuation and
joiners. -/
def isWord (c : Char) : Bool :=
  if c.toNat < 0x80 then c.isAlphanum || c == '_'
  else
    alphabeticRanges.containsChar c || markRanges.containsChar c ||
      decimalRanges.containsChar c || isConnector c || isJoiner c

end CallCensus.Unicode
