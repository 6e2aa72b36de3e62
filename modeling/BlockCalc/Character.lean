import BlockCalc.Character.Alphabetic
import BlockCalc.Character.Numeric

/-!
# Character classes

The classes of characters that source text is made of: blanks, the characters that begin and
continue a name, and the characters of a number. A name is a letter followed by letters and
numerals in the sense of Unicode; a number is made of the digits `0` to `9` and points only.
-/
namespace BlockCalc.Character

/-- Whether a code point lies in one of the ranges, which are in increasing order. -/
def covers : List (Nat × Nat) → Nat → Bool
  | [], _ => false
  | (first, last) :: rest, code =>
    if code < first then false else code ≤ last || covers rest code

/-- A character that may begin a name. -/
def isLetter (c : Char) : Bool := covers alphabeticRanges c.toNat

/-- A character that may continue a name. -/
def isLetterOrNumeral (c : Char) : Bool := isLetter c || covers numericRanges c.toNat

/-- A character of a number. -/
def isDigitOrPoint (c : Char) : Bool := c.isDigit || c == '.'

/-- A character that separates tokens and means nothing else. -/
def isBlank (c : Char) : Bool := c == ' ' || c == '\t' || c == '\n'

end BlockCalc.Character
