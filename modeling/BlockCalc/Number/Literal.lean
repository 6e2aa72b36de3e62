import BlockCalc.Number
import BlockCalc.Decimal.Numeral

/-!
# Number literals

The number that a literal denotes. A literal without a point is an integer if it is a whole numeral
that fits into 64 bits; every other literal with at most one point is a double if it is a real
numeral.
-/
namespace BlockCalc
namespace Number

/-- The integer that a whole numeral within 64 bits denotes. -/
def integerLiteral? (cs : List Char) : Option Number :=
  (Numeral.whole? cs).bind fun z => if Fits z then some (.int (.ofInt z)) else none

/-- The double that a real numeral denotes. -/
def floatLiteral? (cs : List Char) : Option Number :=
  (Numeral.real? cs).map .float

/-- The number that a literal denotes, chosen by the number of points in it. -/
def ofLiteral? (lexeme : String) : Option Number :=
  let cs := lexeme.toList
  match cs.count '.' with
  | 0 => (integerLiteral? cs).or (floatLiteral? cs)
  | 1 => floatLiteral? cs
  | _ => none

end Number
end BlockCalc
