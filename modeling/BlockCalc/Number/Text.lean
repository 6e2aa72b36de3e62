import BlockCalc.Number
import BlockCalc.Decimal.Layout

/-!
# The text of a number

Integers are written in decimal. Doubles are written with the fewest digits that read back, with a
point or an exponent, so that the text tells the two kinds apart.
-/
namespace BlockCalc
namespace Number

/-- Doubles from `10 ^ (-4)` to below `10 ^ 16` are written plainly, with a digit after the point,
and all others with an exponent. -/
def floatLayout : Layout where
  leastPlain := -4
  greatestPlain := 15
  exponentMark := ['e']
  infinity := "inf".toList
  notANumber := "NaN".toList

/-- The characters of a number's text. -/
def chars : Number → List Char
  | .int n => Layout.integer n.toInt
  | .float x => floatLayout.text x

/-- The text of a number. -/
def text (a : Number) : String := .ofList a.chars

end Number
end BlockCalc
