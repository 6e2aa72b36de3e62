import BlockCalc.Decimal

/-!
# Numerals

The texts that denote numbers. A whole numeral is an optional sign and digits. A real numeral is an
optional sign and either digits with at most one point and an optional power of ten, or one of the
names of infinity and of NaN in any case. Only the digits `0` to `9` count as digits.
-/
namespace BlockCalc
namespace Numeral

/-- Splits off an optional sign; the first part tells whether it is a minus. -/
def splitSign : List Char → Bool × List Char
  | '+' :: rest => (false, rest)
  | '-' :: rest => (true, rest)
  | rest => (false, rest)

/-- The value of a text of one or more digits. -/
def digits? (cs : List Char) : Option Nat :=
  if cs ≠ [] ∧ cs.all Char.isDigit then some (Nat.ofDigitChars 10 cs 0) else none

/-- The value of a whole numeral. -/
def whole? (cs : List Char) : Option Int :=
  let (negative, rest) := splitSign cs
  (digits? rest).map fun n => if negative then -(n : Int) else n

theorem whole?_of_splitSign {cs rest : List Char} {negative : Bool}
    (split : splitSign cs = (negative, rest)) :
    whole? cs = (digits? rest).map fun n : Nat => if negative then -(n : Int) else (n : Int) := by
  simp only [whole?, split]
  cases digits? rest <;> rfl

/-- The exponent that a text after the digits gives: none written means zero. -/
def exponent? : List Char → Option Int
  | [] => some 0
  | mark :: rest => if mark = 'e' ∨ mark = 'E' then whole? rest else none

/-- Splits off an optional point and the digits that follow it. -/
def splitPlaces : List Char → List Char × List Char
  | '.' :: rest => (rest.takeWhile Char.isDigit, rest.dropWhile Char.isDigit)
  | rest => ([], rest)

/-- The decimal that an unsigned numeral with digits denotes. -/
def decimal? (cs : List Char) : Option Decimal :=
  let whole := cs.takeWhile Char.isDigit
  let (places, rest) := splitPlaces (cs.dropWhile Char.isDigit)
  if whole ++ places = [] then none
  else (exponent? rest).map fun e =>
    ⟨Nat.ofDigitChars 10 (whole ++ places) 0, e - places.length⟩

/-- The magnitude that an unsigned numeral other than NaN denotes. -/
def magnitude? (cs : List Char) : Option Magnitude :=
  let name := cs.map Char.toLower
  if name = "inf".toList ∨ name = "infinity".toList then some .infinity
  else (decimal? cs).map Decimal.nearest

/-- The double that a real numeral denotes. -/
def real? (cs : List Char) : Option Float :=
  let (negative, rest) := splitSign cs
  if rest.map Char.toLower = "nan".toList then some notANumber
  else (magnitude? rest).map (Magnitude.toFloat negative)

end Numeral
end BlockCalc
