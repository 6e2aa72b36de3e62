import BlockCalc.Decimal.Shortest

/-!
# The written form of a double

A `Layout` holds the choices a written form leaves open: which leading exponents are written
plainly, what marks an exponent, and the names of the values that have no digits. `Layout.text`
writes a double by its shortest decimal.
-/
namespace BlockCalc

/-- The choices of a written form. -/
structure Layout where
  /-- The least exponent of the leading digit that is written plainly. -/
  leastPlain : Int
  /-- The greatest exponent of the leading digit that is written plainly. -/
  greatestPlain : Int
  /-- What stands between the digits and an exponent. -/
  exponentMark : List Char
  infinity : List Char
  notANumber : List Char

namespace Layout

/-- Digits with the point after the first `point` of them, filled up with zeros so that a digit
stands on each side. -/
def plain (digits : List Char) (point : Int) : List Char :=
  match point with
  | .ofNat (n + 1) =>
    let whole := digits.take (n + 1) ++ List.replicate (n + 1 - digits.length) '0'
    let places := digits.drop (n + 1)
    whole ++ '.' :: (if places.isEmpty then ['0'] else places)
  | _ => '0' :: '.' :: (List.replicate point.natAbs '0' ++ digits)

/-- The decimal text of an integer. -/
def integer (z : Int) : List Char :=
  let digits := Nat.toDigits 10 z.natAbs
  if z < 0 then '-' :: digits else digits

/-- Digits with the point after the first of them, if more follow, and the exponent of the first. -/
def scientific (layout : Layout) (digits : List Char) (exponent : Int) : List Char :=
  let lead := digits.take 1
  let places := digits.drop 1
  lead ++ (if places.isEmpty then [] else '.' :: places) ++ layout.exponentMark ++ integer exponent

/-- The written form of a positive decimal. -/
def decimal (layout : Layout) (d : Decimal) : List Char :=
  let exponent := d.digits.length - 1 + d.exponent
  let digits := (d.digits.reverse.dropWhile (· == '0')).reverse
  if layout.leastPlain ≤ exponent ∧ exponent ≤ layout.greatestPlain then
    plain digits (exponent + 1)
  else layout.scientific digits exponent

/-- The written form of a magnitude. -/
def magnitude (layout : Layout) (m : Magnitude) : List Char :=
  if m.isInfinite then layout.infinity
  else if m = .zero then plain ['0'] 1
  else layout.decimal m.shortest

/-- The written form of a double. -/
def text (layout : Layout) (x : Float) : List Char :=
  if x.isNaN then layout.notANumber
  else if isNegative x then '-' :: layout.magnitude (.ofFloat x)
  else layout.magnitude (.ofFloat x)

end Layout
end BlockCalc
