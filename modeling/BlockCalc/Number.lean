/-!
# Numbers

A number is a 64-bit integer or a double. Sums, differences and products of integers are integers
as long as they fit into 64 bits; a result that does not fit is computed again in doubles, and so
is every result with a double among the operands. Quotients and square roots are always doubles.
-/
namespace BlockCalc

/-- A numeric value. -/
inductive Number where
  | int (n : Int64)
  | float (x : Float)
deriving Inhabited

namespace Number

/-- Whether an integer fits into 64 bits. -/
def Fits (z : Int) : Prop := Int64.minValue.toInt ≤ z ∧ z ≤ Int64.maxValue.toInt

instance (z : Int) : Decidable (Fits z) := inferInstanceAs (Decidable (_ ∧ _))

/-- The integer `z` if it fits into 64 bits, and otherwise the double `instead`. -/
def exactOr (z : Int) (instead : Float) : Number :=
  if Fits z then .int (.ofInt z) else .float instead

/-- The value as a double; an integer is rounded to the nearest one. -/
def toFloat : Number → Float
  | .int n => Float.ofInt n.toInt
  | .float x => x

protected def add : Number → Number → Number
  | .int a, .int b => exactOr (a.toInt + b.toInt) (Float.ofInt a.toInt + Float.ofInt b.toInt)
  | a, b => .float (a.toFloat + b.toFloat)

protected def sub : Number → Number → Number
  | .int a, .int b => exactOr (a.toInt - b.toInt) (Float.ofInt a.toInt - Float.ofInt b.toInt)
  | a, b => .float (a.toFloat - b.toFloat)

protected def mul : Number → Number → Number
  | .int a, .int b => exactOr (a.toInt * b.toInt) (Float.ofInt a.toInt * Float.ofInt b.toInt)
  | a, b => .float (a.toFloat * b.toFloat)

/-- The quotient in doubles; a zero divisor gives an infinity or NaN. -/
protected def div (a b : Number) : Number := .float (a.toFloat / b.toFloat)

protected def neg : Number → Number
  | .int n => exactOr (-n.toInt) (-Float.ofInt n.toInt)
  | .float x => .float (-x)

instance : Add Number := ⟨Number.add⟩
instance : Sub Number := ⟨Number.sub⟩
instance : Mul Number := ⟨Number.mul⟩
instance : Div Number := ⟨Number.div⟩
instance : Neg Number := ⟨Number.neg⟩

/-- Whether the value is zero of either kind and sign. -/
def isZero : Number → Bool
  | .int n => n == 0
  | .float x => x == 0

/-- The square root, or nothing for a negative operand. -/
def sqrt? (a : Number) : Option Number :=
  if a.toFloat < 0 then none else some (.float a.toFloat.sqrt)

/-- Numerical equality inside a kind: an integer never equals a double, NaN equals nothing, and the
two zeros are equal. -/
protected def beq : Number → Number → Bool
  | .int a, .int b => a == b
  | .float x, .float y => x == y
  | _, _ => false

instance : BEq Number := ⟨Number.beq⟩

end Number
end BlockCalc
