import BlockCalc.Number.Text

/-!
# Runtime errors

The reasons why a running program stops.
-/
namespace BlockCalc

/-- Why a running program stopped. -/
inductive RuntimeError where
  | duplicateBinding (name : String)
  | unboundVariable (name : String)
  | divisionByZero
  /-- The square root of a negative number, which is kept. -/
  | mathDomain (operand : Number)
  /-- The output takes no more. That is the only way in which a write to a sink fails, so no reason
  is kept. -/
  | output

/-- What a full output says. -/
def outputFullMessage : String := "failed to write whole buffer"

/-- The wording of a runtime error. -/
def RuntimeError.message : RuntimeError → String
  | .duplicateBinding name => "Variable '" ++ name ++ "' already exists"
  | .unboundVariable name => "Variable '" ++ name ++ "' does not exist"
  | .divisionByZero => "Division by zero"
  | .mathDomain operand => "Square root of negative number " ++ operand.text
  | .output => "Failed to write output: " ++ outputFullMessage

end BlockCalc
