import BlockCalc.Environment
import BlockCalc.Program

/-!
# Evaluation

The value of an expression in an environment. Operands are evaluated from left to right, and the
first error ends the evaluation. A divisor is compared with zero, and the operand of a root with
the negative numbers, after its own sign has been applied.
-/
namespace BlockCalc

/-- The result of an additive operator. -/
def AddOp.apply : AddOp → Number → Number → Number
  | .add, a, b => a + b
  | .sub, a, b => a - b

/-- The result of a multiplicative operator. -/
def MulOp.apply : MulOp → Number → Number → Except RuntimeError Number
  | .mul, a, b => .ok (a * b)
  | .div, a, b => if b.isZero then .error .divisionByZero else .ok (a / b)
  | .root, a, b =>
    match b.sqrt? with
    | some r => .ok (a * r)
    | none => .error (.mathDomain b)

mutual

/-- The value of a factor. -/
def Factor.eval (env : Environment) : Factor → Except RuntimeError Number
  | .number value => .ok value
  | .group inner => inner.eval env
  | .variable name => env.lookup name

/-- The value of a term. -/
def Term.eval (env : Environment) : Term → Except RuntimeError Number
  | .lead first => first.eval env
  | .extend before op sign factor => do
    let a ← before.eval env
    let b ← factor.eval env
    op.apply a (sign.apply b)

/-- The value of an expression. -/
def Expr.eval (env : Environment) : Expr → Except RuntimeError Number
  | .lead sign first => do
    let a ← first.eval env
    return sign.apply a
  | .extend before op term => do
    let a ← before.eval env
    let b ← term.eval env
    return op.apply a b

end

end BlockCalc
