import BlockCalc.Number

/-!
# Programs

The tree of a program. A program is a list of statements over expressions of three levels: an
expression is a signed term continued by `+` and `-`, a term is a factor continued by `*`, `/` and
`√`, and a factor is a number, a group in parentheses or a variable. Chains lean to the left, so
that every subtree stands for a value that evaluation passes through.
-/
namespace BlockCalc

/-- A sign in front of a term or a factor; an absent one counts as plus. -/
inductive Sign where
  | plus
  | minus
deriving DecidableEq

/-- The value with a sign put in front. -/
def Sign.apply : Sign → Number → Number
  | .plus, value => value
  | .minus, value => -value

/-- The operators that continue an expression. -/
inductive AddOp where
  | add
  | sub
deriving DecidableEq

/-- The operators that continue a term. -/
inductive MulOp where
  | mul
  | div
  /-- `a √ b` is `a` times the square root of `b`. -/
  | root
deriving DecidableEq

mutual

/-- A number, a group in parentheses or a variable. -/
inductive Factor where
  | number (value : Number)
  | group (inner : Expr)
  | variable (name : String)

/-- A product: a factor, or a shorter product continued by an operator and a signed factor. -/
inductive Term where
  | lead (first : Factor)
  | extend (before : Term) (op : MulOp) (sign : Sign) (factor : Factor)

/-- A sum: a signed term, or a shorter sum continued by an operator and a term. -/
inductive Expr where
  | lead (sign : Sign) (first : Term)
  | extend (before : Expr) (op : AddOp) (term : Term)

end

/-- The expression that is a single term. -/
def Expr.ofTerm (t : Term) : Expr := .lead .plus t

/-- The expression that is a single factor. -/
def Expr.ofFactor (f : Factor) : Expr := .ofTerm (.lead f)

/-- A statement of a program. -/
inductive Statement where
  /-- Binds a new name. -/
  | declare (name : String) (value : Expr)
  /-- Changes the value of a bound name. -/
  | assign (name : String) (value : Expr)
  /-- Prints a value. -/
  | print (value : Expr)

/-- The statements of a program in order. -/
abbrev Program := List Statement

end BlockCalc
