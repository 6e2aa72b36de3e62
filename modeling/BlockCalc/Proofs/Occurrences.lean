import BlockCalc.Program

/-!
# What occurs in a tree

The variables and the number literals of an expression, in the order in which they stand, the names
of a statement, and whether a root sign occurs.
-/
namespace BlockCalc

mutual

/-- The variables from left to right, each as often as it occurs. -/
def Factor.variables : Factor → List String
  | .number _ => []
  | .group inner => inner.variables
  | .variable name => [name]

def Term.variables : Term → List String
  | .lead first => first.variables
  | .extend before _ _ factor => before.variables ++ factor.variables

def Expr.variables : Expr → List String
  | .lead _ first => first.variables
  | .extend before _ term => before.variables ++ term.variables

end

mutual

/-- The number literals from left to right. -/
def Factor.literals : Factor → List Number
  | .number value => [value]
  | .group inner => inner.literals
  | .variable _ => []

def Term.literals : Term → List Number
  | .lead first => first.literals
  | .extend before _ _ factor => before.literals ++ factor.literals

def Expr.literals : Expr → List Number
  | .lead _ first => first.literals
  | .extend before _ term => before.literals ++ term.literals

end

mutual

/-- No root sign occurs at any depth. -/
def Factor.RootFree : Factor → Prop
  | .number _ => True
  | .group inner => inner.RootFree
  | .variable _ => True

def Term.RootFree : Term → Prop
  | .lead first => first.RootFree
  | .extend before op _ factor => before.RootFree ∧ op ≠ .root ∧ factor.RootFree

def Expr.RootFree : Expr → Prop
  | .lead _ first => first.RootFree
  | .extend before _ term => before.RootFree ∧ term.RootFree

end

namespace Statement

/-- The expression of a statement. -/
def value : Statement → Expr
  | .declare _ value => value
  | .assign _ value => value
  | .print value => value

/-- The name that a statement binds or changes. -/
def target? : Statement → Option String
  | .declare name _ => some name
  | .assign name _ => some name
  | .print _ => none

/-- All names in a statement: its target and the variables it reads. -/
def names (s : Statement) : List String := s.target?.toList ++ s.value.variables

end Statement
end BlockCalc
