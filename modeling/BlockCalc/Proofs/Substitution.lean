import BlockCalc.Evaluation

/-!
# Substitution

Other factors put in the place of variables. If each variable is replaced by a factor that gives, in
a second environment, the value or the error of the variable in the first, then so does the whole
tree (`Expr.eval_substitute`). A case is a variable that stands for the value of an expression: it
can be replaced by that expression in parentheses (`Expr.eval_inline`).
-/
namespace BlockCalc

mutual

/-- The factor with other factors in the place of its variables. -/
def Factor.substitute (image : String → Factor) : Factor → Factor
  | .number value => .number value
  | .group inner => .group (inner.substitute image)
  | .variable name => image name

def Term.substitute (image : String → Factor) : Term → Term
  | .lead first => .lead (first.substitute image)
  | .extend before op sign factor =>
    .extend (before.substitute image) op sign (factor.substitute image)

def Expr.substitute (image : String → Factor) : Expr → Expr
  | .lead sign first => .lead sign (first.substitute image)
  | .extend before op term => .extend (before.substitute image) op (term.substitute image)

end

/-- The images of the variables do in the second environment what the variables do in the first, up
to a translation of errors that leaves those of operations as they are. -/
structure Represents (image : String → Factor) (translate : RuntimeError → RuntimeError)
    (env other : Environment) : Prop where
  names : ∀ name, (image name).eval other = (env.lookup name).mapError translate
  division : translate .divisionByZero = .divisionByZero
  domain : ∀ operand, translate (.mathDomain operand) = .mathDomain operand

theorem mapError_bind {ε δ α β : Type} (translate : ε → δ) (x : Except ε α)
    (f : α → Except ε β) :
    (x >>= f).mapError translate =
      x.mapError translate >>= fun a => (f a).mapError translate := by
  cases x <;> rfl

section
variable {image : String → Factor} {translate : RuntimeError → RuntimeError}
  {env other : Environment}

theorem MulOp.mapError_apply (represents : Represents image translate env other) (op : MulOp)
    (a b : Number) : (op.apply a b).mapError translate = op.apply a b := by
  cases op with
  | mul => rfl
  | div =>
    rw [MulOp.apply]
    split
    · exact congrArg Except.error represents.division
    · rfl
  | root =>
    rw [MulOp.apply]
    split
    · rfl
    · exact congrArg Except.error (represents.domain b)

mutual

theorem Factor.eval_substitute (represents : Represents image translate env other) :
    (f : Factor) → (f.substitute image).eval other = (f.eval env).mapError translate
  | .number _ => rfl
  | .group inner => inner.eval_substitute represents
  | .variable name => represents.names name

theorem Term.eval_substitute (represents : Represents image translate env other) :
    (t : Term) → (t.substitute image).eval other = (t.eval env).mapError translate
  | .lead first => first.eval_substitute represents
  | .extend before op sign factor => by
    simp only [Term.substitute, Term.eval, mapError_bind, before.eval_substitute represents,
      factor.eval_substitute represents, op.mapError_apply represents]

/-- A tree gives the value or the error of its variables' images. -/
theorem Expr.eval_substitute (represents : Represents image translate env other) :
    (e : Expr) → (e.substitute image).eval other = (e.eval env).mapError translate
  | .lead sign first => by
    simp only [Expr.substitute, Expr.eval, mapError_bind, first.eval_substitute represents]
    rfl
  | .extend before op term => by
    simp only [Expr.substitute, Expr.eval, mapError_bind, before.eval_substitute represents,
      term.eval_substitute represents]
    rfl

end

end

/-- The factor for a variable where `x` stands for an expression. -/
def Factor.standIn (x : String) (d : Expr) (name : String) : Factor :=
  if name = x then .group d else .variable name

/-- The expression with another one, in parentheses, for every occurrence of a variable. -/
def Expr.inline (e : Expr) (x : String) (d : Expr) : Expr := e.substitute (.standIn x d)

theorem Environment.lookup_set (env : Environment) (x : String) (v : Number) (name : String) :
    (env.set x v).lookup name = if x = name then .ok v else env.lookup name := by
  simp only [lookup, get?_set]
  by_cases same : x = name
  · simp only [if_pos same]
  · simp only [if_neg same]

theorem mapError_id {ε α : Type} (x : Except ε α) : x.mapError id = x := by
  cases x <;> rfl

theorem represents_standIn {env : Environment} {d : Expr} {v : Number} (x : String)
    (given : d.eval env = .ok v) : Represents (.standIn x d) id (env.set x v) env := by
  refine ⟨?_, rfl, fun _ => rfl⟩
  intro name
  rw [mapError_id, Environment.lookup_set, Factor.standIn]
  by_cases same : name = x
  · rw [if_pos same, if_pos same.symm]
    exact given
  · rw [if_neg same, if_neg (Ne.symm same)]
    rfl

/-- A variable with the value of an expression can be replaced by that expression. The environment
in which `x` has the value is the one that a declaration of `x` gives where `x` is new, and an
assignment where it is bound; the expression may use `x` itself, in its old meaning. -/
theorem Expr.eval_inline (env : Environment) (x : String) (d : Expr) (v : Number)
    (given : d.eval env = .ok v) (e : Expr) :
    (e.inline x d).eval env = e.eval (env.set x v) ∧
    (if env.binds x then env.assign x v else env.declare x v) = .ok (env.set x v) := by
  constructor
  · rw [inline, eval_substitute (represents_standIn x given), mapError_id]
  · by_cases bound : env.binds x
    · simp [Environment.assign, bound]
    · simp [Environment.declare, bound]

/-- `x + 1` -/
private def successorOfX : Expr :=
  (Expr.ofFactor (.variable "x")).extend .add (.lead (.number (.int 1)))

/-- `x * x` -/
private def squareOfX : Expr :=
  .ofTerm ((Term.lead (.variable "x")).extend .mul .plus (.variable "x"))

-- With `x` at 3, the tree is `(x + 1) * (x + 1)`.
theorem Expr.eval_inline_successor :
    successorOfX.eval (Environment.initial.set "x" (.int 3)) = .ok (.int 4) ∧
    (squareOfX.inline "x" successorOfX).eval (Environment.initial.set "x" (.int 3)) =
      .ok (.int 16) := by
  have value : successorOfX.eval (Environment.initial.set "x" (.int 3)) = .ok (.int 4) := by
    rfl
  exact ⟨value, (eval_inline _ "x" successorOfX _ value squareOfX).1⟩

end BlockCalc
