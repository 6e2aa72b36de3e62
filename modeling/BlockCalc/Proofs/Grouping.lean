import BlockCalc.Evaluation

/-!
# Chains mean left-nested groups

A sum is a chain of a signed first term and further terms behind operators, and a product is a chain
of factors. Evaluation goes along the chain (`Expr.eval_eq_along`), and so a chain means the same as
its first two members in parentheses, then these and the third in parentheses, and so on. With all
chains of a tree written in this way no sum or product holds more than one operator, and the value
or the error of the tree is the same (`Expr.chain_means_groups`).
-/
namespace BlockCalc

namespace Term

/-- The factor that a product begins with. -/
def first : Term → Factor
  | .lead first => first
  | .extend before _ _ _ => before.first

/-- What follows the first factor of a product. -/
def rest : Term → List (MulOp × Sign × Factor)
  | .lead _ => []
  | .extend before op sign factor => before.rest ++ [(op, sign, factor)]

/-- The value of a chain of factors, computed along the chain. -/
def along (env : Environment) (first : Factor) (rest : List (MulOp × Sign × Factor)) :
    Except RuntimeError Number := do
  let a ← first.eval env
  rest.foldlM (fun before (op, sign, factor) => do
    let b ← factor.eval env
    op.apply before (sign.apply b)) a

theorem eval_eq_along (env : Environment) : (t : Term) → t.eval env = along env t.first t.rest
  | .lead first => by
    simp [Term.eval, along, Term.first, Term.rest]
  | .extend before op sign factor => by
    simp [Term.eval, along, Term.first, Term.rest, before.eval_eq_along env]

end Term

namespace Expr

/-- The sign that a sum begins with. -/
def sign : Expr → Sign
  | .lead sign _ => sign
  | .extend before _ _ => before.sign

/-- The term that a sum begins with. -/
def first : Expr → Term
  | .lead _ first => first
  | .extend before _ _ => before.first

/-- What follows the first term of a sum. -/
def rest : Expr → List (AddOp × Term)
  | .lead _ _ => []
  | .extend before op term => before.rest ++ [(op, term)]

/-- The value of a chain of terms, computed along the chain. -/
def along (env : Environment) (sign : Sign) (first : Term) (rest : List (AddOp × Term)) :
    Except RuntimeError Number := do
  let a ← first.eval env
  rest.foldlM (fun before (op, term) => do
    let b ← term.eval env
    return op.apply before b) (sign.apply a)

theorem eval_eq_along (env : Environment) :
    (e : Expr) → e.eval env = along env e.sign e.first e.rest
  | .lead sign first => by
    simp [Expr.eval, along, Expr.sign, Expr.first, Expr.rest]
  | .extend before op term => by
    simp [Expr.eval, along, Expr.sign, Expr.first, Expr.rest, before.eval_eq_along env]

end Expr

/-- A term as one factor: a product of several is put in parentheses. -/
def Term.asFactor : Term → Factor
  | .lead first => first
  | .extend before op sign factor => .group (.ofTerm (.extend before op sign factor))

/-- The left-nested groups `((f₁ op₂ s₂ f₂) op₃ s₃ f₃) …` of a chain of factors. -/
def Term.nest (first : Factor) (rest : List (MulOp × Sign × Factor)) : Term :=
  rest.foldl (fun left (op, sign, factor) => .extend (.lead left.asFactor) op sign factor)
    (.lead first)

/-- The left-nested groups `(((s t₁) op₂ t₂) op₃ t₃) …` of a chain of terms. -/
def Expr.nest (sign : Sign) (first : Term) (rest : List (AddOp × Term)) : Expr :=
  rest.foldl (fun left (op, term) => .extend (.ofFactor (.group left)) op term) (.lead sign first)

mutual

/-- The factor with the chains at every depth replaced by left-nested groups. -/
def Factor.grouped : Factor → Factor
  | .number value => .number value
  | .group inner => .group inner.grouped
  | .variable name => .variable name

def Term.grouped : Term → Term
  | .lead first => .lead first.grouped
  | .extend before op sign factor =>
    .extend (.lead before.grouped.asFactor) op sign factor.grouped

def Expr.grouped : Expr → Expr
  | .lead sign first => .lead sign first.grouped
  | .extend before op term => .extend (.ofFactor (.group before.grouped)) op term.grouped

end

mutual

/-- At every depth, a single factor stands in front of the operator of a product, and a single term
without a minus in front of the operator of a sum. -/
def Factor.IsGrouped : Factor → Prop
  | .number _ => True
  | .group inner => inner.IsGrouped
  | .variable _ => True

def Term.IsGrouped : Term → Prop
  | .lead first => first.IsGrouped
  | .extend before _ _ factor => before.rest = [] ∧ before.IsGrouped ∧ factor.IsGrouped

def Expr.IsGrouped : Expr → Prop
  | .lead _ first => first.IsGrouped
  | .extend before _ term =>
    before.rest = [] ∧ before.sign = .plus ∧ before.IsGrouped ∧ term.IsGrouped

end

theorem Term.grouped_eq_nest :
    (t : Term) → t.grouped =
      .nest t.first.grouped (t.rest.map fun (op, sign, factor) => (op, sign, factor.grouped))
  | .lead first => by
    simp [Term.grouped, Term.nest, Term.first, Term.rest]
  | .extend before op sign factor => by
    simp [Term.grouped, before.grouped_eq_nest, Term.nest, Term.first, Term.rest]

theorem Expr.grouped_eq_nest :
    (e : Expr) → e.grouped =
      .nest e.sign e.first.grouped (e.rest.map fun (op, term) => (op, term.grouped))
  | .lead sign first => by
    simp [Expr.grouped, Expr.nest, Expr.sign, Expr.first, Expr.rest]
  | .extend before op term => by
    simp [Expr.grouped, before.grouped_eq_nest, Expr.nest, Expr.sign, Expr.first, Expr.rest]

theorem Expr.eval_ofTerm (env : Environment) (t : Term) :
    (Expr.ofTerm t).eval env = t.eval env := by
  simp only [Expr.ofTerm, Expr.eval, Sign.apply]
  exact bind_pure _

theorem Term.eval_asFactor (env : Environment) (t : Term) : t.asFactor.eval env = t.eval env := by
  cases t with
  | lead first => rfl
  | extend before op sign factor => exact Expr.eval_ofTerm env _

theorem Term.IsGrouped.asFactor {t : Term} (grouped : t.IsGrouped) : t.asFactor.IsGrouped := by
  cases t with
  | lead first => exact grouped
  | extend before op sign factor => exact grouped

mutual

theorem Factor.eval_grouped (env : Environment) :
    (f : Factor) → f.grouped.eval env = f.eval env
  | .number _ => rfl
  | .group inner => inner.eval_grouped env
  | .variable _ => rfl

theorem Term.eval_grouped (env : Environment) : (t : Term) → t.grouped.eval env = t.eval env
  | .lead first => first.eval_grouped env
  | .extend before op sign factor => by
    simp only [Term.grouped, Term.eval, Term.eval_asFactor, before.eval_grouped env,
      factor.eval_grouped env]

/-- Grouping keeps the value or the error, since a group has the value of what is inside. -/
theorem Expr.eval_grouped (env : Environment) : (e : Expr) → e.grouped.eval env = e.eval env
  | .lead sign first => by
    simp only [Expr.grouped, Expr.eval, first.eval_grouped env]
  | .extend before op term => by
    have start : (Expr.ofFactor (.group before.grouped)).eval env = before.eval env := by
      rw [Expr.ofFactor, Expr.eval_ofTerm]
      exact before.eval_grouped env
    simp only [Expr.grouped, Expr.eval, start, term.eval_grouped env]

end

mutual

theorem Factor.isGrouped_grouped : (f : Factor) → f.grouped.IsGrouped
  | .number _ => trivial
  | .group inner => inner.isGrouped_grouped
  | .variable _ => trivial

theorem Term.isGrouped_grouped : (t : Term) → t.grouped.IsGrouped
  | .lead first => first.isGrouped_grouped
  | .extend before _ _ factor =>
    ⟨rfl, before.isGrouped_grouped.asFactor, factor.isGrouped_grouped⟩

theorem Expr.isGrouped_grouped : (e : Expr) → e.grouped.IsGrouped
  | .lead _ first => first.isGrouped_grouped
  | .extend before _ term => ⟨rfl, rfl, before.isGrouped_grouped, term.isGrouped_grouped⟩

end

/-- Chains mean left-nested groups, for sums and for products alike. With each chain replaced by its
left-nested groups, at every depth, a tree has the same value or error; no sum or product holds more
than one operator, and a leading sign stands in front of a term and nothing else. The value is the
one that is computed along the chain. -/
theorem Expr.chain_means_groups (env : Environment) :
    (∀ e : Expr, e.grouped.eval env = e.eval env ∧ e.grouped.IsGrouped ∧
      e.grouped = .nest e.sign e.first.grouped (e.rest.map fun (op, term) => (op, term.grouped)) ∧
      e.eval env = along env e.sign e.first e.rest) ∧
    (∀ t : Term, t.grouped.eval env = t.eval env ∧ t.grouped.IsGrouped ∧
      t.grouped =
        .nest t.first.grouped (t.rest.map fun (op, sign, factor) => (op, sign, factor.grouped)) ∧
      t.eval env = Term.along env t.first t.rest) := by
  constructor
  · intro e
    exact ⟨e.eval_grouped env, e.isGrouped_grouped, e.grouped_eq_nest, e.eval_eq_along env⟩
  · intro t
    exact ⟨t.eval_grouped env, t.isGrouped_grouped, t.grouped_eq_nest, t.eval_eq_along env⟩

-- `-a * b - c - d` becomes `((-a * b) - c) - d`.
example :
    (((Expr.lead .minus ((Term.lead (.variable "a")).extend .mul .plus (.variable "b"))).extend .sub
        (.lead (.variable "c"))).extend .sub (.lead (.variable "d"))).grouped =
      (Expr.ofFactor (.group ((Expr.ofFactor (.group (.lead .minus
        ((Term.lead (.variable "a")).extend .mul .plus (.variable "b"))))).extend .sub
        (.lead (.variable "c"))))).extend .sub (.lead (.variable "d")) := rfl

end BlockCalc
