import BlockCalc.Evaluation
import BlockCalc.Proofs.Occurrences

/-!
# Where an evaluation stops

An evaluation that gives a value has found all its variables bound. One that fails does so at the
first unbound variable, or earlier at a division by zero or a root of a negative number
(`Expr.stops_of_eval`): an operation fails only after everything to its left has been evaluated, and
before anything to its right is looked at.
-/
namespace BlockCalc

mutual

/-- A part of a factor that is a term, between the variables on its left and on its right. -/
inductive Factor.Holds : Factor → List String → Term → List String → Prop
  | group {inner left part right} (inside : Expr.Holds inner left part right) :
      Factor.Holds (.group inner) left part right

/-- A part of a term that is a term, or all of it. -/
inductive Term.Holds : Term → List String → Term → List String → Prop
  | whole (t : Term) : Term.Holds t [] t []
  | lead {first left part right} (inside : Factor.Holds first left part right) :
      Term.Holds (.lead first) left part right
  | before {start left part right} (op sign factor) (inside : Term.Holds start left part right) :
      Term.Holds (.extend start op sign factor) left part (right ++ factor.variables)
  | factor {factor left part right} (start op sign) (inside : Factor.Holds factor left part right) :
      Term.Holds (.extend start op sign factor) (start.variables ++ left) part right

/-- A part of an expression that is a term. -/
inductive Expr.Holds : Expr → List String → Term → List String → Prop
  | lead {first left part right} (sign) (inside : Term.Holds first left part right) :
      Expr.Holds (.lead sign first) left part right
  | before {start left part right} (op term) (inside : Expr.Holds start left part right) :
      Expr.Holds (.extend start op term) left part (right ++ term.variables)
  | term {term left part right} (start op) (inside : Term.Holds term left part right) :
      Expr.Holds (.extend start op term) (start.variables ++ left) part right

end

mutual

theorem Factor.Holds.variables_eq {f : Factor} {left right : List String} {part : Term} :
    f.Holds left part right → f.variables = left ++ part.variables ++ right
  | .group inside => by
    rw [Factor.variables, inside.variables_eq]

theorem Term.Holds.variables_eq {t : Term} {left right : List String} {part : Term} :
    t.Holds left part right → t.variables = left ++ part.variables ++ right
  | .whole t => by simp
  | .lead inside => by
    rw [Term.variables, inside.variables_eq]
  | .before op sign factor inside => by
    rw [Term.variables, inside.variables_eq, List.append_assoc]
  | .factor start op sign inside => by
    simp only [Term.variables, inside.variables_eq, List.append_assoc]

/-- The variables of an expression are those left of a part, those of the part and those right of
it, in this order. -/
theorem Expr.Holds.variables_eq {e : Expr} {left right : List String} {part : Term} :
    e.Holds left part right → e.variables = left ++ part.variables ++ right
  | .lead sign inside => by
    rw [Expr.variables, inside.variables_eq]
  | .before op term inside => by
    rw [Expr.variables, inside.variables_eq, List.append_assoc]
  | .term start op inside => by
    simp only [Expr.variables, inside.variables_eq, List.append_assoc]

end

/-- The last operation of a term fails although both its operands have values: it divides by zero,
or takes the root of a negative number. -/
inductive Term.Raises (env : Environment) : Term → RuntimeError → Prop
  | division {before sign factor a b} (first : before.eval env = .ok a)
      (second : factor.eval env = .ok b) (zero : (sign.apply b).isZero) :
      Term.Raises env (.extend before .div sign factor) .divisionByZero
  | root {before sign factor a b} (first : before.eval env = .ok a)
      (second : factor.eval env = .ok b) (negative : (sign.apply b).sqrt? = none) :
      Term.Raises env (.extend before .root sign factor) (.mathDomain (sign.apply b))

theorem Term.raises_of_apply {env : Environment} {before : Term} {op : MulOp} {sign : Sign}
    {factor : Factor} {a b : Number} {error : RuntimeError} (first : before.eval env = .ok a)
    (second : factor.eval env = .ok b) (failed : op.apply a (sign.apply b) = .error error) :
    (before.extend op sign factor).Raises env error := by
  cases op with
  | mul => cases failed
  | div =>
    rw [MulOp.apply] at failed
    split at failed
    · cases failed
      exact .division first second ‹_›
    · cases failed
  | root =>
    rw [MulOp.apply] at failed
    split at failed
    · cases failed
    · cases failed
      exact .root first second ‹_›

theorem bind_eq_ok_iff {ε α β : Type} {x : Except ε α} {f : α → Except ε β} {b : β} :
    x >>= f = .ok b ↔ ∃ a, x = .ok a ∧ f a = .ok b := by
  cases x <;> simp [bind, Except.bind]

theorem bind_eq_error_iff {ε α β : Type} {x : Except ε α} {f : α → Except ε β} {error : ε} :
    x >>= f = .error error ↔ x = .error error ∨ ∃ a, x = .ok a ∧ f a = .error error := by
  cases x <;> simp [bind, Except.bind]

theorem bound_append {env : Environment} {left right : List String}
    (first : ∀ x ∈ left, env.binds x) (second : ∀ x ∈ right, env.binds x) :
    ∀ x ∈ left ++ right, env.binds x := by
  intro x member
  rcases List.mem_append.mp member with member | member
  · exact first x member
  · exact second x member

mutual

theorem Factor.bound_of_eval {env : Environment} :
    (f : Factor) → {v : Number} → f.eval env = .ok v → ∀ x ∈ f.variables, env.binds x
  | .number _, _, _ => by simp [Factor.variables]
  | .group inner, _, given => inner.bound_of_eval given
  | .variable name, _, given => by
    simp only [Factor.eval, Environment.lookup] at given
    split at given
    · simp [Factor.variables, Environment.binds, *]
    · cases given

theorem Term.bound_of_eval {env : Environment} :
    (t : Term) → {v : Number} → t.eval env = .ok v → ∀ x ∈ t.variables, env.binds x
  | .lead first, _, given => first.bound_of_eval given
  | .extend before op sign factor, _, given => by
    simp only [Term.eval, bind_eq_ok_iff] at given
    obtain ⟨a, first, b, second, -⟩ := given
    exact bound_append (before.bound_of_eval first) (factor.bound_of_eval second)

/-- An expression that has a value has all its variables bound. -/
theorem Expr.bound_of_eval {env : Environment} :
    (e : Expr) → {v : Number} → e.eval env = .ok v → ∀ x ∈ e.variables, env.binds x
  | .lead sign first, _, given => by
    simp only [Expr.eval, bind_eq_ok_iff] at given
    obtain ⟨a, value, -⟩ := given
    exact first.bound_of_eval value
  | .extend before op term, _, given => by
    simp only [Expr.eval, bind_eq_ok_iff] at given
    obtain ⟨a, first, b, second, -⟩ := given
    exact bound_append (before.bound_of_eval first) (term.bound_of_eval second)

end

/-- How an evaluation stops that reads the names from left to right and holds the given parts: at
the first unbound name, or at a part whose last operation fails while all names up to its end are
bound. -/
def Stops (env : Environment) (names : List String)
    (holds : List String → Term → List String → Prop) (error : RuntimeError) : Prop :=
  (∃ left name right, names = left ++ name :: right ∧ (∀ x ∈ left, env.binds x) ∧
    ¬ env.binds name ∧ error = .unboundVariable name) ∨
  ∃ left part right, holds left part right ∧ (∀ x ∈ left ++ part.variables, env.binds x) ∧
    part.Raises env error

/-- What stops an evaluation also stops a longer one that has found all names before it bound. -/
theorem Stops.widen {env : Environment} {names more : List String}
    {holds wider : List String → Term → List String → Prop} {error : RuntimeError}
    (stops : Stops env names holds error) (before after : List String)
    (bound : ∀ x ∈ before, env.binds x) (spelled : more = before ++ names ++ after)
    (carried : ∀ {left part right}, holds left part right →
      wider (before ++ left) part (right ++ after)) : Stops env more wider error := by
  rcases stops with ⟨left, name, right, rfl, all, unbound, rfl⟩ |
    ⟨left, part, right, inside, all, raised⟩
  · exact .inl ⟨before ++ left, name, right ++ after, by simp [spelled],
      bound_append bound all, unbound, rfl⟩
  · refine .inr ⟨before ++ left, part, right ++ after, carried inside, ?_, raised⟩
    rw [List.append_assoc]
    exact bound_append bound all

theorem Stops.wrap {env : Environment} {names : List String}
    {holds wider : List String → Term → List String → Prop} {error : RuntimeError}
    (stops : Stops env names holds error)
    (carried : ∀ {left part right}, holds left part right → wider left part right) :
    Stops env names wider error :=
  stops.widen [] [] (by simp) (by simp) fun inside => by simpa using carried inside

mutual

theorem Factor.stops_of_eval {env : Environment} :
    (f : Factor) → {error : RuntimeError} → f.eval env = .error error →
      Stops env f.variables f.Holds error
  | .number _, _, failed => by cases failed
  | .group inner, _, failed => (inner.stops_of_eval failed).wrap .group
  | .variable name, _, failed => by
    simp only [Factor.eval, Environment.lookup] at failed
    split at failed
    · cases failed
    · cases failed
      exact .inl ⟨[], name, [], rfl, by simp, by simp [Environment.binds, *], rfl⟩

theorem Term.stops_of_eval {env : Environment} :
    (t : Term) → {error : RuntimeError} → t.eval env = .error error →
      Stops env t.variables t.Holds error
  | .lead first, _, failed => (first.stops_of_eval failed).wrap .lead
  | .extend before op sign factor, _, failed => by
    simp only [Term.eval, bind_eq_error_iff] at failed
    rcases failed with first | ⟨a, first, second | ⟨b, second, failed⟩⟩
    · exact (before.stops_of_eval first).widen [] factor.variables (by simp) rfl
        (.before op sign factor)
    · exact (factor.stops_of_eval second).widen before.variables [] (before.bound_of_eval first)
        (by simp [Term.variables])
        fun inside => by simpa using Term.Holds.factor before op sign inside
    · have bound : ∀ x ∈ (before.extend op sign factor).variables, env.binds x :=
        bound_append (before.bound_of_eval first) (factor.bound_of_eval second)
      exact .inr ⟨[], _, [], .whole _, bound, Term.raises_of_apply first second failed⟩

/-- An expression that has no value stops at its first unbound variable, or before it at an
operation that fails. -/
theorem Expr.stops_of_eval {env : Environment} :
    (e : Expr) → {error : RuntimeError} → e.eval env = .error error →
      Stops env e.variables e.Holds error
  | .lead sign first, _, failed => by
    simp only [Expr.eval, bind_eq_error_iff] at failed
    rcases failed with failed | ⟨a, -, failed⟩
    · exact (first.stops_of_eval failed).wrap (.lead sign)
    · cases failed
  | .extend before op term, _, failed => by
    simp only [Expr.eval, bind_eq_error_iff] at failed
    rcases failed with first | ⟨a, first, second | ⟨b, second, failed⟩⟩
    · exact (before.stops_of_eval first).widen [] term.variables (by simp) rfl (.before op term)
    · exact (term.stops_of_eval second).widen before.variables [] (before.bound_of_eval first)
        (by simp [Expr.variables])
        fun inside => by simpa using Expr.Holds.term before op inside
    · cases failed

end

end BlockCalc
