import Mathlib.Data.Finset.Dedup
import Mathlib.Data.Finset.Insert
import BlockCalc.Proofs.Running
import BlockCalc.Proofs.Stopping

/-!
# Scope

A static check of the names in a program, and what it says about runs. The check walks the program
with the set of bound names, which is exactly the set of names that the environment binds whenever
a run comes to the same statement (`Session.checkScope_of_run`). So a program that passes never
fails by a name, and one that does not pass fails, at the latest at the statement that the check
reports (`Session.run_of_checkScope`).
-/
namespace BlockCalc

/-- The set of bound names. -/
def Environment.names (env : Environment) : Finset String := env.bindings.keys.toFinset

theorem Environment.mem_names {env : Environment} {name : String} :
    name ∈ env.names ↔ env.binds name := by
  simp [names, binds, get?]

namespace Statement

/-- The rules of scope where just the given names are bound: a declared name is new, an assigned one
is bound, and so is every variable of the expression. -/
def Scoped (bound : Finset String) : Statement → Prop
  | .declare name value => name ∉ bound ∧ ∀ x ∈ value.variables, x ∈ bound
  | .assign name value => name ∈ bound ∧ ∀ x ∈ value.variables, x ∈ bound
  | .print value => ∀ x ∈ value.variables, x ∈ bound

instance (bound : Finset String) : (statement : Statement) → Decidable (statement.Scoped bound)
  | .declare name value =>
    inferInstanceAs (Decidable (name ∉ bound ∧ ∀ x ∈ value.variables, x ∈ bound))
  | .assign name value =>
    inferInstanceAs (Decidable (name ∈ bound ∧ ∀ x ∈ value.variables, x ∈ bound))
  | .print value => inferInstanceAs (Decidable (∀ x ∈ value.variables, x ∈ bound))

/-- The names bound after a statement. -/
def bindTo (bound : Finset String) : Statement → Finset String
  | .declare name _ => insert name bound
  | .assign _ _ => bound
  | .print _ => bound

end Statement

/-- Checks the scope of a program where the given names are bound: the names bound at its end, or
the index of the first statement that breaks the rules. -/
def Program.checkScope (bound : Finset String) : Program → Except Nat (Finset String)
  | [] => .ok bound
  | statement :: rest =>
    if statement.Scoped bound then
      (Program.checkScope (statement.bindTo bound) rest).mapError (· + 1)
    else .error 0

namespace Statement

theorem scoped_iff {env : Environment} {statement : Statement} :
    statement.Scoped env.names ↔
      statement.targetFault? env = none ∧ ∀ x ∈ statement.value.variables, env.binds x := by
  cases statement <;>
    simp [Scoped, targetFault?, value, Environment.mem_names]

theorem names_outcome {env : Environment} {statement : Statement} (v : Number)
    (sound : statement.targetFault? env = none) :
    (statement.outcome env v).1.names = statement.bindTo env.names := by
  ext x
  cases statement with
  | declare name value =>
    simp only [outcome, bindTo, Environment.mem_names, Environment.binds_set, Finset.mem_insert]
    exact or_congr_left eq_comm
  | assign name value =>
    have bound : env.binds name := by simpa [targetFault?] using sound
    simp only [outcome, bindTo, Environment.mem_names, Environment.binds_set]
    constructor
    · rintro (rfl | other)
      · exact bound
      · exact other
    · exact .inr
  | print value => rfl

end Statement

namespace Program

theorem checkScope_cons_eq_ok_iff {bound there : Finset String} {statement : Statement}
    {rest : Program} (allowed : statement.Scoped bound) :
    checkScope bound (statement :: rest) = .ok there ↔
      checkScope (statement.bindTo bound) rest = .ok there := by
  rw [checkScope, if_pos allowed]
  cases checkScope (statement.bindTo bound) rest <;> simp [Except.mapError]

theorem checkScope_cons_eq_error_iff {bound : Finset String} {statement : Statement}
    {rest : Program} {k : Nat} (allowed : statement.Scoped bound) :
    checkScope bound (statement :: rest) = .error k ↔
      ∃ j, checkScope (statement.bindTo bound) rest = .error j ∧ j + 1 = k := by
  rw [checkScope, if_pos allowed]
  cases checkScope (statement.bindTo bound) rest <;> simp [Except.mapError]

theorem checkScope_cons_of_not {bound : Finset String} {statement : Statement} (rest : Program)
    (broken : ¬ statement.Scoped bound) : checkScope bound (statement :: rest) = .error 0 := by
  rw [checkScope, if_neg broken]

/-- The check reports the first statement that breaks the rules after all before it have passed. -/
theorem checkScope_eq_error_iff (bound : Finset String) (program : Program) (k : Nat) :
    checkScope bound program = .error k ↔
      ∃ there statement, checkScope bound (program.take k) = .ok there ∧
        program[k]? = some statement ∧ ¬ statement.Scoped there := by
  induction program generalizing bound k with
  | nil => simp [checkScope]
  | cons first rest ih =>
    by_cases allowed : first.Scoped bound
    · rw [checkScope_cons_eq_error_iff allowed]
      constructor
      · rintro ⟨j, later, rfl⟩
        obtain ⟨there, statement, passed, found, broken⟩ := (ih _ j).mp later
        exact ⟨there, statement, (checkScope_cons_eq_ok_iff allowed).mpr passed, found, broken⟩
      · rintro ⟨there, statement, passed, found, broken⟩
        cases k with
        | zero =>
          cases passed
          cases found
          exact absurd allowed broken
        | succ j =>
          rw [List.take_succ_cons, checkScope_cons_eq_ok_iff allowed] at passed
          exact ⟨j, (ih _ j).mpr ⟨there, statement, passed, found, broken⟩, rfl⟩
    · rw [checkScope_cons_of_not rest allowed]
      constructor
      · intro failed
        cases failed
        exact ⟨bound, first, rfl, rfl, allowed⟩
      · rintro ⟨there, statement, passed, -, -⟩
        cases k with
        | zero => rfl
        | succ j =>
          rw [List.take_succ_cons, checkScope_cons_of_not _ allowed] at passed
          cases passed

end Program

/-- The leftmost variable of an expression that is not bound. -/
def Expr.firstUnbound? (env : Environment) (e : Expr) : Option String :=
  e.variables.find? fun x => !env.binds x

/-- An operation of the expression fails that ends left of the first unbound variable: it divides
by zero or takes the root of a negative number, after both its operands have been computed. -/
def Expr.FaultsBefore (env : Environment) (name : String) (e : Expr) (error : RuntimeError) :
    Prop :=
  ∃ left part right, e.Holds left part right ∧ (∀ x ∈ left ++ part.variables, env.binds x) ∧
    right.find? (fun x => !env.binds x) = some name ∧ part.Raises env error

/-- The ways in which a statement out of scope fails. A target that breaks its rule decides,
whatever the expression would do; otherwise the leftmost unbound variable does, unless an operation
left of it has failed. -/
def Statement.FailsOutOfScope (env : Environment) (statement : Statement) (error : RuntimeError) :
    Prop :=
  match statement.targetFault? env with
  | some fault => error = fault
  | none => ∃ name, statement.value.firstUnbound? env = some name ∧
      (error = .unboundVariable name ∨ statement.value.FaultsBefore env name error)

theorem find?_append_of_bound {env : Environment} {left : List String} (right : List String)
    (bound : ∀ x ∈ left, env.binds x) :
    (left ++ right).find? (fun x => !env.binds x) = right.find? fun x => !env.binds x := by
  have none : left.find? (fun x => !env.binds x) = none := by
    rw [List.find?_eq_none]
    intro x member
    simp [bound x member]
  rw [List.find?_append, none, Option.none_or]

theorem Expr.error_of_bound {env : Environment} {e : Expr} {error : RuntimeError}
    (bound : ∀ x ∈ e.variables, env.binds x) (failed : e.eval env = .error error) (name : String) :
    error ≠ .duplicateBinding name ∧ error ≠ .unboundVariable name := by
  rcases e.stops_of_eval failed with
    ⟨left, other, right, split, -, unbound, -⟩ | ⟨left, part, right, -, -, raised⟩
  · exact absurd (bound other (by simp [split])) unbound
  · cases raised <;> simp

/-- An expression that fails although a variable is not bound fails by the leftmost such variable,
or by an operation left of it. -/
theorem Expr.error_of_unbound {env : Environment} {e : Expr} {error : RuntimeError}
    (unbound : ¬ ∀ x ∈ e.variables, env.binds x) (failed : e.eval env = .error error) :
    ∃ name, e.firstUnbound? env = some name ∧
      (error = .unboundVariable name ∨ e.FaultsBefore env name error) := by
  rcases e.stops_of_eval failed with
    ⟨left, name, right, split, bound, missing, rfl⟩ | ⟨left, part, right, inside, bound, raised⟩
  · refine ⟨name, ?_, .inl rfl⟩
    rw [firstUnbound?, split, find?_append_of_bound _ bound]
    exact List.find?_cons_of_pos (by simpa using missing)
  · have same : e.firstUnbound? env = right.find? fun x => !env.binds x := by
      rw [firstUnbound?, inside.variables_eq, find?_append_of_bound _ bound]
    cases found : right.find? fun x => !env.binds x with
    | some name =>
      exact ⟨name, same.trans found, .inr ⟨left, part, right, inside, bound, found, raised⟩⟩
    | none =>
      rw [found, firstUnbound?, List.find?_eq_none] at same
      exact absurd (by simpa using same) unbound

-- `1 / 0 + x` divides before it looks for `x`.
example (env : Environment) :
    (Expr.extend (.ofTerm (.extend (.lead (.number (.int 1))) .div .plus (.number (.int 0)))) .add
      (.lead (.variable "x"))).eval env = .error .divisionByZero := rfl

namespace Session

/-- A statement that succeeds was in scope, and binds what the check says. -/
theorem scoped_of_step {s s' : Session} {statement : Statement}
    (done : s.step statement = .ok s') :
    statement.Scoped s.env.names ∧ s'.env.names = statement.bindTo s.env.names := by
  obtain ⟨sound, v, given, env⟩ := of_step_ok done
  refine ⟨Statement.scoped_iff.mpr ⟨sound, statement.value.bound_of_eval given⟩, ?_⟩
  rw [env, Statement.names_outcome v sound]

theorem error_of_scoped {s s' : Session} {statement : Statement} {error : RuntimeError}
    (allowed : statement.Scoped s.env.names) (failed : s.step statement = .error (error, s'))
    (name : String) : error ≠ .duplicateBinding name ∧ error ≠ .unboundVariable name := by
  obtain ⟨sound, bound⟩ := Statement.scoped_iff.mp allowed
  rcases of_step_error failed with fault | value | rfl
  · rw [sound] at fault
    cases fault
  · exact Expr.error_of_bound bound value name
  · simp

/-- A statement out of scope fails, by its target or by its expression, and changes nothing. -/
theorem step_of_not_scoped {s : Session} {statement : Statement}
    (broken : ¬ statement.Scoped s.env.names) :
    ∃ error, s.step statement = .error (error, s) ∧ statement.FailsOutOfScope s.env error := by
  cases target : statement.targetFault? s.env with
  | some fault =>
    refine ⟨fault, step_of_fault target, ?_⟩
    simp only [Statement.FailsOutOfScope, target]
  | none =>
    have unbound : ¬ ∀ x ∈ statement.value.variables, s.env.binds x := by
      intro bound
      exact broken (Statement.scoped_iff.mpr ⟨target, bound⟩)
    cases value : statement.value.eval s.env with
    | ok v => exact absurd (statement.value.bound_of_eval value) unbound
    | error error =>
      refine ⟨error, step_of_error target value, ?_⟩
      simp only [Statement.FailsOutOfScope, target]
      exact Expr.error_of_unbound unbound value

/-- A run that succeeds passes the check, and ends with just the names that the check ends with. -/
theorem checkScope_of_run {s s' : Session} {program : Program} (done : s.run program = .ok s') :
    Program.checkScope s.env.names program = .ok s'.env.names := by
  induction program generalizing s with
  | nil =>
    cases done
    rfl
  | cons first rest ih =>
    cases outcome : s.step first with
    | error failure =>
      rw [run_cons_of_error rest outcome] at done
      cases done
    | ok next =>
      rw [run_cons_of_ok rest outcome] at done
      obtain ⟨allowed, names⟩ := scoped_of_step outcome
      rw [Program.checkScope_cons_eq_ok_iff allowed, ← names]
      exact ih done

theorem error_of_checkScope {s s' : Session} {program : Program} {bound : Finset String}
    {error : RuntimeError} (passed : Program.checkScope s.env.names program = .ok bound)
    (failed : s.run program = .error (error, s')) (name : String) :
    error ≠ .duplicateBinding name ∧ error ≠ .unboundVariable name := by
  obtain ⟨k, reached, statement, before, found, stopped⟩ := (run_eq_error_iff s program _).mp failed
  refine error_of_scoped (Classical.byContradiction fun broken => ?_) stopped name
  -- a broken rule at this statement would have been reported
  have reported := (Program.checkScope_eq_error_iff _ program k).mpr
    ⟨_, statement, checkScope_of_run before, found, broken⟩
  rw [passed] at reported
  cases reported

/-- A run of a program that does not pass the check fails, at the statement that the check reports
or before it. -/
theorem failsAt_of_checkScope {s : Session} {program : Program} {k : Nat}
    (reported : Program.checkScope s.env.names program = .error k) :
    ∃ j ≤ k, ∃ failure, s.FailsAt program j failure := by
  cases outcome : s.run program with
  | ok s' =>
    rw [checkScope_of_run outcome] at reported
    cases reported
  | error failure =>
    obtain ⟨j, fails⟩ := (run_eq_error_iff s program failure).mp outcome
    refine ⟨j, Nat.le_of_not_lt fun beyond => ?_, failure, fails⟩
    -- a run that came past statement `k` would have passed the check up to there
    obtain ⟨reached, statement, before, -, -⟩ := fails
    obtain ⟨there, guilty, passed, found, broken⟩ :=
      (Program.checkScope_eq_error_iff _ program k).mp reported
    have again : Program.checkScope s.env.names (program.take j) = .error k := by
      refine (Program.checkScope_eq_error_iff _ _ k).mpr ⟨there, guilty, ?_, ?_, broken⟩
      · rwa [List.take_take, Nat.min_eq_left (Nat.le_of_lt beyond)]
      · rwa [List.getElem?_take_of_lt beyond]
    rw [checkScope_of_run before] at again
    cases again

theorem failsOutOfScope_of_checkScope {s reached : Session} {program : Program} {k : Nat}
    (reported : Program.checkScope s.env.names program = .error k)
    (before : s.run (program.take k) = .ok reached) :
    ∃ statement error, program[k]? = some statement ∧
      reached.step statement = .error (error, reached) ∧
      statement.FailsOutOfScope reached.env error := by
  obtain ⟨there, statement, passed, found, broken⟩ :=
    (Program.checkScope_eq_error_iff _ program k).mp reported
  rw [checkScope_of_run before] at passed
  cases passed
  obtain ⟨error, failed, how⟩ := step_of_not_scoped broken
  exact ⟨statement, error, found, failed, how⟩

/-- Scope checking is sound and complete for runs, from every session. A program that passes never
fails by a name and, if it succeeds, binds exactly the names that the check ends with. A program
that fails the check at statement `k` fails when run, at `k` or before; if the run comes to `k`, it
does so with the names that the check came with, and statement `k` fails out of scope. -/
theorem run_of_checkScope (s : Session) (program : Program) :
    match Program.checkScope s.env.names program with
    | .ok bound =>
      (∀ error s', s.run program = .error (error, s') →
        ∀ name, error ≠ .duplicateBinding name ∧ error ≠ .unboundVariable name) ∧
      ∀ s', s.run program = .ok s' → s'.env.names = bound
    | .error k =>
      (∃ j ≤ k, ∃ failure, s.FailsAt program j failure ∧ s.run program = .error failure) ∧
      ∀ reached, s.run (program.take k) = .ok reached →
        Program.checkScope s.env.names (program.take k) = .ok reached.env.names ∧
        ∃ statement error, program[k]? = some statement ∧
          reached.step statement = .error (error, reached) ∧
          s.run program = .error (error, reached) ∧
          statement.FailsOutOfScope reached.env error := by
  cases check : Program.checkScope s.env.names program with
  | ok bound =>
    refine ⟨fun error s' failed => error_of_checkScope check failed, fun s' done => ?_⟩
    rw [checkScope_of_run done] at check
    cases check
    rfl
  | error k =>
    constructor
    · obtain ⟨j, le, failure, fails⟩ := failsAt_of_checkScope check
      exact ⟨j, le, failure, fails, (run_eq_error_iff s program failure).mpr ⟨j, fails⟩⟩
    · intro reached before
      obtain ⟨statement, error, found, failed, how⟩ := failsOutOfScope_of_checkScope check before
      have whole : s.run program = .error (error, reached) :=
        (run_eq_error_iff s program _).mpr ⟨k, reached, statement, before, found, failed⟩
      exact ⟨checkScope_of_run before, statement, error, found, failed, whole, how⟩

end Session
end BlockCalc
