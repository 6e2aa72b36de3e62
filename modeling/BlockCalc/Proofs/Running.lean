import BlockCalc.Proofs.Occurrences
import BlockCalc.Session

/-!
# Runs

What one statement does to a session, and how statements make up the run of a program. A statement
looks at its target, then computes its value, and then writes one binding or prints
(`Statement.effect_eq`). A run fails exactly where a statement fails after all before it have
succeeded (`Session.run_eq_error_iff`).
-/
namespace BlockCalc

theorem Environment.binds_set (env : Environment) (name : String) (value : Number)
    (other : String) : (env.set name value).binds other ↔ name = other ∨ env.binds other := by
  rw [binds, get?_set]
  by_cases same : name = other
  · simp [same]
  · simp [same, binds]

namespace Statement

/-- The error of a statement whose target breaks its rule: a declared name must be new, and an
assigned one must be bound. -/
def targetFault? (env : Environment) : Statement → Option RuntimeError
  | .declare name _ => if env.binds name then some (.duplicateBinding name) else none
  | .assign name _ => if env.binds name then none else some (.unboundVariable name)
  | .print _ => none

/-- What a statement leaves behind once it has its value: the environment, and the number to print
if there is one. -/
def outcome (env : Environment) (v : Number) : Statement → Environment × Option Number
  | .declare name _ => (env.set name v, none)
  | .assign name _ => (env.set name v, none)
  | .print _ => (env, some v)

/-- A statement looks at its target, then computes its value, and then takes effect. -/
theorem effect_eq (env : Environment) (statement : Statement) :
    statement.effect env =
      match statement.targetFault? env with
      | some fault => .error fault
      | none => (statement.value.eval env).map fun v => statement.outcome env v := by
  cases statement with
  | declare name value =>
    by_cases bound : env.binds name
    · simp [effect, targetFault?, bound]
    · simp only [effect, targetFault?, bound, Environment.declare, Statement.value, outcome]
      cases value.eval env <;> rfl
  | assign name value =>
    by_cases bound : env.binds name
    · simp only [effect, targetFault?, bound, Environment.assign, Statement.value, outcome]
      cases value.eval env <;> rfl
    · simp [effect, targetFault?, bound]
  | print value =>
    simp only [effect, targetFault?, Statement.value, outcome]
    cases value.eval env <;> rfl

end Statement

namespace Session

/-- The session after a statement with a given effect. -/
def settle (s : Session) : Environment × Option Number → Except (RuntimeError × Session) Session
  | (env, none) => .ok { s with env }
  | (env, some value) => { s with env }.print value

theorem step_of_fault {s : Session} {statement : Statement} {fault : RuntimeError}
    (broken : statement.targetFault? s.env = some fault) :
    s.step statement = .error (fault, s) := by
  rw [step, Statement.effect_eq, broken]

theorem step_of_error {s : Session} {statement : Statement} {error : RuntimeError}
    (sound : statement.targetFault? s.env = none)
    (failed : statement.value.eval s.env = .error error) :
    s.step statement = .error (error, s) := by
  rw [step, Statement.effect_eq, sound, failed]
  rfl

theorem step_of_value {s : Session} {statement : Statement} {v : Number}
    (sound : statement.targetFault? s.env = none) (given : statement.value.eval s.env = .ok v) :
    s.step statement = s.settle (statement.outcome s.env v) := by
  rw [step, Statement.effect_eq, sound, given]
  cases statement <;> rfl

theorem env_of_settle {s s' : Session} {env : Environment} {shown : Option Number}
    (done : s.settle (env, shown) = .ok s') : s'.env = env := by
  cases shown with
  | none =>
    cases done
    rfl
  | some value =>
    simp only [settle, print] at done
    split at done
    · cases done
      rfl
    · cases done

theorem error_of_settle {s s' : Session} {env : Environment} {shown : Option Number}
    {error : RuntimeError} (failed : s.settle (env, shown) = .error (error, s')) :
    error = .output := by
  cases shown with
  | none => cases failed
  | some value =>
    simp only [settle, print] at failed
    split at failed
    · cases failed
    · cases failed
      rfl

/-- A statement that succeeds has its target in order and a value, which it writes or prints. -/
theorem of_step_ok {s s' : Session} {statement : Statement} (done : s.step statement = .ok s') :
    statement.targetFault? s.env = none ∧
      ∃ v, statement.value.eval s.env = .ok v ∧ s'.env = (statement.outcome s.env v).1 := by
  cases target : statement.targetFault? s.env with
  | some fault => simp [step_of_fault target] at done
  | none =>
    cases value : statement.value.eval s.env with
    | error error => simp [step_of_error target value] at done
    | ok v =>
      rw [step_of_value target value] at done
      exact ⟨rfl, v, rfl, env_of_settle done⟩

/-- A statement fails by its target, by its value or by the output. -/
theorem of_step_error {s s' : Session} {statement : Statement} {error : RuntimeError}
    (failed : s.step statement = .error (error, s')) :
    statement.targetFault? s.env = some error ∨ statement.value.eval s.env = .error error ∨
      error = .output := by
  cases target : statement.targetFault? s.env with
  | some fault =>
    rw [step_of_fault target] at failed
    cases failed
    exact .inl rfl
  | none =>
    cases value : statement.value.eval s.env with
    | error cause =>
      rw [step_of_error target value] at failed
      cases failed
      exact .inr (.inl rfl)
    | ok v =>
      rw [step_of_value target value] at failed
      exact .inr (.inr (error_of_settle failed))

@[simp] theorem run_nil (s : Session) : s.run [] = .ok s := rfl

theorem run_cons_of_ok {s next : Session} {statement : Statement} (rest : Program)
    (done : s.step statement = .ok next) : s.run (statement :: rest) = next.run rest := by
  simp only [run, List.foldlM_cons, done]
  rfl

theorem run_cons_of_error {s : Session} {statement : Statement} {failure : RuntimeError × Session}
    (rest : Program) (failed : s.step statement = .error failure) :
    s.run (statement :: rest) = .error failure := by
  simp only [run, List.foldlM_cons, failed]
  rfl

/-- A program fails at the statement with the given index: those before it succeed, and it does
not. -/
def FailsAt (s : Session) (program : Program) (k : Nat) (failure : RuntimeError × Session) : Prop :=
  ∃ reached statement, s.run (program.take k) = .ok reached ∧ program[k]? = some statement ∧
    reached.step statement = .error failure

/-- A run fails exactly where a statement fails after all before it have succeeded. -/
theorem run_eq_error_iff (s : Session) (program : Program) (failure : RuntimeError × Session) :
    s.run program = .error failure ↔ ∃ k, s.FailsAt program k failure := by
  induction program generalizing s with
  | nil => simp [FailsAt]
  | cons first rest ih =>
    cases outcome : s.step first with
    | error cause =>
      rw [run_cons_of_error rest outcome]
      constructor
      · intro same
        exact ⟨0, s, first, rfl, rfl, outcome.trans same⟩
      · rintro ⟨k, reached, statement, before, found, failed⟩
        cases k with
        | zero =>
          cases before
          cases found
          exact outcome.symm.trans failed
        | succ k =>
          rw [List.take_succ_cons, run_cons_of_error _ outcome] at before
          cases before
    | ok next =>
      rw [run_cons_of_ok rest outcome, ih]
      constructor
      · rintro ⟨k, reached, statement, before, found, failed⟩
        refine ⟨k + 1, reached, statement, ?_, found, failed⟩
        rw [List.take_succ_cons, run_cons_of_ok _ outcome, before]
      · rintro ⟨k, reached, statement, before, found, failed⟩
        cases k with
        | zero =>
          cases before
          cases found
          rw [outcome] at failed
          cases failed
        | succ k =>
          rw [List.take_succ_cons, run_cons_of_ok _ outcome] at before
          exact ⟨k, reached, statement, before, found, failed⟩

end Session
end BlockCalc
