import BlockCalc.Proofs.Output

/-!
# Failures leave no trace

On an output without a limit, a statement that fails changes nothing (`Session.eq_of_step_error`).
So a session that has been used for any number of programs, and asked for the values of expressions
in between, stands where one program would have brought it that holds the statements before the
first failure of each (`Session.run_kept`).
-/
namespace BlockCalc

namespace Session

theorem print_of_unlimited {s : Session} (unlimited : s.out.limit = none) (value : Number) :
    s.print value = .ok { s with out := s.out.push (value.text ++ "\n").toUTF8 } := by
  have room : s.out.hasRoom (value.text ++ "\n").toUTF8.size := by
    rw [Sink.hasRoom, unlimited]
  simp only [print, Sink.write, if_pos room]

/-- A statement that fails on an output without a limit changes nothing. -/
theorem eq_of_step_error {s : Session} (unlimited : s.out.limit = none) {statement : Statement}
    {failure : RuntimeError × Session} (failed : s.step statement = .error failure) :
    failure.2 = s := by
  rw [step] at failed
  split at failed
  · cases failed
    rfl
  · cases failed
  · next env value _ =>
    have printed := print_of_unlimited (s := { s with env }) unlimited value
    rw [printed] at failed
    cases failed

theorem limit_of_step {s s' : Session} (unlimited : s.out.limit = none) {statement : Statement}
    (done : s.step statement = .ok s') : s'.out.limit = none := by
  rw [step] at done
  split at done
  · cases done
  · cases done
    exact unlimited
  · next env value _ =>
    have printed := print_of_unlimited (s := { s with env }) unlimited value
    rw [printed] at done
    cases done
    rw [Sink.limit_push]
    exact unlimited

theorem run_append (s : Session) (first second : Program) :
    s.run (first ++ second) = s.run first >>= fun next => next.run second :=
  List.foldlM_append

theorem limit_of_run {s s' : Session} (unlimited : s.out.limit = none) {program : Program}
    (done : s.run program = .ok s') : s'.out.limit = none := by
  induction program generalizing s with
  | nil =>
    cases done
    exact unlimited
  | cons statement rest ih =>
    cases outcome : s.step statement with
    | error failure =>
      rw [run_cons_of_error rest outcome] at done
      cases done
    | ok next =>
      rw [run_cons_of_ok rest outcome] at done
      exact ih (limit_of_step unlimited outcome) done

/-- The statements of a program before the first that fails. -/
def completed (s : Session) : Program → Program
  | [] => []
  | statement :: rest =>
    match s.step statement with
    | .ok next => statement :: next.completed rest
    | .error _ => []

theorem completed_of_ok {s s' : Session} {program : Program} (done : s.run program = .ok s') :
    s.completed program = program := by
  induction program generalizing s with
  | nil => rfl
  | cons statement rest ih =>
    cases outcome : s.step statement with
    | error failure =>
      rw [run_cons_of_error rest outcome] at done
      cases done
    | ok next =>
      rw [run_cons_of_ok rest outcome] at done
      simp only [completed, outcome, ih done]

theorem completed_of_failsAt {s : Session} {program : Program} {k : Nat}
    {failure : RuntimeError × Session} (fails : s.FailsAt program k failure) :
    s.completed program = program.take k := by
  obtain ⟨reached, statement, before, found, failed⟩ := fails
  induction program generalizing s k with
  | nil => cases found
  | cons first rest ih =>
    cases k with
    | zero =>
      cases before
      cases found
      simp only [completed, failed, List.take_zero]
    | succ k =>
      rw [List.take_succ_cons] at before ⊢
      cases outcome : s.step first with
      | error cause =>
        rw [run_cons_of_error _ outcome] at before
        cases before
      | ok next =>
        rw [run_cons_of_ok _ outcome] at before
        simp only [completed, outcome, ih before found]

/-- A program that fails has come to the statement that fails, and stands there. -/
theorem failure_of_run {s s' : Session} (unlimited : s.out.limit = none) {program : Program}
    {error : RuntimeError} (failed : s.run program = .error (error, s')) :
    ∃ k statement, s.completed program = program.take k ∧ program[k]? = some statement ∧
      s.run (program.take k) = .ok s' ∧ s'.step statement = .error (error, s') := by
  obtain ⟨k, fails⟩ := (run_eq_error_iff s program _).mp failed
  have taken := completed_of_failsAt fails
  obtain ⟨reached, statement, before, found, stopped⟩ := fails
  obtain rfl : s' = reached := eq_of_step_error (limit_of_run unlimited before) stopped
  exact ⟨k, statement, taken, found, before, stopped⟩

/-- What a session can be asked for. -/
inductive Call where
  /-- To run a program. -/
  | run (program : Program)
  /-- To give the value of an expression. -/
  | evaluate (expr : Expr)

/-- The answer to a call, which may be an error or a number, and the session after it. -/
def perform (s : Session) : Call → Except RuntimeError (Option Number) × Session
  | .run program =>
    match s.run program with
    | .ok s' => (.ok none, s')
    | .error (error, s') => (.error error, s')
  | .evaluate expr => ((expr.eval s.env).map some, s)

/-- The session after some calls. -/
def performAll (s : Session) : List Call → Session
  | [] => s
  | call :: rest => (s.perform call).2.performAll rest

/-- The statements that calls have completed: those of each program before the first that fails. -/
def kept (s : Session) : List Call → Program
  | [] => []
  | .run program :: rest => s.completed program ++ (s.perform (.run program)).2.kept rest
  | .evaluate expr :: rest => (s.perform (.evaluate expr)).2.kept rest

/-- The completed statements of a program, run alone, succeed and lead where the program led. -/
theorem run_completed {s : Session} (unlimited : s.out.limit = none) (program : Program) :
    s.run (s.completed program) = .ok (s.perform (.run program)).2 := by
  cases outcome : s.run program with
  | ok s' =>
    rw [completed_of_ok outcome, outcome]
    simp only [perform, outcome]
  | error failure =>
    obtain ⟨error, s'⟩ := failure
    obtain ⟨k, statement, taken, -, before, -⟩ := failure_of_run unlimited outcome
    rw [taken, before]
    simp only [perform, outcome]

/-- Failures leave no trace. After any calls, a session on an output without a limit has the
bindings and the output of a single run of the statements that the programs completed, and that run
succeeds. A program completes all its statements, or those before one that fails and changes
nothing. -/
theorem run_kept (s : Session) (unlimited : s.out.limit = none) (calls : List Call) :
    s.run (s.kept calls) = .ok (s.performAll calls) ∧
    ∀ reached : Session, reached.out.limit = none → ∀ program,
      match reached.run program with
      | .ok _ => reached.completed program = program
      | .error (error, s') =>
        ∃ k statement, reached.completed program = program.take k ∧
          program[k]? = some statement ∧ reached.run (program.take k) = .ok s' ∧
          s'.step statement = .error (error, s') := by
  constructor
  · induction calls generalizing s with
    | nil => rfl
    | cons call rest ih =>
      cases call with
      | run program =>
        have first := run_completed unlimited program
        rw [kept, run_append, first]
        exact ih _ (limit_of_run unlimited first)
      | evaluate expr => exact ih s unlimited
  · intro reached unbounded program
    cases outcome : reached.run program with
    | ok s' => exact completed_of_ok outcome
    | error failure => exact failure_of_run unbounded outcome

/-- `1` -/
private def literalOne : Expr := .ofFactor (.number (.int 1))

/-- Two programs that fail and an expression without a value, and then a program that succeeds. -/
private def callsWithFailures : List Call :=
  [.run [.declare "x" literalOne, .declare "x" literalOne, .print literalOne],
    .evaluate (.ofFactor (.variable "y")),
    .run [.print (.ofFactor (.variable "x")), .assign "y" literalOne],
    .run [.assign "x" literalOne]]

theorem run_kept_callsWithFailures :
    (start (.empty none)).out.limit = none ∧
    (start (.empty none)).kept callsWithFailures =
      [.declare "x" literalOne, .print (.ofFactor (.variable "x")), .assign "x" literalOne] ∧
    (start (.empty none)).run ((start (.empty none)).kept callsWithFailures) =
      .ok ((start (.empty none)).performAll callsWithFailures) :=
  ⟨rfl, rfl, (run_kept (start (.empty none)) rfl callsWithFailures).1⟩

end Session
end BlockCalc
