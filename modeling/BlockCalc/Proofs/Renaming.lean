import Mathlib.Logic.Equiv.Basic
import BlockCalc.Proofs.Running
import BlockCalc.Proofs.Substitution

/-!
# Names are opaque

Two sessions correspond under a renaming if the second binds exactly the new names of what the first
binds, to the same numbers, and both have the same output. A statement and its renaming keep this
and end alike (`Session.step_rename`), and so do programs (`Session.run_rename`), as long as the
renaming keeps different names apart.
-/
namespace BlockCalc

/-- The expression with every variable renamed. -/
def Expr.rename (r : String → String) (e : Expr) : Expr :=
  e.substitute fun name => .variable (r name)

/-- The statement with its target and every variable renamed. -/
def Statement.rename (r : String → String) : Statement → Statement
  | .declare name value => .declare (r name) (value.rename r)
  | .assign name value => .assign (r name) (value.rename r)
  | .print value => .print (value.rename r)

def Program.rename (r : String → String) (program : Program) : Program :=
  program.map fun statement => statement.rename r

/-- The error with the name that it carries renamed. -/
def RuntimeError.rename (r : String → String) : RuntimeError → RuntimeError
  | .duplicateBinding name => .duplicateBinding (r name)
  | .unboundVariable name => .unboundVariable (r name)
  | .divisionByZero => .divisionByZero
  | .mathDomain operand => .mathDomain operand
  | .output => .output

/-- The second environment binds exactly the new names of what the first binds, to the same
numbers. -/
def Environment.Corresponds (r : String → String) (env other : Environment) : Prop :=
  ∀ name value, other.get? name = some value ↔
    ∃ origin, r origin = name ∧ env.get? origin = some value

/-- The environments correspond, and the output is the same. -/
structure Session.Corresponds (r : String → String) (s t : Session) : Prop where
  env : s.env.Corresponds r t.env
  out : s.out = t.out

/-- Both succeed, or both fail with the same error up to the name that it carries, and the sessions
left behind correspond. -/
inductive Session.EndAlike (r : String → String) :
    Except (RuntimeError × Session) Session → Except (RuntimeError × Session) Session → Prop
  | ok {s t : Session} (sessions : s.Corresponds r t) : EndAlike r (.ok s) (.ok t)
  | error {s t : Session} (error : RuntimeError) (sessions : s.Corresponds r t) :
      EndAlike r (.error (error, s)) (.error (error.rename r, t))

namespace Environment.Corresponds
variable {r : String → String} {env other : Environment}

theorem get?_eq (same : Corresponds r env other) (injective : Function.Injective r)
    (name : String) : other.get? (r name) = env.get? name := by
  apply Option.ext
  intro value
  rw [same]
  constructor
  · rintro ⟨origin, renamed, given⟩
    rwa [← injective renamed]
  · intro given
    exact ⟨name, rfl, given⟩

theorem binds_eq (same : Corresponds r env other) (injective : Function.Injective r)
    (name : String) : other.binds (r name) = env.binds name := by
  rw [binds, same.get?_eq injective, binds]

theorem lookup_eq (same : Corresponds r env other) (injective : Function.Injective r)
    (name : String) :
    other.lookup (r name) = (env.lookup name).mapError (RuntimeError.rename r) := by
  rw [lookup, same.get?_eq injective, lookup]
  cases env.get? name <;> rfl

theorem set (same : Corresponds r env other) (injective : Function.Injective r) (x : String)
    (v : Number) : Corresponds r (env.set x v) (other.set (r x) v) := by
  intro name value
  simp only [get?_set]
  by_cases here : r x = name
  · rw [if_pos here]
    constructor
    · intro given
      exact ⟨x, here, by rw [if_pos rfl, given]⟩
    · rintro ⟨origin, renamed, given⟩
      rwa [if_pos (injective (here.trans renamed.symm))] at given
  · have apart : ∀ origin, r origin = name → x ≠ origin := by
      rintro _ renamed rfl
      exact here renamed
    rw [if_neg here, same]
    refine exists_congr fun origin => and_congr_right fun renamed => ?_
    rw [if_neg (apart origin renamed)]

end Environment.Corresponds

theorem Environment.corresponds_foldl {r : String → String} (injective : Function.Injective r)
    {bindings : List (String × Number)} (fixed : ∀ binding ∈ bindings, r binding.1 = binding.1)
    {env other : Environment} (same : env.Corresponds r other) :
    (bindings.foldl (fun env binding => env.set binding.1 binding.2) env).Corresponds r
      (bindings.foldl (fun env binding => env.set binding.1 binding.2) other) := by
  induction bindings generalizing env other with
  | nil => exact same
  | cons first rest ih =>
    obtain ⟨here, later⟩ := List.forall_mem_cons.mp fixed
    have next := same.set injective first.1 first.2
    rw [here] at next
    exact ih later next

/-- A session begins the same under a renaming that leaves the constants alone. -/
theorem Environment.initial_corresponds {r : String → String} (injective : Function.Injective r)
    (fixed : ∀ constant ∈ constants, r constant.1 = constant.1) :
    initial.Corresponds r initial := by
  have empty : Environment.Corresponds r ⟨∅⟩ ⟨∅⟩ := by
    intro name value
    simp [get?]
  -- the constants are bound one after the other
  exact corresponds_foldl injective fixed empty

section
variable {r : String → String} (injective : Function.Injective r)
include injective

theorem Expr.eval_rename {env other : Environment} (same : env.Corresponds r other) (e : Expr) :
    (e.rename r).eval other = (e.eval env).mapError (RuntimeError.rename r) := by
  have represents : Represents (fun name => .variable (r name)) (RuntimeError.rename r) env other :=
    ⟨same.lookup_eq injective, rfl, fun _ => rfl⟩
  exact e.eval_substitute represents

namespace Statement

theorem targetFault?_rename {env other : Environment} (same : env.Corresponds r other)
    (statement : Statement) :
    (statement.rename r).targetFault? other =
      (statement.targetFault? env).map (RuntimeError.rename r) := by
  cases statement with
  | declare name value =>
    simp only [rename, targetFault?, same.binds_eq injective]
    split <;> rfl
  | assign name value =>
    simp only [rename, targetFault?, same.binds_eq injective]
    split <;> rfl
  | print value => rfl

theorem outcome_rename {env other : Environment} (same : env.Corresponds r other)
    (statement : Statement) (v : Number) :
    (statement.outcome env v).1.Corresponds r ((statement.rename r).outcome other v).1 ∧
      ((statement.rename r).outcome other v).2 = (statement.outcome env v).2 := by
  cases statement with
  | declare name value => exact ⟨same.set injective name v, rfl⟩
  | assign name value => exact ⟨same.set injective name v, rfl⟩
  | print value => exact ⟨same, rfl⟩

end Statement
end

theorem Statement.value_rename (r : String → String) (statement : Statement) :
    (statement.rename r).value = statement.value.rename r := by
  cases statement <;> rfl

namespace Session
variable {r : String → String}

/-- Corresponding effects are settled alike: the same number is printed on the same output. -/
theorem settle_alike {s t : Session} (sessions : s.Corresponds r t)
    {effect renamed : Environment × Option Number} (same : effect.1.Corresponds r renamed.1)
    (shown : renamed.2 = effect.2) : EndAlike r (s.settle effect) (t.settle renamed) := by
  obtain ⟨env, number⟩ := effect
  obtain ⟨other, again⟩ := renamed
  cases shown
  cases number with
  | none => exact .ok ⟨same, sessions.out⟩
  | some value =>
    simp only [settle, print, sessions.out]
    cases t.out.write (value.text ++ "\n") with
    | ok out => exact .ok ⟨same, rfl⟩
    | error out => exact .error .output ⟨same, rfl⟩

/-- A statement and its renaming end alike in corresponding sessions. -/
theorem step_rename (injective : Function.Injective r) {s t : Session}
    (sessions : s.Corresponds r t) (statement : Statement) :
    EndAlike r (s.step statement) (t.step (statement.rename r)) := by
  have target := statement.targetFault?_rename injective sessions.env
  have renamed := statement.value.eval_rename injective sessions.env
  rw [← statement.value_rename] at renamed
  cases fault : statement.targetFault? s.env with
  | some error =>
    rw [fault] at target
    rw [step_of_fault fault, step_of_fault target]
    exact .error error sessions
  | none =>
    rw [fault] at target
    cases value : statement.value.eval s.env with
    | error error =>
      rw [value] at renamed
      rw [step_of_error fault value, step_of_error target renamed]
      exact .error error sessions
    | ok v =>
      rw [value] at renamed
      obtain ⟨same, shown⟩ := statement.outcome_rename injective sessions.env v
      rw [step_of_value fault value, step_of_value target renamed]
      exact settle_alike sessions same shown

theorem run_alike (injective : Function.Injective r) {s t : Session}
    (sessions : s.Corresponds r t) (program : Program) :
    EndAlike r (s.run program) (t.run (program.rename r)) := by
  induction program generalizing s t with
  | nil => exact .ok sessions
  | cons first rest ih =>
    have stepped := step_rename injective sessions first
    rw [Program.rename, List.map_cons]
    generalize here : s.step first = left at stepped
    generalize there : t.step (first.rename r) = right at stepped
    cases stepped with
    | ok next =>
      rw [run_cons_of_ok rest here, run_cons_of_ok _ there]
      exact ih next
    | error error last =>
      rw [run_cons_of_error rest here, run_cons_of_error _ there]
      exact .error error last

/-- Names are opaque. In sessions that correspond under a renaming that keeps different names apart,
a program and its renaming write the same bytes, end alike and leave sessions that correspond. Every
session corresponds to itself at its beginning, if the renaming leaves the constants alone. -/
theorem run_rename (r : String → String) (injective : Function.Injective r) (program : Program) :
    (∀ s t : Session, s.Corresponds r t →
      EndAlike r (s.run program) (t.run (program.rename r))) ∧
    (r "e" = "e" → r "pi" = "pi" → r "tau" = "tau" → ∀ out : Sink,
      EndAlike r ((start out).run program) ((start out).run (program.rename r))) := by
  constructor
  · intro s t sessions
    exact run_alike injective sessions program
  · intro e pi tau out
    have fixed : ∀ constant ∈ Environment.constants, r constant.1 = constant.1 := by
      simp [Environment.constants, e, pi, tau]
    exact run_alike injective ⟨Environment.initial_corresponds injective fixed, rfl⟩ program

/-- A session in which only one name and the constants are bound. -/
private def binding (name : String) : Session :=
  ⟨Environment.initial.set name (.int 7), .empty none⟩

/-- Prints `x`, and then assigns `y`. -/
private def printThenAssign : Program :=
  [.print (.ofFactor (.variable "x")), .assign "y" (.ofFactor (.variable "x"))]

-- `x` and `y` are exchanged: the program misses `y` where only `x` is bound.
theorem run_rename_exchanged :
    Function.Injective (Equiv.swap "x" "y") ∧
    (binding "x").Corresponds (Equiv.swap "x" "y") (binding "y") ∧
    (∃ s, (binding "x").run printThenAssign = .error (.unboundVariable "y", s)) ∧
    EndAlike (Equiv.swap "x" "y") ((binding "x").run printThenAssign)
      ((binding "y").run (printThenAssign.rename (Equiv.swap "x" "y"))) ∧
    EndAlike (Equiv.swap "x" "y") ((start (.empty none)).run printThenAssign)
      ((start (.empty none)).run (printThenAssign.rename (Equiv.swap "x" "y"))) := by
  have injective : Function.Injective (Equiv.swap "x" "y") := (Equiv.swap "x" "y").injective
  have fixed : ∀ constant ∈ Environment.constants, Equiv.swap "x" "y" constant.1 = constant.1 := by
    decide
  have env := (Environment.initial_corresponds injective fixed).set injective "x" (.int 7)
  rw [Equiv.swap_apply_left] at env
  have sessions : (binding "x").Corresponds (Equiv.swap "x" "y") (binding "y") := ⟨env, rfl⟩
  obtain ⟨related, fresh⟩ := run_rename (Equiv.swap "x" "y") injective printThenAssign
  exact ⟨injective, sessions, ⟨_, rfl⟩, related _ _ sessions,
    fresh (by decide) (by decide) (by decide) (.empty none)⟩

end Session
end BlockCalc
