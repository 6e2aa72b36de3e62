import BlockCalc.Evaluation
import BlockCalc.Program.Parser
import BlockCalc.Sink
import BlockCalc.Token.Scanner

/-!
# Sessions

A session holds the bindings and the output that programs leave behind. A statement that fails
changes neither, except that a failed write leaves the bytes that still fitted; what statements
before it did stays.
-/
namespace BlockCalc

/-- The bindings and the output of the programs run so far. -/
structure Session where
  env : Environment
  out : Sink

/-- What a statement does in an environment: the new environment, and the number to print if there
is one. The target is looked at before the value is computed. -/
def Statement.effect (env : Environment) :
    Statement → Except RuntimeError (Environment × Option Number)
  | .declare name value =>
    if env.binds name then .error (.duplicateBinding name)
    else do
      let v ← value.eval env
      return (← env.declare name v, none)
  | .assign name value =>
    if env.binds name then do
      let v ← value.eval env
      return (← env.assign name v, none)
    else .error (.unboundVariable name)
  | .print value => do
    let v ← value.eval env
    return (env, some v)

/-- Why a source could not be run to its end. -/
inductive Failure where
  | scan (error : ScanError)
  | parse (error : ParseError)
  | runtime (error : RuntimeError)

/-- The wording of a failure. -/
def Failure.message : Failure → String
  | .scan error => error.message
  | .parse error => error.message
  | .runtime error => error.message

namespace Session

/-- A session at its beginning. -/
def start (out : Sink) : Session := ⟨.initial, out⟩

/-- Prints a number on a line of its own. -/
def print (s : Session) (value : Number) : Except (RuntimeError × Session) Session :=
  match s.out.write (value.text ++ "\n") with
  | .ok out => .ok { s with out }
  | .error out => .error (.output, { s with out })

/-- Runs one statement. The session is part of the outcome of a failure too. -/
def step (s : Session) (statement : Statement) : Except (RuntimeError × Session) Session :=
  match statement.effect s.env with
  | .error error => .error (error, s)
  | .ok (env, none) => .ok { s with env }
  | .ok (env, some value) => { s with env }.print value

/-- Runs the statements of a program in order, up to the first that fails. -/
def run (s : Session) (program : Program) : Except (RuntimeError × Session) Session :=
  program.foldlM step s

/-- Runs a source. Nothing is run unless all of it is a program. -/
def runSource (s : Session) (source : String) : Except (Failure × Session) Session :=
  match scan source with
  | .error error => .error (.scan error, s)
  | .ok tokens =>
    match Program.ofTokens tokens with
    | .error error => .error (.parse error, s)
    | .ok program =>
      match s.run program with
      | .error (error, s') => .error (.runtime error, s')
      | .ok s' => .ok s'

end Session

/-- Runs a source from the beginning of a session on the given output. -/
def execute (source : String) (out : Sink) : Except (Failure × Session) Session :=
  (Session.start out).runSource source

end BlockCalc
