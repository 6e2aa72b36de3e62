import BlockCalc.Session

/-!
# The prompt

Reads one program per line and runs each from the beginning of a session of its own. The line `q`
or the end of the input ends the prompt. A program that fails is answered with its error; only
input that is not text, or an output that takes no more, ends the prompt with a failure.
-/
namespace BlockCalc

/-- Why the prompt failed. -/
inductive PromptError where
  /-- A line is not valid UTF-8. -/
  | invalidText
  /-- The output takes no more. -/
  | outputFull
deriving DecidableEq

/-- What invalid input says. -/
def invalidTextMessage : String := "stream did not contain valid UTF-8"

/-- The wording of a prompt error. -/
def PromptError.message : PromptError → String
  | .invalidText => invalidTextMessage
  | .outputFull => outputFullMessage

namespace Prompt

/-- What is written before each line is read. -/
def invitation : String := ">>> "

/-- The line that ends the prompt. -/
def quit : String := "q"

/-- The lines of an input, each with the newline that ends it; the last may have none. -/
def lines : List UInt8 → List (List UInt8)
  | [] => []
  | byte :: rest =>
    if byte = 10 then [byte] :: lines rest
    else
      match lines rest with
      | [] => [[byte]]
      | line :: others => (byte :: line) :: others

/-- The text of a line without the newlines and carriage returns at its end. -/
def trim (text : String) : String :=
  .ofList (text.toList.reverse.dropWhile fun c => c == '\n' || c == '\r').reverse

/-- Writes a text. -/
def say (out : Sink) (text : String) : Except (PromptError × Sink) Sink :=
  match out.write text with
  | .ok out => .ok out
  | .error out => .error (.outputFull, out)

/-- Runs a program and reports its error if it fails. -/
def answer (out : Sink) (source : String) : Except (PromptError × Sink) Sink :=
  match execute source out with
  | .ok s => .ok s.out
  | .error (failure, s) => say s.out ("Error: " ++ failure.message ++ "\n")

/-- What a line asks for. -/
inductive Request where
  | stop
  | skip
  | run (source : String)
deriving DecidableEq

/-- What a line asks for, if it is text. -/
def request? (line : List UInt8) : Option Request :=
  (String.fromUTF8? line.toByteArray).map fun text =>
    let source := trim text
    if source = quit then .stop else if source = "" then .skip else .run source

/-- Responds to the line that was read, or to the end of the input, and tells whether the prompt
goes on. -/
def respond (out : Sink) : Option (List UInt8) → Except (PromptError × Sink) (Sink × Bool)
  | none => do return (← say out "\n", false)
  | some line =>
    match request? line with
    | none => .error (.invalidText, out)
    | some .stop => .ok (out, false)
    | some .skip => .ok (out, true)
    | some (.run source) => do return (← answer out source, true)

/-- Invites and answers the given lines. -/
def converse (out : Sink) : List (List UInt8) → Except (PromptError × Sink) Sink
  | [] => do
    let out ← say out invitation
    let (out, _) ← respond out none
    return out
  | line :: rest => do
    let out ← say out invitation
    let (out, goesOn) ← respond out (some line)
    if goesOn then converse out rest else return out

/-- Runs the prompt on an input. -/
def run (out : Sink) (input : List UInt8) : Except (PromptError × Sink) Sink :=
  converse out (lines input)

end Prompt
end BlockCalc
