import BlockCalc.Prompt

/-!
# The command line

What the arguments of the command ask for, and the outcome: an exit code and what is written to the
two output streams. Arguments are read from left to right; help and version are answered as soon as
they are met, and a misuse met before them ends the command.
-/
namespace BlockCalc.CommandLine

/-- What the command is asked to do. -/
inductive Request where
  | help
  | version
  /-- Run the given program text. -/
  | source (text : String)
  /-- Run the program in a file. -/
  | file (path : String)
  | prompt
deriving DecidableEq

/-- What a single argument is, as long as options are recognised. -/
inductive Argument where
  | help
  | version
  /-- The option that gives a program text, with the text if the same argument holds it. -/
  | command (text : Option String)
  /-- The mark after which every argument is plain. -/
  | endOfOptions
  | plain (text : String)
  | unknown
deriving DecidableEq

/-- Splits a text at its first equals sign. -/
def splitValue (cs : List Char) : List Char × Option (List Char) :=
  match cs.dropWhile (· ≠ '=') with
  | [] => (cs, none)
  | _ :: value => (cs.takeWhile (· ≠ '='), some value)

/-- The option of a long name, with the value that an equals sign attaches to it. -/
def Argument.ofLong (name : List Char) (value : Option (List Char)) : Argument :=
  if name = "command".toList then .command (value.map .ofList)
  else if name = "help".toList ∧ value = none then .help
  else if name = "version".toList ∧ value = none then .version
  else .unknown

/-- The value in the rest of an argument that begins with a one-letter option: an equals sign may
come first, and an empty rest holds none. -/
def attachedValue : List Char → Option (List Char)
  | [] => none
  | '=' :: value => some value
  | value => some value

/-- What an argument is. -/
def Argument.ofChars : List Char → Argument
  | ['-'] => .plain "-"
  | ['-', '-'] => .endOfOptions
  | '-' :: '-' :: long =>
    let (name, value) := splitValue long
    .ofLong name value
  | '-' :: 'h' :: _ => .help
  | '-' :: 'V' :: _ => .version
  | '-' :: 'c' :: rest => .command ((attachedValue rest).map .ofList)
  | '-' :: _ => .unknown
  | cs => .plain (.ofList cs)

/-- What an argument is. -/
def Argument.ofString (arg : String) : Argument := .ofChars arg.toList

/-- What the arguments read so far have given. -/
structure Given where
  command : Option String := none
  file : Option String := none

namespace Given

/-- Takes in a program text; there may be one only. -/
def addCommand (given : Given) (text : String) : Option Given :=
  match given.command with
  | some _ => none
  | none => some { given with command := some text }

/-- Takes in a plain argument: the path of a file, which is not empty; there may be one only. -/
def addFile (given : Given) (path : String) : Option Given :=
  match given.file with
  | some _ => none
  | none => if path = "" then none else some { given with file := some path }

/-- What is asked for in the end. A program text and a file exclude each other. -/
def request? (given : Given) : Option Request :=
  match given.command, given.file with
  | some _, some _ => none
  | some text, none => some (.source text)
  | none, some path => some (.file path)
  | none, none => some .prompt

end Given

/-- Reads arguments that are all plain. -/
def readPlain (given : Given) (args : List String) : Option Request :=
  (args.foldlM Given.addFile given).bind Given.request?

/-- Reads arguments from left to right. An option that still needs its program text takes the next
argument, which has to be a plain one. -/
def readArguments (given : Given) : List String → Option Request
  | [] => given.request?
  | arg :: rest =>
    match Argument.ofString arg with
    | .help => some .help
    | .version => some .version
    | .command (some text) => (given.addCommand text).bind (readArguments · rest)
    | .command none =>
      match rest with
      | [] => none
      | value :: rest =>
        match Argument.ofString value with
        | .plain text => (given.addCommand text).bind (readArguments · rest)
        | _ => none
    | .endOfOptions => readPlain given rest
    | .plain path => (given.addFile path).bind (readArguments · rest)
    | .unknown => none

/-- What the arguments ask for, if they are used properly. -/
def request? (args : List String) : Option Request := readArguments {} args

/-- What a run of the command leaves behind. -/
structure Outcome where
  code : UInt32
  stdout : ByteArray
  stderr : String

/-- Why a file could not be read. -/
inductive FileError where
  /-- The reason and the error number that the operating system gives. -/
  | system (reason : String) (code : Nat)
  | invalidText

/-- The wording of a file error. -/
def FileError.message : FileError → String
  | .system reason code => reason ++ " (os error " ++ code.repr ++ ")"
  | .invalidText => invalidTextMessage

/-- The error for a path where nothing is. -/
def FileError.missing : FileError := .system "No such file or directory" 2

/-- The error for a path where a directory is. -/
def FileError.directory : FileError := .system "Is a directory" 21

/-- The answer to a request for the version. -/
def versionText : String := "sml_interpreter 0.1.0\n"

/-- The answer to a request for help. -/
def helpText : String :=
  "Runs a script written in the sml block language, or starts an interactive prompt when no " ++
  "script is given\n\n" ++
  "Usage: sml [OPTIONS] [FILE]\n\n" ++
  "Arguments:\n" ++
  "  [FILE]  Script file to run\n\n" ++
  "Options:\n" ++
  "  -c, --command <COMMAND>  Run the given program text instead of a file\n" ++
  "  -h, --help               Print help\n" ++
  "  -V, --version            Print version\n"

/-- What is said about arguments that are not used properly. -/
def misuseText : String :=
  "error: unexpected arguments\n\nUsage: sml [OPTIONS] [FILE]\n\n" ++
  "For more information, try '--help'.\n"

namespace Outcome

/-- A success that has written a text. -/
def ofText (text : String) : Outcome := ⟨0, text.toUTF8, ""⟩

/-- A failure with a message, after some output. -/
def failure (stdout : ByteArray) (message : String) : Outcome :=
  ⟨1, stdout, "Error: " ++ message ++ "\n"⟩

/-- The outcome of arguments that are not used properly. -/
def misuse : Outcome := ⟨2, .empty, misuseText⟩

/-- The outcome of running a program text. -/
def ofSource (source : String) : Outcome :=
  match execute source (.empty none) with
  | .ok s => ⟨0, s.out.written, ""⟩
  | .error (e, s) => failure s.out.written e.message

/-- The outcome of running the program in a file with the given contents. -/
def ofFile (path : String) (contents : Except FileError ByteArray) : Outcome :=
  let failed (e : FileError) := failure .empty ("failed to read '" ++ path ++ "': " ++ e.message)
  match contents with
  | .error e => failed e
  | .ok bytes =>
    match String.fromUTF8? bytes with
    | none => failed .invalidText
    | some source => ofSource source

/-- The outcome of the prompt on an input. -/
def ofPrompt (input : List UInt8) : Outcome :=
  match Prompt.run (.empty none) input with
  | .ok out => ⟨0, out.written, ""⟩
  | .error (e, out) => failure out.written e.message

end Outcome

/-- The outcome of the command with the given arguments, input and files. -/
def run (args : List String) (input : List UInt8)
    (files : String → Except FileError ByteArray) : Outcome :=
  match request? args with
  | none => .misuse
  | some .help => .ofText helpText
  | some .version => .ofText versionText
  | some (.source text) => .ofSource text
  | some (.file path) => .ofFile path (files path)
  | some .prompt => .ofPrompt input

end BlockCalc.CommandLine
