import BlockCalc.Character
import BlockCalc.Character.Alphabetic
import BlockCalc.Character.Numeric
import BlockCalc.CommandLine
import BlockCalc.Decimal
import BlockCalc.Decimal.Layout
import BlockCalc.Decimal.Numeral
import BlockCalc.Decimal.Shortest
import BlockCalc.Environment
import BlockCalc.Evaluation
import BlockCalc.Magnitude
import BlockCalc.Main
import BlockCalc.Number
import BlockCalc.Number.Literal
import BlockCalc.Number.Text
import BlockCalc.Program
import BlockCalc.Program.Parser
import BlockCalc.Program.Reading
import BlockCalc.Prompt
import BlockCalc.Proofs.Atomicity
import BlockCalc.Proofs.Commuting
import BlockCalc.Proofs.Conversation
import BlockCalc.Proofs.Doubles
import BlockCalc.Proofs.ExactIntegers
import BlockCalc.Proofs.Faults
import BlockCalc.Proofs.FirstError
import BlockCalc.Proofs.Grammar
import BlockCalc.Proofs.Grouping
import BlockCalc.Proofs.Joining
import BlockCalc.Proofs.LiteralGrammar
import BlockCalc.Proofs.Literals
import BlockCalc.Proofs.NumberText
import BlockCalc.Proofs.Occurrences
import BlockCalc.Proofs.Offsets
import BlockCalc.Proofs.Output
import BlockCalc.Proofs.ParsedTrees
import BlockCalc.Proofs.Parsing
import BlockCalc.Proofs.Prediction
import BlockCalc.Proofs.PrintedValues
import BlockCalc.Proofs.Progress
import BlockCalc.Proofs.Renaming
import BlockCalc.Proofs.RoundTrip
import BlockCalc.Proofs.Rounding
import BlockCalc.Proofs.Running
import BlockCalc.Proofs.Scanning
import BlockCalc.Proofs.Scope
import BlockCalc.Proofs.Spacing
import BlockCalc.Proofs.Stepping
import BlockCalc.Proofs.Stopping
import BlockCalc.Proofs.Substitution
import BlockCalc.Proofs.Truncation
import BlockCalc.Proofs.Walking
import BlockCalc.Proofs.WriteLog
import BlockCalc.Proofs.WrittenIntegers
import BlockCalc.RuntimeError
import BlockCalc.Session
import BlockCalc.Sink
import BlockCalc.Token
import BlockCalc.Token.Scanner
