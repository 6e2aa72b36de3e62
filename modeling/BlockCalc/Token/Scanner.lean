import BlockCalc.Character
import BlockCalc.Number.Literal
import BlockCalc.Token

/-!
# Cutting source text into tokens

A `Scanner` stands somewhere in a source. Each step skips the gap of blanks and comments before the
next token and takes the longest name or number, or a single symbol. A malformed number is left
behind by the step that reports it; an unexpected character is not, so that later steps report it
again. At the end of the source every step gives the end token.
-/
namespace BlockCalc

/-- Why source text could not be cut into tokens. -/
inductive ScanError where
  | unexpectedCharacter (c : Char) (offset : Nat)
  | malformedNumber (lexeme : String) (offset : Nat)
deriving DecidableEq

/-- The wording of a scanning error. An unexpected character is counted from one. -/
def ScanError.message : ScanError → String
  | .unexpectedCharacter c offset =>
    "Unexpected character '" ++ c.toString ++ "' at position " ++ (offset + 1).repr
  | .malformedNumber lexeme offset =>
    "Malformed number '" ++ lexeme ++ "' at position " ++ offset.repr

/-- A position in a source: the characters ahead and the number of characters behind. -/
structure Scanner where
  ahead : List Char
  offset : Nat

namespace Scanner
open Character

/-- The position before the first character. -/
def ofSource (source : String) : Scanner := ⟨source.toList, 0⟩

/-- The position after the blanks and comments that follow. A comment goes from `#` to the end of
its line. -/
def afterGap (inComment : Bool) (offset : Nat) : List Char → Scanner
  | [] => ⟨[], offset⟩
  | c :: rest =>
    if inComment then afterGap (c != '\n') (offset + 1) rest
    else if c = '#' then afterGap true (offset + 1) rest
    else if isBlank c then afterGap false (offset + 1) rest
    else ⟨c :: rest, offset⟩

/-- The position after the gap that follows. -/
def skipGap (s : Scanner) : Scanner := afterGap false s.offset s.ahead

/-- The position `n` characters further. -/
def advance (s : Scanner) (n : Nat) : Scanner := ⟨s.ahead.drop n, s.offset + n⟩

/-- The kind of a token that is a single character. -/
def symbol? : Char → Option TokenKind
  | '(' => some .openParen
  | ')' => some .closeParen
  | '{' => some .openBrace
  | '}' => some .closeBrace
  | '+' => some .plus
  | '-' => some .minus
  | '*' => some .times
  | '/' => some .over
  | '√' => some .root
  | ';' => some .semicolon
  | '=' => some .equals
  | _ => none

/-- The kind of a name: `num` is a keyword. -/
def wordKind (lexeme : String) : TokenKind := if lexeme = "num" then .num else .name

/-- The longest stretch of characters of a class that starts right here. -/
def run (s : Scanner) (p : Char → Bool) : List Char := s.ahead.takeWhile p

/-- The name or keyword that starts right here, and the position after it. -/
def word (s : Scanner) : Token × Scanner :=
  let run := s.run isLetterOrNumeral
  (⟨wordKind (.ofList run), .ofList run, s.offset⟩, s.advance run.length)

/-- The number that starts right here, and the position after it. -/
def number (s : Scanner) : Except ScanError Token × Scanner :=
  let run := s.run isDigitOrPoint
  (match Number.ofLiteral? (.ofList run) with
    | some value => .ok ⟨.number value, .ofList run, s.offset⟩
    | none => .error (.malformedNumber (.ofList run) s.offset),
    s.advance run.length)

/-- The single-character token `c` that starts right here, and the position after it. -/
def symbol (s : Scanner) (c : Char) : Except ScanError Token × Scanner :=
  match symbol? c with
  | some kind => (.ok ⟨kind, c.toString, s.offset⟩, s.advance 1)
  | none => (.error (.unexpectedCharacter c s.offset), s)

/-- The token that starts right here, and the position after it. -/
def nextHere (s : Scanner) : Except ScanError Token × Scanner :=
  match s.ahead with
  | [] => (.ok (.finish s.offset), s)
  | c :: _ =>
    if isLetter c then (.ok s.word.1, s.word.2)
    else if isDigitOrPoint c then s.number
    else s.symbol c

/-- The next token and the position after it. -/
def next (s : Scanner) : Except ScanError Token × Scanner := s.skipGap.nextHere

theorem length_afterGap_le (inComment : Bool) (offset : Nat) (cs : List Char) :
    (afterGap inComment offset cs).ahead.length ≤ cs.length := by
  induction cs generalizing inComment offset with
  | nil => simp [afterGap]
  | cons c rest ih =>
    rw [afterGap]
    have := ih (c != '\n') (offset + 1)
    have := ih true (offset + 1)
    have := ih false (offset + 1)
    simp only [List.length_cons]
    split
    · omega
    · split
      · omega
      · split
        · omega
        · simp

theorem length_advance_lt {s : Scanner} {n : Nat} (some_ahead : s.ahead ≠ []) (positive : 0 < n) :
    (s.advance n).ahead.length < s.ahead.length := by
  have := List.length_pos_iff.2 some_ahead
  simp only [advance, List.length_drop]
  omega

theorem length_run_pos {s : Scanner} {p : Char → Bool} {c : Char} {rest : List Char}
    (ahead : s.ahead = c :: rest) (holds : p c) : 0 < (s.run p).length := by
  simp [run, ahead, holds]

/-- A step that gives a token other than the end leaves less ahead. -/
theorem length_nextHere_lt {s s' : Scanner} {t : Token} (step : s.nextHere = (.ok t, s'))
    (going : t.kind.isFinish = false) : s'.ahead.length < s.ahead.length := by
  rw [nextHere] at step
  split at step
  · cases step
    simp [Token.finish, TokenKind.isFinish] at going
  · next c rest ahead =>
    have some_ahead : s.ahead ≠ [] := by simp [ahead]
    split at step
    · next letter =>
      cases step
      exact length_advance_lt some_ahead
        (length_run_pos ahead (by simp [isLetterOrNumeral, letter]))
    · split at step
      · next digit =>
        cases (congrArg Prod.snd step : _ = s')
        exact length_advance_lt some_ahead (length_run_pos ahead digit)
      · rw [symbol] at step
        split at step <;> cases step
        exact length_advance_lt some_ahead Nat.one_pos

theorem length_next_lt {s s' : Scanner} {t : Token} (step : s.next = (.ok t, s'))
    (going : t.kind.isFinish = false) : s'.ahead.length < s.ahead.length :=
  Nat.lt_of_lt_of_le (length_nextHere_lt step going) (length_afterGap_le ..)

/-- All tokens from here to the end token, or the first error. -/
def tokens (s : Scanner) : Except ScanError (List Token) :=
  match step : s.next with
  | (.error e, _) => .error e
  | (.ok t, s') =>
    if going : t.kind.isFinish = false then
      have := length_next_lt step going
      s'.tokens.map (t :: ·)
    else .ok [t]
termination_by s.ahead.length

end Scanner

/-- The tokens of a source, the last of them the end token. -/
def scan (source : String) : Except ScanError (List Token) := (Scanner.ofSource source).tokens

end BlockCalc
