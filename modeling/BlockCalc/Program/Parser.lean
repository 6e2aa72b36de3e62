import BlockCalc.Program
import BlockCalc.Program.Reading

/-!
# Reading programs

Programs are read from tokens by the grammar

    Program   ::= '{' Statement Statement* '}'
    Statement ::= num ID '=' Expr ';' | ID '=' Expr ';' | ';' Expr ';'
    Expr      ::= Sign? Term (('+' | '-') Term)*
    Term      ::= Factor (('*' | '/') Sign? Factor)*
    Factor    ::= NUMBER | '(' Expr ')' | ID

with one token of lookahead. A `TokenStream` keeps its position between programs: after a program
it stands behind the end token that closed it, and after a failure at the offending token. The last
end token is never passed.
-/
namespace BlockCalc

/-- Reads an optional sign. -/
def Sign.read (ts : List Token) : Reading Sign (ts.length + 1) :=
  match ts with
  | [] => .done .plus [] (Nat.lt_succ_self _)
  | t :: rest =>
    match t.kind with
    | .plus => .done .plus rest (Nat.lt_succ_of_lt (Nat.lt_succ_self _))
    | .minus => .done .minus rest (Nat.lt_succ_of_lt (Nat.lt_succ_self _))
    | _ => .done .plus (t :: rest) (Nat.lt_succ_self _)

/-- Reads an operator between terms. -/
def AddOp.read (ts : List Token) : Reading AddOp ts.length :=
  match ts with
  | [] => .stuck (.unexpectedIn .additiveOperator) []
  | t :: rest =>
    match t.kind with
    | .plus => .done .add rest (length_lt_length_cons t rest)
    | .minus => .done .sub rest (length_lt_length_cons t rest)
    | _ => .stuck (.unexpectedIn .additiveOperator) (t :: rest)

/-- Whether a token that continues an expression comes next. -/
def AddOp.comesNext : List Token → Bool
  | [] => false
  | t :: _ =>
    match t.kind with
    | .plus | .minus => true
    | _ => false

/-- Reads an operator between factors. -/
def MulOp.read (ts : List Token) : Reading MulOp ts.length :=
  match ts with
  | [] => .stuck (.unexpectedIn .multiplicativeOperator) []
  | t :: rest =>
    match t.kind with
    | .times => .done .mul rest (length_lt_length_cons t rest)
    | .over => .done .div rest (length_lt_length_cons t rest)
    | .root => .done .root rest (length_lt_length_cons t rest)
    | _ => .stuck (.unexpectedIn .multiplicativeOperator) (t :: rest)

/-- Whether a token that continues a term comes next; a root sign never does. -/
def MulOp.comesNext : List Token → Bool
  | [] => false
  | t :: _ =>
    match t.kind with
    | .times | .over => true
    | _ => false

mutual

/-- Reads a factor. -/
def Factor.read (ts : List Token) : Reading Factor ts.length :=
  match ts with
  | [] => .stuck (.unexpectedIn .factor) []
  | t :: rest =>
    match t.kind with
    | .number value => .done (.number value) rest (length_lt_length_cons t rest)
    | .name => .done (.variable t.lexeme) rest (length_lt_length_cons t rest)
    | .openParen =>
      (Expr.read rest).andThen fun inner close _ =>
        (expect .closeParen close).andThen fun _ after _ =>
          .done (.group inner) after (by simp only [List.length_cons]; omega)
    | _ => .stuck (.unexpectedIn .factor) (t :: rest)
termination_by 3 * ts.length
decreasing_by all_goals simp only [List.length_cons]; omega

/-- Reads a term. -/
def Term.read (ts : List Token) : Reading Term ts.length :=
  (Factor.read ts).andThen fun first rest shorter =>
    (Term.readTail (.lead first) rest).widen shorter
termination_by 3 * ts.length + 1

/-- Continues a term as far as operators and factors follow. -/
def Term.readTail (before : Term) (ts : List Token) : Reading Term (ts.length + 1) :=
  if MulOp.comesNext ts then
    (MulOp.read ts).andThen fun op signed _ =>
      (Sign.read signed).andThen fun sign unsigned _ =>
        (Factor.read unsigned).andThen fun factor after _ =>
          (Term.readTail (before.extend op sign factor) after).widen (by omega)
  else .done before ts (Nat.lt_succ_self _)
termination_by 3 * ts.length

/-- Reads an expression. -/
def Expr.read (ts : List Token) : Reading Expr ts.length :=
  (Sign.read ts).andThen fun sign unsigned _ =>
    (Term.read unsigned).andThen fun first rest _ =>
      (Expr.readTail (.lead sign first) rest).widen (by omega)
termination_by 3 * ts.length + 2

/-- Continues an expression as far as operators and terms follow. -/
def Expr.readTail (before : Expr) (ts : List Token) : Reading Expr (ts.length + 1) :=
  if AddOp.comesNext ts then
    (AddOp.read ts).andThen fun op operand _ =>
      (Term.read operand).andThen fun term after _ =>
        (Expr.readTail (before.extend op term) after).widen (by omega)
  else .done before ts (Nat.lt_succ_self _)
termination_by 3 * ts.length

end

/-- The operator with which a token continues an expression. -/
def AddOp.ofKind? : TokenKind → Option AddOp
  | .plus => some .add
  | .minus => some .sub
  | _ => none

/-- The operator with which a token continues a term. -/
def MulOp.ofKind? : TokenKind → Option MulOp
  | .times => some .mul
  | .over => some .div
  | _ => none

theorem Term.readTail_nil (before : Term) :
    Term.readTail before [] = .done before [] (Nat.lt_succ_self _) := by
  rw [Term.readTail]
  exact if_neg Bool.false_ne_true

/-- Where a term goes on, its operator is read without failure and is no root. -/
theorem Term.readTail_cons (before : Term) (t : Token) (rest : List Token) :
    Term.readTail before (t :: rest) =
      match MulOp.ofKind? t.kind with
      | none => .done before (t :: rest) (Nat.lt_succ_self _)
      | some op =>
        (Sign.read rest).andThen fun sign unsigned _ =>
          (Factor.read unsigned).andThen fun factor after _ =>
            (Term.readTail (before.extend op sign factor) after).widen
              (by simp only [List.length_cons]; omega) := by
  rw [Term.readTail]
  cases kind : t.kind <;> simp [MulOp.comesNext, MulOp.read, MulOp.ofKind?, kind]

theorem Expr.readTail_nil (before : Expr) :
    Expr.readTail before [] = .done before [] (Nat.lt_succ_self _) := by
  rw [Expr.readTail]
  exact if_neg Bool.false_ne_true

/-- Where an expression goes on, its operator is read without failure. -/
theorem Expr.readTail_cons (before : Expr) (t : Token) (rest : List Token) :
    Expr.readTail before (t :: rest) =
      match AddOp.ofKind? t.kind with
      | none => .done before (t :: rest) (Nat.lt_succ_self _)
      | some op =>
        (Term.read rest).andThen fun term after _ =>
          (Expr.readTail (before.extend op term) after).widen
            (by simp only [List.length_cons]; omega) := by
  rw [Expr.readTail]
  cases kind : t.kind <;> simp [AddOp.comesNext, AddOp.read, AddOp.ofKind?, kind]

/-- Reads the part of a declaration or an assignment from the name on. -/
def Statement.readBinding (make : String → Expr → Statement) (ts : List Token) :
    Reading Statement ts.length :=
  (expect .name ts).andThen fun name afterName _ =>
    (expect .equals afterName).andThen fun _ afterEquals _ =>
      (Expr.read afterEquals).andThen fun value afterValue _ =>
        (expect .semicolon afterValue).andThen fun _ rest _ =>
          .done (make name.lexeme value) rest (by omega)

/-- Reads the part of a print statement after its first semicolon. -/
def Statement.readPrint (ts : List Token) : Reading Statement ts.length :=
  (Expr.read ts).andThen fun value afterValue _ =>
    (expect .semicolon afterValue).andThen fun _ rest _ => .done (.print value) rest (by omega)

/-- Reads a statement. -/
def Statement.read (ts : List Token) : Reading Statement ts.length :=
  match ts with
  | [] => .stuck (.unexpectedIn .statement) []
  | t :: rest =>
    match t.kind with
    | .num => (Statement.readBinding .declare rest).widen (Nat.le_succ _)
    | .name => Statement.readBinding .assign (t :: rest)
    | .semicolon => (Statement.readPrint rest).widen (Nat.le_succ _)
    | _ => .stuck (.unexpectedIn .statement) (t :: rest)

/-- Whether a token that begins a statement comes next. -/
def Statement.comesNext : List Token → Bool
  | [] => false
  | t :: _ =>
    match t.kind with
    | .num | .name | .semicolon => true
    | _ => false

/-- Reads one or more statements. -/
def Program.readStatements (ts : List Token) : Reading Program ts.length :=
  (Statement.read ts).andThen fun first rest shorter =>
    if Statement.comesNext rest then
      (Program.readStatements rest).andThen fun others after _ =>
        .done (first :: others) after (by omega)
    else .done [first] rest shorter
termination_by ts.length

/-- Reads a program up to and including its closing brace. -/
def Program.read (ts : List Token) : Reading Program ts.length :=
  (expect .openBrace ts).andThen fun _ body _ =>
    (Program.readStatements body).andThen fun program close _ =>
      (expect .closeBrace close).andThen fun _ rest _ => .done program rest (by omega)

/-- Why tokens are not a program: the cause and the offending token. -/
structure ParseError where
  cause : ParseCause
  found : Token

/-- The wording of a parse error. -/
def ParseError.message (e : ParseError) : String :=
  let found := e.found.kind.label ++ " '" ++ e.found.lexeme ++ "'"
  let position := " at position " ++ e.found.offset.repr
  match e.cause with
  | .expected kind => "Expected " ++ kind.label ++ ", got " ++ found ++ position
  | .unexpectedIn phrase => "Unexpected " ++ found ++ " in " ++ phrase.label ++ position

/-- A position in a list of tokens that ends in an end token: the tokens ahead without the last, and
the last. -/
structure TokenStream where
  ahead : List Token
  last : Token
  last_isFinish : last.kind.isFinish = true

namespace TokenStream

/-- The position before the first token. An end token is added where none stands last, at the exact
end of the token before it, however large its offset is (`Token.stop`). -/
def ofTokens (ts : List Token) : TokenStream :=
  match ts.getLast? with
  | none => ⟨[], .finish 0, rfl⟩
  | some t =>
    if isFinish : t.kind.isFinish = true then ⟨ts.dropLast, t, isFinish⟩
    else ⟨ts, .finish t.stop, rfl⟩

/-- The next token. -/
def lookahead (s : TokenStream) : Token := s.ahead.headD s.last

/-- The position further on, with the given tokens ahead of the last. -/
def moveTo (s : TokenStream) (ahead : List Token) : TokenStream := { s with ahead }

/-- A failure at the token that comes next. -/
def fail (s : TokenStream) (cause : ParseCause) : Except ParseError Program × TokenStream :=
  (.error ⟨cause, s.lookahead⟩, s)

/-- Reads a program that an end token follows, and passes that token unless it is the last. -/
def parse (s : TokenStream) : Except ParseError Program × TokenStream :=
  match Program.read s.ahead with
  | .stuck cause rest => (s.moveTo rest).fail cause
  | .done program [] _ => (.ok program, s.moveTo [])
  | .done program (t :: rest) _ =>
    if t.kind.isFinish then (.ok program, s.moveTo rest)
    else (s.moveTo (t :: rest)).fail (.expected .finish)

end TokenStream

/-- The program that a list of tokens makes up. -/
def Program.ofTokens (ts : List Token) : Except ParseError Program :=
  (TokenStream.ofTokens ts).parse.1

end BlockCalc
