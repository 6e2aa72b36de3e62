import BlockCalc.Program.Parser

/-!
# Reading does not look at offsets

Tokens that are moved, and keep their kinds and lexemes, make up the same program. Where they make
up none, the cause is the same and the offending token is the moved one (`Program.ofTokens_moved`).
Each reader is compared with itself on the moved tokens (`Reading.Moved`).
-/
namespace BlockCalc

/-- The token at the place to which its offset is moved. -/
def Token.moved (place : Nat → Nat) (t : Token) : Token := { t with offset := place t.offset }

namespace Reading
variable {α β : Type} {n n' m m' : Nat} {place : Nat → Nat}

/-- The second reading is the first one on moved tokens: it comes as far, with the value that `move`
gives, or is stuck at the same token for the same cause. -/
inductive Moved (place : Nat → Nat) (move : α → α) : Reading α n → Reading α n' → Prop
  | done {value : α} {rest : List Token} {shorter shorter'} :
      Moved place move (.done value rest shorter)
        (.done (move value) (rest.map (Token.moved place)) shorter')
  | stuck {cause : ParseCause} {rest : List Token} :
      Moved place move (.stuck cause rest) (.stuck cause (rest.map (Token.moved place)))

theorem Moved.andThen {move : α → α} {move' : β → β} {reading : Reading α n}
    {reading' : Reading α n'} {next : α → (rest : List Token) → rest.length < n → Reading β m}
    {next' : α → (rest : List Token) → rest.length < n' → Reading β m'}
    (first : Moved place move reading reading')
    (second : ∀ value rest shorter shorter', Moved place move' (next value rest shorter)
      (next' (move value) (rest.map (Token.moved place)) shorter')) :
    Moved place move' (reading.andThen next) (reading'.andThen next') := by
  cases first with
  | done => exact second _ _ _ _
  | stuck => exact .stuck

theorem Moved.widen {move : α → α} {reading : Reading α n} {reading' : Reading α n'} {le : n ≤ m}
    {le' : n' ≤ m'} (moved : Moved place move reading reading') :
    Moved place move (reading.widen le) (reading'.widen le') := by
  cases moved with
  | done => exact .done
  | stuck => exact .stuck

end Reading
open Reading

variable (place : Nat → Nat)

theorem expect_moved (kind : TokenKind) (ts : List Token) :
    Moved place (Token.moved place) (expect kind ts)
      (expect kind (ts.map (Token.moved place))) := by
  cases ts with
  | nil => exact .stuck
  | cons t rest =>
    rw [List.map_cons, expect, expect]
    simp only [Token.moved]
    by_cases same : t.kind.same kind
    · simp only [same, if_true]
      exact .done
    · simp only [same, Bool.false_eq_true, if_false]
      exact .stuck

theorem Sign.read_moved (ts : List Token) :
    Moved place id (Sign.read ts) (Sign.read (ts.map (Token.moved place))) := by
  cases ts with
  | nil => exact .done
  | cons t rest =>
    rw [List.map_cons, Sign.read, Sign.read]
    simp only [Token.moved]
    split
    · exact .done
    · exact .done
    · exact .done

-- The recursion is that of the readers.
mutual

theorem Factor.read_moved (ts : List Token) :
    Moved place id (Factor.read ts) (Factor.read (ts.map (Token.moved place))) := by
  cases ts with
  | nil =>
    rw [List.map_nil, Factor.read]
    exact .stuck
  | cons t rest =>
    rw [List.map_cons, Factor.read, Factor.read]
    simp only [Token.moved]
    split
    · exact .done
    · exact .done
    · refine (Expr.read_moved rest).andThen fun inner close _ _ => ?_
      refine (expect_moved place .closeParen close).andThen fun _ after _ _ => ?_
      exact .done
    · exact .stuck
termination_by 3 * ts.length
decreasing_by all_goals subst_vars; simp only [List.length_cons]; omega

theorem Term.read_moved (ts : List Token) :
    Moved place id (Term.read ts) (Term.read (ts.map (Token.moved place))) := by
  rw [Term.read, Term.read]
  refine (Factor.read_moved ts).andThen fun first rest _ _ => ?_
  exact (Term.readTail_moved (.lead first) rest).widen
termination_by 3 * ts.length + 1

theorem Term.readTail_moved (before : Term) (ts : List Token) :
    Moved place id (Term.readTail before ts)
      (Term.readTail before (ts.map (Token.moved place))) := by
  cases ts with
  | nil =>
    rw [List.map_nil, Term.readTail_nil]
    exact .done
  | cons t rest =>
    rw [List.map_cons, Term.readTail_cons, Term.readTail_cons]
    simp only [Token.moved]
    split
    · exact .done
    · next op _ =>
      refine (Sign.read_moved place rest).andThen fun sign unsigned _ _ => ?_
      refine (Factor.read_moved unsigned).andThen fun factor after _ _ => ?_
      exact (Term.readTail_moved (before.extend op sign factor) after).widen
termination_by 3 * ts.length
decreasing_by all_goals subst_vars; simp only [List.length_cons]; omega

theorem Expr.read_moved (ts : List Token) :
    Moved place id (Expr.read ts) (Expr.read (ts.map (Token.moved place))) := by
  rw [Expr.read, Expr.read]
  refine (Sign.read_moved place ts).andThen fun sign unsigned _ _ => ?_
  refine (Term.read_moved unsigned).andThen fun first rest _ _ => ?_
  exact (Expr.readTail_moved (.lead sign first) rest).widen
termination_by 3 * ts.length + 2

theorem Expr.readTail_moved (before : Expr) (ts : List Token) :
    Moved place id (Expr.readTail before ts)
      (Expr.readTail before (ts.map (Token.moved place))) := by
  cases ts with
  | nil =>
    rw [List.map_nil, Expr.readTail_nil]
    exact .done
  | cons t rest =>
    rw [List.map_cons, Expr.readTail_cons, Expr.readTail_cons]
    simp only [Token.moved]
    split
    · exact .done
    · next op _ =>
      refine (Term.read_moved rest).andThen fun term after _ _ => ?_
      exact (Expr.readTail_moved (before.extend op term) after).widen
termination_by 3 * ts.length
decreasing_by all_goals subst_vars; simp only [List.length_cons]; omega

end

theorem Statement.readBinding_moved (make : String → Expr → Statement) (ts : List Token) :
    Moved place id (Statement.readBinding make ts)
      (Statement.readBinding make (ts.map (Token.moved place))) := by
  refine (expect_moved place .name ts).andThen fun name afterName _ _ => ?_
  refine (expect_moved place .equals afterName).andThen fun _ afterEquals _ _ => ?_
  refine (Expr.read_moved place afterEquals).andThen fun value afterValue _ _ => ?_
  refine (expect_moved place .semicolon afterValue).andThen fun _ rest _ _ => ?_
  exact .done

theorem Statement.readPrint_moved (ts : List Token) :
    Moved place id (Statement.readPrint ts)
      (Statement.readPrint (ts.map (Token.moved place))) := by
  refine (Expr.read_moved place ts).andThen fun value afterValue _ _ => ?_
  refine (expect_moved place .semicolon afterValue).andThen fun _ rest _ _ => ?_
  exact .done

theorem Statement.read_moved (ts : List Token) :
    Moved place id (Statement.read ts) (Statement.read (ts.map (Token.moved place))) := by
  cases ts with
  | nil => exact .stuck
  | cons t rest =>
    rw [List.map_cons, Statement.read, Statement.read]
    simp only [Token.moved]
    split
    · exact (Statement.readBinding_moved place .declare rest).widen
    · exact Statement.readBinding_moved place .assign (t :: rest)
    · exact (Statement.readPrint_moved place rest).widen
    · exact .stuck

theorem Statement.comesNext_moved (ts : List Token) :
    Statement.comesNext (ts.map (Token.moved place)) = Statement.comesNext ts := by
  cases ts <;> rfl

theorem Program.readStatements_moved (ts : List Token) :
    Moved place id (Program.readStatements ts)
      (Program.readStatements (ts.map (Token.moved place))) := by
  rw [Program.readStatements, Program.readStatements]
  refine (Statement.read_moved place ts).andThen fun first rest shorter _ => ?_
  simp only [Statement.comesNext_moved]
  split
  · refine (Program.readStatements_moved rest).andThen fun others after _ _ => ?_
    exact .done
  · exact .done
termination_by ts.length

theorem Program.read_moved (ts : List Token) :
    Moved place id (Program.read ts) (Program.read (ts.map (Token.moved place))) := by
  refine (expect_moved place .openBrace ts).andThen fun _ body _ _ => ?_
  refine (Program.readStatements_moved place body).andThen fun program close _ _ => ?_
  refine (expect_moved place .closeBrace close).andThen fun _ rest _ _ => ?_
  exact .done

/-- The same cause at the offending token in its new place. -/
def ParseError.moved (e : ParseError) : ParseError := { e with found := e.found.moved place }

/-- The stream of the moved tokens. -/
def TokenStream.moved (s : TokenStream) : TokenStream :=
  ⟨s.ahead.map (Token.moved place), s.last.moved place, s.last_isFinish⟩

theorem TokenStream.lookahead_moved (s : TokenStream) :
    (s.moved place).lookahead = s.lookahead.moved place := by
  cases s with
  | mk ahead last isFinish => cases ahead <;> rfl

theorem TokenStream.fail_moved (s : TokenStream) (cause : ParseCause) :
    (s.moved place).fail cause =
      ((s.fail cause).1.mapError (ParseError.moved place), (s.fail cause).2.moved place) := by
  have shifted (e : ParseError) :
      (Except.error e : Except ParseError Program).mapError (ParseError.moved place) =
        .error (e.moved place) := rfl
  simp only [fail, shifted, ParseError.moved, lookahead_moved]

/-- A program is read from the moved tokens as from the tokens themselves, and reading comes as
far. -/
theorem TokenStream.parse_moved (s : TokenStream) :
    (s.moved place).parse =
      (s.parse.1.mapError (ParseError.moved place), s.parse.2.moved place) := by
  have read := Program.read_moved place s.ahead
  rw [parse, parse, moved]
  generalize Program.read s.ahead = reading at read
  generalize Program.read (s.ahead.map (Token.moved place)) = reading' at read
  cases read with
  | stuck => exact fail_moved place (s.moveTo _) _
  | @done program rest _ _ =>
    cases rest with
    | nil => rfl
    | cons t rest =>
      by_cases finish : t.kind.isFinish
      · simp only [List.map_cons, Token.moved, finish, if_true]
        rfl
      · simp only [List.map_cons, Token.moved, finish, Bool.false_eq_true, if_false]
        exact fail_moved place (s.moveTo (t :: rest)) _

/-- The end of a source is moved like every token, so that nothing is added behind it. -/
theorem TokenStream.ofTokens_moved (ts : List Token) {last : Token}
    (finish : last.kind.isFinish = true) :
    ofTokens ((ts ++ [last]).map (Token.moved place)) = (ofTokens (ts ++ [last])).moved place := by
  have moved_finish : (last.moved place).kind.isFinish = true := finish
  simp [ofTokens, TokenStream.moved, finish, moved_finish]

/-- Moved tokens that end in an end token make up the same program, or none for the same cause. -/
theorem Program.ofTokens_moved (ts : List Token) (last : Token)
    (finish : last.kind.isFinish = true) :
    Program.ofTokens ((ts ++ [last]).map (Token.moved place)) =
      (Program.ofTokens (ts ++ [last])).mapError (ParseError.moved place) := by
  rw [Program.ofTokens, Program.ofTokens, TokenStream.ofTokens_moved place ts finish,
    TokenStream.parse_moved]

end BlockCalc
