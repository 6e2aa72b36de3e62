import BlockCalc.Proofs.FirstError
import BlockCalc.Proofs.RoundTrip
import BlockCalc.Proofs.Running
import BlockCalc.Proofs.Stopping

/-!
# What reading can give

A tree that is read has a statement and no root sign, and its names and numbers are those of its
tokens in their order (`Program.Derives.mirrors`). A failure names one of the kinds that can be
expected, or a statement or a factor that has not begun. In the tree of a source every name is one
that can be written and no integer literal is negative, and a source never fails with the root of a
negative number.
-/
namespace BlockCalc

/-- The name that a token is. -/
def Token.name? (t : Token) : Option String :=
  match t.kind with
  | .name => some t.lexeme
  | _ => none

/-- The number that a token carries. -/
def Token.number? (t : Token) : Option Number :=
  match t.kind with
  | .number value => some value
  | _ => none

/-- The names among the tokens. -/
def namesIn (ts : List Token) : List String := ts.filterMap Token.name?

/-- The numbers among the tokens. -/
def numbersIn (ts : List Token) : List Number := ts.filterMap Token.number?

@[simp] theorem namesIn_append (ts us : List Token) :
    namesIn (ts ++ us) = namesIn ts ++ namesIn us :=
  List.filterMap_append

@[simp] theorem numbersIn_append (ts us : List Token) :
    numbersIn (ts ++ us) = numbersIn ts ++ numbersIn us := List.filterMap_append

/-- A tree with these names and literals holds the names and the numbers of the tokens in their
order, and no root sign. -/
structure Mirrors (rootFree : Prop) (names : List String) (literals : List Number)
    (ts : List Token) : Prop where
  rootFree : rootFree
  names : names = namesIn ts
  literals : literals = numbersIn ts

/-- There is neither a name nor a number among the tokens. -/
def Mute (ts : List Token) : Prop := namesIn ts = [] ∧ numbersIn ts = []

theorem mute_of_kind {t : Token} {kind : TokenKind} (same : t.kind = kind)
    (noName : kind ≠ .name := by simp) (noNumber : ∀ value, kind ≠ .number value := by simp) :
    Mute [t] := by
  subst same
  have name : t.name? = none := by
    rw [Token.name?]
    split
    · next name => exact absurd name noName
    · rfl
  have number : t.number? = none := by
    rw [Token.number?]
    split
    · next value number => exact absurd number (noNumber value)
    · rfl
  exact ⟨List.filterMap_cons_none name, List.filterMap_cons_none number⟩

theorem Sign.Derives.mute {ss : List Token} {sign : Sign} (signed : Sign.Derives ss sign) :
    Mute ss := by
  cases signed with
  | absent => exact ⟨rfl, rfl⟩
  | plus kind => exact mute_of_kind kind
  | minus kind => exact mute_of_kind kind

theorem AddOp.Derives.mute {t : Token} {op : AddOp} (operator : AddOp.Derives t op) :
    Mute [t] := by
  cases operator with
  | add kind => exact mute_of_kind kind
  | sub kind => exact mute_of_kind kind

theorem MulOp.Derives.mute {t : Token} {op : MulOp} (operator : MulOp.Derives t op) :
    Mute [t] := by
  cases operator with
  | mul kind => exact mute_of_kind kind
  | div kind => exact mute_of_kind kind

theorem MulOp.Derives.ne_root {t : Token} {op : MulOp} (operator : MulOp.Derives t op) :
    op ≠ .root := by
  cases operator <;> simp

namespace Mirrors
variable {rootFree : Prop} {names : List String} {literals : List Number} {ts us : List Token}

theorem after (mute : Mute us) (mirrors : Mirrors rootFree names literals ts) :
    Mirrors rootFree names literals (us ++ ts) := by
  refine ⟨mirrors.rootFree, ?_, ?_⟩
  · rw [namesIn_append, mute.1, List.nil_append, mirrors.names]
  · rw [numbersIn_append, mute.2, List.nil_append, mirrors.literals]

theorem before (mute : Mute us) (mirrors : Mirrors rootFree names literals ts) :
    Mirrors rootFree names literals (ts ++ us) := by
  refine ⟨mirrors.rootFree, ?_, ?_⟩
  · rw [namesIn_append, mute.1, List.append_nil, mirrors.names]
  · rw [numbersIn_append, mute.2, List.append_nil, mirrors.literals]

theorem append {other both : Prop} {more : List String} {others : List Number}
    (first : Mirrors rootFree names literals ts) (second : Mirrors other more others us)
    (together : rootFree → other → both) :
    Mirrors both (names ++ more) (literals ++ others) (ts ++ us) := by
  refine ⟨together first.rootFree second.rootFree, ?_, ?_⟩
  · rw [first.names, second.names, namesIn_append]
  · rw [first.literals, second.literals, numbersIn_append]

end Mirrors

/-- The factor mirrors the tokens. -/
def Factor.Mirrored (factor : Factor) (ts : List Token) : Prop :=
  Mirrors factor.RootFree factor.variables factor.literals ts

def Term.Mirrored (term : Term) (ts : List Token) : Prop :=
  Mirrors term.RootFree term.variables term.literals ts

def Expr.Mirrored (expr : Expr) (ts : List Token) : Prop :=
  Mirrors expr.RootFree expr.variables expr.literals ts

theorem Term.Mirrored.extend {before : Term} {factor : Factor} {op : MulOp} {t : Token}
    {ts ss fs : List Token} {sign : Sign} (start : before.Mirrored ts)
    (operator : MulOp.Derives t op) (signed : Sign.Derives ss sign) (operand : factor.Mirrored fs) :
    (before.extend op sign factor).Mirrored (ts ++ t :: (ss ++ fs)) :=
  start.append ((operand.after signed.mute).after operator.mute) fun rootFree factorFree =>
    ⟨rootFree, operator.ne_root, factorFree⟩

theorem Expr.Mirrored.extend {before : Expr} {term : Term} {op : AddOp} {t : Token}
    {ts us : List Token} (start : before.Mirrored ts) (operator : AddOp.Derives t op)
    (operand : term.Mirrored us) : (before.extend op term).Mirrored (ts ++ t :: us) :=
  start.append (operand.after operator.mute) And.intro

-- The recursion is on the derivations. A chain mirrors its tokens behind those of the tree before
-- it.
mutual

theorem Factor.Derives.mirrored {fs : List Token} {factor : Factor} :
    Factor.Derives fs factor → factor.Mirrored fs
  | .number kind => by
    refine ⟨trivial, ?_, ?_⟩
    · simp [Factor.variables, namesIn, Token.name?, kind]
    · simp [Factor.literals, numbersIn, Token.number?, kind]
  | .group opening body closing =>
    (body.mirrored.before (mute_of_kind closing)).after (mute_of_kind opening)
  | .reference kind => by
    refine ⟨trivial, ?_, ?_⟩
    · simp [Factor.variables, namesIn, Token.name?, kind]
    · simp [Factor.literals, numbersIn, Token.number?, kind]

theorem Term.Derives.mirrored {ts : List Token} {term : Term} :
    Term.Derives ts term → term.Mirrored ts
  | @Term.Derives.chain _ _ first _ lead tail => by
    have start : (Term.lead first).Mirrored _ := lead.mirrored
    exact tail.mirrored start

theorem Term.Chain.mirrored {before whole : Term} {seen ts : List Token}
    (start : before.Mirrored seen) : Term.Chain before ts whole → whole.Mirrored (seen ++ ts)
  | .stop => by
    rw [List.append_nil]
    exact start
  | .step operator signed operand tail => by
    have whole := tail.mirrored (start.extend operator signed operand.mirrored)
    simpa only [List.append_assoc, List.cons_append] using whole

theorem Expr.Derives.mirrored {ts : List Token} {expr : Expr} :
    Expr.Derives ts expr → expr.Mirrored ts
  | @Expr.Derives.chain _ _ _ sign first _ signed lead tail => by
    have start : (Expr.lead sign first).Mirrored _ := lead.mirrored.after signed.mute
    have whole := tail.mirrored start
    rwa [List.append_assoc] at whole

theorem Expr.Chain.mirrored {before whole : Expr} {seen ts : List Token}
    (start : before.Mirrored seen) : Expr.Chain before ts whole → whole.Mirrored (seen ++ ts)
  | .stop => by
    rw [List.append_nil]
    exact start
  | .step operator operand tail => by
    have whole := tail.mirrored (start.extend operator operand.mirrored)
    simpa only [List.append_assoc, List.cons_append] using whole

end

theorem Statement.BindingDerives.mirrors {ts : List Token} {name : String} {value : Expr}
    (binding : Statement.BindingDerives ts name value) :
    Mirrors value.RootFree (name :: value.variables) value.literals ts := by
  cases binding with
  | @intro target _ _ _ _ named equated body ended =>
    have target : Mirrors True [target.lexeme] [] [target] := by
      refine ⟨trivial, ?_, ?_⟩
      · simp [namesIn, Token.name?, named]
      · simp [numbersIn, Token.number?, named]
    exact target.append ((body.mirrored.before (mute_of_kind ended)).after (mute_of_kind equated))
      fun _ rootFree => rootFree

theorem Statement.Derives.mirrors {ts : List Token} {statement : Statement}
    (derives : Statement.Derives ts statement) :
    Mirrors statement.value.RootFree statement.names statement.value.literals ts := by
  cases derives with
  | declare kind binding => exact binding.mirrors.after (mute_of_kind kind)
  | assign binding => exact binding.mirrors
  | print opening body closing =>
    exact (body.mirrored.before (mute_of_kind closing)).after (mute_of_kind opening)

theorem Program.BodyDerives.mirrors {ts : List Token} {program : Program}
    (body : Program.BodyDerives ts program) :
    Mirrors (program ≠ [] ∧ ∀ s ∈ program, s.value.RootFree) (program.flatMap Statement.names)
      (program.flatMap (·.value.literals)) ts := by
  induction body with
  | one derives =>
    have only := derives.mirrors
    refine ⟨?_, ?_, ?_⟩
    · simpa using only.rootFree
    · simpa using only.names
    · simpa using only.literals
  | more derives tail ih =>
    refine derives.mirrors.append ih fun first rest => ?_
    exact ⟨List.cons_ne_nil _ _, List.forall_mem_cons.mpr ⟨first, rest.2⟩⟩

/-- A program has a statement and no root sign, and its names and numbers are those of its tokens in
their order. -/
theorem Program.Derives.mirrors {ts : List Token} {program : Program}
    (derives : Program.Derives ts program) :
    Mirrors (program ≠ [] ∧ ∀ s ∈ program, s.value.RootFree) (program.flatMap Statement.names)
      (program.flatMap (·.value.literals)) ts := by
  cases derives with
  | block opening body closing =>
    exact (body.mirrors.before (mute_of_kind closing)).after (mute_of_kind opening)

/-- An operator between terms that continues an expression is read. -/
theorem AddOp.gives_of_comesNext {ts : List Token} (next : AddOp.comesNext ts = true) :
    ∃ op rest, (AddOp.read ts).Gives op rest := by
  cases ts with
  | nil => cases next
  | cons t rest =>
    rw [AddOp.comesNext] at next
    rw [AddOp.read]
    split at next
    · exact ⟨.add, rest, by simp⟩
    · exact ⟨.sub, rest, by simp⟩
    · cases next

/-- An operator between factors that continues a term is read, and is no root. -/
theorem MulOp.gives_of_comesNext {ts : List Token} (next : MulOp.comesNext ts = true) :
    ∃ op rest, (MulOp.read ts).Gives op rest ∧ op ≠ .root := by
  cases ts with
  | nil => cases next
  | cons t rest =>
    rw [MulOp.comesNext] at next
    rw [MulOp.read]
    split at next
    · next kind => exact ⟨.mul, rest, by simp [kind], by simp⟩
    · next kind => exact ⟨.div, rest, by simp [kind], by simp⟩
    · cases next

/-! ## The tokens of a source -/

theorem lexeme_of_decomposes {text last : List Char} {pieces : List Piece}
    (decomposes : Decomposes text pieces last) (offset : Nat) :
    ∀ t ∈ tokensOf offset pieces, ∃ after, Lexeme t.lexeme.toList t.kind after := by
  induction decomposes generalizing offset with
  | finish gap => simp [tokensOf]
  | @piece gap lexeme rest last kind pieces separates munched tail ih =>
    intro t member
    rcases List.mem_cons.mp member with rfl | later
    · refine ⟨rest, ?_⟩
      rw [String.toList_ofList]
      exact munched
    · exact ih _ t later

theorem lexeme_of_scan {source : String} {ts : List Token} (cut : scan source = .ok ts) :
    ∀ t ∈ ts, t.kind = .finish ∨ ∃ after, Lexeme t.lexeme.toList t.kind after := by
  obtain ⟨pieces, last, decomposes, rfl⟩ := decomposes_of_scan cut
  intro t member
  rcases List.mem_append.mp member with inside | finish
  · exact .inr (lexeme_of_decomposes decomposes 0 t inside)
  · rw [List.mem_singleton.mp finish]
    exact .inl rfl

theorem Lexeme.isName {name : String} {after : List Char}
    (lexeme : Lexeme name.toList .name after) : IsName name := by
  generalize split : name.toList = text at lexeme
  cases lexeme with
  | name word other _ =>
    refine ⟨split ▸ word, ?_⟩
    rintro rfl
    exact other split.symm
  | symbol listed => simp [symbols] at listed

/-- A literal has no sign, so that the integer it denotes is not negative. -/
theorem Number.nonneg_of_integerLiteral? {cs : List Char} {n : Int64}
    (run : ∀ c ∈ cs, Character.isDigitOrPoint c = true)
    (denotes : Number.integerLiteral? cs = some (.int n)) : 0 ≤ n.toInt := by
  rw [Number.integerLiteral?, Numeral.whole?_of_splitSign (Numeral.splitSign_of_run run)] at denotes
  obtain ⟨z, whole, fits⟩ := Option.bind_eq_some_iff.mp denotes
  obtain ⟨k, _, rfl⟩ := Option.map_eq_some_iff.mp whole
  rw [if_neg Bool.false_ne_true] at fits
  split at fits
  · next within =>
    cases fits
    have largest : Int64.maxValue.toInt = 2 ^ 63 - 1 := by decide
    rw [Number.Fits, largest] at within
    rw [Int64.toInt_ofInt_of_le (by omega) (by omega)]
    exact Int.natCast_nonneg k
  · cases fits

theorem Lexeme.int_nonneg {text after : List Char} {n : Int64}
    (lexeme : Lexeme text (.number (.int n)) after) : 0 ≤ n.toInt := by
  cases lexeme with
  | number run denotes _ =>
    have noFloat : Number.floatLiteral? text ≠ some (.int n) := by
      simp [Number.floatLiteral?]
    rw [Number.ofLiteral?, String.toList_ofList] at denotes
    split at denotes
    · rcases Option.or_eq_some_iff.mp denotes with whole | ⟨_, float⟩
      · exact Number.nonneg_of_integerLiteral? run whole
      · exact absurd float noFloat
    · exact absurd denotes noFloat
    · cases denotes
  | symbol listed => simp [symbols] at listed

theorem isName_of_mem_namesIn {source : String} {ts : List Token} (cut : scan source = .ok ts) :
    ∀ name ∈ namesIn ts, IsName name := by
  intro name member
  obtain ⟨t, token, named⟩ := List.mem_filterMap.mp member
  rw [Token.name?] at named
  split at named
  · next kind =>
    cases named
    rcases lexeme_of_scan cut t token with finish | ⟨after, lexeme⟩
    · cases kind.symm.trans finish
    · rw [kind] at lexeme
      exact lexeme.isName
  · cases named

theorem nonneg_of_mem_numbersIn {source : String} {ts : List Token} (cut : scan source = .ok ts)
    {n : Int64} (member : .int n ∈ numbersIn ts) : 0 ≤ n.toInt := by
  obtain ⟨t, token, carried⟩ := List.mem_filterMap.mp member
  rw [Token.number?] at carried
  split at carried
  · next kind =>
    cases carried
    rcases lexeme_of_scan cut t token with finish | ⟨after, lexeme⟩
    · cases kind.symm.trans finish
    · rw [kind] at lexeme
      exact lexeme.int_nonneg
  · cases carried

mutual

theorem Factor.eval_ne_mathDomain {env : Environment} {operand : Number} :
    (f : Factor) → f.RootFree → f.eval env ≠ .error (.mathDomain operand)
  | .number _, _ => nofun
  | .group inner, rootFree => inner.eval_ne_mathDomain rootFree
  | .variable name, _ => by
    rw [Factor.eval, Environment.lookup]
    split <;> simp

theorem Term.eval_ne_mathDomain {env : Environment} {operand : Number} :
    (t : Term) → t.RootFree → t.eval env ≠ .error (.mathDomain operand)
  | .lead first, rootFree => first.eval_ne_mathDomain rootFree
  | .extend before op sign factor, ⟨beforeFree, noRoot, factorFree⟩ => by
    intro failed
    simp only [Term.eval, bind_eq_error_iff] at failed
    rcases failed with failed | ⟨a, first, failed | ⟨b, second, failed⟩⟩
    · exact before.eval_ne_mathDomain beforeFree failed
    · exact factor.eval_ne_mathDomain factorFree failed
    · cases Term.raises_of_apply first second failed with
      | root _ _ _ => exact noRoot rfl

/-- Without a root sign, no root of a negative number is taken. -/
theorem Expr.eval_ne_mathDomain {env : Environment} {operand : Number} :
    (e : Expr) → e.RootFree → e.eval env ≠ .error (.mathDomain operand)
  | .lead sign first, rootFree => by
    intro failed
    simp only [Expr.eval, bind_eq_error_iff] at failed
    rcases failed with failed | ⟨a, -, failed⟩
    · exact first.eval_ne_mathDomain rootFree failed
    · cases failed
  | .extend before op term, ⟨beforeFree, termFree⟩ => by
    intro failed
    simp only [Expr.eval, bind_eq_error_iff] at failed
    rcases failed with failed | ⟨a, -, failed | ⟨b, -, failed⟩⟩
    · exact before.eval_ne_mathDomain beforeFree failed
    · exact term.eval_ne_mathDomain termFree failed
    · cases failed

end

theorem Session.run_ne_mathDomain {s s' : Session} {program : Program} {operand : Number}
    (rootFree : ∀ st ∈ program, st.value.RootFree) :
    s.run program ≠ .error (.mathDomain operand, s') := by
  intro failed
  obtain ⟨k, reached, statement, _, found, failed⟩ := (run_eq_error_iff s program _).mp failed
  rcases of_step_error failed with fault | value | output
  · cases statement with
    | declare name value =>
      rw [Statement.targetFault?] at fault
      split at fault <;> cases fault
    | assign name value =>
      rw [Statement.targetFault?] at fault
      split at fault <;> cases fault
    | print value => cases fault
  · exact statement.value.eval_ne_mathDomain (rootFree _ (List.mem_of_getElem? found)) value
  · cases output

theorem TokenStream.mirrors_of_parse {s : TokenStream} {program : Program}
    (ok : s.parse.1 = .ok program) :
    ∃ used, used <+: s.tokens ∧
      Mirrors (program ≠ [] ∧ ∀ st ∈ program, st.value.RootFree)
        (program.flatMap Statement.names) (program.flatMap (·.value.literals)) used := by
  obtain ⟨used, t, after, split, _, derives⟩ := split_of_parse ok
  exact ⟨used, ⟨_, split.symm⟩, derives.mirrors⟩

/-- The kinds that a failed reading can name as expected. -/
def expectable : List TokenKind :=
  [.openBrace, .closeBrace, .name, .equals, .semicolon, .closeParen, .finish]

theorem TokenStream.cause_of_parse_error {s : TokenStream} {e : ParseError}
    (failed : s.parse.1 = .error e) :
    (∃ kind ∈ expectable, e.cause = .expected kind) ∨ e.cause = .unexpectedIn .statement ∨
      e.cause = .unexpectedIn .factor := by
  obtain ⟨_, _, inside | ⟨finish, _⟩⟩ := pursue_of_parse_error failed
  · generalize e.cause = cause at inside
    cases inside with
    | expected mark =>
      refine .inl ⟨mark.kind, ?_, rfl⟩
      cases mark <;> simp [expectable, Mark.kind]
    | statement => exact .inr (.inl rfl)
    | factor => exact .inr (.inr rfl)
  · exact .inl ⟨.finish, by simp [expectable], finish⟩

/-- What is read has a statement and no root sign at any depth, and reading fails only at an
expected kind, a statement or a factor: operators are only read where they come next. In the tree of
a source every name is one that can be written and no integer literal is negative, and running a
source never fails with the root of a negative number, whatever its output takes. -/
theorem parsed_trees_plain (s : TokenStream) (source : String) (out : Sink) :
    (∀ program, s.parse.1 = .ok program → program ≠ [] ∧ ∀ st ∈ program, st.value.RootFree) ∧
    (∀ e, s.parse.1 = .error e →
      (∃ kind ∈ expectable, e.cause = .expected kind) ∨ e.cause = .unexpectedIn .statement ∨
        e.cause = .unexpectedIn .factor) ∧
    (∀ ts, (AddOp.comesNext ts = true → ∃ op rest, (AddOp.read ts).Gives op rest) ∧
      (MulOp.comesNext ts = true → ∃ op rest, (MulOp.read ts).Gives op rest ∧ op ≠ .root)) ∧
    (∀ ts program, scan source = .ok ts → Program.ofTokens ts = .ok program →
      ∀ st ∈ program, (∀ name ∈ st.names, IsName name) ∧
        ∀ n, .int n ∈ st.value.literals → 0 ≤ n.toInt) ∧
    ∀ operand s', execute source out ≠ .error (.runtime (.mathDomain operand), s') := by
  refine ⟨?_, fun e => TokenStream.cause_of_parse_error, ?_, ?_, ?_⟩
  · intro program ok
    obtain ⟨_, _, mirrors⟩ := TokenStream.mirrors_of_parse ok
    exact mirrors.rootFree
  · exact fun ts => ⟨AddOp.gives_of_comesNext, MulOp.gives_of_comesNext⟩
  · intro ts program cut ok st member
    obtain ⟨used, within, mirrors⟩ := TokenStream.mirrors_of_parse ok
    rw [TokenStream.tokens_ofTokens, (standsIn_of_scan cut).1] at within
    obtain ⟨rest, rfl⟩ := within
    refine ⟨fun name named => isName_of_mem_namesIn cut name ?_, fun n literal =>
      nonneg_of_mem_numbersIn cut ?_⟩
    · rw [namesIn_append, ← mirrors.names]
      exact List.mem_append_left _ (List.mem_flatMap.mpr ⟨st, member, named⟩)
    · rw [numbersIn_append, ← mirrors.literals]
      exact List.mem_append_left _ (List.mem_flatMap.mpr ⟨st, member, literal⟩)
  · intro operand s' failed
    rw [execute, Session.runSource] at failed
    split at failed
    · cases failed
    · split at failed
      · cases failed
      · next program ok =>
        obtain ⟨_, _, mirrors⟩ := TokenStream.mirrors_of_parse ok
        split at failed
        · next stopped =>
          cases failed
          exact Session.run_ne_mathDomain mirrors.rootFree.2 stopped
        · cases failed

/-- The tokens of `{;(x)*2;}`. -/
private def productTokens : List Token :=
  [⟨.openBrace, "\x7b", 0⟩, ⟨.semicolon, ";", 1⟩, ⟨.openParen, "(", 2⟩, ⟨.name, "x", 3⟩,
    ⟨.closeParen, ")", 4⟩, ⟨.times, "*", 5⟩, ⟨.number (.int 2), "2", 6⟩, ⟨.semicolon, ";", 7⟩,
    ⟨.closeBrace, "\x7d", 8⟩, .finish 9]

/-- The product that is printed there. -/
private def productByTwo : Expr :=
  .ofTerm (.extend (.lead (.group (.ofFactor (.variable "x")))) .mul .plus (.number (.int 2)))

theorem parsed_trees_plain_product :
    scan "\x7b;(x)*2;\x7d" = .ok productTokens ∧
    Program.ofTokens productTokens = .ok [.print productByTwo] ∧
    productByTwo.RootFree ∧ IsName "x" ∧ 0 ≤ (2 : Int64).toInt := by
  have name : Lexeme ['x'] .name [')', '*', '2', ';', '}'] :=
    .name ⟨'x', [], rfl, by decide +kernel, List.forall_mem_nil _⟩ (by decide)
      (by rintro c ⟨⟩; decide +kernel)
  have two : Lexeme ['2'] (.number (.int 2)) [';', '}'] :=
    .number (List.all_eq_true.mp rfl) rfl (by rintro c ⟨⟩; rfl)
  have rest := Decomposes.symbol ';' .semicolon (.symbol '}' .closeBrace (.finish .none))
  have times := Decomposes.symbol ')' .closeParen (.symbol '*' .times (.piece .none two rest))
  have whole := Decomposes.symbol '{' .openBrace
    (.symbol ';' .semicolon (.symbol '(' .openParen (.piece .none name times)))
  have cut : scan "\x7b;(x)*2;\x7d" = .ok productTokens := Scanner.tokens_of_decomposes whole 0
  have read : Program.ofTokens productTokens = .ok [.print productByTwo] := by cbv
  obtain ⟨rootFree, _, _, written, _⟩ :=
    parsed_trees_plain (.ofTokens productTokens) "\x7b;(x)*2;\x7d" (.empty none)
  obtain ⟨names, literals⟩ := written productTokens _ cut read _ List.mem_cons_self
  refine ⟨cut, read, (rootFree _ read).2 _ List.mem_cons_self, ?_, ?_⟩
  · exact names "x" (by simp [Statement.names, Statement.target?, Statement.value, productByTwo,
      Expr.ofTerm, Expr.ofFactor, Expr.variables, Term.variables, Factor.variables])
  · exact literals 2 (by simp [Statement.value, productByTwo, Expr.ofTerm, Expr.ofFactor,
      Expr.literals, Term.literals, Factor.literals])

end BlockCalc
