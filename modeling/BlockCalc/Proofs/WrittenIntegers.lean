import BlockCalc.Proofs.Atomicity
import BlockCalc.Proofs.ExactIntegers
import BlockCalc.Proofs.ParsedTrees

/-!
# Integers written in programs

A program can be laid out with spaces between some of its words only, as long as no word goes on
with the one before it (`LaidOut`). Laid out in this way, a declaration of a literal binds the name
to the value of the literal under its sign and prints it (`execute_declaring_literal`). The sign
stands apart from the digits, so that the digits alone have to fit into 64 bits: of all integers
of 64 bits only the least cannot be written (`execute_declaring`).
-/
namespace BlockCalc
open Character

/-- The text does not go on with a name or a number. -/
def EndsWord (text : List Char) : Prop :=
  NotNext isLetterOrNumeral text ∧ NotNext isDigitOrPoint text

theorem endsWord_cons {c : Char} (rest : List Char)
    (name : isLetterOrNumeral c = false := by decide)
    (number : isDigitOrPoint c = false := by decide) : EndsWord (c :: rest) := by
  constructor
  · rintro _ ⟨⟩
    exact name
  · rintro _ ⟨⟩
    exact number

/-- A word is cut out in front of every text that does not go on with it. -/
theorem Spells.lexeme {word : String} {kind : TokenKind} (spells : Spells word kind)
    {after : List Char} (ends : EndsWord after) : Lexeme word.toList kind after := by
  have alone : Lexeme word.toList kind [] := spells [] (by simp)
  generalize word.toList = text at alone
  cases alone with
  | keyword _ => exact .keyword ends.1
  | name isWord other _ => exact .name isWord other ends.1
  | number run denotes _ => exact .number run denotes ends.2
  | symbol listed => exact .symbol listed

/-- The text is made up of the words in their order and of gaps between them, which may be empty. -/
def LaidOut (text : List Char) (words : List String) : Prop :=
  ∃ pieces last, Decomposes text pieces last ∧ ∀ offset, Carries (tokensOf offset pieces) words

namespace LaidOut
variable {text : List Char} {words : List String}

theorem finish : LaidOut [] [] :=
  ⟨[], [], .finish .none, fun _ => ⟨rfl, by simp [tokensOf]⟩⟩

theorem piece {word : String} {kind : TokenKind} (spells : Spells word kind)
    (munched : Lexeme word.toList kind text) (laid : LaidOut text words) :
    LaidOut (word.toList ++ text) (word :: words) := by
  obtain ⟨pieces, last, decomposes, carries⟩ := laid
  refine ⟨⟨[], word.toList, kind⟩ :: pieces, last, .piece .none munched decomposes, ?_⟩
  intro offset
  rw [tokensOf, String.ofList_toList]
  exact .cons spells (carries _)

theorem word {word : String} {kind : TokenKind} (spells : Spells word kind) (ends : EndsWord text)
    (laid : LaidOut text words) : LaidOut (word.toList ++ text) (word :: words) :=
  laid.piece spells (spells.lexeme ends)

/-- A symbol ends by itself, whatever follows it. -/
theorem symbol (c : Char) (kind : TokenKind) (laid : LaidOut text words)
    (listed : (c, kind) ∈ symbols := by simp [symbols]) :
    LaidOut (c :: text) (.ofList [c] :: words) := by
  have munched : Lexeme (String.ofList [c]).toList kind text := by
    rw [String.toList_ofList]
    exact .symbol listed
  have longer := laid.piece (spells_symbol c kind listed) munched
  rwa [String.toList_ofList] at longer

/-- A space makes the first gap longer. -/
theorem space (laid : LaidOut text words) : LaidOut (' ' :: text) words := by
  obtain ⟨pieces, last, decomposes, carries⟩ := laid
  cases decomposes with
  | finish gap => exact ⟨[], ' ' :: text, .finish (.blank (.inl rfl) gap), carries⟩
  | @piece gap lexeme _ _ kind pieces separates munched tail =>
    refine ⟨⟨' ' :: gap, lexeme, kind⟩ :: pieces, last,
      .piece (.blank (.inl rfl) separates) munched tail, ?_⟩
    intro offset
    have later := carries (offset + 1)
    simp only [tokensOf, List.length_cons, Nat.add_assoc, Nat.add_comm 1] at later ⊢
    exact later

theorem signs {sign : Sign} {marks : List String} (signed : sign.WrittenAs marks)
    (laid : LaidOut text words) :
    LaidOut ((String.join marks).toList ++ text) (marks ++ words) := by
  cases signed with
  | omitted => exact laid
  | plus => exact laid.symbol '+' .plus
  | minus => exact laid.symbol '-' .minus

end LaidOut

/-- A source in which the words of a program are laid out runs as the program. -/
theorem execute_of_laidOut {source : String} {words : List String} {program : Program}
    (laid : LaidOut source.toList words) (writable : program.Writable)
    (written : program.WrittenAs words) {out : Sink} {s : Session}
    (done : (Session.start out).run program = .ok s) : execute source out = .ok s := by
  obtain ⟨pieces, last, decomposes, carries⟩ := laid
  have cut : scan source = .ok (tokensOf 0 pieces ++ [.finish (0 + source.toList.length)]) :=
    Scanner.tokens_of_decomposes decomposes 0
  have derives := Program.derives_of_written writable (carries 0) written
  simp only [execute, Session.runSource, cut, Program.ofTokens_of_derives derives, done]

/-- The source of a program that declares a name with the number that is written, and prints it. -/
def declaring (name number : String) : String :=
  "\x7b num " ++ name ++ " = " ++ number ++ "; ;" ++ name ++ "; \x7d"

/-- The program that declares a name with a literal under a sign, and prints it. -/
def declared (name : String) (sign : Sign) (value : Number) : Program :=
  [.declare name (.lead sign (.lead (.number value))), .print (.ofFactor (.variable name))]

/-- The words of the program. -/
def declaredWords (name : String) (marks : List String) (text : String) : List String :=
  "\x7b" :: "num" :: name :: "=" :: (marks ++ text :: ";" :: ";" :: name :: ";" :: ["\x7d"])

theorem writable_declared {name : String} (isName : IsName name) (sign : Sign) (value : Number) :
    (declared name sign value).Writable := by
  refine ⟨by simp [declared], ?_, ?_⟩
  · simp [declared, Statement.value, Expr.RootFree, Term.RootFree, Factor.RootFree, Expr.ofFactor,
      Expr.ofTerm]
  · simp [declared, Statement.names, Statement.target?, Statement.value, Expr.variables,
      Term.variables, Factor.variables, Expr.ofFactor, Expr.ofTerm, isName]

section
variable {sign : Sign} {marks : List String} (signed : sign.WrittenAs marks)
variable {value : Number} {text : String} (written : value.WrittenAs text)
include signed written

theorem written_declared (name : String) :
    (declared name sign value).WrittenAs (declaredWords name marks text) := by
  have literal : Expr.WrittenAs (.lead sign (.lead (.number value))) (marks ++ [text]) :=
    ⟨marks, [text], signed, ⟨text, written, rfl⟩, rfl⟩
  have shown : Statement.WrittenAs (.print (.ofFactor (.variable name))) [";", name, ";"] :=
    ⟨[name], ⟨[], [name], .omitted, rfl, rfl⟩, rfl⟩
  exact ⟨_, ⟨_, _, ⟨_, literal, rfl⟩, ⟨_, _, shown, rfl, rfl⟩, rfl⟩, by simp [declaredWords]⟩

theorem laidOut_declaring {name : String} (isName : IsName name) :
    LaidOut (declaring name (String.join marks ++ text)).toList
      (declaredWords name marks text) := by
  have isWord : Spells name .name := spells_name isName
  -- The words are laid out from the last to the first, each in front of the text behind it.
  have last : LaidOut [' ', '}'] ["\x7d"] := (LaidOut.finish.symbol '}' .closeBrace).space
  have shown : LaidOut (' ' :: ';' :: (name.toList ++ [';', ' ', '}'])) [";", name, ";", "\x7d"] :=
    (((last.symbol ';' .semicolon).word isWord (endsWord_cons _)).symbol ';' .semicolon).space
  have number := (shown.symbol ';' .semicolon).word (spells_number written) (endsWord_cons _)
  have bound := ((number.signs signed).space.symbol '=' .equals).space
  have named := (bound.word isWord (endsWord_cons _)).space
  have whole := (named.word spells_keyword (endsWord_cons _)).space.symbol '{' .openBrace
  simpa [declaring, declaredWords] using whole

end

/-- The program succeeds where the name is new and the output has no limit. -/
theorem run_declared {s : Session} {name : String} (fresh : s.env.binds name = false)
    (unlimited : s.out.limit = none) (sign : Sign) (value : Number) :
    s.run (declared name sign value) =
      .ok ⟨s.env.set name (sign.apply value),
        s.out.push ((sign.apply value).text ++ "\n").toUTF8⟩ := by
  generalize result : sign.apply value = v
  have bind : s.step (.declare name (.lead sign (.lead (.number value)))) =
      .ok { s with env := s.env.set name v } := by
    rw [Session.step_of_value (by simp [Statement.targetFault?, fresh]) rfl, result]
    rfl
  have found : (Expr.ofFactor (.variable name)).eval (s.env.set name v) = .ok v := by
    simp only [Expr.ofFactor, Expr.ofTerm, Expr.eval, Term.eval, Factor.eval, Environment.lookup,
      Environment.get?_set, if_true]
    rfl
  have shown : Session.step { s with env := s.env.set name v }
      (.print (.ofFactor (.variable name))) =
        .ok ⟨s.env.set name v, s.out.push (v.text ++ "\n").toUTF8⟩ := by
    rw [Session.step_of_value rfl found]
    exact Session.print_of_unlimited (s := { s with env := s.env.set name v }) unlimited v
  rw [declared, Session.run_cons_of_ok _ bind, Session.run_cons_of_ok _ shown, Session.run_nil]

theorem Environment.binds_initial {name : String} (other : name ∉ ["e", "pi", "tau"]) :
    initial.binds name = false := by
  have absent : (constants.map Prod.fst).contains name = false := by
    simpa [constants] using other
  rw [binds, get?, initial, Std.ExtTreeMap.getElem?_ofList_of_contains_eq_false absent]
  rfl

/-- A declared literal gives the name its value under its sign, whatever number it denotes. -/
theorem execute_declaring_literal {sign : Sign} {marks : List String}
    (signed : sign.WrittenAs marks) {value : Number} {text : String}
    (written : value.WrittenAs text) {name : String} (isName : IsName name)
    (other : name ∉ ["e", "pi", "tau"]) {out : Sink} (unlimited : out.limit = none) :
    execute (declaring name (String.join marks ++ text)) out =
      .ok ⟨Environment.initial.set name (sign.apply value),
        out.push ((sign.apply value).text ++ "\n").toUTF8⟩ := by
  refine execute_of_laidOut (laidOut_declaring signed written isName)
    (writable_declared isName sign value) (written_declared signed written name) ?_
  exact run_declared (Environment.binds_initial other) unlimited sign value

namespace Number

theorem writtenAs_repr {k : Nat} (fits : Fits k) : WrittenAs (.int (.ofInt k)) k.repr := by
  have value : (Int64.ofInt k).toInt = k := toInt_ofInt_of_fits fits
  have written : WrittenAs (.int (.ofInt k)) (Int64.ofInt k).toInt.toNat.repr :=
    .int (by rw [value]; exact Int.natCast_nonneg k)
  rwa [value, Int.toNat_natCast] at written

/-- The digits of the least integer without its sign are those of a double. -/
theorem writtenAs_beyond : WrittenAs (.float 9223372036854775808) "9223372036854775808" := by
  refine .float (List.all_eq_true.mp (by decide)) ?_
  have denotes : ofLiteral? "9223372036854775808" =
      some (.float (Magnitude.toFloat false (Decimal.nearest ⟨9223372036854775808, 0⟩))) := rfl
  have value : Magnitude.toFloat false (Decimal.nearest ⟨9223372036854775808, 0⟩) =
      9223372036854775808 := by decide +kernel
  rw [denotes, value]

theorem text_int (n : Int64) : (Number.int n).text = n.toInt.repr := by
  rw [text, chars]
  cases n.toInt with
  | ofNat k =>
    have nonneg : ¬ (k : Int) < 0 := by omega
    simp [Layout.integer, Int.repr, Nat.repr, nonneg]
  | negSucc k => simp [Layout.integer, Int.repr, Nat.repr]

/-- The digits of an integer and the sign in front of them. -/
theorem exists_sign_repr (z : Int) :
    ∃ sign marks, Sign.WrittenAs sign marks ∧ z.repr = String.join marks ++ z.natAbs.repr ∧
      sign.exact z.natAbs = z := by
  cases z with
  | ofNat k => exact ⟨.plus, [], .omitted, by simp [Int.repr], rfl⟩
  | negSucc k => exact ⟨.minus, ["-"], .minus, by simp [Int.repr], by simp [Sign.exact]; omega⟩

/-- An integer whose digits fit is the value of its digits under its sign. -/
theorem apply_ofInt {n : Int64} {k : Nat} (fits : Fits k) {sign : Sign}
    (exact : sign.exact k = n.toInt) : sign.apply (.int (.ofInt k)) = .int n := by
  have digits : (Number.int (.ofInt k)).Follows True k := ⟨trivial, toInt_ofInt_of_fits fits⟩
  have signed := digits.signed sign
  rw [exact] at signed
  cases value : sign.apply (.int (.ofInt k)) with
  | int m =>
    rw [value] at signed
    rw [Int64.toInt_inj.mp signed.2]
  | float x =>
    rw [value] at signed
    exact absurd ⟨trivial, fits_toInt n⟩ signed

/-- Only the least integer has digits that do not fit without its sign. -/
theorem fits_natAbs {n : Int64} (other : n ≠ .minValue) : Fits n.toInt.natAbs := by
  have least : Int64.minValue.toInt = -2 ^ 63 := rfl
  have largest : Int64.maxValue.toInt = 2 ^ 63 - 1 := rfl
  have bounds := fits_toInt n
  have apart : n.toInt ≠ Int64.minValue.toInt := fun same => other (Int64.toInt_inj.mp same)
  rw [Fits, least, largest] at bounds ⊢
  omega

/-- The number is the value of a literal that may have a sign in front of it. -/
def IsSignedLiteral (a : Number) : Prop :=
  ∃ (sign : Sign) (text : String) (value : Number), (∀ c ∈ text.toList, isDigitOrPoint c = true) ∧
    ofLiteral? text = some value ∧ sign.apply value = a

theorem not_isSignedLiteral_minValue : ¬ (Number.int .minValue).IsSignedLiteral := by
  rintro ⟨sign, text, value, run, denotes, least⟩
  have whole : value.IsInt := isInt_of_signed (by rw [least]; trivial)
  cases value with
  | float x => cases whole
  | int m =>
    have lexeme : Lexeme text.toList (.number (.int m)) [] :=
      .number run (by rwa [String.ofList_toList]) (by simp [NotNext])
    -- The literal itself has no sign, so that a minus leads down to `-(2 ^ 63 - 1)` only.
    have nonneg : 0 ≤ m.toInt := lexeme.int_nonneg
    have digits : (Number.int m).Follows True m.toInt := ⟨trivial, rfl⟩
    have signed := digits.signed sign
    rw [least] at signed
    have exact : Int64.minValue.toInt = sign.exact m.toInt := signed.2
    have fits := fits_toInt m
    have smallest : Int64.minValue.toInt = -2 ^ 63 := rfl
    have largest : Int64.maxValue.toInt = 2 ^ 63 - 1 := rfl
    rw [Fits, largest] at fits
    cases sign with
    | plus =>
      rw [Sign.exact] at exact
      omega
    | minus =>
      rw [Sign.exact] at exact
      omega

end Number

/-- Integers written in a program keep their value. A program that declares a new name with an
integer of 64 bits in decimal, and prints it, succeeds. It binds the name to the integer and prints
its decimal text, except for the least integer: without the sign its digits do not fit, so that the
name is bound to a double. Every other integer is the value of a literal with or without a sign. -/
theorem execute_declaring (n : Int64) (name : String) (isName : IsName name)
    (other : name ∉ ["e", "pi", "tau"]) (out : Sink) (unlimited : out.limit = none) :
    (n ≠ .minValue → execute (declaring name n.toInt.repr) out =
      .ok ⟨Environment.initial.set name (.int n),
        { out with written := out.written ++ (n.toInt.repr ++ "\n").toUTF8 }⟩) ∧
    (n = .minValue → execute (declaring name n.toInt.repr) out =
      .ok ⟨Environment.initial.set name (.float (-9223372036854775808)),
        { out with written := out.written ++ "-9.223372036854776e18\n".toUTF8 }⟩) ∧
    ((Number.int n).IsSignedLiteral ↔ n ≠ .minValue) := by
  have pushed (text : String) : out.push text.toUTF8 =
      { out with written := out.written ++ text.toUTF8 } := by
    rw [Sink.push, unlimited]
  refine ⟨?_, ?_, ?_, ?_⟩
  · intro inside
    obtain ⟨sign, marks, signed, text, exact⟩ := Number.exists_sign_repr n.toInt
    have fits := Number.fits_natAbs inside
    have written := Number.writtenAs_repr fits
    have done := execute_declaring_literal signed written isName other unlimited
    rwa [← text, Number.apply_ofInt fits exact, Number.text_int, pushed] at done
  · rintro rfl
    have done := execute_declaring_literal .minus Number.writtenAs_beyond isName other unlimited
    have text : (Sign.minus.apply (.float 9223372036854775808)).text = "-9.223372036854776e18" := by
      decide +kernel
    rwa [text, pushed] at done
  · rintro literal rfl
    exact Number.not_isSignedLiteral_minValue literal
  · intro inside
    obtain ⟨sign, _, _, _, exact⟩ := Number.exists_sign_repr n.toInt
    have fits := Number.fits_natAbs inside
    refine ⟨sign, n.toInt.natAbs.repr, _, ?_, Number.ofLiteral?_repr fits,
      Number.apply_ofInt fits exact⟩
    rw [Nat.toList_repr]
    exact isDigitOrPoint_of_mem_toDigits

-- The two ends of the range and the integer next to the lower end, under a name beyond ASCII.
theorem execute_declaring_limits :
    (IsName "β1" ∧ "β1" ∉ ["e", "pi", "tau"] ∧ (Sink.empty none).limit = none) ∧
    execute (declaring "β1" "9223372036854775807") (.empty none) =
      .ok ⟨Environment.initial.set "β1" (.int .maxValue),
        ⟨none, .empty ++ "9223372036854775807\n".toUTF8⟩⟩ ∧
    execute (declaring "β1" "-9223372036854775807") (.empty none) =
      .ok ⟨Environment.initial.set "β1" (.int (-9223372036854775807)),
        ⟨none, .empty ++ "-9223372036854775807\n".toUTF8⟩⟩ ∧
    execute (declaring "β1" "-9223372036854775808") (.empty none) =
      .ok ⟨Environment.initial.set "β1" (.float (-9223372036854775808)),
        ⟨none, .empty ++ "-9.223372036854776e18\n".toUTF8⟩⟩ := by
  have isName : IsName "β1" :=
    ⟨⟨'β', ['1'], rfl, by decide +kernel, List.all_eq_true.mp (by decide +kernel)⟩, by decide⟩
  have other : "β1" ∉ ["e", "pi", "tau"] := by decide
  refine ⟨⟨isName, other, rfl⟩, ?_, ?_, ?_⟩
  · exact (execute_declaring .maxValue "β1" isName other (.empty none) rfl).1 (by decide)
  · exact (execute_declaring (-9223372036854775807) "β1" isName other (.empty none) rfl).1
      (by decide)
  · exact (execute_declaring .minValue "β1" isName other (.empty none) rfl).2.1 rfl

end BlockCalc
