import BlockCalc.Proofs.Occurrences
import BlockCalc.Proofs.Parsing
import BlockCalc.Proofs.Scanning

/-!
# Written programs read back

A program is written as words in the order of the grammar, with a space between any two. A minus
sign is always written and a plus sign is written or left out, at each place independently. Each
word is cut out again as one token (`scan_spaced`), these tokens derive the program
(`Program.derives_of_written`), and reading accepts what derives.
-/
namespace BlockCalc
open Character

/-- An integer is written in decimal, and a double as any text of digits and points that denotes
it. -/
inductive Number.WrittenAs : Number → String → Prop
  | int {n : Int64} (nonneg : 0 ≤ n.toInt) : Number.WrittenAs (.int n) n.toInt.toNat.repr
  | float {x : Float} {text : String} (run : ∀ c ∈ text.toList, isDigitOrPoint c = true)
      (denotes : Number.ofLiteral? text = some (.float x)) : Number.WrittenAs (.float x) text

/-- A minus is written, and a plus is written or left out. -/
inductive Sign.WrittenAs : Sign → List String → Prop
  | omitted : Sign.WrittenAs .plus []
  | plus : Sign.WrittenAs .plus ["+"]
  | minus : Sign.WrittenAs .minus ["-"]

/-- The word for an operator between terms. -/
def AddOp.word : AddOp → String
  | .add => "+"
  | .sub => "-"

/-- The word for an operator between factors. -/
def MulOp.word : MulOp → String
  | .mul => "*"
  | .div => "/"
  | .root => "√"

mutual

/-- The words are a way to write the tree. -/
def Factor.WrittenAs : Factor → List String → Prop
  | .number value, words => ∃ text, value.WrittenAs text ∧ words = [text]
  | .group inner, words => ∃ body, inner.WrittenAs body ∧ words = "(" :: (body ++ [")"])
  | .variable name, words => words = [name]

def Term.WrittenAs : Term → List String → Prop
  | .lead first, words => first.WrittenAs words
  | .extend before op sign factor, words =>
    ∃ left signs right, before.WrittenAs left ∧ sign.WrittenAs signs ∧ factor.WrittenAs right ∧
      words = left ++ op.word :: (signs ++ right)

def Expr.WrittenAs : Expr → List String → Prop
  | .lead sign first, words =>
    ∃ signs body, sign.WrittenAs signs ∧ first.WrittenAs body ∧ words = signs ++ body
  | .extend before op term, words =>
    ∃ left right, before.WrittenAs left ∧ term.WrittenAs right ∧
      words = left ++ op.word :: right

end

def Statement.WrittenAs : Statement → List String → Prop
  | .declare name value, words =>
    ∃ body, value.WrittenAs body ∧ words = "num" :: name :: "=" :: (body ++ [";"])
  | .assign name value, words =>
    ∃ body, value.WrittenAs body ∧ words = name :: "=" :: (body ++ [";"])
  | .print value, words => ∃ body, value.WrittenAs body ∧ words = ";" :: (body ++ [";"])

/-- The words are a way to write the statements one after the other. -/
def Program.BodyWrittenAs : Program → List String → Prop
  | [], words => words = []
  | first :: others, words =>
    ∃ left right, first.WrittenAs left ∧ Program.BodyWrittenAs others right ∧ words = left ++ right

/-- The words are a way to write the program. -/
def Program.WrittenAs (program : Program) (words : List String) : Prop :=
  ∃ body, program.BodyWrittenAs body ∧ words = "\x7b" :: (body ++ ["\x7d"])

/-- The text of words with single spaces between them. -/
def spaced (words : List String) : String := " ".intercalate words

/-- A name that can stand in source text: a letter followed by letters and numerals, and not the
keyword. -/
def IsName (name : String) : Prop := IsWord name.toList ∧ name ≠ "num"

/-- A program that source text can hold: it has a statement, no root sign, and only names. -/
structure Program.Writable (program : Program) : Prop where
  nonempty : program ≠ []
  rootFree : ∀ s ∈ program, s.value.RootFree
  named : ∀ s ∈ program, ∀ name ∈ s.names, IsName name

/-- A run of digits and points has no sign. -/
theorem Numeral.splitSign_of_run {cs : List Char} (run : ∀ c ∈ cs, isDigitOrPoint c = true) :
    Numeral.splitSign cs = (false, cs) := by
  unfold Numeral.splitSign
  split
  · exact absurd (run '+' List.mem_cons_self) (by decide)
  · exact absurd (run '-' List.mem_cons_self) (by decide)
  · rfl

theorem isDigitOrPoint_of_mem_toDigits {n : Nat} :
    ∀ c ∈ Nat.toDigits 10 n, isDigitOrPoint c = true := by
  intro c member
  rw [isDigitOrPoint, Nat.isDigit_of_mem_toDigits (by decide) (by decide) member, Bool.true_or]

theorem Numeral.whole?_toDigits (n : Nat) :
    Numeral.whole? (Nat.toDigits 10 n) = some (n : Int) := by
  have digits : (Nat.toDigits 10 n).all Char.isDigit = true :=
    List.all_eq_true.mpr fun _ => Nat.isDigit_of_mem_toDigits (by decide) (by decide)
  rw [Numeral.whole?, Numeral.splitSign_of_run isDigitOrPoint_of_mem_toDigits]
  simp only [Numeral.digits?, if_pos (And.intro Nat.toDigits_ne_nil digits),
    Nat.ofDigitChars_ten_toDigits, Bool.false_eq_true, if_false]
  rfl

/-- The decimal text of an integer that fits into 64 bits denotes it. -/
theorem Number.ofLiteral?_repr {n : Nat} (fits : Number.Fits n) :
    Number.ofLiteral? n.repr = some (.int (.ofInt n)) := by
  have points : (Nat.toDigits 10 n).count '.' = 0 := by
    refine List.count_eq_zero.mpr fun point => ?_
    exact absurd (Nat.isDigit_of_mem_toDigits (by decide) (by decide) point) (by decide)
  rw [Number.ofLiteral?, Nat.toList_repr]
  simp only [points, Number.integerLiteral?, Numeral.whole?_toDigits, Option.bind_some, if_pos fits,
    Option.some_or]

/-- The word is cut out as one token of the kind, at the end of a text or in front of a space. -/
def Spells (word : String) (kind : TokenKind) : Prop :=
  ∀ after : List Char, (∀ c ∈ after.head?, c = ' ') → Lexeme word.toList kind after

theorem notNext_of_space {p : Char → Bool} (space : p ' ' = false) {after : List Char}
    (spaced : ∀ c ∈ after.head?, c = ' ') : NotNext p after := by
  intro c first
  rw [spaced c first]
  exact space

theorem spells_symbol (c : Char) (kind : TokenKind)
    (listed : (c, kind) ∈ symbols := by simp [symbols]) : Spells (.ofList [c]) kind := by
  intro after _
  rw [String.toList_ofList]
  exact .symbol listed

theorem spells_keyword : Spells "num" .num :=
  fun _ space => .keyword (notNext_of_space (by decide) space)

theorem spells_name {name : String} (isName : IsName name) : Spells name .name := by
  intro after space
  refine .name isName.1 ?_ (notNext_of_space (by decide) space)
  intro same
  exact isName.2 (String.toList_inj.mp same)

theorem spells_number {value : Number} {text : String} (written : value.WrittenAs text) :
    Spells text (.number value) := by
  intro after space
  have ends : NotNext isDigitOrPoint after := notNext_of_space (by decide) space
  cases written with
  | @int n nonneg =>
    have value : (n.toInt.toNat : Int) = n.toInt := Int.toNat_of_nonneg nonneg
    have fits : Number.Fits n.toInt := ⟨n.minValue_le_toInt, n.toInt_le⟩
    have denotes := Number.ofLiteral?_repr (value ▸ fits)
    rw [value, Int64.ofInt_toInt] at denotes
    refine .number ?_ (by rwa [String.ofList_toList]) ends
    rw [Nat.toList_repr]
    exact isDigitOrPoint_of_mem_toDigits
  | float run denotes => exact .number run (by rwa [String.ofList_toList]) ends

theorem Spells.unique {word : String} {kind other : TokenKind} (one : Spells word kind)
    (two : Spells word other) : kind = other := by
  have left := Scanner.nextHere_of_lexeme (one [] (by simp)) 0
  have right := Scanner.nextHere_of_lexeme (two [] (by simp)) 0
  cases left.symm.trans right
  rfl

/-- The tokens carry the words in order, each with the kind of its word. -/
structure Carries (ts : List Token) (words : List String) : Prop where
  lexemes : ts.map Token.lexeme = words
  spelled : ∀ t ∈ ts, Spells t.lexeme t.kind

theorem carries_nil {ts : List Token} (carries : Carries ts []) : ts = [] :=
  List.map_eq_nil_iff.mp carries.lexemes

theorem carries_cons {ts : List Token} {word : String} {words : List String}
    (carries : Carries ts (word :: words)) {kind : TokenKind} (spells : Spells word kind) :
    ∃ t rest, ts = t :: rest ∧ t.lexeme = word ∧ t.kind = kind ∧ Carries rest words := by
  obtain ⟨t, rest, rfl, rfl, lexemes⟩ := List.map_eq_cons_iff.mp carries.lexemes
  refine ⟨t, rest, rfl, rfl, ?_, lexemes, ?_⟩
  · exact (carries.spelled t List.mem_cons_self).unique spells
  · exact fun u member => carries.spelled u (List.mem_cons_of_mem t member)

theorem carries_append {ts : List Token} {left right : List String}
    (carries : Carries ts (left ++ right)) :
    ∃ us vs, ts = us ++ vs ∧ Carries us left ∧ Carries vs right := by
  obtain ⟨us, vs, rfl, first, second⟩ := List.map_eq_append_iff.mp carries.lexemes
  refine ⟨us, vs, rfl, ⟨first, ?_⟩, second, ?_⟩
  · exact fun t member => carries.spelled t (List.mem_append_left vs member)
  · exact fun t member => carries.spelled t (List.mem_append_right us member)

theorem carries_singleton {ts : List Token} {word : String} (carries : Carries ts [word])
    {kind : TokenKind} (spells : Spells word kind) :
    ∃ t, ts = [t] ∧ t.lexeme = word ∧ t.kind = kind := by
  obtain ⟨t, rest, rfl, lexeme, same, none⟩ := carries_cons carries spells
  obtain rfl := carries_nil none
  exact ⟨t, rfl, lexeme, same⟩

/-! ## Written phrases derive -/

theorem Sign.derives_of_written {sign : Sign} {words : List String} (written : sign.WrittenAs words)
    {ts : List Token} (carries : Carries ts words) : Sign.Derives ts sign := by
  cases written with
  | omitted =>
    obtain rfl := carries_nil carries
    exact .absent
  | plus =>
    obtain ⟨t, rfl, _, kind⟩ := carries_singleton carries (spells_symbol '+' .plus)
    exact .plus kind
  | minus =>
    obtain ⟨t, rfl, _, kind⟩ := carries_singleton carries (spells_symbol '-' .minus)
    exact .minus kind

theorem AddOp.derives_of_word {op : AddOp} {ts : List Token} {words : List String}
    (carries : Carries ts (op.word :: words)) :
    ∃ t rest, ts = t :: rest ∧ AddOp.Derives t op ∧ Carries rest words := by
  cases op with
  | add =>
    obtain ⟨t, rest, rfl, _, kind, tail⟩ := carries_cons carries (spells_symbol '+' .plus)
    exact ⟨t, rest, rfl, .add kind, tail⟩
  | sub =>
    obtain ⟨t, rest, rfl, _, kind, tail⟩ := carries_cons carries (spells_symbol '-' .minus)
    exact ⟨t, rest, rfl, .sub kind, tail⟩

theorem MulOp.derives_of_word {op : MulOp} (rootFree : op ≠ .root) {ts : List Token}
    {words : List String} (carries : Carries ts (op.word :: words)) :
    ∃ t rest, ts = t :: rest ∧ MulOp.Derives t op ∧ Carries rest words := by
  cases op with
  | mul =>
    obtain ⟨t, rest, rfl, _, kind, tail⟩ := carries_cons carries (spells_symbol '*' .times)
    exact ⟨t, rest, rfl, .mul kind, tail⟩
  | div =>
    obtain ⟨t, rest, rfl, _, kind, tail⟩ := carries_cons carries (spells_symbol '/' .over)
    exact ⟨t, rest, rfl, .div kind, tail⟩
  | root => exact absurd rfl rootFree

/-- Words between two symbols are carried by tokens between two tokens of their kinds. -/
theorem carries_enclosed {ts : List Token} {first last : String} {words : List String}
    (carries : Carries ts (first :: (words ++ [last]))) {opening closing : TokenKind}
    (opens : Spells first opening) (closes : Spells last closing) :
    ∃ left body right, ts = left :: (body ++ [right]) ∧ left.kind = opening ∧
      right.kind = closing ∧ Carries body words := by
  obtain ⟨left, rest, rfl, _, leftKind, tail⟩ := carries_cons carries opens
  obtain ⟨body, ending, rfl, inside, ends⟩ := carries_append tail
  obtain ⟨right, rfl, _, rightKind⟩ := carries_singleton ends closes
  exact ⟨left, body, right, rfl, leftKind, rightKind, inside⟩

mutual

theorem Factor.derives_of_written {ts : List Token} {words : List String}
    (carries : Carries ts words) :
    (factor : Factor) → factor.RootFree → (∀ name ∈ factor.variables, IsName name) →
      factor.WrittenAs words → Factor.Derives ts factor
  | .number value, _, _, ⟨text, written, split⟩ => by
    subst split
    obtain ⟨t, rfl, _, kind⟩ := carries_singleton carries (spells_number written)
    exact .number kind
  | .group inner, rootFree, named, ⟨body, written, split⟩ => by
    subst split
    obtain ⟨left, us, right, rfl, opening, closing, inside⟩ :=
      carries_enclosed carries (spells_symbol '(' .openParen) (spells_symbol ')' .closeParen)
    exact .group opening (Expr.derives_of_written inside inner rootFree named written) closing
  | .variable name, _, named, split => by
    subst split
    obtain ⟨t, rfl, rfl, kind⟩ :=
      carries_singleton carries (spells_name (named name List.mem_cons_self))
    exact .reference kind

theorem Term.derives_of_written {ts : List Token} {words : List String}
    (carries : Carries ts words) :
    (term : Term) → term.RootFree → (∀ name ∈ term.variables, IsName name) →
      term.WrittenAs words → Term.Derives ts term
  | .lead first, rootFree, named, written => by
    have derives := Factor.derives_of_written carries first rootFree named written
    simpa only [List.append_nil] using Term.Derives.chain derives .stop
  | .extend before op sign factor, ⟨rootFree, plain, factorFree⟩, named,
      ⟨left, signs, right, writtenBefore, writtenSign, writtenFactor, split⟩ => by
    subst split
    obtain ⟨us, rest, rfl, first, tail⟩ := carries_append carries
    obtain ⟨t, vs, rfl, operator, operand⟩ := MulOp.derives_of_word plain tail
    obtain ⟨ss, fs, rfl, signed, last⟩ := carries_append operand
    have derives := Term.derives_of_written first before rootFree
      (fun name member => named name (List.mem_append_left _ member)) writtenBefore
    exact derives.extend operator (Sign.derives_of_written writtenSign signed)
      (Factor.derives_of_written last factor factorFree
        (fun name member => named name (List.mem_append_right _ member)) writtenFactor)

theorem Expr.derives_of_written {ts : List Token} {words : List String}
    (carries : Carries ts words) :
    (expr : Expr) → expr.RootFree → (∀ name ∈ expr.variables, IsName name) →
      expr.WrittenAs words → Expr.Derives ts expr
  | .lead sign first, rootFree, named, ⟨signs, body, writtenSign, writtenFirst, split⟩ => by
    subst split
    obtain ⟨ss, us, rfl, signed, rest⟩ := carries_append carries
    have derives := Term.derives_of_written rest first rootFree named writtenFirst
    simpa only [List.append_nil] using
      Expr.Derives.chain (Sign.derives_of_written writtenSign signed) derives .stop
  | .extend before op term, ⟨rootFree, termFree⟩, named,
      ⟨left, right, writtenBefore, writtenTerm, split⟩ => by
    subst split
    obtain ⟨us, rest, rfl, first, tail⟩ := carries_append carries
    obtain ⟨t, vs, rfl, operator, operand⟩ := AddOp.derives_of_word tail
    have derives := Expr.derives_of_written first before rootFree
      (fun name member => named name (List.mem_append_left _ member)) writtenBefore
    exact derives.extend operator (Term.derives_of_written operand term termFree
      (fun name member => named name (List.mem_append_right _ member)) writtenTerm)

end

theorem Statement.binding_of_written {name : String} {value : Expr} (isName : IsName name)
    (rootFree : value.RootFree) (named : ∀ name ∈ value.variables, IsName name) {body : List String}
    (written : value.WrittenAs body) {ts : List Token}
    (carries : Carries ts (name :: "=" :: (body ++ [";"]))) :
    Statement.BindingDerives ts name value := by
  obtain ⟨t, rest, rfl, rfl, kind, tail⟩ := carries_cons carries (spells_name isName)
  obtain ⟨equals, us, semicolon, rfl, equated, ended, inside⟩ :=
    carries_enclosed tail (spells_symbol '=' .equals) (spells_symbol ';' .semicolon)
  exact .intro kind equated (Expr.derives_of_written inside value rootFree named written) ended

theorem Statement.derives_of_written {ts : List Token} {words : List String}
    (carries : Carries ts words) {statement : Statement} (rootFree : statement.value.RootFree)
    (named : ∀ name ∈ statement.names, IsName name) (written : statement.WrittenAs words) :
    Statement.Derives ts statement := by
  cases statement with
  | declare name value =>
    obtain ⟨body, writtenValue, rfl⟩ := written
    obtain ⟨isName, read⟩ := List.forall_mem_cons.mp named
    obtain ⟨keyword, rest, rfl, _, kind, tail⟩ := carries_cons carries spells_keyword
    exact .declare kind (Statement.binding_of_written isName rootFree read writtenValue tail)
  | assign name value =>
    obtain ⟨body, writtenValue, rfl⟩ := written
    obtain ⟨isName, read⟩ := List.forall_mem_cons.mp named
    exact .assign (Statement.binding_of_written isName rootFree read writtenValue carries)
  | print value =>
    obtain ⟨body, writtenValue, rfl⟩ := written
    obtain ⟨left, us, right, rfl, opening, closing, inside⟩ :=
      carries_enclosed carries (spells_symbol ';' .semicolon) (spells_symbol ';' .semicolon)
    exact .print opening (Expr.derives_of_written inside value rootFree named writtenValue) closing

theorem Program.body_of_written {program : Program} (nonempty : program ≠ [])
    (rootFree : ∀ s ∈ program, s.value.RootFree)
    (named : ∀ s ∈ program, ∀ name ∈ s.names, IsName name) {ts : List Token} {words : List String}
    (carries : Carries ts words) (written : program.BodyWrittenAs words) :
    Program.BodyDerives ts program := by
  induction program generalizing ts words with
  | nil => exact absurd rfl nonempty
  | cons first others ih =>
    obtain ⟨left, right, writtenFirst, writtenOthers, rfl⟩ := written
    obtain ⟨us, vs, rfl, carriesFirst, carriesOthers⟩ := carries_append carries
    obtain ⟨freeFirst, freeOthers⟩ := List.forall_mem_cons.mp rootFree
    obtain ⟨namedFirst, namedOthers⟩ := List.forall_mem_cons.mp named
    have derives := Statement.derives_of_written carriesFirst freeFirst namedFirst writtenFirst
    cases others with
    | nil =>
      obtain rfl := carries_nil (writtenOthers ▸ carriesOthers)
      rw [List.append_nil]
      exact .one derives
    | cons second rest =>
      exact .more derives
        (ih (List.cons_ne_nil second rest) freeOthers namedOthers carriesOthers writtenOthers)

theorem Program.derives_of_written {program : Program} (writable : program.Writable)
    {ts : List Token} {words : List String} (carries : Carries ts words)
    (written : program.WrittenAs words) : Program.Derives ts program := by
  obtain ⟨body, writtenBody, rfl⟩ := written
  obtain ⟨left, us, right, rfl, opening, closing, inside⟩ :=
    carries_enclosed carries (spells_symbol '{' .openBrace) (spells_symbol '}' .closeBrace)
  exact .block opening (Program.body_of_written writable.nonempty writable.rootFree writable.named
    inside writtenBody) closing

/-! ## Written words are cut out -/

/-- Each of the words is cut out as a token. -/
def AllSpelled (words : List String) : Prop := ∀ word ∈ words, ∃ kind, Spells word kind

@[simp] theorem allSpelled_cons {word : String} {words : List String} :
    AllSpelled (word :: words) ↔ (∃ kind, Spells word kind) ∧ AllSpelled words :=
  List.forall_mem_cons

@[simp] theorem allSpelled_append {left right : List String} :
    AllSpelled (left ++ right) ↔ AllSpelled left ∧ AllSpelled right :=
  List.forall_mem_append

theorem allSpelled_nil : AllSpelled [] := fun _ member => absurd member List.not_mem_nil

/-- The words after the first, each with a space before it. -/
def spacedTail (words : List String) : List Char := words.flatMap fun word => ' ' :: word.toList

theorem toList_spaced (word : String) (words : List String) :
    (spaced (word :: words)).toList = word.toList ++ spacedTail words := by
  induction words generalizing word with
  | nil => simp [spaced, spacedTail]
  | cons next rest ih =>
    rw [spaced, String.intercalate_cons_cons, String.toList_append, String.toList_append, ← spaced,
      ih]
    simp [spacedTail]

theorem head?_spacedTail (words : List String) : ∀ c ∈ (spacedTail words).head?, c = ' ' := by
  cases words with
  | nil => simp [spacedTail]
  | cons word rest => simp [spacedTail]

theorem Carries.cons {t : Token} {ts : List Token} {words : List String}
    (spells : Spells t.lexeme t.kind) (carries : Carries ts words) :
    Carries (t :: ts) (t.lexeme :: words) := by
  refine ⟨by rw [List.map_cons, carries.lexemes], ?_⟩
  intro u member
  rcases List.mem_cons.mp member with rfl | later
  · exact spells
  · exact carries.spelled u later

theorem decomposes_word {gap : List Char} (separates : ∀ after, Gap gap after) {word : String}
    {kind : TokenKind} (spells : Spells word kind) {words : List String} {pieces : List Piece}
    (tail : Decomposes (spacedTail words) pieces [])
    (carries : ∀ offset, Carries (tokensOf offset pieces) words) :
    ∃ pieces', Decomposes (gap ++ (word.toList ++ spacedTail words)) pieces' [] ∧
      ∀ offset, Carries (tokensOf offset pieces') (word :: words) := by
  refine ⟨⟨gap, word.toList, kind⟩ :: pieces, ?_, ?_⟩
  · exact .piece (separates _) (spells _ (head?_spacedTail words)) tail
  · intro offset
    rw [tokensOf, String.ofList_toList]
    exact .cons spells (carries _)

theorem decomposes_spacedTail {words : List String} (spelled : AllSpelled words) :
    ∃ pieces, Decomposes (spacedTail words) pieces [] ∧
      ∀ offset, Carries (tokensOf offset pieces) words := by
  induction words with
  | nil => exact ⟨[], .finish .none, fun _ => ⟨rfl, by simp [tokensOf]⟩⟩
  | cons word rest ih =>
    obtain ⟨⟨kind, spells⟩, others⟩ := allSpelled_cons.mp spelled
    obtain ⟨pieces, tail, carries⟩ := ih others
    exact decomposes_word (fun _ => .blank (.inl rfl) .none) spells tail carries

/-- Words with spaces between them are cut out as the tokens that carry them. -/
theorem scan_spaced {words : List String} (spelled : AllSpelled words) (some_words : words ≠ []) :
    ∃ ts stop, scan (spaced words) = .ok (ts ++ [.finish stop]) ∧ Carries ts words := by
  cases words with
  | nil => exact absurd rfl some_words
  | cons word rest =>
    obtain ⟨⟨kind, spells⟩, others⟩ := allSpelled_cons.mp spelled
    obtain ⟨pieces, tail, carries⟩ := decomposes_spacedTail others
    obtain ⟨pieces', decomposes, carried⟩ := decomposes_word (fun _ => .none) spells tail carries
    rw [List.nil_append, ← toList_spaced] at decomposes
    exact ⟨_, _, Scanner.tokens_of_decomposes decomposes 0, carried 0⟩

theorem Sign.allSpelled {sign : Sign} {words : List String} (written : sign.WrittenAs words) :
    AllSpelled words := by
  cases written with
  | omitted => exact allSpelled_nil
  | plus => simpa [allSpelled_nil] using ⟨_, spells_symbol '+' .plus⟩
  | minus => simpa [allSpelled_nil] using ⟨_, spells_symbol '-' .minus⟩

theorem AddOp.spells_word (op : AddOp) : ∃ kind, Spells op.word kind := by
  cases op with
  | add => exact ⟨_, spells_symbol '+' .plus⟩
  | sub => exact ⟨_, spells_symbol '-' .minus⟩

theorem MulOp.spells_word (op : MulOp) : ∃ kind, Spells op.word kind := by
  cases op with
  | mul => exact ⟨_, spells_symbol '*' .times⟩
  | div => exact ⟨_, spells_symbol '/' .over⟩
  | root => exact ⟨_, spells_symbol '√' .root⟩

theorem allSpelled_enclosed {first last : String} {words : List String}
    {opening closing : TokenKind} (opens : Spells first opening) (closes : Spells last closing)
    (spelled : AllSpelled words) : AllSpelled (first :: (words ++ [last])) := by
  simp only [allSpelled_cons, allSpelled_append]
  exact ⟨⟨opening, opens⟩, spelled, ⟨closing, closes⟩, allSpelled_nil⟩

mutual

theorem Factor.allSpelled {words : List String} :
    (factor : Factor) → (∀ name ∈ factor.variables, IsName name) → factor.WrittenAs words →
      AllSpelled words
  | .number value, _, ⟨text, written, split⟩ => by
    rw [split]
    exact allSpelled_cons.mpr ⟨⟨_, spells_number written⟩, allSpelled_nil⟩
  | .group inner, named, ⟨body, written, split⟩ => by
    rw [split]
    exact allSpelled_enclosed (spells_symbol '(' .openParen) (spells_symbol ')' .closeParen)
      (Expr.allSpelled inner named written)
  | .variable name, named, split => by
    rw [split]
    exact allSpelled_cons.mpr ⟨⟨_, spells_name (named name List.mem_cons_self)⟩, allSpelled_nil⟩

theorem Term.allSpelled {words : List String} :
    (term : Term) → (∀ name ∈ term.variables, IsName name) → term.WrittenAs words →
      AllSpelled words
  | .lead first, named, written => Factor.allSpelled first named written
  | .extend before op sign factor, named,
      ⟨left, signs, right, writtenBefore, writtenSign, writtenFactor, split⟩ => by
    obtain ⟨namedBefore, namedFactor⟩ := List.forall_mem_append.mp named
    rw [split]
    simp only [allSpelled_cons, allSpelled_append]
    exact ⟨Term.allSpelled before namedBefore writtenBefore, op.spells_word,
      Sign.allSpelled writtenSign, Factor.allSpelled factor namedFactor writtenFactor⟩

theorem Expr.allSpelled {words : List String} :
    (expr : Expr) → (∀ name ∈ expr.variables, IsName name) → expr.WrittenAs words →
      AllSpelled words
  | .lead sign first, named, ⟨signs, body, writtenSign, writtenFirst, split⟩ => by
    rw [split, allSpelled_append]
    exact ⟨Sign.allSpelled writtenSign, Term.allSpelled first named writtenFirst⟩
  | .extend before op term, named, ⟨left, right, writtenBefore, writtenTerm, split⟩ => by
    obtain ⟨namedBefore, namedTerm⟩ := List.forall_mem_append.mp named
    rw [split]
    simp only [allSpelled_cons, allSpelled_append]
    exact ⟨Expr.allSpelled before namedBefore writtenBefore, op.spells_word,
      Term.allSpelled term namedTerm writtenTerm⟩

end

theorem Statement.allSpelled {statement : Statement} {words : List String}
    (named : ∀ name ∈ statement.names, IsName name) (written : statement.WrittenAs words) :
    AllSpelled words := by
  cases statement with
  | declare name value =>
    obtain ⟨body, writtenValue, rfl⟩ := written
    obtain ⟨isName, read⟩ := List.forall_mem_cons.mp named
    rw [allSpelled_cons, allSpelled_cons]
    exact ⟨⟨_, spells_keyword⟩, ⟨_, spells_name isName⟩,
      allSpelled_enclosed (spells_symbol '=' .equals) (spells_symbol ';' .semicolon)
        (Expr.allSpelled value read writtenValue)⟩
  | assign name value =>
    obtain ⟨body, writtenValue, rfl⟩ := written
    obtain ⟨isName, read⟩ := List.forall_mem_cons.mp named
    rw [allSpelled_cons]
    exact ⟨⟨_, spells_name isName⟩,
      allSpelled_enclosed (spells_symbol '=' .equals) (spells_symbol ';' .semicolon)
        (Expr.allSpelled value read writtenValue)⟩
  | print value =>
    obtain ⟨body, writtenValue, rfl⟩ := written
    exact allSpelled_enclosed (spells_symbol ';' .semicolon) (spells_symbol ';' .semicolon)
      (Expr.allSpelled value named writtenValue)

theorem Program.allSpelled_body {program : Program}
    (named : ∀ s ∈ program, ∀ name ∈ s.names, IsName name) {words : List String}
    (written : program.BodyWrittenAs words) : AllSpelled words := by
  induction program generalizing words with
  | nil =>
    cases written
    exact allSpelled_nil
  | cons first others ih =>
    obtain ⟨left, right, writtenFirst, writtenOthers, rfl⟩ := written
    obtain ⟨namedFirst, namedOthers⟩ := List.forall_mem_cons.mp named
    rw [allSpelled_append]
    exact ⟨Statement.allSpelled namedFirst writtenFirst, ih namedOthers writtenOthers⟩

/-- Tokens that derive a program, followed by an end token, are read as the program. -/
theorem Program.ofTokens_of_derives {ts : List Token} {program : Program}
    (derives : Program.Derives ts program) (stop : Nat) :
    Program.ofTokens (ts ++ [.finish stop]) = .ok program := by
  have whole : (TokenStream.ofTokens (ts ++ [.finish stop])).tokens = ts ++ .finish stop :: [] := by
    rw [TokenStream.tokens_ofTokens]
    simp [withFinish, Token.finish, TokenKind.isFinish]
  exact (TokenStream.parse_of_split whole rfl derives).1

/-- A program that source text can hold is read back from every way to write it. -/
theorem read_written (program : Program) (words : List String) (writable : program.Writable)
    (written : program.WrittenAs words) :
    ∃ ts, scan (spaced words) = .ok ts ∧ Program.ofTokens ts = .ok program := by
  have spelled : AllSpelled words := by
    obtain ⟨body, writtenBody, rfl⟩ := written
    exact allSpelled_enclosed (spells_symbol '{' .openBrace) (spells_symbol '}' .closeBrace)
      (Program.allSpelled_body writable.named writtenBody)
  have some_words : words ≠ [] := by
    obtain ⟨body, _, rfl⟩ := written
    exact List.cons_ne_nil _ _
  obtain ⟨ts, stop, cut, carries⟩ := scan_spaced spelled some_words
  have derives := Program.derives_of_written writable carries written
  exact ⟨_, cut, Program.ofTokens_of_derives derives stop⟩

/-- A product of a double and the largest integer, with a sign in front of each. -/
private def sampleProduct : Expr :=
  .lead .minus (.extend (.lead (.number (.float 2.5))) .mul .plus
    (.group (.ofFactor (.number (.int Int64.maxValue)))))

/-- A program with a name beyond ASCII. -/
private def sampleProgram : Program :=
  [.declare "β1" sampleProduct, .print (.ofFactor (.variable "β1"))]

/-- The sample program with the plus sign inside the product written and all others left out. -/
private def sampleWords : List String :=
  ["\x7b", "num", "β1", "=", "-", "2.5", "*", "+", "(", "9223372036854775807", ")", ";",
    ";", "β1", ";", "\x7d"]

theorem read_written_sample : sampleProgram.Writable ∧ sampleProgram.WrittenAs sampleWords ∧
    ∃ ts, scan (spaced sampleWords) = .ok ts ∧ Program.ofTokens ts = .ok sampleProgram := by
  have isName : IsName "β1" :=
    ⟨⟨'β', ['1'], rfl, by decide +kernel, List.all_eq_true.mp (by decide +kernel)⟩, by decide⟩
  have writable : sampleProgram.Writable := by
    refine ⟨by simp [sampleProgram], ?_, ?_⟩
    · simp [sampleProgram, sampleProduct, Statement.value, Expr.RootFree, Term.RootFree,
        Factor.RootFree, Expr.ofFactor, Expr.ofTerm]
    · simp [sampleProgram, sampleProduct, Statement.names, Statement.target?, Statement.value,
        Expr.variables, Term.variables, Factor.variables, Expr.ofFactor, Expr.ofTerm, isName]
  have half : Number.WrittenAs (.float 2.5) "2.5" := by
    refine .float (List.all_eq_true.mp (by decide)) ?_
    have denotes : Number.ofLiteral? "2.5" =
        some (.float (Magnitude.toFloat false (Decimal.nearest ⟨25, -1⟩))) := rfl
    have value : Magnitude.toFloat false (Decimal.nearest ⟨25, -1⟩) = 2.5 := by decide +kernel
    rw [denotes, value]
  have largest : Number.WrittenAs (.int Int64.maxValue) "9223372036854775807" := .int (by decide)
  have group : Factor.WrittenAs (.group (.ofFactor (.number (.int Int64.maxValue))))
      ["(", "9223372036854775807", ")"] :=
    ⟨["9223372036854775807"], ⟨[], _, .omitted, ⟨_, largest, rfl⟩, rfl⟩, rfl⟩
  have product : sampleProduct.WrittenAs ["-", "2.5", "*", "+", "(", "9223372036854775807", ")"] :=
    ⟨["-"], _, .minus, ⟨["2.5"], ["+"], _, ⟨_, half, rfl⟩, .plus, group, rfl⟩, rfl⟩
  have printed : Statement.WrittenAs (.print (.ofFactor (.variable "β1"))) [";", "β1", ";"] :=
    ⟨["β1"], ⟨[], ["β1"], .omitted, rfl, rfl⟩, rfl⟩
  have written : sampleProgram.WrittenAs sampleWords :=
    ⟨_, ⟨_, _, ⟨_, product, rfl⟩, ⟨_, _, printed, rfl, rfl⟩, rfl⟩, rfl⟩
  exact ⟨writable, written, read_written sampleProgram sampleWords writable written⟩

end BlockCalc
