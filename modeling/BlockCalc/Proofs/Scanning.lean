import BlockCalc.Token.Scanner

/-!
# Scanning is maximal-munch decomposition

A source decomposes into lexemes with gaps between them. What may follow a gap or a lexeme is part
of the decomposition: a comment reaches to the end of its line, and a name or a number is not
followed by a character that would continue it. A step of the scanner passes exactly one gap and
one lexeme, so that a source is cut into the tokens of its decomposition, and there is only one.
-/
namespace BlockCalc
open Character

/-- Spaces, tabs, newlines and comments in front of `after`. A comment goes from `#` up to but not
including the next newline, or to the end. -/
inductive Gap : (text after : List Char) → Prop
  | none {after : List Char} : Gap [] after
  | blank {c : Char} {text after : List Char} (blank : c = ' ' ∨ c = '\t' ∨ c = '\n')
      (tail : Gap text after) : Gap (c :: text) after
  | comment {body text after : List Char} (inside : '\n' ∉ body)
      (ends : ∀ c ∈ (text ++ after).head?, c = '\n') (tail : Gap text after) :
      Gap ('#' :: (body ++ text)) after

/-- The tokens that are a single character. -/
def symbols : List (Char × TokenKind) :=
  [('(', .openParen), (')', .closeParen), ('{', .openBrace), ('}', .closeBrace), ('+', .plus),
    ('-', .minus), ('*', .times), ('/', .over), ('√', .root), (';', .semicolon), ('=', .equals)]

/-- A letter followed by letters and numerals. -/
def IsWord (text : List Char) : Prop :=
  ∃ c rest, text = c :: rest ∧ isLetter c = true ∧ ∀ d ∈ rest, isLetterOrNumeral d = true

/-- No character of a class comes next. -/
def NotNext (p : Char → Bool) (after : List Char) : Prop := ∀ c ∈ after.head?, p c = false

/-- The text is a token of the kind in front of `after`, which does not continue it. -/
inductive Lexeme : (text : List Char) → TokenKind → (after : List Char) → Prop
  | keyword {after : List Char} (ends : NotNext isLetterOrNumeral after) :
      Lexeme ['n', 'u', 'm'] .num after
  | name {text after : List Char} (word : IsWord text) (other : text ≠ ['n', 'u', 'm'])
      (ends : NotNext isLetterOrNumeral after) : Lexeme text .name after
  | number {text after : List Char} {value : Number} (run : ∀ c ∈ text, isDigitOrPoint c = true)
      (denotes : Number.ofLiteral? (.ofList text) = some value)
      (ends : NotNext isDigitOrPoint after) : Lexeme text (.number value) after
  | symbol {c : Char} {kind : TokenKind} {after : List Char} (listed : (c, kind) ∈ symbols) :
      Lexeme [c] kind after

/-- A lexeme with its kind and the gap before it. -/
structure Piece where
  gap : List Char
  lexeme : List Char
  kind : TokenKind

/-- The text is made up of the pieces and a gap at the end. -/
inductive Decomposes : (text : List Char) → List Piece → (last : List Char) → Prop
  | finish {last : List Char} (gap : Gap last []) : Decomposes last [] last
  | piece {gap lexeme rest last : List Char} {kind : TokenKind} {pieces : List Piece}
      (separates : Gap gap (lexeme ++ rest)) (munched : Lexeme lexeme kind rest)
      (tail : Decomposes rest pieces last) :
      Decomposes (gap ++ (lexeme ++ rest)) (⟨gap, lexeme, kind⟩ :: pieces) last

/-- The tokens of pieces that begin after some number of characters. -/
def tokensOf (offset : Nat) : List Piece → List Token
  | [] => []
  | p :: rest =>
    ⟨p.kind, .ofList p.lexeme, offset + p.gap.length⟩ ::
      tokensOf (offset + p.gap.length + p.lexeme.length) rest

theorem isBlank_iff {c : Char} : isBlank c = true ↔ c = ' ' ∨ c = '\t' ∨ c = '\n' := by
  simp [isBlank, or_assoc]

/-- The first letter of all is `A`. -/
theorem isLetter_eq_false {c : Char} (below : c.toNat < 0x41) : isLetter c = false := by
  have ranges : alphabeticRanges = (0x41, 0x5A) :: alphabeticRanges.tail := rfl
  rw [isLetter, ranges, covers, if_pos below]

theorem isLetter_of_isDigitOrPoint {c : Char} (digit : isDigitOrPoint c = true) :
    isLetter c = false := by
  refine isLetter_eq_false ?_
  rcases Bool.or_eq_true_iff.mp digit with digit | point
  · exact Nat.lt_of_le_of_lt (Char.isDigit_iff_toNat.mp digit).2 (by decide)
  · rw [beq_iff_eq.mp point]
    decide

/-- A character that begins a token: neither a blank nor the mark of a comment. -/
def BeginsToken (c : Char) : Prop := c ≠ '#' ∧ isBlank c = false

theorem beginsToken_of_class {p : Char → Bool} (mark : p '#' = false) (space : p ' ' = false)
    (tab : p '\t' = false) (newline : p '\n' = false) {c : Char} (holds : p c = true) :
    BeginsToken c := by
  have outside {d : Char} (other : p d = false) : c ≠ d := by
    rintro rfl
    rw [other] at holds
    cases holds
  refine ⟨outside mark, Bool.eq_false_iff.mpr ?_⟩
  rw [Ne, isBlank_iff]
  rintro (same | same | same)
  · exact outside space same
  · exact outside tab same
  · exact outside newline same

theorem beginsToken_of_isLetter {c : Char} (letter : isLetter c = true) : BeginsToken c :=
  beginsToken_of_class (isLetter_eq_false (by decide)) (isLetter_eq_false (by decide))
    (isLetter_eq_false (by decide)) (isLetter_eq_false (by decide)) letter

theorem beginsToken_of_isDigitOrPoint {c : Char} (digit : isDigitOrPoint c = true) :
    BeginsToken c :=
  beginsToken_of_class (by decide) (by decide) (by decide) (by decide) digit

namespace Scanner

theorem mem_symbols_of_symbol? {c : Char} {kind : TokenKind} (found : symbol? c = some kind) :
    (c, kind) ∈ symbols := by
  unfold symbol? at found
  split at found <;> cases found <;> simp [symbols]

theorem symbol?_of_mem {c : Char} {kind : TokenKind} (listed : (c, kind) ∈ symbols) :
    symbol? c = some kind := by
  simp only [symbols, List.mem_cons, List.not_mem_nil, or_false, Prod.mk.injEq] at listed
  rcases listed with ⟨rfl, rfl⟩ | ⟨rfl, rfl⟩ | ⟨rfl, rfl⟩ | ⟨rfl, rfl⟩ | ⟨rfl, rfl⟩ | ⟨rfl, rfl⟩ |
    ⟨rfl, rfl⟩ | ⟨rfl, rfl⟩ | ⟨rfl, rfl⟩ | ⟨rfl, rfl⟩ | ⟨rfl, rfl⟩ <;> rfl

/-- A symbol belongs to no other class of characters. -/
theorem symbol_class {c : Char} {kind : TokenKind} (listed : (c, kind) ∈ symbols) :
    BeginsToken c ∧ isLetter c = false ∧ isDigitOrPoint c = false := by
  have classes : symbols.all (fun s => s.1 != '#' && !isBlank s.1 && !isLetter s.1 &&
      !isDigitOrPoint s.1) = true := by decide +kernel
  have own := List.all_eq_true.mp classes (c, kind) listed
  simpa [BeginsToken, and_assoc] using own

theorem afterGap_of_begins {after : List Char} (begins : ∀ c ∈ after.head?, BeginsToken c)
    (offset : Nat) : afterGap false offset after = ⟨after, offset⟩ := by
  cases after with
  | nil => rfl
  | cons c rest =>
    obtain ⟨mark, blank⟩ := begins c rfl
    simp [afterGap, mark, blank]

/-- Inside a comment everything is passed up to the next newline. -/
theorem afterGap_comment {body : List Char} (inside : '\n' ∉ body) (offset : Nat)
    {rest : List Char} (ends : ∀ c ∈ rest.head?, c = '\n') :
    afterGap true offset (body ++ rest) = afterGap false (offset + body.length) rest := by
  induction body generalizing offset with
  | nil =>
    cases rest with
    | nil => rfl
    | cons c tail =>
      obtain rfl := ends c rfl
      simp [afterGap, isBlank]
  | cons c tail ih =>
    simp only [List.mem_cons, not_or] at inside
    have other : (c != '\n') = true := bne_iff_ne.mpr (Ne.symm inside.1)
    rw [List.cons_append, afterGap, if_pos rfl, other, ih inside.2, List.length_cons,
      Nat.add_right_comm, Nat.add_assoc]

/-- A gap is passed whatever stands behind it. -/
theorem afterGap_append {gap after : List Char} (passed : Gap gap after) (offset : Nat) :
    afterGap false offset (gap ++ after) = afterGap false (offset + gap.length) after := by
  induction passed generalizing offset with
  | none => rfl
  | @blank c text after blank tail ih =>
    have mark : c ≠ '#' := by
      rintro rfl
      revert blank
      decide
    rw [List.cons_append, afterGap, if_neg Bool.false_ne_true, if_neg mark,
      if_pos (isBlank_iff.mpr blank), ih, List.length_cons, Nat.add_right_comm, Nat.add_assoc]
  | @comment body text after inside ends tail ih =>
    rw [List.cons_append, List.append_assoc, afterGap, if_neg Bool.false_ne_true, if_pos rfl,
      afterGap_comment inside _ ends, ih]
    simp only [List.length_cons, List.length_append]
    congr 1
    omega

theorem afterGap_of_gap {gap after : List Char} (passed : Gap gap after)
    (begins : ∀ c ∈ after.head?, BeginsToken c) (offset : Nat) :
    afterGap false offset (gap ++ after) = ⟨after, offset + gap.length⟩ := by
  rw [afterGap_append passed, afterGap_of_begins begins]

/-- What is passed before a token is a gap; inside a comment, it is the rest of the comment and a
gap. -/
theorem exists_gap_afterGap (offset : Nat) (cs : List Char) :
    (∃ gap, Gap gap (afterGap false offset cs).ahead ∧
      cs = gap ++ (afterGap false offset cs).ahead ∧
      (afterGap false offset cs).offset = offset + gap.length) ∧
    ∃ body gap, '\n' ∉ body ∧ Gap gap (afterGap true offset cs).ahead ∧
      (∀ c ∈ (gap ++ (afterGap true offset cs).ahead).head?, c = '\n') ∧
      cs = body ++ (gap ++ (afterGap true offset cs).ahead) ∧
      (afterGap true offset cs).offset = offset + body.length + gap.length := by
  induction cs generalizing offset with
  | nil =>
    exact ⟨⟨[], .none, rfl, rfl⟩, [], [], List.not_mem_nil, .none, by simp [afterGap], rfl, rfl⟩
  | cons c rest ih =>
    obtain ⟨⟨gap, passed, text, stop⟩, body, inner, inside, commented, ends, text', stop'⟩ :=
      ih (offset + 1)
    constructor
    · rw [afterGap, if_neg Bool.false_ne_true]
      split
      · next mark =>
        refine ⟨'#' :: (body ++ inner), .comment inside ends commented, ?_, ?_⟩
        · rw [mark, List.cons_append, List.append_assoc, ← text']
        · rw [stop', List.length_cons, List.length_append]
          omega
      · split
        · next blank =>
          refine ⟨c :: gap, .blank (isBlank_iff.mp blank) passed, ?_, ?_⟩
          · rw [List.cons_append, ← text]
          · rw [stop, List.length_cons]
            omega
        · exact ⟨[], .none, rfl, rfl⟩
    · rw [afterGap, if_pos rfl]
      by_cases newline : c = '\n'
      · -- The newline ends the comment and begins a gap.
        subst newline
        rw [bne_self_eq_false]
        refine ⟨[], '\n' :: gap, List.not_mem_nil, .blank (.inr (.inr rfl)) passed, ?_, ?_, ?_⟩
        · rintro c ⟨⟩
          rfl
        · rw [List.nil_append, List.cons_append, ← text]
        · rw [stop, List.length_cons, List.length_nil]
          omega
      · rw [bne_iff_ne.mpr newline]
        refine ⟨c :: body, inner, ?_, commented, ends, ?_, ?_⟩
        · simp only [List.mem_cons, not_or]
          exact ⟨Ne.symm newline, inside⟩
        · rw [List.cons_append, ← text']
        · rw [stop', List.length_cons]
          omega

/-! ## Taking a lexeme -/

theorem run_eq {p : Char → Bool} {text after : List Char} (all : ∀ c ∈ text, p c = true)
    (ends : NotNext p after) (offset : Nat) : run ⟨text ++ after, offset⟩ p = text := by
  have none : after.takeWhile p = [] := by
    cases after with
    | nil => rfl
    | cons c rest => rw [List.takeWhile_cons, ends c rfl, if_neg Bool.false_ne_true]
  rw [run, List.takeWhile_append_of_pos all, none, List.append_nil]

theorem ahead_eq_run_append (s : Scanner) (p : Char → Bool) :
    s.ahead = s.run p ++ (s.advance (s.run p).length).ahead ∧
      NotNext p (s.advance (s.run p).length).ahead := by
  have split : s.run p ++ s.ahead.dropWhile p = s.ahead := List.takeWhile_append_dropWhile
  have rest : (s.advance (s.run p).length).ahead = s.ahead.dropWhile p :=
    calc
      s.ahead.drop (s.run p).length = (s.run p ++ s.ahead.dropWhile p).drop (s.run p).length := by
        rw [split]
      _ = s.ahead.dropWhile p := List.drop_left
  rw [rest]
  refine ⟨split.symm, ?_⟩
  intro c first
  have stops := List.head?_dropWhile_not p s.ahead
  rw [first] at stops
  exact stops

theorem mem_run {s : Scanner} {p : Char → Bool} {c : Char} (member : c ∈ s.run p) : p c = true :=
  List.all_eq_true.mp List.all_takeWhile c member

theorem wordKind_ofList {text : List Char} (other : text ≠ ['n', 'u', 'm']) :
    wordKind (.ofList text) = .name := by
  refine if_neg fun same => other ?_
  rw [← String.toList_ofList (l := text), same]
  rfl

theorem isLetterOrNumeral_of_isLetter {c : Char} (letter : isLetter c = true) :
    isLetterOrNumeral c = true := by
  rw [isLetterOrNumeral, letter, Bool.true_or]

theorem word_of_run {text after : List Char} (word : IsWord text)
    (ends : NotNext isLetterOrNumeral after) (offset : Nat) :
    nextHere ⟨text ++ after, offset⟩ =
      (.ok ⟨wordKind (.ofList text), .ofList text, offset⟩, ⟨after, offset + text.length⟩) := by
  obtain ⟨c, rest, rfl, letter, body⟩ := word
  have all : ∀ d ∈ c :: rest, isLetterOrNumeral d = true := by
    intro d member
    rcases List.mem_cons.mp member with rfl | member
    · exact isLetterOrNumeral_of_isLetter letter
    · exact body d member
  have taken := run_eq all ends offset
  rw [nextHere]
  simp only [List.cons_append, letter, if_true] at taken ⊢
  rw [Scanner.word, taken, advance, ← List.cons_append, List.drop_left]

theorem nextHere_of_lexeme {text after : List Char} {kind : TokenKind}
    (lexeme : Lexeme text kind after) (offset : Nat) :
    nextHere ⟨text ++ after, offset⟩ =
      (.ok ⟨kind, .ofList text, offset⟩, ⟨after, offset + text.length⟩) := by
  cases lexeme with
  | keyword ends =>
    have word : IsWord ['n', 'u', 'm'] :=
      ⟨'n', ['u', 'm'], rfl, by decide, List.all_eq_true.mp (by decide)⟩
    exact word_of_run word ends offset
  | name word other ends =>
    rw [word_of_run word ends offset, wordKind_ofList other]
  | number run denotes ends =>
    have taken := run_eq run ends offset
    cases text with
    | nil =>
      have none : Number.ofLiteral? (.ofList []) = none := rfl
      rw [none] at denotes
      cases denotes
    | cons c rest =>
      have digit := run c List.mem_cons_self
      rw [nextHere]
      simp only [List.cons_append, isLetter_of_isDigitOrPoint digit, digit, if_true,
        Bool.false_eq_true, if_false] at taken ⊢
      rw [Scanner.number, taken, denotes, advance, ← List.cons_append, List.drop_left]
  | symbol listed =>
    obtain ⟨_, letter, digit⟩ := symbol_class listed
    rw [nextHere]
    simp only [List.cons_append, List.nil_append, letter, digit, Bool.false_eq_true, if_false]
    rw [Scanner.symbol, symbol?_of_mem listed]
    rfl

theorem lexeme_of_nextHere {s s' : Scanner} {t : Token} (some_ahead : s.ahead ≠ [])
    (step : s.nextHere = (.ok t, s')) :
    ∃ text, Lexeme text t.kind s'.ahead ∧ s.ahead = text ++ s'.ahead ∧
      t = ⟨t.kind, .ofList text, s.offset⟩ ∧ s'.offset = s.offset + text.length := by
  rw [nextHere] at step
  split at step
  · next empty => exact absurd empty some_ahead
  · next c rest ahead =>
    split at step
    · next letter =>
      cases step
      obtain ⟨split, ends⟩ := ahead_eq_run_append s isLetterOrNumeral
      refine ⟨s.run isLetterOrNumeral, ?_, split, rfl, rfl⟩
      have word : IsWord (s.run isLetterOrNumeral) := by
        refine ⟨c, rest.takeWhile isLetterOrNumeral, ?_, letter, ?_⟩
        · rw [run, ahead, List.takeWhile_cons, if_pos (isLetterOrNumeral_of_isLetter letter)]
        · exact List.all_eq_true.mp List.all_takeWhile
      by_cases keyword : s.run isLetterOrNumeral = ['n', 'u', 'm']
      · simp only [Scanner.word, keyword] at ends ⊢
        exact .keyword ends
      · simp only [Scanner.word, wordKind_ofList keyword]
        exact .name word keyword ends
    · split at step
      · next digit =>
        obtain ⟨split, ends⟩ := ahead_eq_run_append s isDigitOrPoint
        rw [number, Prod.mk.injEq] at step
        obtain ⟨taken, rfl⟩ := step
        cases denotes : Number.ofLiteral? (.ofList (s.run isDigitOrPoint)) with
        | none =>
          rw [denotes] at taken
          cases taken
        | some value =>
          rw [denotes] at taken
          cases taken
          exact ⟨s.run isDigitOrPoint, .number (fun _ => mem_run) denotes ends, split, rfl, rfl⟩
      · rw [symbol] at step
        split at step
        · next kind found =>
          cases step
          refine ⟨[c], .symbol (mem_symbols_of_symbol? found), ?_, ?_, rfl⟩
          · simp [advance, ahead]
          · rw [← String.singleton_eq_ofList]
            rfl
        · cases step

end Scanner

theorem Lexeme.begins {text after : List Char} {kind : TokenKind}
    (lexeme : Lexeme text kind after) : ∀ c ∈ (text ++ after).head?, BeginsToken c := by
  cases lexeme with
  | keyword _ =>
    rintro _ ⟨⟩
    exact beginsToken_of_isLetter (by decide)
  | name word _ _ =>
    obtain ⟨c, rest, rfl, letter, _⟩ := word
    rintro _ ⟨⟩
    exact beginsToken_of_isLetter letter
  | number run denotes _ =>
    cases text with
    | nil => cases denotes
    | cons c rest =>
      rintro _ ⟨⟩
      exact beginsToken_of_isDigitOrPoint (run c List.mem_cons_self)
  | symbol listed =>
    rintro _ ⟨⟩
    exact (Scanner.symbol_class listed).1

theorem Lexeme.ne_nil {text after : List Char} {kind : TokenKind}
    (lexeme : Lexeme text kind after) : text ≠ [] := by
  cases lexeme with
  | keyword _ => simp
  | name word _ _ =>
    obtain ⟨c, rest, rfl, -, -⟩ := word
    simp
  | number _ denotes _ =>
    rintro rfl
    cases denotes
  | symbol _ => simp

theorem Lexeme.isFinish_eq_false {text after : List Char} {kind : TokenKind}
    (lexeme : Lexeme text kind after) : kind.isFinish = false := by
  cases lexeme with
  | keyword _ => rfl
  | name _ _ _ => rfl
  | number _ _ _ => rfl
  | symbol listed =>
    have none : ∀ p ∈ symbols, p.2.isFinish = false := by decide
    exact none _ listed

namespace Scanner

/-! ## One step and all steps -/

theorem next_of_piece {gap text after : List Char} {kind : TokenKind}
    (passed : Gap gap (text ++ after)) (lexeme : Lexeme text kind after) (offset : Nat) :
    next ⟨gap ++ (text ++ after), offset⟩ =
      (.ok ⟨kind, .ofList text, offset + gap.length⟩,
        ⟨after, offset + gap.length + text.length⟩) := by
  rw [next, skipGap, afterGap_of_gap passed lexeme.begins, nextHere_of_lexeme lexeme]

theorem next_of_last {last : List Char} (passed : Gap last []) (offset : Nat) :
    next ⟨last, offset⟩ = (.ok (.finish (offset + last.length)), ⟨[], offset + last.length⟩) := by
  have skipped := afterGap_of_gap passed (by simp) offset
  rw [List.append_nil] at skipped
  rw [next, skipGap, skipped]
  rfl

/-- A step that gives a token passes a gap and a lexeme, or the gap at the end. -/
theorem piece_or_last_of_next {s s' : Scanner} {t : Token} (step : s.next = (.ok t, s')) :
    (∃ gap text, Gap gap (text ++ s'.ahead) ∧ Lexeme text t.kind s'.ahead ∧
      s.ahead = gap ++ (text ++ s'.ahead) ∧ t = ⟨t.kind, .ofList text, s.offset + gap.length⟩ ∧
      s'.offset = s.offset + gap.length + text.length) ∨
    (Gap s.ahead [] ∧ t = .finish (s.offset + s.ahead.length)) := by
  obtain ⟨⟨gap, passed, split, start⟩, _⟩ := exists_gap_afterGap s.offset s.ahead
  by_cases empty : s.skipGap.ahead = []
  · right
    rw [← skipGap, empty, List.append_nil] at split
    rw [← skipGap, empty, ← split] at passed
    rw [next, nextHere, empty] at step
    cases step
    refine ⟨passed, congrArg Token.finish ?_⟩
    rw [split]
    exact start
  · left
    obtain ⟨text, lexeme, here, token, stop⟩ := lexeme_of_nextHere empty step
    rw [skipGap] at here token stop
    rw [here] at passed split
    rw [start] at token stop
    exact ⟨gap, text, passed, lexeme, split, token, stop⟩

/-- A text with a lexeme in it is not a gap. -/
theorem not_gap_of_piece {gap text after : List Char} {kind : TokenKind}
    (passed : Gap gap (text ++ after)) (lexeme : Lexeme text kind after) :
    ¬ Gap (gap ++ (text ++ after)) [] := by
  intro last
  have outcome := (next_of_last last 0).symm.trans (next_of_piece passed lexeme 0)
  simp only [Prod.mk.injEq, Except.ok.injEq, Token.finish, Token.mk.injEq] at outcome
  have going := lexeme.isFinish_eq_false
  rw [← outcome.1.1] at going
  cases going

theorem tokens_of_next {s s' : Scanner} {t : Token} (step : s.next = (.ok t, s'))
    (going : t.kind.isFinish = false) : s.tokens = s'.tokens.map (t :: ·) := by
  rw [tokens]
  split
  · next failed => cases step.symm.trans failed
  · next same =>
    cases step.symm.trans same
    rw [dif_pos going]

theorem tokens_of_last {s s' : Scanner} {t : Token} (step : s.next = (.ok t, s'))
    (done : t.kind.isFinish = true) : s.tokens = .ok [t] := by
  rw [tokens]
  split
  · next failed => cases step.symm.trans failed
  · next same =>
    cases step.symm.trans same
    rw [dif_neg (by simp [done])]

theorem tokens_of_error {s s' : Scanner} {e : ScanError} (step : s.next = (.error e, s')) :
    s.tokens = .error e := by
  rw [tokens]
  split
  · next failed =>
    cases step.symm.trans failed
    rfl
  · next same => cases step.symm.trans same

theorem tokens_of_decomposes {text last : List Char} {pieces : List Piece}
    (decomposes : Decomposes text pieces last) (offset : Nat) :
    tokens ⟨text, offset⟩ = .ok (tokensOf offset pieces ++ [.finish (offset + text.length)]) := by
  induction decomposes generalizing offset with
  | finish gap => exact tokens_of_last (next_of_last gap offset) rfl
  | @piece gap lexeme rest last kind pieces separates munched tail ih =>
    rw [tokens_of_next (next_of_piece separates munched offset) munched.isFinish_eq_false, ih]
    simp only [Except.map, tokensOf, List.cons_append, List.length_append, Nat.add_assoc]

theorem decomposes_of_tokens {s : Scanner} {ts : List Token} (cut : s.tokens = .ok ts) :
    ∃ pieces last, Decomposes s.ahead pieces last := by
  cases step : s.next with
  | mk outcome s' =>
    cases outcome with
    | error e => rw [tokens_of_error step] at cut; cases cut
    | ok t =>
      rcases piece_or_last_of_next step with ⟨gap, text, passed, lexeme, split, _, _⟩ | ⟨gap, _⟩
      · have going := lexeme.isFinish_eq_false
        rw [tokens_of_next step going] at cut
        cases rest : s'.tokens with
        | error e => rw [rest] at cut; cases cut
        | ok others =>
          have := length_next_lt step going
          obtain ⟨pieces, last, tail⟩ := decomposes_of_tokens rest
          rw [split]
          exact ⟨_, last, .piece passed lexeme tail⟩
      · exact ⟨[], s.ahead, .finish gap⟩
termination_by s.ahead.length

end Scanner

/-- A text has at most one decomposition, because the next step of the scanner is determined. -/
theorem Decomposes.unique {text last last' : List Char} {pieces pieces' : List Piece}
    (one : Decomposes text pieces last) (two : Decomposes text pieces' last') :
    pieces = pieces' ∧ last = last' := by
  induction one generalizing pieces' with
  | finish gap =>
    cases two with
    | finish _ => exact ⟨rfl, rfl⟩
    | piece separates munched _ =>
      exact absurd gap (Scanner.not_gap_of_piece separates munched)
  | @piece gap lexeme rest last kind pieces separates munched tail ih =>
    have step := Scanner.next_of_piece separates munched 0
    have some_lexeme := Scanner.not_gap_of_piece separates munched
    generalize same : gap ++ (lexeme ++ rest) = text at two step some_lexeme
    cases two with
    | finish gap' => exact absurd gap' some_lexeme
    | @piece gap' lexeme' rest' _ kind' pieces' separates' munched' tail' =>
      have outcome := step.symm.trans (Scanner.next_of_piece separates' munched' 0)
      simp only [Prod.mk.injEq, Except.ok.injEq, Token.mk.injEq, Scanner.mk.injEq,
        String.ofList_inj, Nat.zero_add] at outcome
      obtain ⟨⟨rfl, rfl, long⟩, rfl, _⟩ := outcome
      obtain rfl := (List.append_inj same long).1
      obtain ⟨rfl, rfl⟩ := ih tail'
      exact ⟨rfl, rfl⟩

/-- The tokens of a decomposed text that begins after some number of characters. -/
def tokensWithEnd (offset : Nat) (text : List Char) (pieces : List Piece) : List Token :=
  tokensOf offset pieces ++ [.finish (offset + text.length)]

theorem Scanner.pieces_of_tokens {s : Scanner} {ts : List Token} (cut : s.tokens = .ok ts) :
    ∃ pieces last, Decomposes s.ahead pieces last ∧ ts = tokensWithEnd s.offset s.ahead pieces := by
  obtain ⟨pieces, last, decomposes⟩ := decomposes_of_tokens cut
  exact ⟨pieces, last, decomposes,
    Except.ok.inj (cut.symm.trans (tokens_of_decomposes decomposes s.offset))⟩

theorem decomposes_of_scan {source : String} {ts : List Token} (cut : scan source = .ok ts) :
    ∃ pieces last, Decomposes source.toList pieces last ∧
      ts = tokensWithEnd 0 source.toList pieces :=
  Scanner.pieces_of_tokens cut

/-- A source is cut into exactly the tokens of its decomposition into gaps and longest lexemes,
followed by one end token behind its last character. The decomposition is unique. -/
theorem scan_iff_decomposes (source : String) (ts : List Token) :
    (scan source = .ok ts ↔ ∃ pieces last, Decomposes source.toList pieces last ∧
      ts = tokensOf 0 pieces ++ [.finish source.length]) ∧
    ∀ pieces last pieces' last', Decomposes source.toList pieces last →
      Decomposes source.toList pieces' last' → pieces = pieces' ∧ last = last' := by
  have cut {pieces : List Piece} {last : List Char}
      (decomposes : Decomposes source.toList pieces last) :
      scan source = .ok (tokensOf 0 pieces ++ [.finish source.length]) := by
    rw [scan, Scanner.ofSource, Scanner.tokens_of_decomposes decomposes 0, Nat.zero_add,
      String.length_toList]
  refine ⟨⟨?_, ?_⟩, fun _ _ _ _ one two => one.unique two⟩
  · intro ok
    obtain ⟨pieces, last, decomposes⟩ := Scanner.decomposes_of_tokens ok
    have same := ok.symm.trans (cut decomposes)
    cases same
    exact ⟨pieces, last, decomposes, rfl⟩
  · rintro ⟨pieces, last, decomposes, rfl⟩
    exact cut decomposes

end BlockCalc
