import BlockCalc.Proofs.Offsets
import BlockCalc.Proofs.Scanning
import BlockCalc.Session

/-!
# Spacing never changes meaning

Blanks and closed comments can be put in front of every token and at the end of a source. The source
is then cut into the same tokens, those from there on moved by the length of what was put in
(`scan_insertAt`), and runs in the same way (`execute_insertAt`): only the offset in a parse error
can tell the difference.
-/
namespace BlockCalc
open Character

/-- Spaces, tabs, newlines and comments, each comment with the newline that ends it. -/
inductive ClosedGap : List Char → Prop
  | none : ClosedGap []
  | blank {c : Char} {text : List Char} (blank : c = ' ' ∨ c = '\t' ∨ c = '\n')
      (tail : ClosedGap text) : ClosedGap (c :: text)
  | comment {body text : List Char} (inside : '\n' ∉ body) (tail : ClosedGap text) :
      ClosedGap ('#' :: (body ++ '\n' :: text))

theorem not_beginsToken_of_blank {c : Char} (blank : c = ' ' ∨ c = '\t' ∨ c = '\n') :
    ¬ BeginsToken c := by
  rintro ⟨-, other⟩
  rw [isBlank_iff.mpr blank] at other
  cases other

theorem ClosedGap.head {gap : List Char} (closed : ClosedGap gap) :
    ∀ c ∈ gap.head?, ¬ BeginsToken c := by
  cases closed with
  | none => simp
  | blank blank _ =>
    rintro _ ⟨⟩
    exact not_beginsToken_of_blank blank
  | comment _ _ =>
    rintro _ ⟨⟩
    exact fun begins => begins.1 rfl

theorem ClosedGap.gap {gap : List Char} (closed : ClosedGap gap) (after : List Char) :
    Gap gap after := by
  induction closed with
  | none => exact .none
  | blank blank _ ih => exact .blank blank ih
  | comment inside _ ih => exact .comment inside (by simp) (.blank (.inr (.inr rfl)) ih)

/-- Behind an open comment, a closed gap goes on with the comment up to its first newline. -/
theorem ClosedGap.split {gap : List Char} (closed : ClosedGap gap) :
    ∃ body rest, gap = body ++ rest ∧ '\n' ∉ body ∧ (∀ c ∈ rest.head?, c = '\n') ∧
      ClosedGap rest := by
  induction closed with
  | none => exact ⟨[], [], rfl, by simp, by simp, .none⟩
  | @blank c text blank tail ih =>
    by_cases newline : c = '\n'
    · exact ⟨[], c :: text, rfl, by simp, by simp [newline], .blank blank tail⟩
    · obtain ⟨body, rest, rfl, inside, ends, closed⟩ := ih
      exact ⟨c :: body, rest, rfl, by simp [Ne.symm newline, inside], ends, closed⟩
  | @comment body text inside tail ih =>
    exact ⟨'#' :: body, '\n' :: text, rfl, by simp [inside], by simp,
      .blank (.inr (.inr rfl)) tail⟩

/-- A closed gap can be added to a gap, whether a token or the end follows. -/
theorem Gap.append_closed {gap more after : List Char} (passed : Gap gap after)
    (begins : ∀ c ∈ after.head?, BeginsToken c) (closed : ClosedGap more) :
    Gap (gap ++ more) after := by
  induction passed with
  | none => exact closed.gap _
  | blank blank _ ih => exact .blank blank (ih begins)
  | @comment body text after inside ends _ ih =>
    rw [List.cons_append, List.append_assoc]
    cases text with
    | cons c tail =>
      obtain rfl : c = '\n' := ends c rfl
      exact .comment inside (by simp) (ih begins)
    | nil =>
      cases after with
      | cons c tail =>
        obtain rfl : c = '\n' := ends c rfl
        exact absurd (begins '\n' rfl) (not_beginsToken_of_blank (.inr (.inr rfl)))
      | nil =>
        -- the comment is open at the end and takes in what comes before the first newline
        obtain ⟨start, rest, rfl, plain, newline, ended⟩ := closed.split
        rw [List.nil_append, ← List.append_assoc]
        exact .comment (by simp [inside, plain]) (by simpa using newline) (ended.gap [])

/-- The text with more characters put in after the first `i`. -/
def inserted (i : Nat) (more text : List Char) : List Char := text.take i ++ (more ++ text.drop i)

theorem inserted_append (i : Nat) (more front text : List Char) :
    inserted (front.length + i) more (front ++ text) = front ++ inserted i more text := by
  simp [inserted, List.take_length_add_append, List.drop_length_add_append]

/-- Put in behind a gap, the text makes the gap longer. -/
theorem inserted_behind (offset : Nat) (gap more text : List Char) :
    inserted (offset + gap.length - offset) more (gap ++ text) = (gap ++ more) ++ text := by
  simp [inserted]

/-- Put in behind a gap and a lexeme, the text is put into what comes after them. -/
theorem inserted_beyond {i offset : Nat} {gap lexeme : List Char}
    (beyond : offset + gap.length + lexeme.length ≤ i) (more text : List Char) :
    inserted (i - offset) more (gap ++ (lexeme ++ text)) =
      gap ++ (lexeme ++ inserted (i - (offset + gap.length + lexeme.length)) more text) := by
  have distance : i - offset = gap.length +
      (lexeme.length + (i - (offset + gap.length + lexeme.length))) := by omega
  rw [distance, inserted_append, inserted_append]

theorem head?_inserted {i : Nat} {more text : List Char} {c : Char}
    (first : c ∈ (inserted i more text).head?) : c ∈ text.head? ∨ c ∈ more.head? := by
  cases text with
  | nil =>
    right
    simpa [inserted] using first
  | cons d rest =>
    cases i with
    | zero =>
      cases more with
      | nil => exact .inl first
      | cons e others => exact .inr first
    | succ i => exact .inl first

/-- What may follow a lexeme may also be a gap. -/
theorem Lexeme.replace {text after other : List Char} {kind : TokenKind}
    (lexeme : Lexeme text kind after)
    (heads : ∀ c ∈ other.head?, c ∈ after.head? ∨ ¬ BeginsToken c) : Lexeme text kind other := by
  have notNext {p : Char → Bool} (begins : ∀ c, p c = true → BeginsToken c)
      (ends : NotNext p after) : NotNext p other := by
    intro c first
    rcases heads c first with same | gap
    · exact ends c same
    · exact Bool.eq_false_iff.mpr fun holds => gap (begins c holds)
  have word (c : Char) : isLetterOrNumeral c = true → BeginsToken c :=
    beginsToken_of_class (by decide) (by decide) (by decide) (by decide)
  have digit (c : Char) : isDigitOrPoint c = true → BeginsToken c := beginsToken_of_isDigitOrPoint
  cases lexeme with
  | keyword ends => exact .keyword (notNext word ends)
  | name isWord different ends => exact .name isWord different (notNext word ends)
  | number run denotes ends => exact .number run denotes (notNext digit ends)
  | symbol listed => exact .symbol listed

/-- A gap depends on the text after it by its first character only. A newline and the end of the
text can always follow it. -/
theorem Gap.replace {gap after other : List Char} (passed : Gap gap after)
    (heads : ∀ c ∈ other.head?, c ∈ after.head? ∨ c = '\n') : Gap gap other := by
  induction passed with
  | none => exact .none
  | blank blank _ ih => exact .blank blank (ih heads)
  | @comment body text after inside ends _ ih =>
    refine .comment inside ?_ (ih heads)
    cases text with
    | nil =>
      intro c first
      rcases heads c first with same | newline
      · exact ends c same
      · exact newline
    | cons d rest => exact ends

/-- Where an offset goes when `n` characters are put in at `i`. -/
def pushed (i n offset : Nat) : Nat := if i ≤ offset then offset + n else offset

theorem pushed_of_le {i n offset : Nat} (le : i ≤ offset) : pushed i n offset = offset + n :=
  if_pos le

theorem pushed_of_lt {i n offset : Nat} (lt : offset < i) : pushed i n offset = offset :=
  if_neg (Nat.not_le.mpr lt)

theorem tokensWithEnd_cons (offset : Nat) (gap lexeme rest : List Char) (kind : TokenKind)
    (pieces : List Piece) :
    tokensWithEnd offset (gap ++ (lexeme ++ rest)) (⟨gap, lexeme, kind⟩ :: pieces) =
      ⟨kind, .ofList lexeme, offset + gap.length⟩ ::
        tokensWithEnd (offset + gap.length + lexeme.length) rest pieces := by
  simp only [tokensWithEnd, tokensOf, List.cons_append, List.length_append, Nat.add_assoc]

theorem le_offset_of_mem {t : Token} {offset : Nat} {text last : List Char} {pieces : List Piece}
    (decomposes : Decomposes text pieces last) (member : t ∈ tokensWithEnd offset text pieces) :
    offset ≤ t.offset := by
  induction decomposes generalizing offset with
  | finish _ =>
    obtain rfl := List.mem_singleton.mp member
    exact Nat.le_add_right ..
  | piece _ _ _ ih =>
    rw [tokensWithEnd_cons] at member
    rcases List.mem_cons.mp member with rfl | later
    · exact Nat.le_add_right ..
    · have := ih later
      omega

/-- Tokens at `i` and behind it all move. -/
theorem tokensWithEnd_pushed {i offset : Nat} (le : i ≤ offset) (n : Nat) {text last : List Char}
    {pieces : List Piece} (decomposes : Decomposes text pieces last) :
    (tokensWithEnd offset text pieces).map (Token.moved (pushed i n)) =
      tokensWithEnd (offset + n) text pieces := by
  induction decomposes generalizing offset with
  | @finish last _ =>
    have stop : pushed i n (offset + last.length) = offset + n + last.length := by
      rw [pushed_of_le (by omega)]
      omega
    simp only [tokensWithEnd, tokensOf, List.nil_append, List.map_cons, List.map_nil, Token.moved,
      Token.finish, stop]
  | @piece gap lexeme rest _ kind pieces _ _ _ ih =>
    have start : pushed i n (offset + gap.length) = offset + n + gap.length := by
      rw [pushed_of_le (by omega)]
      omega
    have onward : offset + gap.length + lexeme.length + n =
        offset + n + gap.length + lexeme.length := by omega
    rw [tokensWithEnd_cons, tokensWithEnd_cons, List.map_cons, ih (by omega), onward, Token.moved,
      start]

/-- A closed gap put in at a token leaves a text that decomposes into the same tokens, those from
there on moved. -/
theorem Decomposes.insert {more : List Char} (closed : ClosedGap more) {text last : List Char}
    {pieces : List Piece} (decomposes : Decomposes text pieces last) {offset : Nat} {t : Token}
    (member : t ∈ tokensWithEnd offset text pieces) :
    ∃ pieces' last', Decomposes (inserted (t.offset - offset) more text) pieces' last' ∧
      tokensWithEnd offset (inserted (t.offset - offset) more text) pieces' =
        (tokensWithEnd offset text pieces).map (Token.moved (pushed t.offset more.length)) := by
  induction decomposes generalizing offset with
  | @finish last gap =>
    obtain rfl := List.mem_singleton.mp member
    have whole := inserted_behind offset last more []
    rw [List.append_nil, List.append_nil] at whole
    simp only [Token.finish, whole]
    refine ⟨[], last ++ more, .finish (gap.append_closed (by simp) closed), ?_⟩
    simp [tokensWithEnd, tokensOf, Token.moved, Token.finish, pushed, Nat.add_assoc]
  | @piece gap lexeme rest last kind pieces separates munched tail ih =>
    rw [tokensWithEnd_cons] at member ⊢
    rcases List.mem_cons.mp member with rfl | later
    · -- right in front of this lexeme
      simp only [inserted_behind]
      refine ⟨⟨gap ++ more, lexeme, kind⟩ :: pieces, last, ?_, ?_⟩
      · exact .piece (separates.append_closed munched.begins closed) munched tail
      · rw [tokensWithEnd_cons, List.map_cons, tokensWithEnd_pushed (by omega) _ tail]
        have start : pushed (offset + gap.length) more.length (offset + gap.length) =
            offset + (gap ++ more).length := by
          rw [pushed_of_le (Nat.le_refl _), List.length_append, Nat.add_assoc]
        have onward : offset + (gap ++ more).length + lexeme.length =
            offset + gap.length + lexeme.length + more.length := by
          rw [List.length_append]
          omega
        rw [Token.moved, start, onward]
    · -- further on, perhaps right behind this lexeme, which then ends there as it did
      obtain ⟨pieces', last', tail', tokens⟩ := ih later
      have beyond := le_offset_of_mem tail later
      have positive := List.length_pos_iff.mpr munched.ne_nil
      rw [inserted_beyond beyond]
      refine ⟨⟨gap, lexeme, kind⟩ :: pieces', last', ?_, ?_⟩
      · refine .piece (separates.replace ?_) (munched.replace ?_) tail'
        · obtain ⟨c, others, rfl⟩ := List.exists_cons_of_ne_nil munched.ne_nil
          exact fun d first => .inl first
        · intro c first
          exact (head?_inserted first).imp_right (closed.head c)
      · have stays : pushed t.offset more.length (offset + gap.length) = offset + gap.length :=
          pushed_of_lt (by omega)
        rw [tokensWithEnd_cons, tokens, List.map_cons, Token.moved, stays]

/-- The source with a text put in after its first `i` characters. -/
def insertAt (source : String) (i : Nat) (more : String) : String :=
  .ofList (inserted i more.toList source.toList)

/-- A source with a closed gap put in at a token is cut into the same tokens, those from there on
moved by the length of the gap. -/
theorem scan_insertAt {source gap : String} (closed : ClosedGap gap.toList) {ts : List Token}
    (cut : scan source = .ok ts) {t : Token} (member : t ∈ ts) :
    scan (insertAt source t.offset gap) =
      .ok (ts.map (Token.moved (pushed t.offset gap.length))) := by
  obtain ⟨pieces, last, decomposes, rfl⟩ := decomposes_of_scan cut
  obtain ⟨pieces', last', decomposes', tokens⟩ := decomposes.insert closed member
  rw [Nat.sub_zero] at decomposes' tokens
  rw [String.length_toList] at tokens
  rw [scan, Scanner.ofSource, insertAt, String.toList_ofList,
    Scanner.tokens_of_decomposes decomposes' 0]
  exact congrArg _ tokens

/-- Two outcomes that differ at most in the offset of a parse error. -/
inductive SameButOffset (place : Nat → Nat) :
    Except (Failure × Session) Session → Except (Failure × Session) Session → Prop
  | done (s : Session) : SameButOffset place (.ok s) (.ok s)
  | parse (e : ParseError) (s : Session) :
      SameButOffset place (.error (.parse e, s)) (.error (.parse (e.moved place), s))
  | runtime (e : RuntimeError) (s : Session) :
      SameButOffset place (.error (.runtime e, s)) (.error (.runtime e, s))

/-- Sources that are cut into the same tokens at other places run in the same way. -/
theorem Session.runSource_moved {source other : String} {ts : List Token} {place : Nat → Nat}
    (cut : scan source = .ok ts) (moved : scan other = .ok (ts.map (Token.moved place)))
    (s : Session) : SameButOffset place (s.runSource source) (s.runSource other) := by
  obtain ⟨pieces, last, -, rfl⟩ := decomposes_of_scan cut
  have read := Program.ofTokens_moved place (tokensOf 0 pieces)
    (.finish (0 + source.toList.length)) rfl
  rw [← tokensWithEnd] at read
  rw [runSource, runSource, cut, moved]
  simp only [read]
  cases Program.ofTokens (tokensWithEnd 0 source.toList pieces) with
  | error e => exact .parse e s
  | ok program =>
    have kept : Except.mapError (ParseError.moved place) (.ok program) = .ok program := rfl
    simp only [kept]
    cases s.run program with
    | error failure => exact .runtime failure.1 failure.2
    | ok s' => exact .done s'

/-- Spacing never changes meaning: a gap of blanks and closed comments, put in at a token or at the
end of a source, leaves the tokens as they are but for their offsets, and every run of the source
as it is but for the offset of a parse error. -/
theorem execute_insertAt (source gap : String) (ts : List Token) (i : Nat) (out : Sink)
    (cut : scan source = .ok ts) (boundary : i ∈ ts.map Token.offset)
    (closed : ClosedGap gap.toList) :
    scan (insertAt source i gap) = .ok (ts.map (Token.moved (pushed i gap.length))) ∧
    SameButOffset (pushed i gap.length) (execute source out)
      (execute (insertAt source i gap) out) := by
  obtain ⟨t, member, rfl⟩ := List.mem_map.mp boundary
  have moved := scan_insertAt closed cut member
  exact ⟨moved, Session.runSource_moved cut moved (.start out)⟩

/-- A source without blanks that is not a program, with an open comment at its end. -/
private def unspacedSource : String := "1a#x"

/-- The tokens of that source. -/
private def unspacedTokens : List Token :=
  [⟨.number (.int 1), "1", 0⟩, ⟨.name, "a", 1⟩, .finish 4]

/-- A gap with a comment in it. -/
private def commentGap : String := " #c\n"

-- The gap goes between the number and the name, where it leaves the offset of the error, and behind
-- the open comment.
theorem execute_insertAt_unspaced :
    (scan unspacedSource = .ok unspacedTokens ∧ ClosedGap commentGap.toList) ∧
    (scan (insertAt unspacedSource 1 commentGap) =
        .ok (unspacedTokens.map (Token.moved (pushed 1 commentGap.length))) ∧
      SameButOffset (pushed 1 commentGap.length) (execute unspacedSource (.empty none))
        (execute (insertAt unspacedSource 1 commentGap) (.empty none))) ∧
    scan (insertAt unspacedSource 4 commentGap) =
        .ok (unspacedTokens.map (Token.moved (pushed 4 commentGap.length))) ∧
      SameButOffset (pushed 4 commentGap.length) (execute unspacedSource (.empty none))
        (execute (insertAt unspacedSource 4 commentGap) (.empty none)) := by
  have one : Lexeme ['1'] (.number (.int 1)) ['a', '#', 'x'] :=
    .number (List.all_eq_true.mp rfl) rfl (by rintro c ⟨⟩; rfl)
  have name : Lexeme ['a'] .name ['#', 'x'] :=
    .name ⟨'a', [], rfl, by decide +kernel, List.forall_mem_nil _⟩ (by decide)
      (by rintro c ⟨⟩; decide +kernel)
  have comment : Gap ['#', 'x'] [] := @Gap.comment ['x'] [] [] (by decide) (by rintro c ⟨⟩) .none
  have cut : scan unspacedSource = .ok unspacedTokens :=
    Scanner.tokens_of_decomposes (.piece .none one (.piece .none name (.finish comment))) 0
  have closed : ClosedGap commentGap.toList :=
    .blank (.inl rfl) (@ClosedGap.comment ['c'] [] (by decide) .none)
  refine ⟨⟨cut, closed⟩, ?_, ?_⟩
  · exact execute_insertAt _ commentGap unspacedTokens 1 (.empty none) cut (by decide) closed
  · exact execute_insertAt _ commentGap unspacedTokens 4 (.empty none) cut (by decide) closed

end BlockCalc
