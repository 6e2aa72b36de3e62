import BlockCalc.Proofs.Spacing
import BlockCalc.Proofs.Literals

/-!
# Scanning errors are earliest and final

A source that cannot be cut into tokens begins with a text that can, and right behind this text
stands a character that begins no token, or a run of digits and points that is no number
(`Scanner.exists_refused`). Whether it does is decided there: what comes behind the character, or
behind the run, changes nothing (`scan_error_final`).
-/
namespace BlockCalc
open Character

/-- A character that stands in no gap and begins no token. -/
structure Foreign (c : Char) : Prop where
  outsideGap : BeginsToken c
  notLetter : isLetter c = false
  notDigit : isDigitOrPoint c = false
  notSymbol : ∀ kind, (c, kind) ∉ symbols

namespace Scanner

/-- The scanner stands in front of something that is no token, which gives the error. A malformed
number is left behind, and a foreign character is not. -/
inductive Refuses : Scanner → ScanError → Scanner → Prop
  | character {c : Char} {rest : List Char} {offset : Nat} (foreign : Foreign c) :
      Refuses ⟨c :: rest, offset⟩ (.unexpectedCharacter c offset) ⟨c :: rest, offset⟩
  | number {run rest : List Char} {offset : Nat} (nonempty : run ≠ [])
      (members : ∀ c ∈ run, isDigitOrPoint c = true) (malformed : Malformed run)
      (ends : NotNext isDigitOrPoint rest) :
      Refuses ⟨run ++ rest, offset⟩ (.malformedNumber (.ofList run) offset)
        ⟨rest, offset + run.length⟩

theorem Refuses.begins {s s' : Scanner} {e : ScanError} (refuses : Refuses s e s') :
    ∀ c ∈ s.ahead.head?, BeginsToken c := by
  cases refuses with
  | character foreign =>
    rintro _ ⟨⟩
    exact foreign.outsideGap
  | @number run rest _ nonempty members _ _ =>
    obtain ⟨c, others, rfl⟩ := List.exists_cons_of_ne_nil nonempty
    rintro _ ⟨⟩
    exact beginsToken_of_isDigitOrPoint (members c List.mem_cons_self)

theorem Refuses.nextHere {s s' : Scanner} {e : ScanError} (refuses : Refuses s e s') :
    s.nextHere = (.error e, s') := by
  cases refuses with
  | @character c rest offset foreign =>
    have none : symbol? c = none := by
      cases found : symbol? c with
      | none => rfl
      | some kind => exact absurd (mem_symbols_of_symbol? found) (foreign.notSymbol kind)
    simp [Scanner.nextHere, foreign.notLetter, foreign.notDigit, symbol, none]
  | @number run rest offset nonempty members malformed ends =>
    have taken := run_eq members ends offset
    have nothing := (Number.ofLiteral?_eq_none_iff members).mpr malformed
    obtain ⟨c, others, rfl⟩ := List.exists_cons_of_ne_nil nonempty
    have digit := members c List.mem_cons_self
    rw [Scanner.nextHere]
    simp only [List.cons_append, isLetter_of_isDigitOrPoint digit, digit, if_true,
      Bool.false_eq_true, if_false] at taken ⊢
    rw [Scanner.number, taken, nothing, advance, ← List.cons_append, List.drop_left]

theorem refuses_of_nextHere {s s' : Scanner} {e : ScanError}
    (begins : ∀ c ∈ s.ahead.head?, BeginsToken c) (step : s.nextHere = (.error e, s')) :
    Refuses s e s' := by
  obtain ⟨ahead, offset⟩ := s
  rw [nextHere] at step
  split at step
  · cases step
  · next c rest same =>
    obtain rfl : ahead = c :: rest := same
    split at step
    · cases step
    · next noLetter =>
      split at step
      · next digit =>
        obtain ⟨split, ends⟩ := ahead_eq_run_append ⟨c :: rest, offset⟩ isDigitOrPoint
        have nonempty : run ⟨c :: rest, offset⟩ isDigitOrPoint ≠ [] :=
          List.length_pos_iff.mp (length_run_pos rfl digit)
        rw [number, Prod.mk.injEq] at step
        obtain ⟨taken, rfl⟩ := step
        cases denotes : Number.ofLiteral? (.ofList (run ⟨c :: rest, offset⟩ isDigitOrPoint)) with
        | some value =>
          rw [denotes] at taken
          cases taken
        | none =>
          rw [denotes] at taken
          cases taken
          have malformed := (Number.ofLiteral?_eq_none_iff fun _ => mem_run).mp denotes
          have refuses := @Refuses.number _ _ offset nonempty (fun _ => mem_run) malformed ends
          rwa [← split] at refuses
      · next noDigit =>
        rw [symbol] at step
        split at step
        · cases step
        · next none =>
          cases step
          refine .character ⟨begins c rfl, by simpa using noLetter, by simpa using noDigit, ?_⟩
          intro kind listed
          rw [symbol?_of_mem listed] at none
          cases none

/-- After a gap something stands that is neither a blank nor a comment. -/
theorem begins_afterGap (inComment : Bool) (offset : Nat) (cs : List Char) :
    ∀ c ∈ (afterGap inComment offset cs).ahead.head?, BeginsToken c := by
  induction cs generalizing inComment offset with
  | nil => simp [afterGap]
  | cons c rest ih =>
    rw [afterGap]
    split
    · exact ih _ _
    · split
      · exact ih _ _
      · next mark =>
        split
        · exact ih _ _
        · next blank =>
          rintro _ ⟨⟩
          exact ⟨mark, by simpa using blank⟩

theorem Refuses.next {s s' : Scanner} {e : ScanError} (refuses : Refuses s e s') :
    s.next = (.error e, s') := by
  rw [Scanner.next, skipGap, afterGap_of_begins refuses.begins]
  exact refuses.nextHere

/-- A step that fails passes a gap and refuses what stands behind it. -/
theorem refuses_of_next {s s' : Scanner} {e : ScanError} (step : s.next = (.error e, s')) :
    ∃ gap after, Gap gap after ∧ s.ahead = gap ++ after ∧
      Refuses ⟨after, s.offset + gap.length⟩ e s' := by
  obtain ⟨⟨gap, passed, split, start⟩, _⟩ := exists_gap_afterGap s.offset s.ahead
  refine ⟨gap, _, passed, split, ?_⟩
  rw [← start]
  exact refuses_of_nextHere (begins_afterGap false s.offset s.ahead) step

end Scanner

/-- In front of `after`, the text is made up of the pieces and a gap behind them. -/
inductive Cuts : (text : List Char) → List Piece → (after : List Char) → Prop
  | gap {gap after : List Char} (passed : Gap gap after) : Cuts gap [] after
  | piece {gap lexeme rest after : List Char} {kind : TokenKind} {pieces : List Piece}
      (separates : Gap gap (lexeme ++ (rest ++ after)))
      (munched : Lexeme lexeme kind (rest ++ after)) (tail : Cuts rest pieces after) :
      Cuts (gap ++ (lexeme ++ rest)) (⟨gap, lexeme, kind⟩ :: pieces) after

/-- Behind a text that is cut, `other` can stand for `after`: it begins with the same character or
with a newline, or there is nothing in it. -/
def StandsFor (other after : List Char) : Prop := ∀ c ∈ other.head?, c ∈ after.head? ∨ c = '\n'

theorem standsFor_nil (after : List Char) : StandsFor [] after := by
  intro c first
  cases first

theorem standsFor_newline (rest after : List Char) : StandsFor ('\n' :: rest) after := by
  rintro _ ⟨⟩
  exact .inr rfl

theorem standsFor_append {front : List Char} (nonempty : front ≠ []) (rest after : List Char) :
    StandsFor (front ++ rest) (front ++ after) := by
  obtain ⟨c, others, rfl⟩ := List.exists_cons_of_ne_nil nonempty
  intro d first
  exact .inl first

theorem StandsFor.append {other after : List Char} (same : StandsFor other after)
    (front : List Char) : StandsFor (front ++ other) (front ++ after) := by
  cases front with
  | nil => exact same
  | cons c rest => exact standsFor_append (List.cons_ne_nil c rest) other after

theorem Cuts.replace {text after other : List Char} {pieces : List Piece}
    (cuts : Cuts text pieces after) (same : StandsFor other after) : Cuts text pieces other := by
  induction cuts with
  | gap passed => exact .gap (passed.replace same)
  | @piece gap lexeme rest after kind pieces separates munched tail ih =>
    refine .piece (separates.replace ?_) (munched.replace ?_) (ih same)
    · exact standsFor_append munched.ne_nil _ _
    · intro c first
      rcases same.append rest c first with kept | newline
      · exact .inl kept
      · exact .inr (not_beginsToken_of_blank (.inr (.inr newline)))

theorem Decomposes.cuts {text last : List Char} {pieces : List Piece}
    (decomposes : Decomposes text pieces last) : Cuts text pieces [] := by
  induction decomposes with
  | finish gap => exact .gap gap
  | piece separates munched _ ih =>
    refine .piece ?_ ?_ ih
    · simpa using separates
    · simpa using munched

namespace Scanner

/-- Positions with the same next step have the same tokens ahead. -/
theorem tokens_congr {s t : Scanner} (same : s.next = t.next) : s.tokens = t.tokens := by
  cases step : t.next with
  | mk outcome s' =>
    rw [step] at same
    cases outcome with
    | error e => rw [tokens_of_error step, tokens_of_error same]
    | ok token =>
      by_cases going : token.kind.isFinish = false
      · rw [tokens_of_next step going, tokens_of_next same going]
      · have done : token.kind.isFinish = true := by simpa using going
        rw [tokens_of_last step done, tokens_of_last same done]

theorem tokens_of_gap {gap after : List Char} (passed : Gap gap after) (offset : Nat) :
    tokens ⟨gap ++ after, offset⟩ = tokens ⟨after, offset + gap.length⟩ := by
  refine tokens_congr ?_
  rw [next, next, skipGap, skipGap, afterGap_append passed]

/-- The tokens of a text that is cut are those of its pieces and those of what comes behind it. -/
theorem tokens_of_cuts {text after : List Char} {pieces : List Piece}
    (cuts : Cuts text pieces after) (offset : Nat) :
    tokens ⟨text ++ after, offset⟩ =
      (tokens ⟨after, offset + text.length⟩).map (tokensOf offset pieces ++ ·) := by
  induction cuts generalizing offset with
  | @gap gap after passed =>
    rw [tokens_of_gap passed]
    cases tokens ⟨after, offset + gap.length⟩ <;> rfl
  | @piece gap lexeme rest after kind pieces separates munched tail ih =>
    have step := next_of_piece separates munched offset
    simp only [List.append_assoc] at step ⊢
    rw [tokens_of_next step munched.isFinish_eq_false, ih]
    simp only [List.length_append, ← Nat.add_assoc]
    cases tokens ⟨after, offset + gap.length + lexeme.length + rest.length⟩ <;> rfl

/-- A text that is cut in front of some other text is cut on its own. -/
theorem tokens_of_cuts_alone {text after : List Char} {pieces : List Piece}
    (cuts : Cuts text pieces after) (offset : Nat) :
    tokens ⟨text, offset⟩ = .ok (tokensWithEnd offset text pieces) := by
  have alone := tokens_of_cuts (cuts.replace (standsFor_nil after)) offset
  have last := tokens_of_last (next_of_last .none (offset + text.length)) rfl
  rw [List.append_nil, last] at alone
  exact alone

theorem tokens_of_refused {text after : List Char} {pieces : List Piece}
    (cuts : Cuts text pieces after) {offset : Nat} {e : ScanError} {s' : Scanner}
    (refuses : Refuses ⟨after, offset + text.length⟩ e s') :
    tokens ⟨text ++ after, offset⟩ = .error e := by
  rw [tokens_of_cuts cuts, tokens_of_error refuses.next]
  rfl

/-- Where scanning fails, a text is cut in front of something that is refused. -/
theorem exists_refused {s : Scanner} {e : ScanError} (failed : s.tokens = .error e) :
    ∃ text pieces after s', s.ahead = text ++ after ∧ Cuts text pieces after ∧
      Refuses ⟨after, s.offset + text.length⟩ e s' := by
  cases step : s.next with
  | mk outcome s' =>
    cases outcome with
    | error cause =>
      rw [tokens_of_error step] at failed
      cases failed
      obtain ⟨gap, after, passed, split, refuses⟩ := refuses_of_next step
      exact ⟨gap, [], after, s', split, .gap passed, refuses⟩
    | ok t =>
      rcases piece_or_last_of_next step with
        ⟨gap, lexeme, passed, munched, split, _, stop⟩ | ⟨gap, rfl⟩
      · have going := munched.isFinish_eq_false
        rw [tokens_of_next step going] at failed
        cases rest : s'.tokens with
        | ok ts => rw [rest] at failed; cases failed
        | error cause =>
          rw [rest] at failed
          cases failed
          have := length_next_lt step going
          obtain ⟨text, pieces, after, left, behind, cuts, refuses⟩ := exists_refused rest
          rw [behind] at passed munched split
          refine ⟨gap ++ (lexeme ++ text), _, after, left, ?_, .piece passed munched cuts, ?_⟩
          · simp [split]
          · rw [stop] at refuses
            simpa [Nat.add_assoc] using refuses
      · rw [tokens_of_last step rfl] at failed
        cases failed
termination_by s.ahead.length

end Scanner

/-- The first characters of a source. -/
def front (source : String) (n : Nat) : String := .ofList (source.toList.take n)

/-- The lexeme is the longest run of digits and points that begins in the source after some number
of characters. -/
def IsRunAt (source : String) (offset : Nat) (lexeme : String) : Prop :=
  lexeme ≠ "" ∧ (∀ c ∈ lexeme.toList, isDigitOrPoint c = true) ∧
    ∃ rest, source.toList.drop offset = lexeme.toList ++ rest ∧ NotNext isDigitOrPoint rest

theorem front_append {source : String} {text after : List Char}
    (split : source.toList = text ++ after) : front source text.length = .ofList text := by
  rw [front, split, List.take_left]

theorem scan_front {source : String} {text after : List Char} {pieces : List Piece}
    (split : source.toList = text ++ after) (cuts : Cuts text pieces after) :
    ∃ ts, scan (front source text.length) = .ok ts := by
  rw [front_append split, scan, Scanner.ofSource, String.toList_ofList]
  exact ⟨_, Scanner.tokens_of_cuts_alone cuts 0⟩

/-- Once something is refused, the source goes on behind it as it likes. -/
theorem scan_front_append {source : String} {text refused rest : List Char} {pieces : List Piece}
    (split : source.toList = text ++ (refused ++ rest)) (cuts : Cuts text pieces (refused ++ rest))
    (nonempty : refused ≠ []) {more : String} {e : ScanError} {s' : Scanner}
    (refuses : Scanner.Refuses ⟨refused ++ more.toList, text.length⟩ e s') :
    scan (front source (text.length + refused.length) ++ more) = .error e := by
  have whole : (front source (text.length + refused.length) ++ more).toList =
      text ++ (refused ++ more.toList) := by
    rw [← List.append_assoc] at split
    rw [← List.length_append, front_append split, String.toList_append, String.toList_ofList,
      List.append_assoc]
  rw [← Nat.zero_add text.length] at refuses
  rw [scan, Scanner.ofSource, whole]
  exact Scanner.tokens_of_refused (cuts.replace (standsFor_append nonempty _ _)) refuses

/-- Scanning errors are earliest and final. The source up to an unexpected character can be cut into
tokens, and whatever comes behind the character, the error is the same. A malformed number is the
longest run of digits and points from its offset on, and has two points or no digit; the source up
to it can be cut into tokens, and whatever comes behind the run without continuing it, the error is
the same. A character is counted from one in the message, and the start of a number from zero. -/
theorem scan_error_final (source : String) (e : ScanError) (failed : scan source = .error e) :
    (∀ c offset, e = .unexpectedCharacter c offset →
      e.message = "Unexpected character '" ++ c.toString ++ "' at position " ++ (offset + 1).repr ∧
      source.toList[offset]? = some c ∧ (∃ ts, scan (front source offset) = .ok ts) ∧
      ∀ more, scan (front source (offset + 1) ++ more) = .error e) ∧
    ∀ lexeme offset, e = .malformedNumber lexeme offset →
      e.message = "Malformed number '" ++ lexeme ++ "' at position " ++ offset.repr ∧
      IsRunAt source offset lexeme ∧
      (2 ≤ lexeme.toList.count '.' ∨ ∀ c ∈ lexeme.toList, c.isDigit = false) ∧
      (∃ ts, scan (front source offset) = .ok ts) ∧
      ∀ more : String, NotNext isDigitOrPoint more.toList →
        scan (front source (offset + lexeme.length) ++ more) = .error e := by
  obtain ⟨text, pieces, after, s', split, cuts, refuses⟩ := Scanner.exists_refused failed
  simp only [Scanner.ofSource, Nat.zero_add] at split refuses
  constructor
  · rintro c offset rfl
    cases refuses with
    | @character _ rest _ foreign =>
      refine ⟨rfl, by simp [split], scan_front split cuts, fun more => ?_⟩
      exact scan_front_append split cuts (List.cons_ne_nil c []) (.character foreign)
  · rintro lexeme offset rfl
    cases refuses with
    | @number run rest _ nonempty members malformed ends =>
      refine ⟨rfl, ⟨?_, ?_, rest, ?_, ends⟩, ?_, scan_front split cuts, ?_⟩
      · simpa using nonempty
      · simpa using members
      · simp [split]
      · simpa [Malformed] using malformed
      · intro more other
        rw [String.length_ofList]
        exact scan_front_append split cuts nonempty (.number nonempty members malformed other)

/-- An unexpected character behind a comment that hides another one. -/
def strayed : String := "x#@\n@"

/-- A name that takes the first digit of a run, with two points left in the rest. -/
def twicePointed : String := "#√\nx1.2.5;"

theorem scan_error_final_samples :
    (scan strayed = .error (.unexpectedCharacter '@' 4) ∧
      (∃ ts, scan (front strayed 4) = .ok ts) ∧
      ∀ more, scan (front strayed 5 ++ more) = .error (.unexpectedCharacter '@' 4)) ∧
    scan twicePointed = .error (.malformedNumber ".2.5" 5) ∧ IsRunAt twicePointed 5 ".2.5" ∧
      (∃ ts, scan (front twicePointed 5) = .ok ts) ∧
      scan (front twicePointed 9 ++ "x") = .error (.malformedNumber ".2.5" 5) := by
  have stray : scan strayed = .error (.unexpectedCharacter '@' 4) := by with_unfolding_all rfl
  have points : scan twicePointed = .error (.malformedNumber ".2.5" 5) := by with_unfolding_all rfl
  obtain ⟨_, _, before, final⟩ := (scan_error_final strayed _ stray).1 '@' 4 rfl
  obtain ⟨_, run, _, before', final'⟩ := (scan_error_final twicePointed _ points).2 ".2.5" 5 rfl
  refine ⟨⟨stray, before, final⟩, points, run, before', final' "x" ?_⟩
  rintro c ⟨⟩
  decide

end BlockCalc
