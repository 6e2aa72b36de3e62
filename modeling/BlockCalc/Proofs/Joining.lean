import BlockCalc.Proofs.Faults

/-!
# Lines are scanned apart

A newline ends every token and every comment. So two texts with a newline between them are scanned
one after the other: an error of the first is the error of the whole, and otherwise the outcome of
the second is moved behind the first (`scan_join`).
-/
namespace BlockCalc
open Character

/-- The error at the place to which its offset is moved. -/
def ScanError.moved (place : Nat → Nat) : ScanError → ScanError
  | .unexpectedCharacter c offset => .unexpectedCharacter c (place offset)
  | .malformedNumber lexeme offset => .malformedNumber lexeme (place offset)

namespace Scanner

theorem Refuses.moved {after : List Char} {offset : Nat} {e : ScanError} {s' : Scanner}
    (refuses : Refuses ⟨after, offset⟩ e s') (d : Nat) :
    ∃ s'', Refuses ⟨after, offset + d⟩ (e.moved (· + d)) s'' := by
  cases refuses with
  | character foreign => exact ⟨_, .character foreign⟩
  | number nonempty members malformed ends => exact ⟨_, .number nonempty members malformed ends⟩

/-- A text that begins after `d` characters is scanned as at the beginning, with all offsets moved
by `d`. -/
theorem tokens_moved (cs : List Char) (d : Nat) :
    tokens ⟨cs, d⟩ =
      match tokens ⟨cs, 0⟩ with
      | .error e => .error (e.moved (· + d))
      | .ok ts => .ok (ts.map (Token.moved (· + d))) := by
  cases cut : tokens ⟨cs, 0⟩ with
  | ok ts =>
    obtain ⟨pieces, last, decomposes, rfl⟩ := pieces_of_tokens cut
    have place : pushed 0 d = (· + d) := funext fun offset => pushed_of_le (Nat.zero_le offset)
    have moved := tokensWithEnd_pushed (Nat.le_refl 0) d decomposes
    rw [place, Nat.zero_add] at moved
    exact (tokens_of_decomposes decomposes d).trans (congrArg _ moved.symm)
  | error e =>
    obtain ⟨text, pieces, after, s', rfl, cuts, refuses⟩ := exists_refused cut
    obtain ⟨s'', further⟩ := refuses.moved d
    rw [Nat.zero_add, Nat.add_comm] at further
    exact tokens_of_refused cuts further

/-- What is refused is refused in front of a newline too. -/
theorem Refuses.append_newline {after : List Char} {offset : Nat} {e : ScanError} {s' : Scanner}
    (refuses : Refuses ⟨after, offset⟩ e s') (more : List Char) :
    ∃ s'', Refuses ⟨after ++ '\n' :: more, offset⟩ e s'' := by
  cases refuses with
  | character foreign => exact ⟨_, .character foreign⟩
  | @number run rest _ nonempty members malformed ends =>
    have other : NotNext isDigitOrPoint (rest ++ '\n' :: more) := by
      cases rest with
      | nil =>
        rintro _ ⟨⟩
        decide
      | cons c others => exact ends
    rw [List.append_assoc]
    exact ⟨_, .number nonempty members malformed other⟩

/-- An error in a text is the error of every text that goes on with a newline. -/
theorem tokens_of_error_newline {a : List Char} {e : ScanError} (failed : tokens ⟨a, 0⟩ = .error e)
    (b : List Char) : tokens ⟨a ++ '\n' :: b, 0⟩ = .error e := by
  obtain ⟨text, pieces, after, s', rfl, cuts, refuses⟩ := exists_refused failed
  obtain ⟨s'', further⟩ := refuses.append_newline b
  have nonempty : after ≠ [] := by
    cases refuses with
    | character _ => simp
    | number nonempty _ _ _ => simp [nonempty]
  have same : StandsFor (after ++ '\n' :: b) after := by
    simpa using standsFor_append nonempty ('\n' :: b) []
  rw [List.append_assoc]
  exact tokens_of_refused (cuts.replace same) further

/-- The tokens of a text go before those of the text behind a newline. -/
theorem tokens_newline {a : List Char} {first : List Token} (cut : tokens ⟨a, 0⟩ = .ok first)
    (b : List Char) :
    tokens ⟨a ++ '\n' :: b, 0⟩ = (tokens ⟨b, a.length + 1⟩).map (first.dropLast ++ ·) := by
  obtain ⟨pieces, last, decomposes, rfl⟩ := pieces_of_tokens cut
  have newline : Gap ['\n'] b := .blank (.inr (.inr rfl)) .none
  have behind : tokens ⟨'\n' :: b, 0 + a.length⟩ = tokens ⟨b, a.length + 1⟩ := by
    rw [Nat.zero_add]
    exact tokens_of_gap newline a.length
  rw [tokens_of_cuts (decomposes.cuts.replace (standsFor_newline b [])), behind, tokensWithEnd,
    List.dropLast_concat]

end Scanner

/-- Lines are scanned apart. A text, a newline and another text fail with the error of the first
text, if it has one, or with that of the second, moved behind the first; otherwise the tokens are
those of the first without its end, and those of the second moved behind the first. -/
theorem scan_join (a b : String) :
    scan (a ++ "\n" ++ b) =
      match scan a with
      | .error e => .error e
      | .ok first =>
        match scan b with
        | .error e => .error (e.moved (· + (a.length + 1)))
        | .ok second =>
          .ok (first.dropLast ++ second.map (Token.moved (· + (a.length + 1)))) := by
  have whole : (a ++ "\n" ++ b).toList = a.toList ++ '\n' :: b.toList := by
    simp [String.toList_append]
  simp only [scan, Scanner.ofSource, whole]
  cases cut : Scanner.tokens ⟨a.toList, 0⟩ with
  | error e => exact Scanner.tokens_of_error_newline cut b.toList
  | ok first =>
    rw [Scanner.tokens_newline cut, Scanner.tokens_moved, String.length_toList]
    cases Scanner.tokens ⟨b.toList, 0⟩ with
    | error e => rfl
    | ok second => rfl

end BlockCalc
