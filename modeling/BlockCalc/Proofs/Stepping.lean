import BlockCalc.Proofs.Faults

/-!
# Steps and whole scans agree

A scanner can be asked for one token after the other, also after an error. What one step can do is
said once (`Scanner.Steps`): it passes a gap and a lexeme, or the gap at the end, or it refuses what
stands behind the gap. So the scanner never leaves its source, every token and every malformed
number brings it forward, and it stays where it is at an unexpected character and at the end. The
steps give the tokens of the whole scan in order, or its error (`Scanner.steps_agree`).
-/
namespace BlockCalc
open Character
namespace Scanner

/-- The position after some number of steps, whatever they gave. -/
def afterSteps (s : Scanner) : Nat → Scanner
  | 0 => s
  | k + 1 => (s.afterSteps k).next.2

/-- What the step gives that comes after some number of others. -/
def stepAt (s : Scanner) (k : Nat) : Except ScanError Token := (s.afterSteps k).next.1

/-- What a step can give, and where it can lead. -/
inductive Steps : Scanner → Except ScanError Token → Scanner → Prop
  | token {gap lexeme rest : List Char} {kind : TokenKind} {offset : Nat}
      (separates : Gap gap (lexeme ++ rest)) (munched : Lexeme lexeme kind rest) :
      Steps ⟨gap ++ (lexeme ++ rest), offset⟩ (.ok ⟨kind, .ofList lexeme, offset + gap.length⟩)
        ⟨rest, offset + gap.length + lexeme.length⟩
  | finish {last : List Char} {offset : Nat} (gap : Gap last []) :
      Steps ⟨last, offset⟩ (.ok (.finish (offset + last.length))) ⟨[], offset + last.length⟩
  | refused {gap after : List Char} {offset : Nat} {e : ScanError} {s' : Scanner}
      (passed : Gap gap after) (refuses : Refuses ⟨after, offset + gap.length⟩ e s') :
      Steps ⟨gap ++ after, offset⟩ (.error e) s'

theorem steps_next (s : Scanner) : Steps s s.next.1 s.next.2 := by
  obtain ⟨ahead, offset⟩ := s
  cases step : next ⟨ahead, offset⟩ with
  | mk outcome s' =>
    cases outcome with
    | error e =>
      obtain ⟨gap, after, passed, rfl, refuses⟩ := refuses_of_next step
      exact .refused passed refuses
    | ok t =>
      rcases piece_or_last_of_next step with
        ⟨gap, lexeme, separates, munched, split, token, stop⟩ | ⟨gap, _⟩
      · obtain ⟨rest, reached⟩ := s'
        simp only at separates munched split token stop
        rw [token, stop, split]
        exact .token separates munched
      · have last := step.symm.trans (next_of_last gap offset)
        cases last
        exact .finish gap

/-- The scanner stands at a place of the text. -/
structure Within (s : Scanner) (text : List Char) : Prop where
  offset_le : s.offset ≤ text.length
  ahead_eq : s.ahead = text.drop s.offset

theorem Within.pass {passed rest text : List Char} {offset : Nat}
    (within : Within ⟨passed ++ rest, offset⟩ text) :
    Within ⟨rest, offset + passed.length⟩ text := by
  obtain ⟨le, ahead⟩ := within
  have length := congrArg List.length ahead
  simp only [List.length_append, List.length_drop] at length le
  refine ⟨by simp only; omega, ?_⟩
  simp [← List.drop_drop, ← ahead]

/-- A step stays in the text. -/
theorem Steps.within {s s' : Scanner} {outcome : Except ScanError Token} {text : List Char}
    (steps : Steps s outcome s') (within : s.Within text) : s'.Within text := by
  cases steps with
  | token _ _ => exact within.pass.pass
  | @finish last offset _ =>
    rw [← List.append_nil last] at within
    exact within.pass
  | refused _ refuses =>
    have here := within.pass
    cases refuses with
    | character _ => exact here
    | number _ _ _ _ => exact here.pass

/-- A step that gives a token ends right behind it. -/
theorem Steps.of_token {s s' : Scanner} {t : Token} (steps : Steps s (.ok t) s')
    (going : t.kind.isFinish = false) : s'.offset = t.stop ∧ s.offset < s'.offset := by
  cases steps with
  | token _ munched =>
    have positive := List.length_pos_iff.mpr munched.ne_nil
    constructor
    · simp [Token.stop]
    · simp only
      omega
  | finish _ => cases going

/-- A step that gives a malformed number ends right behind it. -/
theorem Steps.of_malformed {s s' : Scanner} {lexeme : String} {offset : Nat}
    (steps : Steps s (.error (.malformedNumber lexeme offset)) s') :
    s'.offset = offset + lexeme.length ∧ s.offset < s'.offset := by
  cases steps with
  | refused _ refuses =>
    cases refuses with
    | number nonempty _ _ _ =>
      have positive := List.length_pos_iff.mpr nonempty
      constructor
      · simp
      · simp only
        omega

/-- A step that gives an unexpected character leads in front of it, and so do all steps from
there. -/
theorem Steps.of_unexpected {s s' : Scanner} {c : Char} {offset : Nat}
    (steps : Steps s (.error (.unexpectedCharacter c offset)) s') :
    s'.offset = offset ∧ s'.ahead.head? = some c ∧
      s'.next = (.error (.unexpectedCharacter c offset), s') := by
  cases steps with
  | refused _ refuses =>
    cases refuses with
    | character foreign => exact ⟨rfl, rfl, Refuses.next (.character foreign)⟩

/-- A step that gives the end leads there, and so do all steps from there. -/
theorem Steps.of_finish {s s' : Scanner} {t : Token} (steps : Steps s (.ok t) s')
    (done : t.kind.isFinish = true) : s'.next = (.ok t, s') := by
  cases steps with
  | token _ munched =>
    rw [munched.isFinish_eq_false] at done
    cases done
  | finish _ => rfl

theorem steps_stepAt (s : Scanner) (k : Nat) :
    Steps (s.afterSteps k) (s.stepAt k) (s.afterSteps (k + 1)) := steps_next (s.afterSteps k)

theorem afterSteps_succ (s : Scanner) (k : Nat) : s.afterSteps (k + 1) = s.next.2.afterSteps k := by
  induction k with
  | zero => rfl
  | succ k ih => rw [afterSteps, ih, afterSteps]

theorem stepAt_succ (s : Scanner) (k : Nat) : s.stepAt (k + 1) = s.next.2.stepAt k := by
  rw [stepAt, stepAt, afterSteps_succ]

theorem within_afterSteps {s : Scanner} {text : List Char} (within : s.Within text) (k : Nat) :
    (s.afterSteps k).Within text := by
  induction k with
  | zero => exact within
  | succ k ih => exact (s.steps_stepAt k).within ih

/-- Once a step leads nowhere, all later steps give what it gives. -/
theorem stepAt_of_fixed {s : Scanner} {k : Nat} {outcome : Except ScanError Token}
    (here : s.stepAt k = outcome)
    (fixed : (s.afterSteps (k + 1)).next = (outcome, s.afterSteps (k + 1))) {j : Nat}
    (later : k ≤ j) : s.stepAt j = outcome := by
  have stays (n : Nat) : s.afterSteps (k + 1 + n) = s.afterSteps (k + 1) := by
    induction n with
    | zero => rfl
    | succ n ih => rw [← Nat.add_assoc, afterSteps, ih, fixed]
  rcases Nat.eq_or_lt_of_le later with rfl | beyond
  · exact here
  · obtain ⟨n, rfl⟩ := Nat.exists_eq_add_of_le beyond
    rw [stepAt, stays, fixed]

/-- As long as steps give tokens, each brings the scanner forward. -/
theorem le_offset_afterSteps {s : Scanner} {k : Nat}
    (going : ∀ j < k, ∃ t, s.stepAt j = .ok t ∧ t.kind.isFinish = false) :
    s.offset + k ≤ (s.afterSteps k).offset := by
  induction k with
  | zero => exact Nat.le_refl _
  | succ k ih =>
    obtain ⟨t, given, more⟩ := going k (Nat.lt_succ_self k)
    have before := ih fun j lt => going j (Nat.lt_succ_of_lt lt)
    have step := s.steps_stepAt k
    rw [given] at step
    have := (step.of_token more).2
    omega

/-- What is scanned ends with the end token. -/
theorem ne_nil_of_tokens {s : Scanner} {ts : List Token} (cut : s.tokens = .ok ts) : ts ≠ [] := by
  obtain ⟨pieces, last, -, rfl⟩ := pieces_of_tokens cut
  simp [tokensWithEnd]

/-- A step gives the first token of a scan. The others are scanned from there, or the end again. -/
theorem next_of_tokens {s : Scanner} {ts : List Token} (cut : s.tokens = .ok ts) :
    ∃ t rest, ts = t :: rest ∧ s.next.1 = .ok t ∧
      s.next.2.tokens = .ok (if rest = [] then [t] else rest) := by
  have steps := s.steps_next
  cases step : s.next with
  | mk outcome s' =>
    rw [step] at steps
    cases outcome with
    | error e =>
      rw [tokens_of_error step] at cut
      cases cut
    | ok t =>
      by_cases going : t.kind.isFinish = false
      · rw [tokens_of_next step going] at cut
        cases others : s'.tokens with
        | error e =>
          rw [others] at cut
          cases cut
        | ok rest =>
          rw [others] at cut
          cases cut
          refine ⟨t, rest, rfl, rfl, ?_⟩
          rw [if_neg (ne_nil_of_tokens others)]
      · have done : t.kind.isFinish = true := by simpa using going
        rw [tokens_of_last step done] at cut
        cases cut
        exact ⟨t, [], rfl, rfl, tokens_of_last (steps.of_finish done) done⟩

/-- The steps give the tokens of a scan in order, and then the last one again and again. -/
theorem steps_of_tokens {s : Scanner} {ts : List Token} (cut : s.tokens = .ok ts) (k : Nat) :
    (∃ t, ts[min k (ts.length - 1)]? = some t ∧ s.stepAt k = .ok t) ∧
      (s.afterSteps k).tokens = .ok (ts.drop (min k (ts.length - 1))) := by
  induction k generalizing s ts with
  | zero =>
    obtain ⟨t, rest, rfl, given, _⟩ := next_of_tokens cut
    exact ⟨⟨t, by simp, given⟩, by simpa [afterSteps] using cut⟩
  | succ k ih =>
    obtain ⟨t, rest, rfl, _, further⟩ := next_of_tokens cut
    have later := ih further
    rw [← stepAt_succ, ← afterSteps_succ] at later
    by_cases last : rest = []
    · simpa [last] using later
    · have positive := List.length_pos_iff.mpr last
      have index : min (k + 1) ((t :: rest).length - 1) = min k (rest.length - 1) + 1 := by
        simp only [List.length_cons]
        omega
      rw [if_neg last] at later
      rw [index, List.getElem?_cons_succ, List.drop_succ_cons]
      exact later

/-- A scan fails with the error of the first step that fails. -/
theorem exists_step_of_error {s : Scanner} {e : ScanError} (failed : s.tokens = .error e) :
    ∃ k, s.stepAt k = .error e ∧ ∀ j < k, ∃ t, s.stepAt j = .ok t := by
  cases step : s.next with
  | mk outcome s' =>
    cases outcome with
    | error cause =>
      rw [tokens_of_error step] at failed
      cases failed
      refine ⟨0, ?_, by simp⟩
      rw [stepAt, afterSteps, step]
    | ok t =>
      by_cases going : t.kind.isFinish = false
      · rw [tokens_of_next step going] at failed
        cases others : s'.tokens with
        | ok ts =>
          rw [others] at failed
          cases failed
        | error cause =>
          rw [others] at failed
          cases failed
          have := length_next_lt step going
          obtain ⟨k, here, before⟩ := exists_step_of_error others
          have shift (j : Nat) : s.stepAt (j + 1) = s'.stepAt j := by rw [stepAt_succ, step]
          refine ⟨k + 1, (shift k).trans here, ?_⟩
          intro j lt
          cases j with
          | zero => exact ⟨t, by rw [stepAt, afterSteps, step]⟩
          | succ j =>
            rw [shift]
            exact before j (Nat.lt_of_succ_lt_succ lt)
      · have done : t.kind.isFinish = true := by simpa using going
        rw [tokens_of_last step done] at failed
        cases failed
termination_by s.ahead.length

/-- A step that ends a scan: it fails or gives the end. -/
def Ends : Except ScanError Token → Prop
  | .error _ => True
  | .ok t => t.kind.isFinish = true

/-- No more tokens are given than there are characters. -/
theorem exists_end {s : Scanner} {text : List Char} (within : s.Within text) :
    ∃ k, s.offset + k ≤ text.length ∧ Ends (s.stepAt k) := by
  by_contra never
  have going : ∀ k, s.offset + k ≤ text.length →
      ∃ t, s.stepAt k = .ok t ∧ t.kind.isFinish = false := by
    intro k le
    have goes : ¬ Ends (s.stepAt k) := fun ends => never ⟨k, le, ends⟩
    cases given : s.stepAt k with
    | error e => simp [given, Ends] at goes
    | ok t => exact ⟨t, rfl, by simpa [given, Ends] using goes⟩
  have inside := within.offset_le
  have reached := @le_offset_afterSteps s (text.length - s.offset + 1)
    fun j lt => going j (by omega)
  have bound := (within_afterSteps within (text.length - s.offset + 1)).offset_le
  omega

/-- Steps and whole scans agree, for any number of steps and across errors. The scanner always
stands at a place of its source. A token and a malformed number bring it forward to right behind
them; in front of an unexpected character and at the end it stays, and all later steps give the
same. If the source can be scanned, the steps give its tokens in order and then the end again and
again, and scanning from where they lead gives the tokens that are left; otherwise the first step
that fails gives the error of the scan. Some step ends the scan, after no more tokens than there are
characters. -/
theorem steps_agree (source : String) :
    (∀ k, ((ofSource source).afterSteps k).offset ≤ source.length ∧
      ((ofSource source).afterSteps k).ahead =
        source.toList.drop ((ofSource source).afterSteps k).offset ∧
      ((ofSource source).afterSteps k).ahead.head? =
        source.toList[((ofSource source).afterSteps k).offset]?) ∧
    (∀ k t, (ofSource source).stepAt k = .ok t → t.kind.isFinish = false →
      ((ofSource source).afterSteps (k + 1)).offset = t.offset + t.lexeme.length ∧
      ((ofSource source).afterSteps k).offset < ((ofSource source).afterSteps (k + 1)).offset) ∧
    (∀ k lexeme offset, (ofSource source).stepAt k = .error (.malformedNumber lexeme offset) →
      ((ofSource source).afterSteps (k + 1)).offset = offset + lexeme.length ∧
      ((ofSource source).afterSteps k).offset < ((ofSource source).afterSteps (k + 1)).offset) ∧
    (∀ k c offset, (ofSource source).stepAt k = .error (.unexpectedCharacter c offset) →
      ((ofSource source).afterSteps (k + 1)).offset = offset ∧ source.toList[offset]? = some c ∧
      ∀ j, k ≤ j → (ofSource source).stepAt j = .error (.unexpectedCharacter c offset)) ∧
    (∀ k t, (ofSource source).stepAt k = .ok t → t.kind.isFinish = true →
      ∀ j, k ≤ j → (ofSource source).stepAt j = .ok t) ∧
    (∀ ts, scan source = .ok ts → ∀ k,
      (∃ t, ts[min k (ts.length - 1)]? = some t ∧ (ofSource source).stepAt k = .ok t) ∧
      ((ofSource source).afterSteps k).tokens = .ok (ts.drop (min k (ts.length - 1)))) ∧
    (∀ e, scan source = .error e → ∃ k, (ofSource source).stepAt k = .error e ∧
      ∀ j < k, ∃ t, (ofSource source).stepAt j = .ok t) ∧
    ∃ k, k ≤ source.length ∧ Ends ((ofSource source).stepAt k) := by
  have start : (ofSource source).Within source.toList := ⟨Nat.zero_le _, rfl⟩
  have within (k : Nat) := within_afterSteps start k
  have step (k : Nat) := (ofSource source).steps_stepAt k
  refine ⟨?_, ?_, ?_, ?_, ?_, fun ts cut => steps_of_tokens cut, fun e => exists_step_of_error, ?_⟩
  · intro k
    obtain ⟨le, ahead⟩ := within k
    rw [String.length_toList] at le
    exact ⟨le, ahead, by rw [ahead, List.head?_drop]⟩
  · intro k t given going
    exact (given ▸ step k).of_token going
  · intro k lexeme offset given
    exact (given ▸ step k).of_malformed
  · intro k c offset given
    obtain ⟨reached, first, fixed⟩ := (given ▸ step k).of_unexpected
    refine ⟨reached, ?_, fun j later => stepAt_of_fixed given fixed later⟩
    rw [← first, (within (k + 1)).ahead_eq, List.head?_drop, reached]
  · intro k t given done j later
    exact stepAt_of_fixed given ((given ▸ step k).of_finish done) later
  · obtain ⟨k, le, ends⟩ := exists_end start
    rw [String.length_toList] at le
    exact ⟨k, by simpa [ofSource] using le, ends⟩

end Scanner
end BlockCalc
