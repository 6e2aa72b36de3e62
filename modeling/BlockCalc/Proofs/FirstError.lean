import BlockCalc.Proofs.Prediction
import BlockCalc.Proofs.Scanning

/-!
# Errors stand at the first wrong token

Where a program cannot be read, the tokens before the offending one begin a sentence of the grammar
and those up to it do not (`TokenStream.parse_stops_at_first_wrong`). The kinds that are named as
expected would have gone on with a sentence. Both are read off the goals that are left at the
offending token: they can be fulfilled, and no sentence passes a token on which they fail.
-/
namespace BlockCalc
open Goal

/-- A program and an end token behind it. -/
def Sentence (ts : List Token) : Prop :=
  ∃ used last program, ts = used ++ [last] ∧ Program.Derives used program ∧ last.kind = .finish

/-- Some sentence begins with tokens of these kinds, whatever numbers its literals carry. -/
def Viable (kinds : List TokenKind) : Prop :=
  ∃ ts, Sentence ts ∧ kinds.map TokenKind.label <+: (ts.map Token.kind).map TokenKind.label

theorem ended_goals : Ended Program.goals := .more _ (.more _ .block)

theorem ParseCause.Inside.ne_finish {cause : ParseCause} (inside : cause.Inside) :
    cause ≠ .expected .finish := by
  cases inside with
  | expected mark => cases mark <;> simp [Mark.kind]
  | statement => simp
  | factor => simp

/-- The end token of a sentence is the first that finds no goal left. -/
theorem Sentence.pursue {ts : List Token} (sentence : Sentence ts) :
    Goal.pursue Program.goals (ts.map Token.kind) = .error (.expected .finish, [.finish]) := by
  obtain ⟨used, last, program, rfl, derives, finish⟩ := sentence
  have gives : (Program.read used).Gives program [] :=
    Program.gives_read_iff.mpr ⟨used, (List.append_nil used).symm, derives⟩
  obtain ⟨shorter, read⟩ := gives
  have pursues := Program.read_pursues used
  rw [read] at pursues
  cases pursues with
  | done reached =>
    rw [List.map_append, List.map_singleton, finish]
    exact reached

/-- Kinds that fulfil the goals of a program are those of a program. -/
theorem exists_derives_of_pursue {kinds : List TokenKind}
    (fulfils : pursue Program.goals kinds = .ok []) :
    ∃ used program, used.map Token.kind = kinds ∧ Program.Derives used program := by
  let used : List Token := kinds.map fun kind => ⟨kind, "", 0⟩
  have same : used.map Token.kind = kinds := by
    rw [List.map_map]
    exact List.map_id kinds
  have ends : pursue Program.goals (kindsAhead used) = .error (.expected .finish, [.finish]) := by
    rw [kindsAhead, same, pursue_append fulfils]
    rfl
  have pursues := Program.read_pursues used
  cases read : Program.read used with
  | stuck cause rest =>
    rw [read] at pursues
    cases pursues with
    | stuck inside failed =>
      have same := failed.symm.trans ends
      rw [Except.error.injEq, Prod.mk.injEq] at same
      exact absurd same.1 inside.ne_finish
  | done program rest shorter =>
    rw [read] at pursues
    cases pursues with
    | done reached =>
      cases rest with
      | cons t rest =>
        have stuck := reached.symm.trans ends
        rw [kindsAhead_cons, pursue_of_error rfl] at stuck
        simp [kindsAhead] at stuck
      | nil =>
        obtain ⟨all, split, derives⟩ := Program.gives_read_iff.mp ⟨shorter, read⟩
        rw [List.append_nil] at split
        exact ⟨used, program, same, split ▸ derives⟩

/-- Kinds that fulfil the goals of a program are viable with an end token behind them. -/
theorem viable_finish {kinds : List TokenKind} (fulfils : pursue Program.goals kinds = .ok []) :
    Viable (kinds ++ [.finish]) := by
  obtain ⟨used, program, rfl, derives⟩ := exists_derives_of_pursue fulfils
  refine ⟨used ++ [.finish 0], ⟨used, _, program, rfl, derives, rfl⟩, ?_⟩
  rw [List.map_append (f := Token.kind)]
  exact List.prefix_refl _

theorem Viable.of_append {kinds more : List TokenKind} (viable : Viable (kinds ++ more)) :
    Viable kinds := by
  obtain ⟨ts, sentence, within⟩ := viable
  rw [List.map_append] at within
  exact ⟨ts, sentence, (List.prefix_append ..).trans within⟩

theorem viable_of_pursue {kinds : List TokenKind} {next : List Goal}
    (reached : pursue Program.goals kinds = .ok next) : Viable kinds := by
  rcases ended_goals.pursue reached with rfl | ended
  · exact (viable_finish reached).of_append
  · obtain ⟨kind, more, _, _, fulfils⟩ := ended.exists_fulfilling
    rw [← pursue_append reached] at fulfils
    exact (viable_finish fulfils).of_append.of_append

theorem TokenKind.same_of_label {a b : TokenKind} (labels : a.label = b.label) :
    a.same b = true := by
  cases a <;> cases b <;> first | rfl | simp [TokenKind.label] at labels

/-- Kinds of the same name are not told apart. -/
theorem Goal.step_of_label {a b : TokenKind} (labels : a.label = b.label) (goals : List Goal) :
    step goals a = step goals b := by
  have same := TokenKind.same_of_label labels
  cases b with
  | number w =>
    cases a with
    | number v => exact step_number goals v w
    | _ => simp [TokenKind.same, TokenKind.ctorIdx] at same
  | _ => rw [TokenKind.eq_of_same (by simp) same]

theorem Goal.pursue_of_labels {kinds others : List TokenKind} {goals next : List Goal}
    (same : kinds.map TokenKind.label = others.map TokenKind.label)
    (reached : pursue goals kinds = .ok next) : pursue goals others = .ok next := by
  induction kinds generalizing goals others with
  | nil =>
    rw [List.map_nil, eq_comm, List.map_eq_nil_iff] at same
    rw [same, ← reached]
  | cons kind kinds ih =>
    obtain ⟨other, others', rfl, sameHead, sameTail⟩ := List.map_eq_cons_iff.mp same.symm
    rw [pursue, step_of_label sameHead.symm] at reached
    rw [pursue]
    cases stepped : step goals other with
    | error cause =>
      rw [stepped] at reached
      cases reached
    | ok middle =>
      rw [stepped] at reached
      exact ih sameTail.symm reached

/-- A sentence passes no token on which the goals fail; its own end token fails only because a
program was read before it. -/
theorem not_viable_of_step_error {kinds : List TokenKind} {kind : TokenKind} {next : List Goal}
    {cause : ParseCause} (reached : pursue Program.goals kinds = .ok next)
    (failed : step next kind = .error cause)
    (wrong : cause = .expected .finish → kind ≠ .finish) : ¬ Viable (kinds ++ [kind]) := by
  rintro ⟨ts, sentence, within⟩
  obtain ⟨more, split⟩ := within
  rw [List.map_append, List.append_assoc] at split
  obtain ⟨before, rest, split, sameBefore, sameRest⟩ := List.map_eq_append_iff.mp split.symm
  obtain ⟨other, behind, rfl, sameKind, _⟩ := List.map_eq_cons_iff.mp sameRest
  have ends := sentence.pursue
  rw [split, pursue_append (pursue_of_labels sameBefore.symm reached),
    pursue_of_error (step_of_label sameKind next ▸ failed)] at ends
  simp only [Except.error.injEq, Prod.mk.injEq, List.cons.injEq] at ends
  obtain ⟨expected, rfl, rfl⟩ := ends
  exact wrong expected (TokenKind.eq_of_same (by simp) (TokenKind.same_of_label sameKind.symm))

/-! ## Failures -/

theorem TokenKind.isFinish_iff {kind : TokenKind} : kind.isFinish = true ↔ kind = .finish := by
  cases kind <;> simp [TokenKind.isFinish]

namespace TokenStream

theorem kindsAhead_ahead (s : TokenStream) : kindsAhead s.ahead = s.tokens.map Token.kind := by
  rw [tokens, List.map_append, List.map_singleton, TokenKind.isFinish_iff.mp s.last_isFinish,
    kindsAhead]

theorem tokens_eq_lookahead_cons (s : TokenStream) :
    ∃ behind, s.tokens = s.lookahead :: behind := by
  cases ahead : s.ahead with
  | nil => exact ⟨[], by simp [tokens, lookahead, ahead]⟩
  | cons t rest => exact ⟨rest ++ [s.last], by simp [tokens, lookahead, ahead]⟩

/-- A failure is one of the goals: inside a program, or behind one where no end token comes. -/
theorem pursue_of_parse_error {s : TokenStream} {e : ParseError} (failed : s.parse.1 = .error e) :
    pursue Program.goals (s.tokens.map Token.kind) =
        .error (e.cause, s.parse.2.tokens.map Token.kind) ∧
      s.parse.2.lookahead = e.found ∧
      (e.cause.Inside ∨ e.cause = .expected .finish ∧ e.found.kind ≠ .finish) := by
  have pursues := Program.read_pursues s.ahead
  rw [← kindsAhead_ahead, ← kindsAhead_ahead]
  rw [parse] at failed ⊢
  cases read : Program.read s.ahead with
  | stuck cause rest =>
    rw [read] at pursues failed
    cases failed
    cases pursues with
    | stuck inside failed => exact ⟨failed, rfl, .inl inside⟩
  | done program rest shorter =>
    rw [read] at pursues failed
    cases pursues with
    | done reached =>
      cases rest with
      | nil => cases failed
      | cons t rest =>
        simp only at failed ⊢
        split at failed
        · cases failed
        · next going =>
          rw [if_neg going]
          cases failed
          refine ⟨reached.trans (pursue_of_error rfl _), rfl, .inr ⟨rfl, fun finish => ?_⟩⟩
          exact going (TokenKind.isFinish_iff.mpr finish)

/-- What was passed led to goals that the offending token does not meet. -/
theorem exists_of_parse_error {s : TokenStream} {e : ParseError} (failed : s.parse.1 = .error e) :
    ∃ passed behind next, s.tokens = passed ++ e.found :: behind ∧
      s.parse.2.tokens = e.found :: behind ∧
      pursue Program.goals (passed.map Token.kind) = .ok next ∧
      step next e.found.kind = .error e.cause := by
  obtain ⟨stuck, found, _⟩ := pursue_of_parse_error failed
  obtain ⟨behind, left⟩ := s.parse.2.tokens_eq_lookahead_cons
  obtain ⟨passed, split⟩ := s.tokens_parse_suffix
  obtain ⟨before, kind, after, next, kinds, first, reached, wrong⟩ := exists_of_pursue_error stuck
  rw [found] at left
  rw [← split, List.map_append] at kinds
  obtain rfl := List.append_cancel_right kinds
  rw [left, List.map_cons, List.cons.injEq] at first
  obtain ⟨rfl, rfl⟩ := first
  exact ⟨passed, behind, next, by rw [← split, left], left, reached, wrong⟩

/-- The passed tokens begin a sentence, which the offending token breaks off and a token of an
expected kind does not. -/
theorem viable_of_parse_error {s : TokenStream} {e : ParseError} (failed : s.parse.1 = .error e) :
    ∃ passed behind, s.tokens = passed ++ e.found :: behind ∧
      s.parse.2.tokens = e.found :: behind ∧ Viable (passed.map Token.kind) ∧
      ¬ Viable ((passed ++ [e.found]).map Token.kind) ∧
      ∀ kind, e.cause = .expected kind → Viable (passed.map Token.kind ++ [kind]) := by
  obtain ⟨passed, behind, next, split, left, reached, wrong⟩ := exists_of_parse_error failed
  obtain ⟨_, _, causes⟩ := pursue_of_parse_error failed
  refine ⟨passed, behind, split, left, viable_of_pursue reached, ?_, ?_⟩
  · rw [List.map_append]
    refine not_viable_of_step_error reached wrong fun finish => ?_
    rcases causes with inside | ⟨_, other⟩
    · exact absurd finish inside.ne_finish
    · exact other
  · intro kind cause
    rw [cause] at wrong
    rcases ended_goals.pursue reached with rfl | ended
    · cases wrong
      exact viable_finish reached
    · obtain ⟨after, stepped⟩ := ended.step_expected wrong
      have passes : pursue Program.goals (passed.map Token.kind ++ [kind]) = .ok after := by
        rw [pursue_append reached, pursue_of_step stepped]
        rfl
      exact viable_of_pursue passes

end TokenStream

/-- A token's own text stands in the source where the token says. -/
def Token.StandsIn (t : Token) (source : String) : Prop :=
  t.lexeme ≠ "" ∧ t.lexeme.toList <+: source.toList.drop t.offset

theorem standsIn_of_decomposes {front text last : List Char} {pieces : List Piece}
    (decomposes : Decomposes text pieces last) :
    ∀ t ∈ tokensOf front.length pieces, t.StandsIn (.ofList (front ++ text)) := by
  induction decomposes generalizing front with
  | finish gap => simp [tokensOf]
  | @piece gap lexeme rest last kind pieces separates munched tail ih =>
    intro t member
    rcases List.mem_cons.mp member with rfl | later
    · refine ⟨?_, ?_⟩
      · simpa using munched.ne_nil
      · simp [← List.drop_drop]
    · have stands := @ih (front ++ gap ++ lexeme) t
      simp only [List.length_append, List.append_assoc] at stands
      exact stands (by simpa only [Nat.add_assoc] using later)

/-- The tokens of a source are its end token and tokens that stand in it. -/
theorem standsIn_of_scan {source : String} {ts : List Token} (cut : scan source = .ok ts) :
    withFinish ts = ts ∧ ∀ t ∈ ts, t = .finish source.length ∨ t.StandsIn source := by
  obtain ⟨pieces, last, decomposes, rfl⟩ := decomposes_of_scan cut
  constructor
  · simp [tokensWithEnd, withFinish, Token.finish, TokenKind.isFinish]
  · intro t member
    rcases List.mem_append.mp member with inside | finish
    · right
      have stands := @standsIn_of_decomposes [] _ _ _ decomposes t inside
      rwa [List.nil_append, String.ofList_toList] at stands
    · rw [Nat.zero_add, String.length_toList] at finish
      exact .inl (List.mem_singleton.mp finish)

/-- Where a program cannot be read after any number of earlier attempts, the error is at the first
token that cannot be right: the tokens from where reading began up to it begin a sentence of the
grammar, and with it they do not. A token of a kind that is named as expected could have stood
there. Among the tokens of a source, the offending one is a piece of the source or its end. -/
theorem TokenStream.parse_stops_at_first_wrong (ts : List Token) (calls : Nat) (e : ParseError)
    (failed : (afterParses ts calls).parse.1 = .error e) :
    positionAfter ts calls ≤ positionAfter ts (calls + 1) ∧
    (withFinish ts)[positionAfter ts (calls + 1)]? = some e.found ∧
    Viable (((withFinish ts).extract (positionAfter ts calls)
      (positionAfter ts (calls + 1))).map Token.kind) ∧
    ¬ Viable (((withFinish ts).extract (positionAfter ts calls)
      (positionAfter ts (calls + 1) + 1)).map Token.kind) ∧
    (∀ kind, e.cause = .expected kind →
      Viable (((withFinish ts).extract (positionAfter ts calls)
        (positionAfter ts (calls + 1))).map Token.kind ++ [kind])) ∧
    ∀ source, scan source = .ok ts → e.found = .finish source.length ∨ e.found.StandsIn source := by
  obtain ⟨passed, behind, split, left, viable, broken, expected⟩ := viable_of_parse_error failed
  obtain ⟨front, whole⟩ := tokens_afterParses_suffix ts calls
  rw [split] at whole
  have start : positionAfter ts calls = front.length := by
    simp [positionAfter, position, ← whole, split]
  have stop : positionAfter ts (calls + 1) = front.length + passed.length := by
    rw [positionAfter, position, afterParses, left, ← whole]
    simp only [List.length_append, List.length_cons]
    omega
  have cut (middle rest : List Token) :
      (front ++ (middle ++ rest)).extract front.length (front.length + middle.length) = middle := by
    simp [List.extract_eq_take_drop]
  have before := cut passed (e.found :: behind)
  have through := cut (passed ++ [e.found]) behind
  rw [whole] at before
  rw [List.append_assoc, List.singleton_append, whole, List.length_append, List.length_singleton,
    ← Nat.add_assoc] at through
  rw [start, stop, before, through]
  refine ⟨Nat.le_add_right .., ?_, viable, broken, expected, ?_⟩
  · simp [← whole]
  · intro source cut
    obtain ⟨same, stands⟩ := standsIn_of_scan cut
    refine stands _ ?_
    rw [← same, ← whole]
    simp

/-- A symbol in front of a text that decomposes. -/
theorem Decomposes.symbol (c : Char) (kind : TokenKind) {after last : List Char}
    {pieces : List Piece} (tail : Decomposes after pieces last)
    (listed : (c, kind) ∈ symbols := by simp [symbols]) :
    Decomposes (c :: after) (⟨[], [c], kind⟩ :: pieces) last :=
  .piece .none (.symbol listed) tail

/-- The tokens of `{;2√4;}`, where the root cannot be right. -/
private def tokensWithRoot : List Token :=
  [⟨.openBrace, "\x7b", 0⟩, ⟨.semicolon, ";", 1⟩, ⟨.number (.int 2), "2", 2⟩, ⟨.root, "√", 3⟩,
    ⟨.number (.int 4), "4", 4⟩, ⟨.semicolon, ";", 5⟩, ⟨.closeBrace, "\x7d", 6⟩, .finish 7]

-- A second attempt begins at the root.
theorem TokenStream.parse_stops_at_first_wrong_atRoot :
    (scan "\x7b;2√4;\x7d" = .ok tokensWithRoot ∧
      (afterParses tokensWithRoot 0).parse.1 = .error ⟨.expected .semicolon, ⟨.root, "√", 3⟩⟩ ∧
      (afterParses tokensWithRoot 1).parse.1 = .error ⟨.expected .openBrace, ⟨.root, "√", 3⟩⟩) ∧
    Viable [.openBrace, .semicolon, .number (.int 2)] ∧
    ¬ Viable [.openBrace, .semicolon, .number (.int 2), .root] ∧
    Viable [.openBrace, .semicolon, .number (.int 2), .semicolon] ∧
    Token.StandsIn ⟨.root, "√", 3⟩ "\x7b;2√4;\x7d" ∧ ¬ Viable [.root] ∧ Viable [.openBrace] := by
  have two : Lexeme ['2'] (.number (.int 2)) ['√', '4', ';', '}'] :=
    .number (List.all_eq_true.mp rfl) rfl (by rintro c ⟨⟩; rfl)
  have four : Lexeme ['4'] (.number (.int 4)) [';', '}'] :=
    .number (List.all_eq_true.mp rfl) rfl (by rintro c ⟨⟩; rfl)
  have rest := Decomposes.symbol ';' .semicolon (.symbol '}' .closeBrace (.finish .none))
  have root := Decomposes.symbol '√' .root (.piece .none four rest)
  have whole := Decomposes.symbol '{' .openBrace (.symbol ';' .semicolon (.piece .none two root))
  have cut : scan "\x7b;2√4;\x7d" = .ok tokensWithRoot := Scanner.tokens_of_decomposes whole 0
  have first : (afterParses tokensWithRoot 0).parse.1 =
      .error ⟨.expected .semicolon, ⟨.root, "√", 3⟩⟩ := by with_unfolding_all rfl
  have second : (afterParses tokensWithRoot 1).parse.1 =
      .error ⟨.expected .openBrace, ⟨.root, "√", 3⟩⟩ := by with_unfolding_all rfl
  have positions : positionAfter tokensWithRoot 0 = 0 ∧ positionAfter tokensWithRoot 1 = 3 ∧
      positionAfter tokensWithRoot 2 = 3 := by
    decide +kernel
  obtain ⟨_, _, viable, broken, expected, stands⟩ :=
    parse_stops_at_first_wrong tokensWithRoot 0 _ first
  obtain ⟨_, _, _, broken', expected', _⟩ := parse_stops_at_first_wrong tokensWithRoot 1 _ second
  rw [positions.1, positions.2.1] at viable broken expected
  rw [positions.2.1, positions.2.2] at broken' expected'
  refine ⟨⟨cut, first, second⟩, viable, broken, expected _ rfl, ?_, broken', expected' _ rfl⟩
  rcases stands _ cut with finish | stands
  · cases finish
  · exact stands

end BlockCalc
