import BlockCalc.Proofs.Parsing

/-!
# What is still to be read

The reading of a program can be followed from token to token by a list of goals: the parts of the
grammar that are still to come. One token decides what becomes of the goals (`Goal.step`), and every
reader does what the goals do (`Program.read_pursues`), so that reading looks at nothing but the
kinds of the tokens up to the one where it stops. Whatever goals are left, there are tokens that
fulfil them (`Goal.Ended.exists_fulfilling`).
-/
namespace BlockCalc

/-- The kinds of tokens inside a program that can stand in a place where no other kind can. -/
inductive Mark where
  | openBrace
  | closeBrace
  | name
  | equals
  | semicolon
  | closeParen

/-- The kind that a mark stands for. -/
def Mark.kind : Mark → TokenKind
  | .openBrace => .openBrace
  | .closeBrace => .closeBrace
  | .name => .name
  | .equals => .equals
  | .semicolon => .semicolon
  | .closeParen => .closeParen

/-- A part of the grammar that is still to come. -/
inductive Goal where
  | token (mark : Mark)
  | statement
  /-- Any number of statements, and the brace behind them. -/
  | blockRest
  | expr
  /-- Any number of further terms with operators before them. -/
  | termsRest
  | term
  /-- Any number of further factors with operators before them. -/
  | factorsRest
  | signedFactor
  | factor

namespace Goal

/-- Takes a token of the kind that has to come. -/
def takeToken (mark : Mark) (goals : List Goal) (kind : TokenKind) :
    Except ParseCause (List Goal) :=
  if kind.same mark.kind then .ok goals else .error (.expected mark.kind)

/-- The goals after the first token of a factor. -/
def beginFactor (goals : List Goal) : TokenKind → Except ParseCause (List Goal)
  | .number _ => .ok goals
  | .name => .ok goals
  | .openParen => .ok (.expr :: .token .closeParen :: goals)
  | _ => .error (.unexpectedIn .factor)

/-- The goals after the first token of a statement. -/
def beginStatement (goals : List Goal) : TokenKind → Except ParseCause (List Goal)
  | .num => .ok (.token .name :: .token .equals :: .expr :: .token .semicolon :: goals)
  | .name => .ok (.token .equals :: .expr :: .token .semicolon :: goals)
  | .semicolon => .ok (.expr :: .token .semicolon :: goals)
  | _ => .error (.unexpectedIn .statement)

/-- The goals after one token, or why it cannot come next. A repetition that the token does not
continue has come to its end. Where no goal is left, only an end token may come. -/
def step : List Goal → TokenKind → Except ParseCause (List Goal)
  | [], _ => .error (.expected .finish)
  | .token mark :: goals, kind => takeToken mark goals kind
  | .statement :: goals, kind => beginStatement goals kind
  | .blockRest :: goals, kind =>
    match kind with
    | .num | .name | .semicolon => beginStatement (.blockRest :: goals) kind
    | _ => takeToken .closeBrace goals kind
  | .expr :: goals, kind =>
    if (AddOp.ofKind? kind).isSome then .ok (.term :: .termsRest :: goals)
    else beginFactor (.factorsRest :: .termsRest :: goals) kind
  | .termsRest :: goals, kind =>
    if (AddOp.ofKind? kind).isSome then .ok (.term :: .termsRest :: goals) else step goals kind
  | .term :: goals, kind => beginFactor (.factorsRest :: goals) kind
  | .factorsRest :: goals, kind =>
    if (MulOp.ofKind? kind).isSome then .ok (.signedFactor :: .factorsRest :: goals)
    else step goals kind
  | .signedFactor :: goals, kind =>
    if (AddOp.ofKind? kind).isSome then .ok (.factor :: goals) else beginFactor goals kind
  | .factor :: goals, kind => beginFactor goals kind

theorem step_blockRest (goals : List Goal) (kind : TokenKind) :
    step (.blockRest :: goals) kind = beginStatement (.blockRest :: goals) kind ∨
      step (.blockRest :: goals) kind = takeToken .closeBrace goals kind := by
  cases kind <;> simp [step]

theorem step_token (mark : Mark) (goals : List Goal) :
    step (.token mark :: goals) mark.kind = .ok goals := if_pos mark.kind.same_self

theorem step_termsRest_of_none (goals : List Goal) {kind : TokenKind}
    (none : AddOp.ofKind? kind = none) : step (.termsRest :: goals) kind = step goals kind := by
  rw [step, none]
  rfl

theorem step_factorsRest_of_none (goals : List Goal) {kind : TokenKind}
    (none : MulOp.ofKind? kind = none) : step (.factorsRest :: goals) kind = step goals kind := by
  rw [step, none]
  rfl

/-- It makes no difference which number a literal carries. -/
theorem step_number (goals : List Goal) (v w : Number) :
    step goals (.number v) = step goals (.number w) := by
  induction goals with
  | nil => rfl
  | cons goal goals ih =>
    cases goal with
    | termsRest => exact ih
    | factorsRest => exact ih
    | token mark => cases mark <;> rfl
    | _ => rfl

/-- The goals after some tokens, or the first token that cannot come next, with those behind it. -/
def pursue : List Goal → List TokenKind → Except (ParseCause × List TokenKind) (List Goal)
  | goals, [] => .ok goals
  | goals, kind :: kinds =>
    match step goals kind with
    | .error cause => .error (cause, kind :: kinds)
    | .ok next => pursue next kinds

theorem pursue_of_step {goals next : List Goal} {kind : TokenKind}
    (stepped : step goals kind = .ok next) (kinds : List TokenKind) :
    pursue goals (kind :: kinds) = pursue next kinds := by
  rw [pursue, stepped]

theorem pursue_of_error {goals : List Goal} {kind : TokenKind} {cause : ParseCause}
    (failed : step goals kind = .error cause) (kinds : List TokenKind) :
    pursue goals (kind :: kinds) = .error (cause, kind :: kinds) := by
  rw [pursue, failed]

theorem pursue_congr {goals others : List Goal} {kind : TokenKind}
    (same : step goals kind = step others kind) (kinds : List TokenKind) :
    pursue goals (kind :: kinds) = pursue others (kind :: kinds) := by
  rw [pursue, pursue, same]

theorem pursue_append {goals next : List Goal} {kinds : List TokenKind}
    (reached : pursue goals kinds = .ok next) (more : List TokenKind) :
    pursue goals (kinds ++ more) = pursue next more := by
  induction kinds generalizing goals with
  | nil =>
    cases reached
    rfl
  | cons kind kinds ih =>
    cases stepped : step goals kind with
    | error cause =>
      rw [pursue_of_error stepped] at reached
      cases reached
    | ok middle =>
      rw [pursue_of_step stepped] at reached
      rw [List.cons_append, pursue_of_step stepped, ih reached]

/-- Where the goals cannot be pursued, all tokens before the offending one could be taken. -/
theorem exists_of_pursue_error {goals : List Goal} {kinds rest : List TokenKind}
    {cause : ParseCause} (failed : pursue goals kinds = .error (cause, rest)) :
    ∃ before kind behind next, kinds = before ++ rest ∧ rest = kind :: behind ∧
      pursue goals before = .ok next ∧ step next kind = .error cause := by
  induction kinds generalizing goals with
  | nil => cases failed
  | cons kind kinds ih =>
    cases stepped : step goals kind with
    | error other =>
      rw [pursue_of_error stepped] at failed
      cases failed
      exact ⟨[], kind, kinds, goals, rfl, rfl, rfl, stepped⟩
    | ok middle =>
      rw [pursue_of_step stepped] at failed
      obtain ⟨before, offending, behind, next, rfl, split, reached, stuck⟩ := ih failed
      refine ⟨kind :: before, offending, behind, next, rfl, split, ?_, stuck⟩
      rw [pursue_of_step stepped, reached]

/-! ## Goals can be fulfilled -/

/-- Goals that end with the end of a block, as all do that are left of a program. -/
inductive Ended : List Goal → Prop
  | block : Ended [.blockRest]
  | more (goal : Goal) {goals : List Goal} (ended : Ended goals) : Ended (goal :: goals)

theorem Ended.beginFactor {goals next : List Goal} {kind : TokenKind} (ended : Ended goals)
    (stepped : Goal.beginFactor goals kind = .ok next) : Ended next := by
  rw [Goal.beginFactor.eq_def] at stepped
  split at stepped
  · cases stepped
    exact ended
  · cases stepped
    exact ended
  · cases stepped
    exact .more _ (.more _ ended)
  · cases stepped

theorem Ended.beginStatement {goals next : List Goal} {kind : TokenKind} (ended : Ended goals)
    (stepped : Goal.beginStatement goals kind = .ok next) : Ended next := by
  rw [Goal.beginStatement.eq_def] at stepped
  split at stepped
  · cases stepped
    exact .more _ (.more _ (.more _ (.more _ ended)))
  · cases stepped
    exact .more _ (.more _ (.more _ ended))
  · cases stepped
    exact .more _ (.more _ ended)
  · cases stepped

theorem takeToken_eq_ok {mark : Mark} {goals next : List Goal} {kind : TokenKind}
    (stepped : takeToken mark goals kind = .ok next) : next = goals := by
  rw [takeToken] at stepped
  split at stepped
  · cases stepped
    rfl
  · cases stepped

/-- After a token the goals still end with the end of a block, unless that was the end. -/
theorem Ended.step {goals next : List Goal} {kind : TokenKind} (ended : Ended goals)
    (stepped : Goal.step goals kind = .ok next) : next = [] ∨ Ended next := by
  induction ended with
  | block =>
    rcases step_blockRest [] kind with begun | closed
    · exact .inr (Ended.block.beginStatement (begun ▸ stepped))
    · exact .inl (takeToken_eq_ok (closed ▸ stepped))
  | @more goal goals ended ih =>
    cases goal with
    | token mark =>
      obtain rfl := takeToken_eq_ok stepped
      exact .inr ended
    | statement => exact .inr (ended.beginStatement stepped)
    | blockRest =>
      rcases step_blockRest goals kind with begun | closed
      · exact .inr ((Ended.more _ ended).beginStatement (begun ▸ stepped))
      · obtain rfl := takeToken_eq_ok (closed ▸ stepped)
        exact .inr ended
    | expr =>
      rw [Goal.step] at stepped
      split at stepped
      · cases stepped
        exact .inr (.more _ (.more _ ended))
      · exact .inr ((Ended.more _ (.more _ ended)).beginFactor stepped)
    | termsRest =>
      rw [Goal.step] at stepped
      split at stepped
      · cases stepped
        exact .inr (.more _ (.more _ ended))
      · exact ih stepped
    | term => exact .inr ((Ended.more _ ended).beginFactor stepped)
    | factorsRest =>
      rw [Goal.step] at stepped
      split at stepped
      · cases stepped
        exact .inr (.more _ (.more _ ended))
      · exact ih stepped
    | signedFactor =>
      rw [Goal.step] at stepped
      split at stepped
      · cases stepped
        exact .inr (.more _ ended)
      · exact .inr (ended.beginFactor stepped)
    | factor => exact .inr (ended.beginFactor stepped)

theorem Ended.pursue {goals next : List Goal} {kinds : List TokenKind} (ended : Ended goals)
    (reached : Goal.pursue goals kinds = .ok next) : next = [] ∨ Ended next := by
  induction kinds generalizing goals with
  | nil =>
    cases reached
    exact .inr ended
  | cons kind kinds ih =>
    cases stepped : Goal.step goals kind with
    | error cause =>
      rw [pursue_of_error stepped] at reached
      cases reached
    | ok middle =>
      rw [pursue_of_step stepped] at reached
      rcases ended.step stepped with rfl | ended
      · cases kinds with
        | nil =>
          cases reached
          exact .inl rfl
        | cons kind kinds => cases reached
      · exact ih ended reached

/-- Goals that end with the end of a block can be fulfilled, by tokens that do not continue what
stands before them. -/
theorem Ended.exists_fulfilling {goals : List Goal} (ended : Ended goals) :
    ∃ kind kinds, AddOp.ofKind? kind = none ∧ MulOp.ofKind? kind = none ∧
      Goal.pursue goals (kind :: kinds) = .ok [] := by
  induction ended with
  | block => exact ⟨.closeBrace, [], rfl, rfl, rfl⟩
  | @more goal goals ended ih =>
    obtain ⟨kind, kinds, noAdd, noMul, fulfils⟩ := ih
    have pastTerms : Goal.pursue (.termsRest :: goals) (kind :: kinds) = .ok [] := by
      rw [pursue_congr (step_termsRest_of_none goals noAdd), fulfils]
    have pastFactors (goals : List Goal) (fulfils : Goal.pursue goals (kind :: kinds) = .ok []) :
        Goal.pursue (.factorsRest :: goals) (kind :: kinds) = .ok [] := by
      rw [pursue_congr (step_factorsRest_of_none goals noMul), fulfils]
    let number : TokenKind := .number (.int 0)
    cases goal with
    | token mark =>
      refine ⟨mark.kind, kind :: kinds, ?_, ?_, ?_⟩
      · cases mark <;> rfl
      · cases mark <;> rfl
      · rw [pursue_of_step (step_token mark goals), fulfils]
    | statement => exact ⟨.semicolon, number :: .semicolon :: kind :: kinds, rfl, rfl, fulfils⟩
    | blockRest => exact ⟨.closeBrace, kind :: kinds, rfl, rfl, fulfils⟩
    | expr => exact ⟨number, kind :: kinds, rfl, rfl, pastFactors _ pastTerms⟩
    | termsRest => exact ⟨kind, kinds, noAdd, noMul, pastTerms⟩
    | term => exact ⟨number, kind :: kinds, rfl, rfl, pastFactors _ fulfils⟩
    | factorsRest => exact ⟨kind, kinds, noAdd, noMul, pastFactors _ fulfils⟩
    | signedFactor => exact ⟨number, kind :: kinds, rfl, rfl, fulfils⟩
    | factor => exact ⟨number, kind :: kinds, rfl, rfl, fulfils⟩

theorem beginFactor_ne_expected {goals : List Goal} {kind expected : TokenKind} :
    beginFactor goals kind ≠ .error (.expected expected) := by
  cases kind <;> simp [beginFactor]

theorem beginStatement_ne_expected {goals : List Goal} {kind expected : TokenKind} :
    beginStatement goals kind ≠ .error (.expected expected) := by
  cases kind <;> simp [beginStatement]

theorem eq_kind_of_takeToken {mark : Mark} {goals : List Goal} {kind expected : TokenKind}
    (failed : takeToken mark goals kind = .error (.expected expected)) :
    expected = mark.kind := by
  rw [takeToken] at failed
  split at failed
  · cases failed
  · cases failed
    rfl

/-- A token of the kind that was expected could have come next. -/
theorem Ended.step_expected {goals : List Goal} {kind expected : TokenKind} (ended : Ended goals)
    (failed : Goal.step goals kind = .error (.expected expected)) :
    ∃ next, Goal.step goals expected = .ok next := by
  induction ended with
  | block =>
    rcases step_blockRest [] kind with begun | closed
    · exact absurd (begun ▸ failed) beginStatement_ne_expected
    · obtain rfl := eq_kind_of_takeToken (closed ▸ failed)
      exact ⟨_, rfl⟩
  | @more goal goals ended ih =>
    cases goal with
    | token mark =>
      obtain rfl := eq_kind_of_takeToken failed
      exact ⟨goals, step_token mark goals⟩
    | statement => exact absurd failed beginStatement_ne_expected
    | blockRest =>
      rcases step_blockRest goals kind with begun | closed
      · exact absurd (begun ▸ failed) beginStatement_ne_expected
      · obtain rfl := eq_kind_of_takeToken (closed ▸ failed)
        exact ⟨_, rfl⟩
    | expr =>
      rw [Goal.step] at failed
      split at failed
      · cases failed
      · exact absurd failed beginFactor_ne_expected
    | termsRest =>
      rw [Goal.step] at failed
      split at failed
      · cases failed
      · rw [Goal.step]
        split
        · exact ⟨_, rfl⟩
        · exact ih failed
    | term => exact absurd failed beginFactor_ne_expected
    | factorsRest =>
      rw [Goal.step] at failed
      split at failed
      · cases failed
      · rw [Goal.step]
        split
        · exact ⟨_, rfl⟩
        · exact ih failed
    | signedFactor =>
      rw [Goal.step] at failed
      split at failed
      · cases failed
      · exact absurd failed beginFactor_ne_expected
    | factor => exact absurd failed beginFactor_ne_expected

end Goal

/-! ## Readers pursue their goals -/

/-- The causes for which reading fails inside a program. -/
inductive ParseCause.Inside : ParseCause → Prop
  | expected (mark : Mark) : Inside (.expected mark.kind)
  | statement : Inside (.unexpectedIn .statement)
  | factor : Inside (.unexpectedIn .factor)

/-- The kinds of the tokens that come next, up to the end token behind them. -/
def kindsAhead (ts : List Token) : List TokenKind := ts.map Token.kind ++ [.finish]

@[simp] theorem kindsAhead_cons (t : Token) (ts : List Token) :
    kindsAhead (t :: ts) = t.kind :: kindsAhead ts := rfl

namespace Reading
variable {α β : Type} {n m : Nat} {start middle after : List Goal} {ts : List Token}

/-- The reading takes the goals at the start to those after it, or is stuck where they are and for
the same cause. -/
inductive Pursues (start after : List Goal) (ts : List Token) : Reading α n → Prop
  | done {value : α} {rest : List Token} {shorter}
      (reached : Goal.pursue start (kindsAhead ts) = Goal.pursue after (kindsAhead rest)) :
      Pursues start after ts (.done value rest shorter)
  | stuck {cause : ParseCause} {rest : List Token} (inside : cause.Inside)
      (failed : Goal.pursue start (kindsAhead ts) = .error (cause, kindsAhead rest)) :
      Pursues start after ts (.stuck cause rest)

/-- What is read after some tokens that lead to other goals. -/
theorem Pursues.of_eq {reading : Reading α n} {us : List Token}
    (same : Goal.pursue start (kindsAhead ts) = Goal.pursue middle (kindsAhead us))
    (pursues : reading.Pursues middle after us) : reading.Pursues start after ts := by
  cases pursues with
  | done reached => exact .done (same.trans reached)
  | stuck inside failed => exact .stuck inside (same.trans failed)

theorem Pursues.andThen {reading : Reading α n}
    {next : α → (rest : List Token) → rest.length < n → Reading β m}
    (first : reading.Pursues start middle ts)
    (second : ∀ value rest shorter, (next value rest shorter).Pursues middle after rest) :
    (reading.andThen next).Pursues start after ts := by
  cases first with
  | @done value rest shorter reached => exact .of_eq reached (second value rest shorter)
  | stuck inside failed => exact .stuck inside failed

theorem Pursues.widen {reading : Reading α n} {le : n ≤ m}
    (pursues : reading.Pursues start after ts) : (reading.widen le).Pursues start after ts := by
  cases pursues with
  | done reached => exact .done reached
  | stuck inside failed => exact .stuck inside failed

end Reading
open Reading Goal

theorem expect_pursues (mark : Mark) (goals : List Goal) (ts : List Token) :
    (expect mark.kind ts).Pursues (.token mark :: goals) goals ts := by
  cases ts with
  | nil =>
    refine .stuck (.expected mark) (pursue_of_error ?_ [])
    cases mark <;> rfl
  | cons t rest =>
    rw [expect]
    split
    · next same =>
      have taken : Goal.step (.token mark :: goals) t.kind = .ok goals := if_pos same
      exact .done (pursue_of_step taken _)
    · next other =>
      have failed : Goal.step (.token mark :: goals) t.kind = .error (.expected mark.kind) :=
        if_neg other
      exact .stuck (.expected mark) (pursue_of_error failed _)

/-- An optional sign leads to the goals that a sign would have led to at once. -/
theorem Sign.read_pursues {start after : List Goal}
    (signed : ∀ kind, Goal.step start kind =
      if (AddOp.ofKind? kind).isSome then .ok after else Goal.step after kind)
    (ts : List Token) : (Sign.read ts).Pursues start after ts := by
  cases ts with
  | nil => exact .done (pursue_congr (signed .finish) [])
  | cons t rest =>
    rw [Sign.read]
    split
    · next kind =>
      refine .done (pursue_of_step ?_ _)
      rw [signed, kind]
      rfl
    · next kind =>
      refine .done (pursue_of_step ?_ _)
      rw [signed, kind]
      rfl
    · next noPlus noMinus =>
      refine .done (pursue_congr ?_ _)
      rw [signed]
      cases kind : t.kind <;> first | rfl | contradiction

-- The recursion is that of the readers.
mutual

theorem Factor.read_pursues (goals : List Goal) (ts : List Token) :
    (Factor.read ts).Pursues (.factor :: goals) goals ts := by
  cases ts with
  | nil =>
    rw [Factor.read]
    exact .stuck .factor rfl
  | cons t rest =>
    rw [Factor.read]
    split
    · next value kind =>
      refine .done (pursue_of_step ?_ _)
      rw [kind]
      rfl
    · next kind =>
      refine .done (pursue_of_step ?_ _)
      rw [kind]
      rfl
    · next kind =>
      have opened : Goal.step (.factor :: goals) t.kind =
          .ok (.expr :: .token .closeParen :: goals) := by
        rw [kind]
        rfl
      refine .of_eq (pursue_of_step opened _) ?_
      refine (Expr.read_pursues (.token .closeParen :: goals) rest).andThen fun _ close _ => ?_
      refine (expect_pursues .closeParen goals close).andThen fun _ after _ => ?_
      exact .done rfl
    · refine .stuck .factor (pursue_of_error ?_ _)
      cases kind : t.kind <;> first | rfl | simp_all
termination_by 3 * ts.length
decreasing_by all_goals subst_vars; simp only [List.length_cons]; omega

theorem Term.read_pursues (goals : List Goal) (ts : List Token) :
    (Term.read ts).Pursues (.term :: goals) goals ts := by
  have same : Goal.pursue (.term :: goals) (kindsAhead ts) =
      Goal.pursue (.factor :: .factorsRest :: goals) (kindsAhead ts) := by
    cases ts with
    | nil => rfl
    | cons t rest => exact pursue_congr rfl _
  rw [Term.read]
  refine .of_eq same ?_
  refine (Factor.read_pursues (.factorsRest :: goals) ts).andThen fun first rest _ => ?_
  exact (Term.readTail_pursues goals (.lead first) rest).widen
termination_by 3 * ts.length + 1

theorem Term.readTail_pursues (goals : List Goal) (before : Term) (ts : List Token) :
    (Term.readTail before ts).Pursues (.factorsRest :: goals) goals ts := by
  cases ts with
  | nil =>
    rw [Term.readTail_nil]
    exact .done (pursue_congr (step_factorsRest_of_none goals rfl) [])
  | cons t rest =>
    rw [Term.readTail_cons]
    split
    · next none => exact .done (pursue_congr (step_factorsRest_of_none goals none) _)
    · next op found =>
      have continued : Goal.step (.factorsRest :: goals) t.kind =
          .ok (.signedFactor :: .factorsRest :: goals) := by
        rw [Goal.step, found]
        rfl
      refine .of_eq (pursue_of_step continued _) ?_
      refine (Sign.read_pursues (fun _ => rfl) rest).andThen fun sign unsigned _ => ?_
      refine (Factor.read_pursues (.factorsRest :: goals) unsigned).andThen fun factor after _ => ?_
      exact (Term.readTail_pursues goals (before.extend op sign factor) after).widen
termination_by 3 * ts.length
decreasing_by all_goals subst_vars; simp only [List.length_cons]; omega

theorem Expr.read_pursues (goals : List Goal) (ts : List Token) :
    (Expr.read ts).Pursues (.expr :: goals) goals ts := by
  rw [Expr.read]
  refine (Sign.read_pursues (fun _ => rfl) ts).andThen fun sign unsigned _ => ?_
  refine (Term.read_pursues (.termsRest :: goals) unsigned).andThen fun first rest _ => ?_
  exact (Expr.readTail_pursues goals (.lead sign first) rest).widen
termination_by 3 * ts.length + 2

theorem Expr.readTail_pursues (goals : List Goal) (before : Expr) (ts : List Token) :
    (Expr.readTail before ts).Pursues (.termsRest :: goals) goals ts := by
  cases ts with
  | nil =>
    rw [Expr.readTail_nil]
    exact .done (pursue_congr (step_termsRest_of_none goals rfl) [])
  | cons t rest =>
    rw [Expr.readTail_cons]
    split
    · next none => exact .done (pursue_congr (step_termsRest_of_none goals none) _)
    · next op found =>
      have continued : Goal.step (.termsRest :: goals) t.kind =
          .ok (.term :: .termsRest :: goals) := by
        rw [Goal.step, found]
        rfl
      refine .of_eq (pursue_of_step continued _) ?_
      refine (Term.read_pursues (.termsRest :: goals) rest).andThen fun term after _ => ?_
      exact (Expr.readTail_pursues goals (before.extend op term) after).widen
termination_by 3 * ts.length
decreasing_by all_goals subst_vars; simp only [List.length_cons]; omega

end

theorem Statement.readBinding_pursues (goals : List Goal) (make : String → Expr → Statement)
    (ts : List Token) :
    (Statement.readBinding make ts).Pursues
      (.token .name :: .token .equals :: .expr :: .token .semicolon :: goals) goals ts := by
  refine (expect_pursues .name _ ts).andThen fun name afterName _ => ?_
  refine (expect_pursues .equals _ afterName).andThen fun _ afterEquals _ => ?_
  refine (Expr.read_pursues _ afterEquals).andThen fun value afterValue _ => ?_
  refine (expect_pursues .semicolon _ afterValue).andThen fun _ rest _ => ?_
  exact .done rfl

theorem Statement.readPrint_pursues (goals : List Goal) (ts : List Token) :
    (Statement.readPrint ts).Pursues (.expr :: .token .semicolon :: goals) goals ts := by
  refine (Expr.read_pursues _ ts).andThen fun value afterValue _ => ?_
  refine (expect_pursues .semicolon _ afterValue).andThen fun _ rest _ => ?_
  exact .done rfl

theorem Statement.read_pursues (goals : List Goal) (ts : List Token) :
    (Statement.read ts).Pursues (.statement :: goals) goals ts := by
  cases ts with
  | nil => exact .stuck .statement rfl
  | cons t rest =>
    rw [Statement.read]
    split
    · next kind =>
      have begun : Goal.step (.statement :: goals) t.kind =
          .ok (.token .name :: .token .equals :: .expr :: .token .semicolon :: goals) := by
        rw [kind]
        rfl
      exact .of_eq (pursue_of_step begun _)
        (Statement.readBinding_pursues goals .declare rest).widen
    · next kind =>
      have same : Goal.pursue (.statement :: goals) (kindsAhead (t :: rest)) =
          Goal.pursue (.token .name :: .token .equals :: .expr :: .token .semicolon :: goals)
            (kindsAhead (t :: rest)) := by
        refine pursue_congr ?_ _
        rw [kind]
        rfl
      exact .of_eq same (Statement.readBinding_pursues goals .assign (t :: rest))
    · next kind =>
      have begun : Goal.step (.statement :: goals) t.kind =
          .ok (.expr :: .token .semicolon :: goals) := by
        rw [kind]
        rfl
      exact .of_eq (pursue_of_step begun _) (Statement.readPrint_pursues goals rest).widen
    · refine .stuck .statement (pursue_of_error ?_ _)
      cases kind : t.kind <;> first | rfl | contradiction

/-- Where no statement comes next, a block has to end. -/
theorem Goal.pursue_blockRest (goals : List Goal) (ts : List Token) :
    pursue (.blockRest :: goals) (kindsAhead ts) =
      if Statement.comesNext ts then pursue (.statement :: .blockRest :: goals) (kindsAhead ts)
      else pursue (.token .closeBrace :: goals) (kindsAhead ts) := by
  cases ts with
  | nil => rfl
  | cons t rest =>
    rw [Statement.comesNext]
    cases kind : t.kind <;> simp [kindsAhead_cons, kind, pursue, step]

theorem Program.readStatements_pursues (goals : List Goal) (ts : List Token) :
    (Program.readStatements ts).Pursues (.statement :: .blockRest :: goals)
      (.token .closeBrace :: goals) ts := by
  rw [Program.readStatements]
  refine (Statement.read_pursues (.blockRest :: goals) ts).andThen fun first rest shorter => ?_
  have next := pursue_blockRest goals rest
  split
  · next more =>
    rw [if_pos more] at next
    refine .of_eq next ?_
    refine (Program.readStatements_pursues goals rest).andThen fun others after _ => ?_
    exact .done rfl
  · next none =>
    rw [if_neg none] at next
    exact .done next
termination_by ts.length

/-- The goals at the beginning of a program. -/
def Program.goals : List Goal := [.token .openBrace, .statement, .blockRest]

theorem Program.read_pursues (ts : List Token) :
    (Program.read ts).Pursues Program.goals [] ts := by
  refine (expect_pursues .openBrace _ ts).andThen fun _ body _ => ?_
  refine (Program.readStatements_pursues [] body).andThen fun program close _ => ?_
  refine (expect_pursues .closeBrace [] close).andThen fun _ rest _ => ?_
  exact .done rfl

end BlockCalc
