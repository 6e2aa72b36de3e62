import BlockCalc.Proofs.Parsing

/-!
# Reading by an index

Programs can also be read by an index that walks over one list of tokens: it moves by one, and stays
where it is on the last token. Nothing in a walk says that it ends. Its loops and its recursion have
no measure of their own, and no index is known to lie in the list. So a walk is given a depth to
which its calls may be nested, where every turn of a loop is one more call, and a walk that goes
deeper, or that looks behind the list, has no outcome.

On a list that ends in an end token every walk has the outcome of the reading that it stands for
(`Follows`), because that token is never passed inside a program, and three calls for each token are
deep enough. So a walk over all tokens of a stream has the stream's result
(`TokenStream.outcome_parse`).
-/
namespace BlockCalc

/-- Something read by an index into a list of tokens. -/
abbrev Walk (α : Type) := ExceptT ParseError (StateT Nat Option) α

namespace Walk

/-- The result of a walk and the index that it comes to, if there are any. -/
def outcome {α : Type} (walk : Walk α) (pos : Nat) : Option (Except ParseError α × Nat) :=
  walk.run.run pos

/-- A walk that has no outcome. -/
def lost {α : Type} : Walk α := fun _ => none

section
variable (all : List Token)

/-- The token at the index. There is none behind the list. -/
def current : Walk Token := do
  match all[← get]? with
  | some t => return t
  | none => lost

/-- Moves to the next token, except from the last. -/
def advance : Walk Unit := modify fun pos => if pos + 1 < all.length then pos + 1 else pos

/-- Passes a token of a kind. -/
def eat (kind : TokenKind) : Walk Token := do
  let t ← current all
  if t.kind.same kind then do
    advance all
    return t
  else throw ⟨.expected kind, t⟩

def sign : Walk Sign := do
  match (← current all).kind with
  | .plus => do
    let _ ← eat all .plus
    return .plus
  | .minus => do
    let _ ← eat all .minus
    return .minus
  | _ => return .plus

def addOp : Walk AddOp := do
  let t ← current all
  match t.kind with
  | .plus => do
    let _ ← eat all .plus
    return .add
  | .minus => do
    let _ ← eat all .minus
    return .sub
  | _ => throw ⟨.unexpectedIn .additiveOperator, t⟩

def mulOp : Walk MulOp := do
  let t ← current all
  match t.kind with
  | .times => do
    let _ ← eat all .times
    return .mul
  | .over => do
    let _ ← eat all .over
    return .div
  | .root => do
    let _ ← eat all .root
    return .root
  | _ => throw ⟨.unexpectedIn .multiplicativeOperator, t⟩

mutual

def factor : Nat → Walk Factor
  | 0 => lost
  | depth + 1 => do
    let t ← current all
    match t.kind with
    | .number value => do
      advance all
      return .number value
    | .openParen => do
      let _ ← eat all .openParen
      let inner ← expr depth
      let _ ← eat all .closeParen
      return .group inner
    | .name => do
      let name ← eat all .name
      return .variable name.lexeme
    | _ => throw ⟨.unexpectedIn .factor, t⟩

def term : Nat → Walk Term
  | 0 => lost
  | depth + 1 => do
    let first ← factor depth
    termLoop depth (.lead first)

/-- Continues a term as long as operators follow. -/
def termLoop : Nat → Term → Walk Term
  | 0, _ => lost
  | depth + 1, before => do
    if MulOp.comesNext [← current all] then do
      let op ← mulOp all
      let sign ← sign all
      let operand ← factor depth
      termLoop depth (before.extend op sign operand)
    else return before

def expr : Nat → Walk Expr
  | 0 => lost
  | depth + 1 => do
    let sign ← sign all
    let first ← term depth
    exprLoop depth (.lead sign first)

/-- Continues an expression as long as operators follow. -/
def exprLoop : Nat → Expr → Walk Expr
  | 0, _ => lost
  | depth + 1, before => do
    if AddOp.comesNext [← current all] then do
      let op ← addOp all
      let operand ← term depth
      exprLoop depth (before.extend op operand)
    else return before

end

/-- The part of a declaration or an assignment from the name on. -/
def binding (depth : Nat) (make : String → Expr → Statement) : Walk Statement := do
  let name ← eat all .name
  let _ ← eat all .equals
  let value ← expr all depth
  let _ ← eat all .semicolon
  return make name.lexeme value

def statement (depth : Nat) : Walk Statement := do
  let t ← current all
  match t.kind with
  | .num => do
    let _ ← eat all .num
    binding all depth .declare
  | .name => binding all depth .assign
  | .semicolon => do
    let _ ← eat all .semicolon
    let value ← expr all depth
    let _ ← eat all .semicolon
    return .print value
  | _ => throw ⟨.unexpectedIn .statement, t⟩

/-- One statement, and more as long as statements begin. -/
def statements : Nat → Walk Program
  | 0 => lost
  | depth + 1 => do
    let first ← statement all depth
    if Statement.comesNext [← current all] then do
      let others ← statements depth
      return first :: others
    else return [first]

def program (depth : Nat) : Walk Program := do
  let _ ← eat all .openBrace
  let body ← statements all depth
  let _ ← eat all .closeBrace
  return body

/-- A program and the end token behind it. -/
def parse (depth : Nat) : Walk Program := do
  let program ← program all depth
  let _ ← eat all .finish
  return program

end

section
variable {α β : Type}

theorem outcome_bind (walk : Walk α) (next : α → Walk β) (pos : Nat) :
    (walk >>= next).outcome pos =
      match walk.outcome pos with
      | none => none
      | some (.ok value, reached) => (next value).outcome reached
      | some (.error e, reached) => some (.error e, reached) := by
  change (StateT.bind _ _ : StateT Nat Option _) pos = _
  rw [StateT.bind]
  change (walk.outcome pos >>= _) = _
  cases walk.outcome pos with
  | none => rfl
  | some outcome =>
    obtain ⟨result, reached⟩ := outcome
    cases result with
    | ok value => rfl
    | error e => rfl

theorem outcome_current (all : List Token) (pos : Nat) :
    (current all).outcome pos = all[pos]?.map fun t => (.ok t, pos) := by
  rw [current, outcome_bind]
  change (match all[pos]? with
    | some t => (pure t : Walk Token)
    | none => lost).outcome pos = _
  cases all[pos]? <;> rfl

theorem outcome_advance (all : List Token) (pos : Nat) :
    (advance all).outcome pos = some (.ok (), if pos + 1 < all.length then pos + 1 else pos) := rfl

end

end Walk
open Reading

/-! ## Walks and readings -/

/-- The index at which a part of the list begins that goes up to its last token. -/
def indexOf (init ahead : List Token) : Nat := init.length - ahead.length

section
variable {α β : Type} {n m : Nat} {init : List Token} {last : Token}

/-- A reading as the outcome of a walk: a failure is at the token that comes next. -/
def Reading.asOutcome (init : List Token) (last : Token) : Reading α n → Except ParseError α × Nat
  | .done value rest _ => (.ok value, indexOf init rest)
  | .stuck cause rest => (.error ⟨cause, rest.headD last⟩, indexOf init rest)

variable (init last) in
/-- The walk over a list that ends in the token `last` has the outcome of the reading, from where
the tokens before the last are ahead. -/
def Follows (walk : Walk α) (ahead : List Token) (reading : Reading α n) : Prop :=
  walk.outcome (indexOf init ahead) = some (reading.asOutcome init last)

theorem getElem?_indexOf {ahead : List Token} (part : ahead <:+ init) :
    (init ++ [last])[indexOf init ahead]? = some (ahead.headD last) := by
  obtain ⟨passed, rfl⟩ := part
  cases ahead with
  | nil => simp [indexOf]
  | cons t rest => simp [indexOf]

theorem indexOf_cons {t : Token} {rest : List Token} (part : t :: rest <:+ init) :
    indexOf init (t :: rest) + 1 = indexOf init rest := by
  have length := part.length_le
  simp only [indexOf, List.length_cons] at length ⊢
  omega

namespace Follows

theorem done {value : α} {ahead : List Token} {shorter : ahead.length < n} :
    Follows init last (pure value) ahead (.done value ahead shorter : Reading α n) := rfl

theorem stuck {cause : ParseCause} {t : Token} {ahead : List Token} (next : ahead.headD last = t) :
    Follows init last (throw ⟨cause, t⟩) ahead (.stuck cause ahead : Reading α n) := by
  subst next
  rfl

theorem widen {walk : Walk α} {ahead : List Token} {reading : Reading α n} {le : n ≤ m}
    (follows : Follows init last walk ahead reading) :
    Follows init last walk ahead (reading.widen le) := by
  cases reading <;> exact follows

theorem bind {walk : Walk α} {next : α → Walk β} {ahead : List Token} {reading : Reading α n}
    {further : α → (rest : List Token) → rest.length < n → Reading β m}
    (first : Follows init last walk ahead reading) (within : reading.left <:+ ahead)
    (second : ∀ value rest shorter, rest <:+ ahead →
      Follows init last (next value) rest (further value rest shorter)) :
    Follows init last (walk >>= next) ahead (reading.andThen further) := by
  rw [Follows, Walk.outcome_bind, first]
  cases reading with
  | done value rest shorter => exact second value rest shorter within
  | stuck cause rest => rfl

/-- Looking at the next token does not move the index. -/
theorem current {next : Token → Walk α} {ahead : List Token} {reading : Reading α n}
    (part : ahead <:+ init) (follows : Follows init last (next (ahead.headD last)) ahead reading) :
    Follows init last (Walk.current (init ++ [last]) >>= next) ahead reading := by
  rw [Follows, Walk.outcome_bind, Walk.outcome_current, getElem?_indexOf part]
  exact follows

/-- The index moves past every token but the last. -/
theorem advance {next : Walk α} {t : Token} {rest : List Token} {reading : Reading α n}
    (part : t :: rest <:+ init) (follows : Follows init last next rest reading) :
    Follows init last (Walk.advance (init ++ [last]) >>= fun _ => next) (t :: rest) reading := by
  have length := part.length_le
  have inside : indexOf init (t :: rest) + 1 < (init ++ [last]).length := by
    simp only [indexOf, List.length_cons, List.length_append, List.length_nil] at length ⊢
    omega
  rw [Follows, Walk.outcome_bind, Walk.outcome_advance, if_pos inside, indexOf_cons part]
  exact follows

/-- A token of the kind that is asked for is passed. -/
theorem pass {next : Token → Walk α} {kind : TokenKind} {t : Token} {rest : List Token}
    {reading : Reading α n} (part : t :: rest <:+ init) (same : t.kind = kind)
    (follows : Follows init last (next t) rest reading) :
    Follows init last (Walk.eat (init ++ [last]) kind >>= next) (t :: rest) reading := by
  rw [Walk.eat, bind_assoc]
  refine .current part ?_
  rw [List.headD_cons, same, if_pos (TokenKind.same_self kind), bind_assoc]
  simp only [pure_bind]
  exact .advance part follows

end Follows

theorem follows_eat_cons (kind : TokenKind) {t : Token} {rest : List Token}
    (part : t :: rest <:+ init) :
    Follows init last (Walk.eat (init ++ [last]) kind) (t :: rest) (expect kind (t :: rest)) := by
  refine .current part ?_
  rw [expect, List.headD_cons]
  by_cases same : t.kind.same kind = true
  · rw [if_pos same, if_pos same]
    exact .advance part .done
  · rw [if_neg same, if_neg same]
    exact .stuck rfl

/-- The last token is never passed where another kind is asked for. -/
theorem follows_eat (finish : last.kind = .finish) {kind : TokenKind} (other : kind ≠ .finish)
    {ahead : List Token} (part : ahead <:+ init) :
    Follows init last (Walk.eat (init ++ [last]) kind) ahead (expect kind ahead) := by
  cases ahead with
  | nil =>
    have differs : last.kind.same kind = false := by
      rw [finish]
      cases kind <;> first | rfl | exact absurd rfl other
    refine .current part ?_
    rw [List.headD_nil, differs, if_neg Bool.false_ne_true]
    exact .stuck rfl
  | cons t rest => exact follows_eat_cons kind part

/-- Where the end token is asked for, the last token is accepted, and the index stays on it. -/
theorem outcome_eat_last (finish : last.kind = .finish) :
    (Walk.eat (init ++ [last]) .finish).outcome (indexOf init []) =
      some (.ok last, indexOf init []) := by
  have atEnd : ¬ indexOf init [] + 1 < (init ++ [last]).length := by simp [indexOf]
  rw [Walk.eat, Walk.outcome_bind, Walk.outcome_current, getElem?_indexOf List.nil_suffix]
  simp only [Option.map_some, List.headD_nil, finish, TokenKind.same_self, if_true]
  rw [Walk.outcome_bind, Walk.outcome_advance, if_neg atEnd]
  rfl

theorem follows_sign (finish : last.kind = .finish) {ahead : List Token} (part : ahead <:+ init) :
    Follows init last (Walk.sign (init ++ [last])) ahead (Sign.read ahead) := by
  refine .current part ?_
  cases ahead with
  | nil =>
    rw [List.headD_nil, finish]
    exact .done
  | cons t rest =>
    rw [List.headD_cons, Sign.read]
    cases kind : t.kind with
    | plus => exact .pass part kind .done
    | minus => exact .pass part kind .done
    | _ => exact .done

theorem AddOp.left_read (ts : List Token) : (AddOp.read ts).left <:+ ts := by
  cases ts with
  | nil => exact List.suffix_refl _
  | cons t rest =>
    rw [AddOp.read]
    split
    · exact List.suffix_cons t rest
    · exact List.suffix_cons t rest
    · exact List.suffix_refl _

theorem MulOp.left_read (ts : List Token) : (MulOp.read ts).left <:+ ts := by
  cases ts with
  | nil => exact List.suffix_refl _
  | cons t rest =>
    rw [MulOp.read]
    split
    · exact List.suffix_cons t rest
    · exact List.suffix_cons t rest
    · exact List.suffix_cons t rest
    · exact List.suffix_refl _

theorem follows_addOp (finish : last.kind = .finish) {ahead : List Token} (part : ahead <:+ init) :
    Follows init last (Walk.addOp (init ++ [last])) ahead (AddOp.read ahead) := by
  refine .current part ?_
  cases ahead with
  | nil =>
    simp only [List.headD_nil, finish]
    exact .stuck rfl
  | cons t rest =>
    rw [List.headD_cons, AddOp.read]
    cases kind : t.kind with
    | plus => exact .pass part kind .done
    | minus => exact .pass part kind .done
    | _ => exact .stuck rfl

theorem follows_mulOp (finish : last.kind = .finish) {ahead : List Token} (part : ahead <:+ init) :
    Follows init last (Walk.mulOp (init ++ [last])) ahead (MulOp.read ahead) := by
  refine .current part ?_
  cases ahead with
  | nil =>
    simp only [List.headD_nil, finish]
    exact .stuck rfl
  | cons t rest =>
    rw [List.headD_cons, MulOp.read]
    cases kind : t.kind with
    | times => exact .pass part kind .done
    | «over» => exact .pass part kind .done
    | root => exact .pass part kind .done
    | _ => exact .stuck rfl

-- The last token continues nothing, so that it may be looked at in place of no token.
theorem AddOp.comesNext_headD (finish : last.kind = .finish) (ahead : List Token) :
    AddOp.comesNext [ahead.headD last] = AddOp.comesNext ahead := by
  cases ahead with
  | nil => simp [AddOp.comesNext, finish]
  | cons t rest => rfl

theorem MulOp.comesNext_headD (finish : last.kind = .finish) (ahead : List Token) :
    MulOp.comesNext [ahead.headD last] = MulOp.comesNext ahead := by
  cases ahead with
  | nil => simp [MulOp.comesNext, finish]
  | cons t rest => rfl

theorem Statement.comesNext_headD (finish : last.kind = .finish) (ahead : List Token) :
    Statement.comesNext [ahead.headD last] = Statement.comesNext ahead := by
  cases ahead with
  | nil => simp [Statement.comesNext, finish]
  | cons t rest => rfl

-- The recursion is on the depth. What is left to be read decides how much of it is needed: a factor
-- or a loop goes deeper only where a token was passed, and an expression reaches a factor in two
-- calls.
mutual

theorem follows_factor (finish : last.kind = .finish) {ahead : List Token} (part : ahead <:+ init)
    {depth : Nat} (enough : 3 * ahead.length < depth) :
    Follows init last (Walk.factor (init ++ [last]) depth) ahead (Factor.read ahead) := by
  cases depth with
  | zero => exact absurd enough (Nat.not_lt_zero _)
  | succ depth =>
    refine .current part ?_
    cases ahead with
    | nil =>
      simp only [List.headD_nil, finish, Factor.read]
      exact .stuck rfl
    | cons t rest =>
      have behind : rest <:+ init := (List.suffix_cons t rest).trans part
      rw [List.length_cons] at enough
      rw [List.headD_cons, Factor.read]
      cases kind : t.kind with
      | number value => exact .advance part .done
      | name => exact .pass part kind .done
      | openParen =>
        refine .pass part kind ?_
        refine (follows_expr finish behind (by omega)).bind (Expr.left_read rest) ?_
        intro inner close _ within
        refine (follows_eat finish (by simp) (within.trans behind)).bind (left_expect _ close) ?_
        exact fun _ after _ _ => .done
      | _ => exact .stuck rfl
termination_by depth

theorem follows_term (finish : last.kind = .finish) {ahead : List Token} (part : ahead <:+ init)
    {depth : Nat} (enough : 3 * ahead.length + 1 < depth) :
    Follows init last (Walk.term (init ++ [last]) depth) ahead (Term.read ahead) := by
  cases depth with
  | zero => exact absurd enough (Nat.not_lt_zero _)
  | succ depth =>
    rw [Term.read]
    refine (follows_factor finish part (by omega)).bind (Factor.left_read ahead) ?_
    intro first rest _ within
    exact (follows_termLoop finish (.lead first) (within.trans part) (by omega)).widen
termination_by depth

theorem follows_termLoop (finish : last.kind = .finish) (before : Term) {ahead : List Token}
    (part : ahead <:+ init) {depth : Nat} (enough : 3 * ahead.length < depth) :
    Follows init last (Walk.termLoop (init ++ [last]) depth before) ahead
      (Term.readTail before ahead) := by
  cases depth with
  | zero => exact absurd enough (Nat.not_lt_zero _)
  | succ depth =>
    rw [Term.readTail]
    refine .current part ?_
    rw [MulOp.comesNext_headD finish]
    by_cases goesOn : MulOp.comesNext ahead = true
    · rw [if_pos goesOn, if_pos goesOn]
      refine (follows_mulOp finish part).bind (MulOp.left_read ahead) ?_
      intro op signed _ within₁
      refine (follows_sign finish (within₁.trans part)).bind (Sign.left_read signed) ?_
      intro sign unsigned _ within₂
      have here : unsigned <:+ init := within₂.trans (within₁.trans part)
      refine (follows_factor finish here (by omega)).bind (Factor.left_read unsigned) ?_
      intro operand after _ within₃
      exact (follows_termLoop finish _ (within₃.trans here) (by omega)).widen
    · rw [if_neg goesOn, if_neg goesOn]
      exact .done
termination_by depth

theorem follows_expr (finish : last.kind = .finish) {ahead : List Token} (part : ahead <:+ init)
    {depth : Nat} (enough : 3 * ahead.length + 2 < depth) :
    Follows init last (Walk.expr (init ++ [last]) depth) ahead (Expr.read ahead) := by
  cases depth with
  | zero => exact absurd enough (Nat.not_lt_zero _)
  | succ depth =>
    rw [Expr.read]
    refine (follows_sign finish part).bind (Sign.left_read ahead) ?_
    intro sign unsigned _ within
    have here : unsigned <:+ init := within.trans part
    refine (follows_term finish here (by omega)).bind (Term.left_read unsigned) ?_
    intro first rest _ passed
    exact (follows_exprLoop finish (.lead sign first) (passed.trans here) (by omega)).widen
termination_by depth

theorem follows_exprLoop (finish : last.kind = .finish) (before : Expr) {ahead : List Token}
    (part : ahead <:+ init) {depth : Nat} (enough : 3 * ahead.length < depth) :
    Follows init last (Walk.exprLoop (init ++ [last]) depth before) ahead
      (Expr.readTail before ahead) := by
  cases depth with
  | zero => exact absurd enough (Nat.not_lt_zero _)
  | succ depth =>
    rw [Expr.readTail]
    refine .current part ?_
    rw [AddOp.comesNext_headD finish]
    by_cases goesOn : AddOp.comesNext ahead = true
    · rw [if_pos goesOn, if_pos goesOn]
      refine (follows_addOp finish part).bind (AddOp.left_read ahead) ?_
      intro op operand _ within
      have here : operand <:+ init := within.trans part
      refine (follows_term finish here (by omega)).bind (Term.left_read operand) ?_
      intro term after _ passed
      exact (follows_exprLoop finish _ (passed.trans here) (by omega)).widen
    · rw [if_neg goesOn, if_neg goesOn]
      exact .done
termination_by depth

end

theorem follows_binding (finish : last.kind = .finish) (make : String → Expr → Statement)
    {ahead : List Token} (part : ahead <:+ init) {depth : Nat}
    (enough : 3 * ahead.length + 2 < depth) :
    Follows init last (Walk.binding (init ++ [last]) depth make) ahead
      (Statement.readBinding make ahead) := by
  refine (follows_eat finish (by simp) part).bind (left_expect _ ahead) ?_
  intro name afterName _ within₁
  have here₁ : afterName <:+ init := within₁.trans part
  refine (follows_eat finish (by simp) here₁).bind (left_expect _ afterName) ?_
  intro equals afterEquals _ within₂
  have here₂ : afterEquals <:+ init := within₂.trans here₁
  refine (follows_expr finish here₂ (by omega)).bind (Expr.left_read afterEquals) ?_
  intro value afterValue _ within₃
  refine (follows_eat finish (by simp) (within₃.trans here₂)).bind (left_expect _ afterValue) ?_
  exact fun _ _ _ _ => .done

theorem follows_statement (finish : last.kind = .finish) {ahead : List Token}
    (part : ahead <:+ init) {depth : Nat} (enough : 3 * ahead.length + 2 < depth) :
    Follows init last (Walk.statement (init ++ [last]) depth) ahead (Statement.read ahead) := by
  refine .current part ?_
  cases ahead with
  | nil =>
    simp only [List.headD_nil, finish]
    exact .stuck rfl
  | cons t rest =>
    have behind : rest <:+ init := (List.suffix_cons t rest).trans part
    have less : 3 * rest.length + 2 < depth := by
      rw [List.length_cons] at enough
      omega
    rw [List.headD_cons, Statement.read]
    cases kind : t.kind with
    | num => exact .pass part kind (follows_binding finish .declare behind less).widen
    | name => exact follows_binding finish .assign part enough
    | semicolon =>
      refine .pass part kind (.widen ?_)
      refine (follows_expr finish behind less).bind (Expr.left_read rest) ?_
      intro value afterValue _ within
      refine (follows_eat finish (by simp) (within.trans behind)).bind (left_expect _ _) ?_
      exact fun _ _ _ _ => .done
    | _ => exact .stuck rfl

theorem follows_statements (finish : last.kind = .finish) {ahead : List Token}
    (part : ahead <:+ init) {depth : Nat} (enough : 3 * ahead.length + 3 < depth) :
    Follows init last (Walk.statements (init ++ [last]) depth) ahead
      (Program.readStatements ahead) := by
  induction depth generalizing ahead with
  | zero => exact absurd enough (Nat.not_lt_zero _)
  | succ depth ih =>
    rw [Program.readStatements]
    refine (follows_statement finish part (by omega)).bind (Statement.left_read ahead) ?_
    intro first rest shorter within
    have here : rest <:+ init := within.trans part
    refine .current here ?_
    rw [Statement.comesNext_headD finish]
    by_cases goesOn : Statement.comesNext rest = true
    · rw [if_pos goesOn, if_pos goesOn]
      refine (ih here (by omega)).bind (Program.left_readStatements rest) ?_
      exact fun _ _ _ _ => .done
    · rw [if_neg goesOn, if_neg goesOn]
      exact .done

theorem follows_program (finish : last.kind = .finish) {ahead : List Token}
    (part : ahead <:+ init) {depth : Nat} (enough : 3 * ahead.length + 3 < depth) :
    Follows init last (Walk.program (init ++ [last]) depth) ahead (Program.read ahead) := by
  refine (follows_eat finish (by simp) part).bind (left_expect _ ahead) ?_
  intro left body _ within₁
  have here : body <:+ init := within₁.trans part
  refine (follows_statements finish here (by omega)).bind (Program.left_readStatements body) ?_
  intro program close _ within₂
  refine (follows_eat finish (by simp) (within₂.trans here)).bind (left_expect _ close) ?_
  exact fun _ _ _ _ => .done

end

/-- Three calls for each token of the list are enough for what is left of it. -/
theorem depth_enough {init ahead : List Token} {last : Token} {depth : Nat}
    (part : ahead <:+ init) (deep : 3 * (init ++ [last]).length < depth) :
    3 * ahead.length + 3 < depth := by
  have length := part.length_le
  rw [List.length_append, List.length_singleton] at deep
  omega

theorem TokenKind.same_finish (kind : TokenKind) : kind.same .finish = kind.isFinish := by
  cases kind <;> rfl

namespace TokenStream

theorem kind_last (s : TokenStream) : s.last.kind = .finish := by
  have isFinish := s.last_isFinish
  rw [← TokenKind.same_finish] at isFinish
  exact TokenKind.eq_of_same (by simp) isFinish

theorem ahead_suffix {s : TokenStream} {init : List Token} {last : Token}
    (part : s.tokens <:+ init ++ [last]) : s.ahead <:+ init ∧ s.last = last := by
  obtain ⟨passed, split⟩ := part
  rw [tokens, ← List.append_assoc] at split
  obtain ⟨same, ends⟩ := List.append_inj' split rfl
  exact ⟨⟨passed, same⟩, List.singleton_inj.mp ends⟩

theorem position_eq_indexOf (s : TokenStream) (init : List Token) (last : Token) :
    s.position (init ++ [last]) = indexOf init s.ahead := by
  simp only [position, tokens, indexOf, List.length_append, List.length_singleton]
  omega

/-- The walk from where a stream stands in a list has the stream's result, and comes to where the
stream comes to. -/
theorem outcome_parse {s : TokenStream} {init : List Token} {last : Token}
    (part : s.tokens <:+ init ++ [last]) {depth : Nat}
    (deep : 3 * (init ++ [last]).length < depth) :
    (Walk.parse (init ++ [last]) depth).outcome (s.position (init ++ [last])) =
      some (s.parse.1, s.parse.2.position (init ++ [last])) := by
  obtain ⟨ahead, rfl⟩ := ahead_suffix part
  have within := Program.left_read s.ahead
  rw [position_eq_indexOf, position_eq_indexOf, Walk.parse, Walk.outcome_bind,
    follows_program s.kind_last ahead (depth_enough ahead deep), parse]
  cases read : Program.read s.ahead with
  | stuck cause rest => rfl
  | done program rest shorter =>
    rw [read] at within
    cases rest with
    | nil =>
      have accepted : (Walk.eat (init ++ [s.last]) .finish).outcome (indexOf init []) = _ :=
        outcome_eat_last s.kind_last
      simp only [asOutcome, Walk.outcome_bind, accepted]
      rfl
    | cons t rest =>
      have passed : Follows init s.last
          (Walk.eat (init ++ [s.last]) .finish >>= fun _ => pure program) (t :: rest)
          ((expect .finish (t :: rest)).andThen fun _ after lt => .done program after lt) :=
        (follows_eat_cons .finish (List.IsSuffix.trans within ahead)).bind (left_expect _ _)
          fun _ _ _ _ => .done
      refine Eq.trans passed ?_
      rw [expect, TokenKind.same_finish]
      by_cases isFinish : t.kind.isFinish = true
      · simp only [if_pos isFinish]
        rfl
      · simp only [if_neg isFinish]
        rfl

end TokenStream

end BlockCalc
