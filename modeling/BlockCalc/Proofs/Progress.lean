import BlockCalc.Proofs.Walking

/-!
# Progress of reading

Reading by an index comes to an end: the index always lies in the list, never goes back, and moves
past at least one token wherever a statement, an expression, a term or a factor is read, although it
stays where it is on the last token. For what is read is derived from the tokens that are passed,
and no end token is part of any derivation (`Walk.Proceeds.of_follows`), so that the last token is
not among them. All this holds from every index and after any number of programs
(`Walk.walks_proceed`).
-/
namespace BlockCalc
open Reading

/-- None of the tokens is an end token. -/
def NoFinish (ts : List Token) : Prop := ∀ t ∈ ts, t.kind ≠ .finish

@[simp] theorem noFinish_nil : NoFinish [] := by simp [NoFinish]

@[simp] theorem noFinish_cons {t : Token} {ts : List Token} :
    NoFinish (t :: ts) ↔ t.kind ≠ .finish ∧ NoFinish ts := by simp [NoFinish]

@[simp] theorem noFinish_append {ts us : List Token} :
    NoFinish (ts ++ us) ↔ NoFinish ts ∧ NoFinish us := List.forall_mem_append

theorem Sign.Derives.noFinish {ts : List Token} {sign : Sign} :
    Sign.Derives ts sign → NoFinish ts
  | .absent => by simp
  | .plus kind => by simp [kind]
  | .minus kind => by simp [kind]

theorem AddOp.Derives.kind_ne {t : Token} {op : AddOp} : AddOp.Derives t op → t.kind ≠ .finish
  | .add kind => by simp [kind]
  | .sub kind => by simp [kind]

theorem MulOp.Derives.kind_ne {t : Token} {op : MulOp} : MulOp.Derives t op → t.kind ≠ .finish
  | .mul kind => by simp [kind]
  | .div kind => by simp [kind]

mutual

theorem Factor.Derives.noFinish {ts : List Token} {factor : Factor} :
    Factor.Derives ts factor → NoFinish ts
  | .number kind => by simp [kind]
  | .group opening body closing => by simp [opening, body.noFinish, closing]
  | .reference kind => by simp [kind]

theorem Term.Derives.noFinish {ts : List Token} {term : Term} : Term.Derives ts term → NoFinish ts
  | .chain lead tail => by simp [lead.noFinish, tail.noFinish]

theorem Term.Chain.noFinish {before whole : Term} {ts : List Token} :
    Term.Chain before ts whole → NoFinish ts
  | .stop => by simp
  | .step operator signed operand tail => by
    simp [operator.kind_ne, signed.noFinish, operand.noFinish, tail.noFinish]

theorem Expr.Derives.noFinish {ts : List Token} {expr : Expr} : Expr.Derives ts expr → NoFinish ts
  | .chain signed lead tail => by simp [signed.noFinish, lead.noFinish, tail.noFinish]

theorem Expr.Chain.noFinish {before whole : Expr} {ts : List Token} :
    Expr.Chain before ts whole → NoFinish ts
  | .stop => by simp
  | .step operator operand tail => by simp [operator.kind_ne, operand.noFinish, tail.noFinish]

end

theorem Statement.BindingDerives.noFinish {ts : List Token} {name : String} {value : Expr} :
    Statement.BindingDerives ts name value → NoFinish ts
  | .intro named equated body ended => by simp [named, equated, body.noFinish, ended]

theorem Statement.Derives.noFinish {ts : List Token} {statement : Statement} :
    Statement.Derives ts statement → NoFinish ts
  | .declare kind binding => by simp [kind, binding.noFinish]
  | .assign binding => binding.noFinish
  | .print opening body closing => by simp [opening, body.noFinish, closing]

theorem Program.BodyDerives.noFinish {ts : List Token} {program : Program} :
    Program.BodyDerives ts program → NoFinish ts
  | .one derives => derives.noFinish
  | .more derives tail => by simp [derives.noFinish, tail.noFinish]

namespace Walk
variable {α : Type}

/-- The walk from an index has an outcome that is the same for every depth of more than three calls
for each token. -/
def ComesTo (all : List Token) (walk : Nat → Walk α) (pos : Nat) (result : Except ParseError α)
    (reached : Nat) : Prop :=
  ∀ depth > 3 * all.length, (walk depth).outcome pos = some (result, reached)

/-- The walk from an index ends, at an index of the list that lies no further back. -/
def Ends (all : List Token) (walk : Nat → Walk α) (pos : Nat) : Prop :=
  ∃ result reached, ComesTo all walk pos result reached ∧ pos ≤ reached ∧ reached < all.length

/-- The walk from an index ends, and if it succeeds, it has moved on and passed no end token. -/
def Proceeds (all : List Token) (walk : Nat → Walk α) (pos : Nat) : Prop :=
  ∃ result reached, ComesTo all walk pos result reached ∧ pos ≤ reached ∧ reached < all.length ∧
    ∀ value, result = .ok value → pos < reached ∧ NoFinish (all.extract pos reached)

/-- The index after some number of programs were read from a list, successfully or not. -/
def indexAfter (all : List Token) (depth : Nat) : Nat → Option Nat
  | 0 => some 0
  | calls + 1 => do
    let pos ← indexAfter all depth calls
    let (_, reached) ← (parse all depth).outcome pos
    return reached

end Walk

section
variable {α : Type} {n : Nat} {init ahead rest : List Token} {last : Token}

theorem indexOf_lt_length (init rest : List Token) (last : Token) :
    indexOf init rest < (init ++ [last]).length := by
  simp only [indexOf, List.length_append, List.length_singleton]
  omega

theorem indexOf_le (within : rest <:+ ahead) : indexOf init ahead ≤ indexOf init rest :=
  Nat.sub_le_sub_left within.length_le _

/-- The tokens between two indices are those that are left at the first and not at the second. -/
theorem extract_indexOf {used : List Token} (part : used ++ rest <:+ init) :
    (init ++ [last]).extract (indexOf init (used ++ rest)) (indexOf init rest) = used := by
  obtain ⟨passed, rfl⟩ := part
  have first : indexOf (passed ++ (used ++ rest)) (used ++ rest) = passed.length := by
    simp [indexOf]
  have second : indexOf (passed ++ (used ++ rest)) rest = passed.length + used.length := by
    simp only [indexOf, List.length_append]
    omega
  rw [first, second, List.extract_eq_take_drop]
  simp

namespace Walk
variable {walk : Nat → Walk α}

theorem comesTo_of_follows {reading : Reading α n} (part : ahead <:+ init)
    (follows : ∀ depth, 3 * ahead.length + 3 < depth →
      Follows init last (walk depth) ahead reading) :
    ComesTo (init ++ [last]) walk (indexOf init ahead) (reading.asOutcome init last).1
      (indexOf init reading.left) := by
  intro depth deep
  rw [follows depth (depth_enough part deep)]
  cases reading <;> rfl

theorem Ends.of_follows {reading : Reading α n} (part : ahead <:+ init)
    (within : reading.left <:+ ahead)
    (follows : ∀ depth, 3 * ahead.length + 3 < depth →
      Follows init last (walk depth) ahead reading) :
    Ends (init ++ [last]) walk (indexOf init ahead) :=
  ⟨_, _, comesTo_of_follows part follows, indexOf_le within, indexOf_lt_length init _ last⟩

/-- A walk moves on where what its reading gives is derived from the tokens that it takes: none of
them is an end token. -/
theorem Proceeds.of_follows {reading : Reading α ahead.length} {Derives : List Token → α → Prop}
    (part : ahead <:+ init) (within : reading.left <:+ ahead)
    (derives : ∀ {rest value}, reading.Gives value rest →
      ∃ used, ahead = used ++ rest ∧ Derives used value)
    (inside : ∀ {used value}, Derives used value → NoFinish used)
    (follows : ∀ depth, 3 * ahead.length + 3 < depth →
      Follows init last (walk depth) ahead reading) :
    Proceeds (init ++ [last]) walk (indexOf init ahead) := by
  refine ⟨_, _, comesTo_of_follows part follows, indexOf_le within, indexOf_lt_length init _ last,
    ?_⟩
  cases reading with
  | done value rest shorter =>
    intro _ _
    obtain ⟨used, rfl, derived⟩ := derives (gives_done.mpr ⟨rfl, rfl⟩)
    have length := part.length_le
    rw [left]
    constructor
    · simp only [indexOf]
      omega
    · rw [extract_indexOf part]
      exact inside derived
  | stuck cause rest =>
    intro value failed
    cases failed

end Walk

/-- Every index of the list is that of some tokens that go up to the last. -/
theorem exists_indexOf {pos : Nat} (inside : pos < (init ++ [last]).length) :
    ∃ ahead, ahead <:+ init ∧ indexOf init ahead = pos := by
  rw [List.length_append, List.length_singleton] at inside
  refine ⟨init.drop pos, List.drop_suffix pos init, ?_⟩
  rw [indexOf, List.length_drop]
  omega

end

namespace Walk
open TokenStream

theorem indexAfter_eq (ts : List Token) (calls : Nat) {depth : Nat}
    (deep : 3 * (withFinish ts).length < depth) :
    indexAfter (withFinish ts) depth calls = some (positionAfter ts calls) := by
  induction calls with
  | zero =>
    rw [indexAfter, positionAfter, position, afterParses, tokens_ofTokens, Nat.sub_self]
  | succ calls ih =>
    have part := tokens_afterParses_suffix ts calls
    rw [indexAfter, ih]
    simp only [positionAfter, ← tokens_ofTokens, tokens] at part deep ⊢
    have walked := outcome_parse part deep
    rw [Option.bind_eq_bind, Option.bind_some, walked]
    rfl

theorem positionAfter_lt (ts : List Token) (calls : Nat) :
    positionAfter ts calls < (withFinish ts).length := by
  rw [positionAfter, ← tokens_ofTokens, tokens, position_eq_indexOf]
  exact indexOf_lt_length ..

theorem positionAfter_le (ts : List Token) (calls : Nat) :
    positionAfter ts calls ≤ positionAfter ts (calls + 1) :=
  Nat.sub_le_sub_left (tokens_parse_suffix (afterParses ts calls)).length_le _

/-- Reading a program by an index always ends, and the index never leaves the list. The list of
tokens ends in an end token and stays as it is. After any number of programs, whether they were read
or not, the index is that of a token, and it never goes back. From every index statements,
expressions, terms and factors are read in a walk that ends and, where it succeeds, has moved the
index forward without passing an end token; so do all loops end. -/
theorem walks_proceed (ts : List Token) :
    (∃ last, (withFinish ts).getLast? = some last ∧ last.kind = .finish) ∧
    (∀ depth > 3 * (withFinish ts).length, ∀ calls,
      indexAfter (withFinish ts) depth calls = some (positionAfter ts calls) ∧
      positionAfter ts calls < (withFinish ts).length ∧
      positionAfter ts calls ≤ positionAfter ts (calls + 1) ∧
      (withFinish ts).drop (positionAfter ts calls) = (afterParses ts calls).tokens ∧
      (parse (withFinish ts) depth).outcome (positionAfter ts calls) =
        some ((afterParses ts calls).parse.1, positionAfter ts (calls + 1))) ∧
    ∀ pos < (withFinish ts).length,
      Proceeds (withFinish ts) (statement (withFinish ts)) pos ∧
      Proceeds (withFinish ts) (expr (withFinish ts)) pos ∧
      Proceeds (withFinish ts) (term (withFinish ts)) pos ∧
      Proceeds (withFinish ts) (factor (withFinish ts)) pos ∧
      Proceeds (withFinish ts) (statements (withFinish ts)) pos ∧
      (∀ before, Ends (withFinish ts) (exprLoop (withFinish ts) · before) pos) ∧
      ∀ before, Ends (withFinish ts) (termLoop (withFinish ts) · before) pos := by
  refine ⟨?_, ?_, ?_⟩
  · refine ⟨(ofTokens ts).last, ?_, kind_last _⟩
    rw [← tokens_ofTokens, tokens, List.getLast?_concat]
  · intro depth deep calls
    have part := tokens_afterParses_suffix ts calls
    refine ⟨indexAfter_eq ts calls deep, positionAfter_lt ts calls, positionAfter_le ts calls,
      drop_position part, ?_⟩
    simp only [positionAfter, ← tokens_ofTokens, tokens] at part deep ⊢
    exact outcome_parse part deep
  · intro pos inside
    have finish := (ofTokens ts).kind_last
    simp only [← tokens_ofTokens, tokens] at inside ⊢
    obtain ⟨ahead, part, rfl⟩ := exists_indexOf inside
    refine ⟨?_, ?_, ?_, ?_, ?_, ?_, ?_⟩
    · exact .of_follows part (Statement.left_read ahead) Statement.derives_of_read
        Statement.Derives.noFinish fun _ _ => follows_statement finish part (by omega)
    · exact .of_follows part (Expr.left_read ahead) Expr.derives_of_read
        Expr.Derives.noFinish fun _ _ => follows_expr finish part (by omega)
    · exact .of_follows part (Term.left_read ahead) Term.derives_of_read
        Term.Derives.noFinish fun _ _ => follows_term finish part (by omega)
    · exact .of_follows part (Factor.left_read ahead) Factor.derives_of_read
        Factor.Derives.noFinish fun _ _ => follows_factor finish part (by omega)
    · exact .of_follows part (Program.left_readStatements ahead) Program.body_of_read
        Program.BodyDerives.noFinish fun _ _ => follows_statements finish part (by omega)
    · intro before
      exact .of_follows part (Expr.left_readTail before ahead) fun _ _ =>
        follows_exprLoop finish before part (by omega)
    · intro before
      exact .of_follows part (Term.left_readTail before ahead) fun _ _ =>
        follows_termLoop finish before part (by omega)

/-- A factor is passed up to an end token in the middle of a list. -/
theorem walks_proceed_beforeFinish :
    let all := withFinish [⟨.number (.int 1), "1", 0⟩, .finish 1, ⟨.name, "x", 1⟩]
    (∀ depth > 0, (factor all depth).outcome 0 = some (.ok (.number (.int 1)), 1)) ∧
      NoFinish (all.extract 0 1) := by
  intro all
  have walked : ∀ depth > 0, (factor all depth).outcome 0 = some (.ok (.number (.int 1)), 1)
    | depth + 1, _ => by
      rw [factor, outcome_bind, outcome_current]
      rfl
  obtain ⟨-, -, walks⟩ := walks_proceed [⟨.number (.int 1), "1", 0⟩, .finish 1, ⟨.name, "x", 1⟩]
  obtain ⟨-, -, -, proceeds, -⟩ := walks 0 (by decide)
  obtain ⟨result, reached, same, -, -, moved⟩ := proceeds
  have same := (walked _ (Nat.succ_pos _)).symm.trans (same _ (Nat.lt_succ_self _))
  obtain ⟨rfl, rfl⟩ := Prod.mk.inj (Option.some.inj same)
  exact ⟨walked, (moved _ rfl).2⟩

end Walk

end BlockCalc
