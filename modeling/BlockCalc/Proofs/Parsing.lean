import BlockCalc.Program.Parser
import BlockCalc.Proofs.Grammar

/-!
# Reading follows the grammar

Every phrase that is read derives from exactly the tokens it took (soundness), and every phrase that
the grammar derives is read from its tokens, whatever cannot continue it comes after them
(completeness). A token stream therefore gives a program exactly where the grammar derives one up to
an end token, and the grammar is unambiguous because reading is a function.
-/
namespace BlockCalc

theorem TokenKind.same_self (kind : TokenKind) : kind.same kind = true := by
  simp [TokenKind.same]

/-- Apart from number literals, only equal kinds are the same. -/
theorem TokenKind.eq_of_same {a b : TokenKind} (plain : ∀ value, b ≠ .number value)
    (same : a.same b = true) : a = b := by
  cases b with
  | number value => exact absurd rfl (plain value)
  | _ => cases a <;> first | rfl | simp [TokenKind.same, TokenKind.ctorIdx] at same

namespace Reading
variable {α β : Type} {n m : Nat}

/-- The reading succeeds with a value and leaves a rest. -/
def Gives (reading : Reading α n) (value : α) (rest : List Token) : Prop :=
  ∃ shorter, reading = .done value rest shorter

@[simp] theorem gives_done {a value : α} {mid rest : List Token} {shorter : mid.length < n} :
    (done a mid shorter).Gives value rest ↔ a = value ∧ mid = rest := by
  constructor
  · rintro ⟨_, same⟩
    cases same
    exact ⟨rfl, rfl⟩
  · rintro ⟨rfl, rfl⟩
    exact ⟨shorter, rfl⟩

@[simp] theorem not_gives_stuck {cause : ParseCause} {at' rest : List Token} {value : α} :
    ¬ (stuck cause at' : Reading α n).Gives value rest := by
  rintro ⟨_, same⟩
  cases same

@[simp] theorem gives_widen {reading : Reading α n} {le : n ≤ m} {value : α} {rest : List Token} :
    (reading.widen le).Gives value rest ↔ reading.Gives value rest := by
  cases reading <;> simp

theorem Gives.shorter {reading : Reading α n} {value : α} {rest : List Token}
    (gives : reading.Gives value rest) : rest.length < n := by
  obtain ⟨shorter, _⟩ := gives
  exact shorter

theorem Gives.unique {reading : Reading α n} {v w : α} {rest other : List Token}
    (one : reading.Gives v rest) (two : reading.Gives w other) : v = w ∧ rest = other := by
  obtain ⟨_, rfl⟩ := one
  exact gives_done.mp two

theorem Gives.andThen {reading : Reading α n} {a : α} {mid : List Token}
    {next : α → (rest : List Token) → rest.length < n → Reading β m} {value : β} {rest : List Token}
    (first : reading.Gives a mid) (second : ∀ shorter, (next a mid shorter).Gives value rest) :
    (reading.andThen next).Gives value rest := by
  obtain ⟨shorter, rfl⟩ := first
  exact second shorter

theorem gives_of_andThen {reading : Reading α n}
    {next : α → (rest : List Token) → rest.length < n → Reading β m} {value : β} {rest : List Token}
    (gives : (reading.andThen next).Gives value rest) :
    ∃ a mid shorter, reading.Gives a mid ∧ (next a mid shorter).Gives value rest := by
  cases reading with
  | done a mid shorter => exact ⟨a, mid, shorter, gives_done.mpr ⟨rfl, rfl⟩, gives⟩
  | stuck cause at' => exact absurd gives not_gives_stuck

end Reading
open Reading

theorem gives_expect {kind : TokenKind} {t : Token} (rest : List Token) (same : t.kind = kind) :
    (expect kind (t :: rest)).Gives t rest := by
  simp [expect, same, TokenKind.same_self]

theorem of_gives_expect {kind : TokenKind} (plain : ∀ value, kind ≠ .number value) {t : Token}
    {ts rest : List Token} (gives : (expect kind ts).Gives t rest) :
    ts = t :: rest ∧ t.kind = kind := by
  cases ts with
  | nil => simp [expect] at gives
  | cons head tail =>
    rw [expect] at gives
    split at gives
    · next same =>
      obtain ⟨rfl, rfl⟩ := gives_done.mp gives
      exact ⟨rfl, TokenKind.eq_of_same plain same⟩
    · exact absurd gives not_gives_stuck

theorem Sign.derives_of_read {ts rest : List Token} {sign : Sign}
    (gives : (Sign.read ts).Gives sign rest) :
    ∃ used, ts = used ++ rest ∧ Sign.Derives used sign := by
  cases ts with
  | nil =>
    obtain ⟨rfl, rfl⟩ := gives_done.mp gives
    exact ⟨[], rfl, .absent⟩
  | cons t tail =>
    rw [Sign.read] at gives
    split at gives
    · next kind =>
      obtain ⟨rfl, rfl⟩ := gives_done.mp gives
      exact ⟨[t], rfl, .plus kind⟩
    · next kind =>
      obtain ⟨rfl, rfl⟩ := gives_done.mp gives
      exact ⟨[t], rfl, .minus kind⟩
    · obtain ⟨rfl, rfl⟩ := gives_done.mp gives
      exact ⟨[], rfl, .absent⟩

theorem AddOp.ofKind?_eq_some_iff {t : Token} {op : AddOp} :
    AddOp.ofKind? t.kind = some op ↔ AddOp.Derives t op := by
  constructor
  · intro found
    rw [AddOp.ofKind?.eq_def] at found
    split at found
    · next kind => cases found; exact .add kind
    · next kind => cases found; exact .sub kind
    · cases found
  · intro derives
    cases derives with
    | add kind => rw [kind]; rfl
    | sub kind => rw [kind]; rfl

theorem MulOp.ofKind?_eq_some_iff {t : Token} {op : MulOp} :
    MulOp.ofKind? t.kind = some op ↔ MulOp.Derives t op := by
  constructor
  · intro found
    rw [MulOp.ofKind?.eq_def] at found
    split at found
    · next kind => cases found; exact .mul kind
    · next kind => cases found; exact .div kind
    · cases found
  · intro derives
    cases derives with
    | mul kind => rw [kind]; rfl
    | div kind => rw [kind]; rfl

-- The recursion is that of the readers: on the number of tokens ahead, and at the same number from
-- expressions through terms down to factors.
mutual

theorem Factor.derives_of_read {ts rest : List Token} {factor : Factor}
    (gives : (Factor.read ts).Gives factor rest) :
    ∃ used, ts = used ++ rest ∧ Factor.Derives used factor := by
  cases ts with
  | nil =>
    rw [Factor.read] at gives
    exact absurd gives not_gives_stuck
  | cons t tail =>
    rw [Factor.read] at gives
    split at gives
    · next value kind =>
      obtain ⟨rfl, rfl⟩ := gives_done.mp gives
      exact ⟨[t], rfl, .number kind⟩
    · next kind =>
      obtain ⟨rfl, rfl⟩ := gives_done.mp gives
      exact ⟨[t], rfl, .reference kind⟩
    · next opening =>
      obtain ⟨inner, close, _, readInner, onward⟩ := gives_of_andThen gives
      obtain ⟨right, after, _, readClose, finished⟩ := gives_of_andThen onward
      obtain ⟨rfl, rfl⟩ := gives_done.mp finished
      obtain ⟨used, rfl, body⟩ := Expr.derives_of_read readInner
      obtain ⟨rfl, closing⟩ := of_gives_expect (by simp) readClose
      exact ⟨t :: (used ++ [right]), by simp, .group opening body closing⟩
    · exact absurd gives not_gives_stuck
termination_by 3 * ts.length
decreasing_by all_goals subst_vars; simp only [List.length_cons]; omega

theorem Term.derives_of_read {ts rest : List Token} {term : Term}
    (gives : (Term.read ts).Gives term rest) :
    ∃ used, ts = used ++ rest ∧ Term.Derives used term := by
  rw [Term.read] at gives
  obtain ⟨first, mid, _, readFirst, readTail⟩ := gives_of_andThen gives
  rw [gives_widen] at readTail
  obtain ⟨fs, rfl, lead⟩ := Factor.derives_of_read readFirst
  obtain ⟨more, rfl, tail⟩ := Term.chain_of_readTail readTail
  exact ⟨fs ++ more, by simp, .chain lead tail⟩
termination_by 3 * ts.length + 1

theorem Term.chain_of_readTail {before term : Term} {ts rest : List Token}
    (gives : (Term.readTail before ts).Gives term rest) :
    ∃ used, ts = used ++ rest ∧ Term.Chain before used term := by
  cases ts with
  | nil =>
    rw [Term.readTail_nil] at gives
    obtain ⟨rfl, rfl⟩ := gives_done.mp gives
    exact ⟨[], rfl, .stop⟩
  | cons t tail =>
    rw [Term.readTail_cons] at gives
    split at gives
    · obtain ⟨rfl, rfl⟩ := gives_done.mp gives
      exact ⟨[], rfl, .stop⟩
    · next op found =>
      obtain ⟨sign, unsigned, _, readSign, onward⟩ := gives_of_andThen gives
      obtain ⟨factor, after, _, readFactor, readTail⟩ := gives_of_andThen onward
      rw [gives_widen] at readTail
      obtain ⟨ss, rfl, signed⟩ := Sign.derives_of_read readSign
      obtain ⟨fs, rfl, operand⟩ := Factor.derives_of_read readFactor
      obtain ⟨more, rfl, chain⟩ := Term.chain_of_readTail readTail
      exact ⟨t :: (ss ++ (fs ++ more)), by simp,
        .step (MulOp.ofKind?_eq_some_iff.mp found) signed operand chain⟩
termination_by 3 * ts.length
decreasing_by all_goals subst_vars; simp only [List.length_cons]; omega

theorem Expr.derives_of_read {ts rest : List Token} {expr : Expr}
    (gives : (Expr.read ts).Gives expr rest) :
    ∃ used, ts = used ++ rest ∧ Expr.Derives used expr := by
  rw [Expr.read] at gives
  obtain ⟨sign, unsigned, _, readSign, onward⟩ := gives_of_andThen gives
  obtain ⟨first, mid, _, readFirst, readTail⟩ := gives_of_andThen onward
  rw [gives_widen] at readTail
  obtain ⟨ss, rfl, signed⟩ := Sign.derives_of_read readSign
  obtain ⟨fs, rfl, lead⟩ := Term.derives_of_read readFirst
  obtain ⟨more, rfl, tail⟩ := Expr.chain_of_readTail readTail
  exact ⟨ss ++ (fs ++ more), by simp, .chain signed lead tail⟩
termination_by 3 * ts.length + 2

theorem Expr.chain_of_readTail {before expr : Expr} {ts rest : List Token}
    (gives : (Expr.readTail before ts).Gives expr rest) :
    ∃ used, ts = used ++ rest ∧ Expr.Chain before used expr := by
  cases ts with
  | nil =>
    rw [Expr.readTail_nil] at gives
    obtain ⟨rfl, rfl⟩ := gives_done.mp gives
    exact ⟨[], rfl, .stop⟩
  | cons t tail =>
    rw [Expr.readTail_cons] at gives
    split at gives
    · obtain ⟨rfl, rfl⟩ := gives_done.mp gives
      exact ⟨[], rfl, .stop⟩
    · next op found =>
      obtain ⟨term, after, _, readTerm, readTail⟩ := gives_of_andThen gives
      rw [gives_widen] at readTail
      obtain ⟨used, rfl, operand⟩ := Term.derives_of_read readTerm
      obtain ⟨more, rfl, chain⟩ := Expr.chain_of_readTail readTail
      exact ⟨t :: (used ++ more), by simp,
        .step (AddOp.ofKind?_eq_some_iff.mp found) operand chain⟩
termination_by 3 * ts.length
decreasing_by all_goals subst_vars; simp only [List.length_cons]; omega

end

/-! ## What derives is read -/

/-- No operator between terms comes next, and so no sign either. -/
def NoAddOp (ts : List Token) : Prop := ∀ t ∈ ts.head?, AddOp.ofKind? t.kind = none

/-- No operator between factors comes next. -/
def NoMulOp (ts : List Token) : Prop := ∀ t ∈ ts.head?, MulOp.ofKind? t.kind = none

@[simp] theorem noAddOp_cons {t : Token} {rest : List Token} :
    NoAddOp (t :: rest) ↔ AddOp.ofKind? t.kind = none := by
  simp [NoAddOp]

@[simp] theorem noMulOp_cons {t : Token} {rest : List Token} :
    NoMulOp (t :: rest) ↔ MulOp.ofKind? t.kind = none := by
  simp [NoMulOp]

theorem Factor.Derives.noAddOp {fs : List Token} {factor : Factor}
    (derives : Factor.Derives fs factor) (rest : List Token) : NoAddOp (fs ++ rest) := by
  cases derives with
  | number kind => simp [kind, AddOp.ofKind?]
  | group opening _ _ => simp [opening, AddOp.ofKind?]
  | reference kind => simp [kind, AddOp.ofKind?]

theorem Term.Derives.noAddOp {ts : List Token} {term : Term} (derives : Term.Derives ts term)
    (rest : List Token) : NoAddOp (ts ++ rest) := by
  cases derives with
  | chain lead _ =>
    rw [List.append_assoc]
    exact lead.noAddOp _

/-- What follows a term inside a chain of terms does not continue the term. -/
theorem Expr.Chain.noMulOp {before whole : Expr} {ts rest : List Token}
    (chain : Expr.Chain before ts whole) (stops : NoMulOp rest) : NoMulOp (ts ++ rest) := by
  cases chain with
  | stop => exact stops
  | step operator _ _ =>
    cases operator with
    | add kind => simp [kind, MulOp.ofKind?]
    | sub kind => simp [kind, MulOp.ofKind?]

theorem Sign.gives_read {ss rest : List Token} {sign : Sign} (signed : Sign.Derives ss sign)
    (unsigned : NoAddOp rest) : (Sign.read (ss ++ rest)).Gives sign rest := by
  cases signed with
  | plus kind => simp [Sign.read, kind]
  | minus kind => simp [Sign.read, kind]
  | absent =>
    cases rest with
    | nil => simp [Sign.read]
    | cons t tail =>
      rw [noAddOp_cons] at unsigned
      rw [List.nil_append, Sign.read]
      split
      · next kind => simp [kind, AddOp.ofKind?] at unsigned
      · next kind => simp [kind, AddOp.ofKind?] at unsigned
      · simp

theorem Term.gives_readTail_stop (before : Term) {rest : List Token} (stops : NoMulOp rest) :
    (Term.readTail before rest).Gives before rest := by
  cases rest with
  | nil => simp [Term.readTail_nil]
  | cons t tail =>
    rw [noMulOp_cons] at stops
    rw [Term.readTail_cons]
    simp [stops]

theorem Expr.gives_readTail_stop (before : Expr) {rest : List Token} (stops : NoAddOp rest) :
    (Expr.readTail before rest).Gives before rest := by
  cases rest with
  | nil => simp [Expr.readTail_nil]
  | cons t tail =>
    rw [noAddOp_cons] at stops
    rw [Expr.readTail_cons]
    simp [stops]

-- The recursion is on the derivations. What comes after the phrase is arbitrary, as far as it does
-- not continue the phrase; a factor cannot be continued at all.
mutual

theorem Factor.gives_read (rest : List Token) {fs : List Token} {factor : Factor} :
    Factor.Derives fs factor → (Factor.read (fs ++ rest)).Gives factor rest
  | .number kind => by
    rw [List.singleton_append, Factor.read]
    simp [kind]
  | .reference kind => by
    rw [List.singleton_append, Factor.read]
    simp [kind]
  | @Factor.Derives.group _ right _ _ opening body closing => by
    have ends : NoAddOp (right :: rest) := by simp [closing, AddOp.ofKind?]
    have stops : NoMulOp (right :: rest) := by simp [closing, MulOp.ofKind?]
    rw [List.cons_append, List.append_assoc, List.singleton_append, Factor.read]
    simp only [opening]
    refine (Expr.gives_read ends stops body).andThen fun _ => ?_
    refine (gives_expect rest closing).andThen fun _ => ?_
    exact gives_done.mpr ⟨rfl, rfl⟩

theorem Term.gives_read {rest : List Token} (stops : NoMulOp rest) {ts : List Token} {term : Term} :
    Term.Derives ts term → (Term.read (ts ++ rest)).Gives term rest
  | .chain lead tail => by
    rw [List.append_assoc, Term.read]
    refine (Factor.gives_read _ lead).andThen fun _ => ?_
    exact gives_widen.mpr (Term.gives_readTail stops tail)

theorem Term.gives_readTail {rest : List Token} (stops : NoMulOp rest) {before whole : Term}
    {ts : List Token} :
    Term.Chain before ts whole → (Term.readTail before (ts ++ rest)).Gives whole rest
  | .stop => Term.gives_readTail_stop _ stops
  | .step operator signed operand tail => by
    rw [List.cons_append, List.append_assoc, List.append_assoc, Term.readTail_cons]
    simp only [MulOp.ofKind?_eq_some_iff.mpr operator]
    refine (Sign.gives_read signed (operand.noAddOp _)).andThen fun _ => ?_
    refine (Factor.gives_read _ operand).andThen fun _ => ?_
    exact gives_widen.mpr (Term.gives_readTail stops tail)

theorem Expr.gives_read {rest : List Token} (ends : NoAddOp rest) (stops : NoMulOp rest)
    {ts : List Token} {expr : Expr} :
    Expr.Derives ts expr → (Expr.read (ts ++ rest)).Gives expr rest
  | .chain signed lead tail => by
    rw [List.append_assoc, List.append_assoc, Expr.read]
    refine (Sign.gives_read signed (lead.noAddOp _)).andThen fun _ => ?_
    refine (Term.gives_read (tail.noMulOp stops) lead).andThen fun _ => ?_
    exact gives_widen.mpr (Expr.gives_readTail ends stops tail)

theorem Expr.gives_readTail {rest : List Token} (ends : NoAddOp rest) (stops : NoMulOp rest)
    {before whole : Expr} {ts : List Token} :
    Expr.Chain before ts whole → (Expr.readTail before (ts ++ rest)).Gives whole rest
  | .stop => Expr.gives_readTail_stop _ ends
  | .step operator operand tail => by
    rw [List.cons_append, List.append_assoc, Expr.readTail_cons]
    simp only [AddOp.ofKind?_eq_some_iff.mpr operator]
    refine (Term.gives_read (tail.noMulOp stops) operand).andThen fun _ => ?_
    exact gives_widen.mpr (Expr.gives_readTail ends stops tail)

end

theorem Statement.binding_of_read {make : String → Expr → Statement} {ts rest : List Token}
    {statement : Statement} (gives : (Statement.readBinding make ts).Gives statement rest) :
    ∃ used name value, ts = used ++ rest ∧ Statement.BindingDerives used name value ∧
      statement = make name value := by
  obtain ⟨name, afterName, _, readName, gives₁⟩ := gives_of_andThen gives
  obtain ⟨equals, afterEquals, _, readEquals, gives₂⟩ := gives_of_andThen gives₁
  obtain ⟨value, afterValue, _, readValue, gives₃⟩ := gives_of_andThen gives₂
  obtain ⟨semicolon, after, _, readSemicolon, finished⟩ := gives_of_andThen gives₃
  obtain ⟨rfl, rfl⟩ := gives_done.mp finished
  obtain ⟨rfl, named⟩ := of_gives_expect (by simp) readName
  obtain ⟨rfl, equated⟩ := of_gives_expect (by simp) readEquals
  obtain ⟨used, rfl, body⟩ := Expr.derives_of_read readValue
  obtain ⟨rfl, ended⟩ := of_gives_expect (by simp) readSemicolon
  exact ⟨name :: equals :: (used ++ [semicolon]), name.lexeme, value, by simp,
    .intro named equated body ended, rfl⟩

theorem Statement.derives_of_read {ts rest : List Token} {statement : Statement}
    (gives : (Statement.read ts).Gives statement rest) :
    ∃ used, ts = used ++ rest ∧ Statement.Derives used statement := by
  cases ts with
  | nil => exact absurd gives not_gives_stuck
  | cons t tail =>
    rw [Statement.read] at gives
    split at gives
    · next kind =>
      rw [gives_widen] at gives
      obtain ⟨used, name, value, rfl, binding, rfl⟩ := Statement.binding_of_read gives
      exact ⟨t :: used, rfl, .declare kind binding⟩
    · obtain ⟨used, name, value, split, binding, rfl⟩ := Statement.binding_of_read gives
      exact ⟨used, split, .assign binding⟩
    · next opening =>
      rw [gives_widen] at gives
      obtain ⟨value, afterValue, _, readValue, onward⟩ := gives_of_andThen gives
      obtain ⟨right, after, _, readSemicolon, finished⟩ := gives_of_andThen onward
      obtain ⟨rfl, rfl⟩ := gives_done.mp finished
      obtain ⟨used, rfl, body⟩ := Expr.derives_of_read readValue
      obtain ⟨rfl, closing⟩ := of_gives_expect (by simp) readSemicolon
      exact ⟨t :: (used ++ [right]), by simp, .print opening body closing⟩
    · exact absurd gives not_gives_stuck

theorem Program.body_of_read {ts rest : List Token} {program : Program}
    (gives : (Program.readStatements ts).Gives program rest) :
    ∃ used, ts = used ++ rest ∧ Program.BodyDerives used program := by
  rw [Program.readStatements] at gives
  obtain ⟨first, mid, shorter, readFirst, onward⟩ := gives_of_andThen gives
  split at onward
  · obtain ⟨others, after, _, readOthers, finished⟩ := gives_of_andThen onward
    obtain ⟨rfl, rfl⟩ := gives_done.mp finished
    obtain ⟨more, rfl, tail⟩ := Program.body_of_read readOthers
    obtain ⟨used, rfl, derives⟩ := Statement.derives_of_read readFirst
    exact ⟨used ++ more, by simp, .more derives tail⟩
  · obtain ⟨rfl, rfl⟩ := gives_done.mp onward
    obtain ⟨used, rfl, derives⟩ := Statement.derives_of_read readFirst
    exact ⟨used, rfl, .one derives⟩
termination_by ts.length

theorem Statement.gives_readBinding (make : String → Expr → Statement) (rest : List Token)
    {ts : List Token} {name : String} {value : Expr}
    (binding : Statement.BindingDerives ts name value) :
    (Statement.readBinding make (ts ++ rest)).Gives (make name value) rest := by
  cases binding with
  | @intro _ _ semicolon _ _ named equated body ended =>
    have ends : NoAddOp (semicolon :: rest) := by simp [ended, AddOp.ofKind?]
    have stops : NoMulOp (semicolon :: rest) := by simp [ended, MulOp.ofKind?]
    rw [List.cons_append, List.cons_append, List.append_assoc, List.singleton_append]
    refine (gives_expect _ named).andThen fun _ => ?_
    refine (gives_expect _ equated).andThen fun _ => ?_
    refine (Expr.gives_read ends stops body).andThen fun _ => ?_
    refine (gives_expect _ ended).andThen fun _ => ?_
    exact gives_done.mpr ⟨rfl, rfl⟩

theorem Statement.gives_read (rest : List Token) {ts : List Token} {statement : Statement}
    (derives : Statement.Derives ts statement) :
    (Statement.read (ts ++ rest)).Gives statement rest := by
  cases derives with
  | declare kind binding =>
    rw [List.cons_append, Statement.read]
    simp only [kind, gives_widen]
    exact Statement.gives_readBinding .declare rest binding
  | assign binding =>
    have readBinding := Statement.gives_readBinding .assign rest binding
    cases binding with
    | intro named _ _ _ =>
      rw [List.cons_append, Statement.read]
      simp only [named]
      exact readBinding
  | @print _ right _ _ opening body closing =>
    have ends : NoAddOp (right :: rest) := by simp [closing, AddOp.ofKind?]
    have stops : NoMulOp (right :: rest) := by simp [closing, MulOp.ofKind?]
    rw [List.cons_append, List.append_assoc, List.singleton_append, Statement.read]
    simp only [opening, gives_widen]
    refine (Expr.gives_read ends stops body).andThen fun _ => ?_
    refine (gives_expect _ closing).andThen fun _ => ?_
    exact gives_done.mpr ⟨rfl, rfl⟩

theorem Statement.Derives.comesNext {ts : List Token} {statement : Statement}
    (derives : Statement.Derives ts statement) (rest : List Token) :
    Statement.comesNext (ts ++ rest) = true := by
  cases derives with
  | declare kind _ => simp [Statement.comesNext, kind]
  | assign binding =>
    cases binding with
    | intro named _ _ _ => simp [Statement.comesNext, named]
  | print opening _ _ => simp [Statement.comesNext, opening]

theorem Program.BodyDerives.comesNext {ts : List Token} {program : Program}
    (body : Program.BodyDerives ts program) (rest : List Token) :
    Statement.comesNext (ts ++ rest) = true := by
  cases body with
  | one derives => exact derives.comesNext rest
  | more derives _ =>
    rw [List.append_assoc]
    exact derives.comesNext _

theorem Program.gives_readStatements {rest ts : List Token} {program : Program}
    (ends : Statement.comesNext rest = false) (body : Program.BodyDerives ts program) :
    (Program.readStatements (ts ++ rest)).Gives program rest := by
  induction body with
  | one derives =>
    rw [Program.readStatements]
    refine (Statement.gives_read rest derives).andThen fun _ => ?_
    simp [ends]
  | more derives tail ih =>
    rw [List.append_assoc, Program.readStatements]
    refine (Statement.gives_read _ derives).andThen fun _ => ?_
    rw [if_pos (tail.comesNext rest)]
    refine ih.andThen fun _ => ?_
    exact gives_done.mpr ⟨rfl, rfl⟩

/-- A program is read exactly from the tokens that derive it. -/
theorem Program.gives_read_iff {ts rest : List Token} {program : Program} :
    (Program.read ts).Gives program rest ↔
      ∃ used, ts = used ++ rest ∧ Program.Derives used program := by
  constructor
  · intro gives
    obtain ⟨left, body, _, readOpen, gives₁⟩ := gives_of_andThen gives
    obtain ⟨found, close, _, readBody, gives₂⟩ := gives_of_andThen gives₁
    obtain ⟨right, after, _, readClose, finished⟩ := gives_of_andThen gives₂
    obtain ⟨rfl, rfl⟩ := gives_done.mp finished
    obtain ⟨rfl, opening⟩ := of_gives_expect (by simp) readOpen
    obtain ⟨used, rfl, derives⟩ := Program.body_of_read readBody
    obtain ⟨rfl, closing⟩ := of_gives_expect (by simp) readClose
    exact ⟨left :: (used ++ [right]), by simp, .block opening derives closing⟩
  · rintro ⟨used, rfl, derives⟩
    cases derives with
    | @block _ right _ _ opening body closing =>
      have ends : Statement.comesNext (right :: rest) = false := by
        simp [Statement.comesNext, closing]
      rw [List.cons_append, List.append_assoc, List.singleton_append]
      refine (gives_expect _ opening).andThen fun _ => ?_
      refine (Program.gives_readStatements ends body).andThen fun _ => ?_
      refine (gives_expect _ closing).andThen fun _ => ?_
      exact gives_done.mpr ⟨rfl, rfl⟩

/-! ## Reading moves forward -/

namespace Reading
variable {α β : Type} {n m : Nat}

/-- The tokens that are left, whether the phrase was read or not. -/
def left : Reading α n → List Token
  | .done _ rest _ => rest
  | .stuck _ rest => rest

theorem left_andThen {ts : List Token} {reading : Reading α n}
    {next : α → (rest : List Token) → rest.length < n → Reading β m} (first : reading.left <:+ ts)
    (second : ∀ a mid shorter, mid <:+ ts → (next a mid shorter).left <:+ ts) :
    (reading.andThen next).left <:+ ts := by
  cases reading with
  | done a mid shorter => exact second a mid shorter first
  | stuck cause mid => exact first

@[simp] theorem left_widen {reading : Reading α n} {le : n ≤ m} :
    (reading.widen le).left = reading.left := by
  cases reading <;> rfl

end Reading

theorem left_expect (kind : TokenKind) (ts : List Token) : (expect kind ts).left <:+ ts := by
  cases ts with
  | nil => exact List.suffix_refl _
  | cons t tail =>
    rw [expect]
    split
    · exact List.suffix_cons t tail
    · exact List.suffix_refl _

theorem Sign.left_read (ts : List Token) : (Sign.read ts).left <:+ ts := by
  cases ts with
  | nil => exact List.suffix_refl _
  | cons t tail =>
    rw [Sign.read]
    split
    · exact List.suffix_cons t tail
    · exact List.suffix_cons t tail
    · exact List.suffix_refl _

mutual

theorem Factor.left_read (ts : List Token) : (Factor.read ts).left <:+ ts := by
  cases ts with
  | nil =>
    rw [Factor.read]
    exact List.suffix_refl _
  | cons t tail =>
    rw [Factor.read]
    split
    · exact List.suffix_cons t tail
    · exact List.suffix_cons t tail
    · refine (left_andThen (Expr.left_read tail) ?_).trans (List.suffix_cons t tail)
      intro inner close _ within
      refine left_andThen ((left_expect _ close).trans within) ?_
      exact fun _ _ _ passed => passed
    · exact List.suffix_refl _
termination_by 3 * ts.length
decreasing_by all_goals subst_vars; simp only [List.length_cons]; omega

theorem Term.left_read (ts : List Token) : (Term.read ts).left <:+ ts := by
  rw [Term.read]
  refine left_andThen (Factor.left_read ts) ?_
  intro first rest _ within
  rw [left_widen]
  exact (Term.left_readTail (.lead first) rest).trans within
termination_by 3 * ts.length + 1

theorem Term.left_readTail (before : Term) (ts : List Token) :
    (Term.readTail before ts).left <:+ ts := by
  cases ts with
  | nil =>
    rw [Term.readTail_nil]
    exact List.suffix_refl _
  | cons t tail =>
    rw [Term.readTail_cons]
    split
    · exact List.suffix_refl _
    · next op _ =>
      refine (left_andThen (Sign.left_read tail) ?_).trans (List.suffix_cons t tail)
      intro sign unsigned _ within
      refine left_andThen ((Factor.left_read unsigned).trans within) ?_
      intro factor after _ passed
      rw [left_widen]
      exact (Term.left_readTail (before.extend op sign factor) after).trans passed
termination_by 3 * ts.length
decreasing_by all_goals subst_vars; simp only [List.length_cons]; omega

theorem Expr.left_read (ts : List Token) : (Expr.read ts).left <:+ ts := by
  rw [Expr.read]
  refine left_andThen (Sign.left_read ts) ?_
  intro sign unsigned _ within
  refine left_andThen ((Term.left_read unsigned).trans within) ?_
  intro first rest _ passed
  rw [left_widen]
  exact (Expr.left_readTail (.lead sign first) rest).trans passed
termination_by 3 * ts.length + 2

theorem Expr.left_readTail (before : Expr) (ts : List Token) :
    (Expr.readTail before ts).left <:+ ts := by
  cases ts with
  | nil =>
    rw [Expr.readTail_nil]
    exact List.suffix_refl _
  | cons t tail =>
    rw [Expr.readTail_cons]
    split
    · exact List.suffix_refl _
    · next op _ =>
      refine (left_andThen (Term.left_read tail) ?_).trans (List.suffix_cons t tail)
      intro term after _ within
      rw [left_widen]
      exact (Expr.left_readTail (before.extend op term) after).trans within
termination_by 3 * ts.length
decreasing_by all_goals subst_vars; simp only [List.length_cons]; omega

end

theorem Statement.left_readBinding (make : String → Expr → Statement) (ts : List Token) :
    (Statement.readBinding make ts).left <:+ ts := by
  refine left_andThen (left_expect _ ts) ?_
  intro name afterName _ within₁
  refine left_andThen ((left_expect _ afterName).trans within₁) ?_
  intro equals afterEquals _ within₂
  refine left_andThen ((Expr.left_read afterEquals).trans within₂) ?_
  intro value afterValue _ within₃
  refine left_andThen ((left_expect _ afterValue).trans within₃) ?_
  exact fun _ _ _ passed => passed

theorem Statement.left_read (ts : List Token) : (Statement.read ts).left <:+ ts := by
  cases ts with
  | nil => exact List.suffix_refl _
  | cons t tail =>
    rw [Statement.read]
    split
    · rw [left_widen]
      exact (Statement.left_readBinding .declare tail).trans (List.suffix_cons t tail)
    · exact Statement.left_readBinding .assign (t :: tail)
    · rw [left_widen]
      refine (left_andThen (Expr.left_read tail) ?_).trans (List.suffix_cons t tail)
      intro value afterValue _ within
      refine left_andThen ((left_expect _ afterValue).trans within) ?_
      exact fun _ _ _ passed => passed
    · exact List.suffix_refl _

theorem Program.left_readStatements (ts : List Token) :
    (Program.readStatements ts).left <:+ ts := by
  rw [Program.readStatements]
  refine left_andThen (Statement.left_read ts) ?_
  intro first rest shorter within
  split
  · refine left_andThen ((Program.left_readStatements rest).trans within) ?_
    exact fun _ _ _ passed => passed
  · exact within
termination_by ts.length

theorem Program.left_read (ts : List Token) : (Program.read ts).left <:+ ts := by
  refine left_andThen (left_expect _ ts) ?_
  intro left body _ within₁
  refine left_andThen ((Program.left_readStatements body).trans within₁) ?_
  intro program close _ within₂
  refine left_andThen ((left_expect _ close).trans within₂) ?_
  exact fun _ _ _ passed => passed

/-! ## Token streams -/

/-- A list of tokens with an end token behind it where none stands last. -/
def withFinish (ts : List Token) : List Token :=
  if ts.getLast?.any (·.kind.isFinish) then ts else ts ++ [.finish (ts.getLast?.elim 0 Token.stop)]

namespace TokenStream

/-- The tokens from here on, the last one included. -/
def tokens (s : TokenStream) : List Token := s.ahead ++ [s.last]

/-- The index of the next token in the list of all tokens. -/
def position (s : TokenStream) (all : List Token) : Nat := all.length - s.tokens.length

/-- The stream over a list of tokens after some number of programs were read from it, successfully
or not. -/
def afterParses (ts : List Token) : Nat → TokenStream
  | 0 => ofTokens ts
  | calls + 1 => (afterParses ts calls).parse.2

theorem tokens_ofTokens (ts : List Token) : (ofTokens ts).tokens = withFinish ts := by
  unfold ofTokens withFinish
  split
  · next empty => simp [tokens, List.getLast?_eq_none_iff.mp empty]
  · next t found =>
    split
    · next ends =>
      obtain ⟨init, rfl⟩ := List.getLast?_eq_some_iff.mp found
      simp [tokens, ends]
    · next going => simp [tokens, found, going]

/-- Reading a program keeps the last token and leaves a part of the tokens ahead, also when it
fails. -/
theorem tokens_parse_suffix (s : TokenStream) : s.parse.2.tokens <:+ s.tokens := by
  suffices s.parse.2.ahead <:+ s.ahead ∧ s.parse.2.last = s.last by
    obtain ⟨⟨passed, split⟩, same⟩ := this
    refine ⟨passed, ?_⟩
    rw [tokens, tokens, same, ← split, List.append_assoc]
  have forward := Program.left_read s.ahead
  unfold parse
  split
  · next cause rest stuck =>
    rw [stuck] at forward
    exact ⟨forward, rfl⟩
  · exact ⟨List.nil_suffix, rfl⟩
  · next program t rest _ done =>
    rw [done] at forward
    split
    · exact ⟨(List.suffix_cons t rest).trans forward, rfl⟩
    · exact ⟨forward, rfl⟩

theorem tokens_afterParses_suffix (ts : List Token) (calls : Nat) :
    (afterParses ts calls).tokens <:+ withFinish ts := by
  induction calls with
  | zero => exact tokens_ofTokens ts ▸ List.suffix_refl _
  | succ calls ih => exact (tokens_parse_suffix _).trans ih

theorem drop_position {s : TokenStream} {all : List Token} (part : s.tokens <:+ all) :
    all.drop (s.position all) = s.tokens := (List.suffix_iff_eq_drop.mp part).symm

/-- The tokens ahead make up the program up to the token `t`, whether `t` is the last one or not. -/
theorem gives_of_split {s : TokenStream} {used after : List Token} {t : Token} {program : Program}
    (split : s.tokens = used ++ t :: after) (derives : Program.Derives used program) :
    ∃ rest, (Program.read s.ahead).Gives program rest ∧ rest ++ [s.last] = t :: after := by
  have ahead : s.ahead = used ++ (t :: after).dropLast := by
    rw [← List.dropLast_append_of_ne_nil (List.cons_ne_nil t after), ← split, tokens,
      List.dropLast_concat]
  refine ⟨(t :: after).dropLast, Program.gives_read_iff.mpr ⟨used, ahead, derives⟩, ?_⟩
  rw [tokens, ahead, List.append_assoc] at split
  exact List.append_cancel_left split

theorem parse_of_split {s : TokenStream} {used after : List Token} {t : Token} {program : Program}
    (split : s.tokens = used ++ t :: after) (ends : t.kind = .finish)
    (derives : Program.Derives used program) :
    s.parse.1 = .ok program ∧ s.parse.2.tokens = if after = [] then [t] else after := by
  obtain ⟨rest, ⟨_, read⟩, shape⟩ := gives_of_split split derives
  cases rest with
  | nil =>
    cases shape
    simp [parse, read, tokens, moveTo]
  | cons head tail =>
    cases shape
    simp [parse, read, tokens, moveTo, ends, TokenKind.isFinish]

theorem split_of_parse {s : TokenStream} {program : Program} (ok : s.parse.1 = .ok program) :
    ∃ used t after, s.tokens = used ++ t :: after ∧ t.kind = .finish ∧
      Program.Derives used program := by
  have finish {kind : TokenKind} (isFinish : kind.isFinish = true) : kind = .finish := by
    cases kind <;> first | rfl | cases isFinish
  unfold parse at ok
  split at ok
  · cases ok
  · next found shorter read =>
    cases ok
    obtain ⟨used, ahead, derives⟩ := Program.gives_read_iff.mp ⟨shorter, read⟩
    exact ⟨used, s.last, [], by simp [tokens, ahead], finish s.last_isFinish, derives⟩
  · next found t rest shorter read =>
    split at ok
    · next isFinish =>
      cases ok
      obtain ⟨used, ahead, derives⟩ := Program.gives_read_iff.mp ⟨shorter, read⟩
      exact ⟨used, t, rest ++ [s.last], by simp [tokens, ahead], finish isFinish, derives⟩
    · cases ok

/-- The tokens from `start` up to an end token at `stop` derive the program. -/
structure DerivesUpTo (all : List Token) (start stop : Nat) (program : Program) : Prop where
  forward : start ≤ stop
  ends : ∃ t, all[stop]? = some t ∧ t.kind = .finish
  derives : Program.Derives (all.extract start stop) program

theorem derivesUpTo_iff {s : TokenStream} {all : List Token} (part : s.tokens <:+ all) {stop : Nat}
    {program : Program} :
    DerivesUpTo all (s.position all) stop program ↔
      ∃ used t after, s.tokens = used ++ t :: after ∧ t.kind = .finish ∧
        Program.Derives used program ∧ stop = s.position all + used.length := by
  have here := drop_position part
  constructor
  · rintro ⟨forward, ⟨t, found, ends⟩, derives⟩
    obtain ⟨n, rfl⟩ := Nat.exists_eq_add_of_le forward
    rw [← List.getElem?_drop, here] at found
    obtain ⟨inside, rfl⟩ := List.getElem?_eq_some_iff.mp found
    rw [List.extract_eq_take_drop, here, Nat.add_sub_cancel_left] at derives
    refine ⟨s.tokens.take n, s.tokens[n], s.tokens.drop (n + 1), ?_, ends, derives, ?_⟩
    · rw [← List.drop_eq_getElem_cons inside, List.take_append_drop]
    · rw [List.length_take, Nat.min_eq_left (Nat.le_of_lt inside)]
  · rintro ⟨used, t, after, split, ends, derives, rfl⟩
    refine ⟨Nat.le_add_right .., ⟨t, ?_, ends⟩, ?_⟩
    · rw [← List.getElem?_drop, here, split]
      simp
    · rw [List.extract_eq_take_drop, here, Nat.add_sub_cancel_left, split, List.take_left]
      exact derives

/-- The index at which a list of tokens is read on after some number of programs. -/
def positionAfter (ts : List Token) (calls : Nat) : Nat :=
  (afterParses ts calls).position (withFinish ts)

theorem position_parse {s : TokenStream} {all : List Token} (part : s.tokens <:+ all) {stop : Nat}
    {program : Program} (derives : DerivesUpTo all (s.position all) stop program) :
    s.parse.2.position all = min (stop + 1) (all.length - 1) := by
  have within := part.length_le
  obtain ⟨used, t, after, split, ends, body, rfl⟩ := (derivesUpTo_iff part).mp derives
  have length := congrArg List.length split
  simp only [List.length_append, List.length_cons] at length
  rw [position, position, (parse_of_split split ends body).2]
  split
  · next none =>
    rw [none, List.length_nil] at length
    rw [List.length_singleton]
    omega
  · next some =>
    have := List.length_pos_iff.mpr some
    omega

theorem derivesUpTo_unique {s : TokenStream} {all : List Token} (part : s.tokens <:+ all)
    {stop other : Nat} {program different : Program}
    (one : DerivesUpTo all (s.position all) stop program)
    (two : DerivesUpTo all (s.position all) other different) :
    different = program ∧ other = stop := by
  obtain ⟨used₁, t₁, after₁, split₁, _, body₁, rfl⟩ := (derivesUpTo_iff part).mp one
  obtain ⟨used₂, t₂, after₂, split₂, _, body₂, rfl⟩ := (derivesUpTo_iff part).mp two
  obtain ⟨rest₁, gives₁, shape₁⟩ := gives_of_split split₁ body₁
  obtain ⟨rest₂, gives₂, shape₂⟩ := gives_of_split split₂ body₂
  -- Both derivations leave what reading leaves, so that they use the same tokens.
  obtain ⟨rfl, rfl⟩ := gives₁.unique gives₂
  have same : used₁ ++ t₁ :: after₁ = used₂ ++ t₁ :: after₁ := by
    rw [← split₁, split₂, ← shape₁, ← shape₂]
  exact ⟨rfl, by rw [List.append_cancel_right same]⟩

/-- After any number of programs were read from a list of tokens, a further one is read exactly
when the tokens from there up to some end token derive it. The program and the end token are then
unique, and reading stands behind that end token, unless it is the last token. -/
theorem parse_iff_derives (ts : List Token) (calls : Nat) (program : Program) :
    (withFinish ts).drop (positionAfter ts calls) = (afterParses ts calls).tokens ∧
    ((afterParses ts calls).parse.1 = .ok program ↔
      ∃ stop, DerivesUpTo (withFinish ts) (positionAfter ts calls) stop program) ∧
    ∀ stop, DerivesUpTo (withFinish ts) (positionAfter ts calls) stop program →
      positionAfter ts (calls + 1) = min (stop + 1) ((withFinish ts).length - 1) ∧
      ∀ different other, DerivesUpTo (withFinish ts) (positionAfter ts calls) other different →
        different = program ∧ other = stop := by
  have part := tokens_afterParses_suffix ts calls
  refine ⟨drop_position part, ⟨?_, ?_⟩, ?_⟩
  · intro ok
    obtain ⟨used, t, after, split, ends, derives⟩ := split_of_parse ok
    exact ⟨_, (derivesUpTo_iff part).mpr ⟨used, t, after, split, ends, derives, rfl⟩⟩
  · rintro ⟨stop, derives⟩
    obtain ⟨used, t, after, split, ends, body, _⟩ := (derivesUpTo_iff part).mp derives
    exact (parse_of_split split ends body).1
  · intro stop derives
    exact ⟨position_parse part derives, fun _ _ two => derivesUpTo_unique part derives two⟩

end TokenStream

end BlockCalc
