import BlockCalc.Program
import BlockCalc.Token

/-!
# The grammar of programs

Which lists of tokens derive which trees. The relations follow the productions

    Program   ::= '{' Statement Statement* '}'
    Statement ::= num ID '=' Expr ';' | ID '=' Expr ';' | ';' Expr ';'
    Expr      ::= Sign? Term (('+' | '-') Term)*
    Term      ::= Factor (('*' | '/') Sign? Factor)*
    Factor    ::= NUMBER | '(' Expr ')' | ID

and say nothing about how tokens are read. A repetition is a chain that starts from the tree of what
stands before it and ends in the tree of the whole, since chains lean to the left in the tree.
-/
namespace BlockCalc

/-- An optional sign; an absent one counts as plus. -/
inductive Sign.Derives : List Token → Sign → Prop
  | absent : Sign.Derives [] .plus
  | plus {t : Token} (kind : t.kind = .plus) : Sign.Derives [t] .plus
  | minus {t : Token} (kind : t.kind = .minus) : Sign.Derives [t] .minus

/-- The operators between the terms of an expression. -/
inductive AddOp.Derives : Token → AddOp → Prop
  | add {t : Token} (kind : t.kind = .plus) : AddOp.Derives t .add
  | sub {t : Token} (kind : t.kind = .minus) : AddOp.Derives t .sub

/-- The operators between the factors of a term; a root sign is none of them. -/
inductive MulOp.Derives : Token → MulOp → Prop
  | mul {t : Token} (kind : t.kind = .times) : MulOp.Derives t .mul
  | div {t : Token} (kind : t.kind = .over) : MulOp.Derives t .div

mutual

inductive Factor.Derives : List Token → Factor → Prop
  | number {t : Token} {value : Number} (kind : t.kind = .number value) :
      Factor.Derives [t] (.number value)
  | group {left right : Token} {ts : List Token} {inner : Expr} (opening : left.kind = .openParen)
      (body : Expr.Derives ts inner) (closing : right.kind = .closeParen) :
      Factor.Derives (left :: (ts ++ [right])) (.group inner)
  | reference {t : Token} (kind : t.kind = .name) : Factor.Derives [t] (.variable t.lexeme)

inductive Term.Derives : List Token → Term → Prop
  | chain {fs rest : List Token} {first : Factor} {whole : Term} (lead : Factor.Derives fs first)
      (tail : Term.Chain (.lead first) rest whole) : Term.Derives (fs ++ rest) whole

/-- The tokens continue the term before them to the whole term. -/
inductive Term.Chain : Term → List Token → Term → Prop
  | stop {whole : Term} : Term.Chain whole [] whole
  | step {before whole : Term} {t : Token} {ss fs rest : List Token} {op : MulOp} {sign : Sign}
      {factor : Factor} (operator : MulOp.Derives t op) (signed : Sign.Derives ss sign)
      (operand : Factor.Derives fs factor)
      (tail : Term.Chain (before.extend op sign factor) rest whole) :
      Term.Chain before (t :: (ss ++ (fs ++ rest))) whole

inductive Expr.Derives : List Token → Expr → Prop
  | chain {ss ts rest : List Token} {sign : Sign} {first : Term} {whole : Expr}
      (signed : Sign.Derives ss sign) (lead : Term.Derives ts first)
      (tail : Expr.Chain (.lead sign first) rest whole) : Expr.Derives (ss ++ (ts ++ rest)) whole

/-- The tokens continue the expression before them to the whole expression. -/
inductive Expr.Chain : Expr → List Token → Expr → Prop
  | stop {whole : Expr} : Expr.Chain whole [] whole
  | step {before whole : Expr} {t : Token} {ts rest : List Token} {op : AddOp} {term : Term}
      (operator : AddOp.Derives t op) (operand : Term.Derives ts term)
      (tail : Expr.Chain (before.extend op term) rest whole) :
      Expr.Chain before (t :: (ts ++ rest)) whole

end

/-- The part of a declaration or an assignment from the name on. -/
inductive Statement.BindingDerives : List Token → String → Expr → Prop
  | intro {name equals semicolon : Token} {ts : List Token} {value : Expr}
      (named : name.kind = .name) (equated : equals.kind = .equals) (body : Expr.Derives ts value)
      (ended : semicolon.kind = .semicolon) :
      Statement.BindingDerives (name :: equals :: (ts ++ [semicolon])) name.lexeme value

inductive Statement.Derives : List Token → Statement → Prop
  | declare {keyword : Token} {ts : List Token} {name : String} {value : Expr}
      (kind : keyword.kind = .num) (binding : Statement.BindingDerives ts name value) :
      Statement.Derives (keyword :: ts) (.declare name value)
  | assign {ts : List Token} {name : String} {value : Expr}
      (binding : Statement.BindingDerives ts name value) :
      Statement.Derives ts (.assign name value)
  | print {left right : Token} {ts : List Token} {value : Expr} (opening : left.kind = .semicolon)
      (body : Expr.Derives ts value) (closing : right.kind = .semicolon) :
      Statement.Derives (left :: (ts ++ [right])) (.print value)

/-- One or more statements. -/
inductive Program.BodyDerives : List Token → Program → Prop
  | one {ts : List Token} {only : Statement} (derives : Statement.Derives ts only) :
      Program.BodyDerives ts [only]
  | more {ts rest : List Token} {first : Statement} {others : Program}
      (derives : Statement.Derives ts first) (tail : Program.BodyDerives rest others) :
      Program.BodyDerives (ts ++ rest) (first :: others)

inductive Program.Derives : List Token → Program → Prop
  | block {left right : Token} {ts : List Token} {program : Program}
      (opening : left.kind = .openBrace) (body : Program.BodyDerives ts program)
      (closing : right.kind = .closeBrace) : Program.Derives (left :: (ts ++ [right])) program

theorem Term.Chain.extend {start before : Term} {ts ss fs : List Token} {t : Token} {op : MulOp}
    {sign : Sign} {factor : Factor} (operator : MulOp.Derives t op) (signed : Sign.Derives ss sign)
    (operand : Factor.Derives fs factor) :
    Term.Chain start ts before →
      Term.Chain start (ts ++ t :: (ss ++ fs)) (before.extend op sign factor)
  | .stop => by
    have chain := Term.Chain.step operator signed operand
      (@Term.Chain.stop (start.extend op sign factor))
    rwa [List.append_nil] at chain
  | .step operator' signed' operand' tail => by
    have chain := Term.Chain.extend operator signed operand tail
    simpa only [List.cons_append, List.append_assoc] using .step operator' signed' operand' chain

theorem Expr.Chain.extend {start before : Expr} {ts us : List Token} {t : Token} {op : AddOp}
    {term : Term} (operator : AddOp.Derives t op) (operand : Term.Derives us term) :
    Expr.Chain start ts before → Expr.Chain start (ts ++ t :: us) (before.extend op term)
  | .stop => by
    have chain := Expr.Chain.step operator operand (@Expr.Chain.stop (start.extend op term))
    rwa [List.append_nil] at chain
  | .step operator' operand' tail => by
    have chain := Expr.Chain.extend operator operand tail
    simpa only [List.cons_append, List.append_assoc] using .step operator' operand' chain

theorem Term.Derives.extend {before : Term} {ts ss fs : List Token} {t : Token} {op : MulOp}
    {sign : Sign} {factor : Factor} (derives : Term.Derives ts before)
    (operator : MulOp.Derives t op) (signed : Sign.Derives ss sign)
    (operand : Factor.Derives fs factor) :
    Term.Derives (ts ++ t :: (ss ++ fs)) (before.extend op sign factor) := by
  cases derives with
  | chain lead tail =>
    rw [List.append_assoc]
    exact .chain lead (tail.extend operator signed operand)

theorem Expr.Derives.extend {before : Expr} {ts us : List Token} {t : Token} {op : AddOp}
    {term : Term} (derives : Expr.Derives ts before) (operator : AddOp.Derives t op)
    (operand : Term.Derives us term) : Expr.Derives (ts ++ t :: us) (before.extend op term) := by
  cases derives with
  | chain signed lead tail =>
    rw [List.append_assoc, List.append_assoc]
    exact .chain signed lead (tail.extend operator operand)

end BlockCalc
