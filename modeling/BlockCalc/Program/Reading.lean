import BlockCalc.Token

/-!
# Reading from tokens

The result of reading a phrase from the front of a list of tokens: the phrase and a shorter rest,
or the cause of a failure and the rest that begins with the offending token.
-/
namespace BlockCalc

/-- The phrases that begin with one of several kinds of tokens. -/
inductive Phrase where
  | statement
  | factor
  | additiveOperator
  | multiplicativeOperator
deriving DecidableEq

/-- The word for a phrase in messages. -/
def Phrase.label : Phrase → String
  | .statement => "statement"
  | .factor => "factor"
  | .additiveOperator => "additive operator"
  | .multiplicativeOperator => "multiplicative operator"

/-- Why a token cannot stand where it stands. -/
inductive ParseCause where
  /-- Only a token of this kind can stand here. -/
  | expected (kind : TokenKind)
  /-- No token of this kind begins the phrase that has to follow. -/
  | unexpectedIn (phrase : Phrase)

/-- A phrase read from fewer than `n` further tokens, or a failure. -/
inductive Reading (α : Type) (n : Nat) where
  | done (value : α) (rest : List Token) (shorter : rest.length < n)
  | stuck (cause : ParseCause) (rest : List Token)

namespace Reading

/-- Reads on after a phrase; a failure stays where it is. -/
@[inline] def andThen {α β : Type} {n m : Nat} (reading : Reading α n)
    (next : α → (rest : List Token) → rest.length < n → Reading β m) : Reading β m :=
  match reading with
  | .done value rest shorter => next value rest shorter
  | .stuck cause rest => .stuck cause rest

@[simp] theorem andThen_done {α β : Type} {n m : Nat} (value : α) (rest : List Token)
    (shorter : rest.length < n)
    (next : α → (rest : List Token) → rest.length < n → Reading β m) :
    (done value rest shorter : Reading α n).andThen next = next value rest shorter := rfl

@[simp] theorem andThen_stuck {α β : Type} {n m : Nat} (cause : ParseCause) (rest : List Token)
    (next : α → (rest : List Token) → rest.length < n → Reading β m) :
    (stuck cause rest : Reading α n).andThen next = .stuck cause rest := rfl

/-- The same reading, measured against a longer list. -/
def widen {α : Type} {n m : Nat} (le : n ≤ m) : Reading α n → Reading α m
  | .done value rest shorter => .done value rest (Nat.lt_of_lt_of_le shorter le)
  | .stuck cause rest => .stuck cause rest

@[simp] theorem widen_done {α : Type} {n m : Nat} (le : n ≤ m) (value : α) (rest : List Token)
    (shorter : rest.length < n) :
    (done value rest shorter : Reading α n).widen le =
      .done value rest (Nat.lt_of_lt_of_le shorter le) := rfl

@[simp] theorem widen_stuck {α : Type} {n m : Nat} (le : n ≤ m) (cause : ParseCause)
    (rest : List Token) : (stuck cause rest : Reading α n).widen le = .stuck cause rest := rfl

end Reading

theorem length_lt_length_cons (t : Token) (rest : List Token) :
    rest.length < (t :: rest).length := Nat.lt_succ_self _

/-- Reads one token of a kind. -/
def expect (kind : TokenKind) : (ts : List Token) → Reading Token ts.length
  | [] => .stuck (.expected kind) []
  | t :: rest =>
    if t.kind.same kind then .done t rest (length_lt_length_cons t rest)
    else .stuck (.expected kind) (t :: rest)

end BlockCalc
