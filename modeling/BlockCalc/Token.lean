import BlockCalc.Number

/-!
# Tokens

The tokens of source text. A token keeps its own text and the number of characters before it.
-/
namespace BlockCalc

/-- What a token is; a number literal carries its value. -/
inductive TokenKind where
  | number (value : Number)
  | name
  /-- The keyword `num` that begins a declaration. -/
  | num
  | plus
  | minus
  | times
  | over
  | root
  | openParen
  | closeParen
  | openBrace
  | closeBrace
  | semicolon
  | equals
  /-- The end of the source. -/
  | finish
deriving Inhabited

namespace TokenKind

/-- The word for a kind in messages. -/
def label : TokenKind → String
  | .number _ => "NUMBER"
  | .name => "ID"
  | .num => "NUM"
  | .plus => "PLUS"
  | .minus => "MINUS"
  | .times => "MUL"
  | .over => "DIV"
  | .root => "SQRT"
  | .openParen => "LPAREN"
  | .closeParen => "RPAREN"
  | .openBrace => "LBRACE"
  | .closeBrace => "RBRACE"
  | .semicolon => "SEMI"
  | .equals => "EQ"
  | .finish => "EOF"

/-- Whether two kinds are the same, whatever number a literal carries. -/
def same (a b : TokenKind) : Bool := a.ctorIdx == b.ctorIdx

/-- Whether two kinds are the same, with numerically equal literals. -/
protected def beq : TokenKind → TokenKind → Bool
  | .number v, .number w => v == w
  | a, b => a.same b

instance : BEq TokenKind := ⟨TokenKind.beq⟩

def isFinish : TokenKind → Bool
  | .finish => true
  | _ => false

end TokenKind

/-- A token, its text and the number of characters before it in the source. -/
structure Token where
  kind : TokenKind
  lexeme : String
  offset : Nat
deriving Inhabited

namespace Token

/-- The token for the end of a source. -/
def finish (offset : Nat) : Token := ⟨.finish, "<EOF>", offset⟩

/-- The number of characters up to the end of a token. Offsets have no bound here: the sum is exact
also where an addition of machine words overflows, as it can for a token that was not cut out of a
source. -/
def stop (t : Token) : Nat := t.offset + t.lexeme.length

end Token
end BlockCalc
