/-!
# Output sinks

Where printed text goes. A sink may be limited to a number of bytes: a write that goes past the
limit leaves the bytes that fit and fails. No other sinks are described: not one that fails for
another reason, and not one that takes more after it has failed.
-/
namespace BlockCalc

/-- The bytes written so far, and how many there may be at most. -/
structure Sink where
  limit : Option Nat
  written : ByteArray

namespace Sink

/-- A sink with nothing written. -/
def empty (limit : Option Nat) : Sink := ⟨limit, .empty⟩

/-- Whether some number of further bytes can be written. -/
def hasRoom (s : Sink) (n : Nat) : Bool :=
  match s.limit with
  | none => true
  | some limit => s.written.size + n ≤ limit

/-- The sink after as many of the bytes as it takes. -/
def push (s : Sink) (bytes : ByteArray) : Sink :=
  match s.limit with
  | none => { s with written := s.written ++ bytes }
  | some limit => { s with written := s.written ++ bytes.extract 0 (limit - s.written.size) }

/-- Writes a text. The sink is the outcome of a failure too. -/
def write (s : Sink) (text : String) : Except Sink Sink :=
  let bytes := text.toUTF8
  if s.hasRoom bytes.size then .ok (s.push bytes) else .error (s.push bytes)

end Sink
end BlockCalc
