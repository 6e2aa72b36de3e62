import Std.Data.ExtTreeMap
import BlockCalc.RuntimeError

/-!
# Environments

The bindings of names to numbers. Every environment begins with the constants `e`, `pi` and `tau`,
which are ordinary bindings: they can be assigned, and declaring them again fails. No name ever
becomes unbound.
-/
namespace BlockCalc

/-- Bindings of names to numbers, listed in the order of the names. -/
structure Environment where
  bindings : Std.ExtTreeMap String Number

namespace Environment

/-- The bindings that every program begins with. -/
def constants : List (String × Number) :=
  [("e", .float 2.718281828459045),
    ("pi", .float 3.141592653589793),
    ("tau", .float 6.283185307179586)]

/-- The environment that every program begins with. -/
def initial : Environment := ⟨.ofList constants⟩

/-- The value of a name, if it is bound. -/
def get? (env : Environment) (name : String) : Option Number := env.bindings[name]?

/-- Whether a name is bound. -/
def binds (env : Environment) (name : String) : Bool := (env.get? name).isSome

/-- The environment in which a name has a value, whether it was bound before or not. -/
def set (env : Environment) (name : String) (value : Number) : Environment :=
  ⟨env.bindings.insert name value⟩

/-- Environments in which every name has the same value are equal. -/
theorem ext_get? {a b : Environment} (same : ∀ name, a.get? name = b.get? name) : a = b := by
  cases a with
  | mk s => cases b with
    | mk t => exact congrArg _ (Std.ExtTreeMap.ext_getElem? same)

theorem get?_set (env : Environment) (name : String) (value : Number) (other : String) :
    (env.set name value).get? other = if name = other then some value else env.get? other := by
  simp only [get?, set, Std.ExtTreeMap.getElem?_insert, Std.LawfulEqCmp.compare_eq_iff_eq]

/-- Binds a new name. -/
def declare (env : Environment) (name : String) (value : Number) :
    Except RuntimeError Environment :=
  if env.binds name then .error (.duplicateBinding name) else .ok (env.set name value)

/-- Changes the value of a bound name. -/
def assign (env : Environment) (name : String) (value : Number) :
    Except RuntimeError Environment :=
  if env.binds name then .ok (env.set name value) else .error (.unboundVariable name)

/-- The value of a name that has to be bound. -/
def lookup (env : Environment) (name : String) : Except RuntimeError Number :=
  match env.get? name with
  | some value => .ok value
  | none => .error (.unboundVariable name)

/-- The number of bound names. -/
def size (env : Environment) : Nat := env.bindings.size

def isEmpty (env : Environment) : Bool := env.bindings.isEmpty

/-- All bindings in the order of the names. -/
def toList (env : Environment) : List (String × Number) := env.bindings.toList

/-- Whether two environments bind the same names to numerically equal values of the same kind. -/
protected def beq (a b : Environment) : Bool := a.toList == b.toList

instance : BEq Environment := ⟨Environment.beq⟩

end Environment
end BlockCalc
