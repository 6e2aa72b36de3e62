import Mathlib.Data.List.Induction
import BlockCalc.Proofs.Running

/-!
# Environments and their writes

An environment is what the successful writes on it have made of the constants. A `Ledger` keeps an
environment together with the writes that succeeded, in order. Every call keeps the two in
agreement, whether it succeeds or fails (`Ledger.Agrees.call`), and so all that can be observed of
an environment after any calls is told by its log (`Ledger.observed_after`).
-/
namespace BlockCalc

/-- A call that writes a binding. -/
inductive Write where
  | declare (name : String) (value : Number)
  | assign (name : String) (value : Number)

namespace Write

def name : Write → String
  | .declare name _ => name
  | .assign name _ => name

def value : Write → Number
  | .declare _ value => value
  | .assign _ value => value

def isDeclare : Write → Bool
  | .declare _ _ => true
  | .assign _ _ => false

/-- The environment after a call, or the error with which it fails. -/
def apply (env : Environment) : Write → Except RuntimeError Environment
  | .declare name value => env.declare name value
  | .assign name value => env.assign name value

/-- A declared name is new, and an assigned one is bound. -/
def Allowed (env : Environment) : Write → Prop
  | .declare name _ => env.binds name = false
  | .assign name _ => env.binds name = true

/-- The error of a call that is not allowed. -/
def fault : Write → RuntimeError
  | .declare name _ => .duplicateBinding name
  | .assign name _ => .unboundVariable name

theorem apply_of_allowed {env : Environment} {w : Write} (allowed : w.Allowed env) :
    w.apply env = .ok (env.set w.name w.value) := by
  cases w with
  | declare name value => exact if_neg (Bool.eq_false_iff.mp allowed)
  | assign name value => exact if_pos allowed

theorem apply_of_not_allowed {env : Environment} {w : Write} (refused : ¬ w.Allowed env) :
    w.apply env = .error w.fault := by
  cases w with
  | declare name value => exact if_pos (eq_true_of_ne_false refused)
  | assign name value => exact if_neg refused

theorem apply_eq_error_iff {env : Environment} {w : Write} {e : RuntimeError} :
    w.apply env = .error e ↔ ¬ w.Allowed env ∧ e = w.fault := by
  by_cases allowed : w.Allowed env
  · simp [apply_of_allowed allowed, allowed]
  · simp [apply_of_not_allowed allowed, allowed, eq_comm]

end Write

/-- The value of the last write to a name. -/
def lastValue? (log : List Write) (name : String) : Option Number :=
  (log.filter (·.name = name)).getLast?.map Write.value

theorem lastValue?_concat (log : List Write) (w : Write) (name : String) :
    lastValue? (log ++ [w]) name = if w.name = name then some w.value else lastValue? log name := by
  by_cases here : w.name = name
  · simp [lastValue?, here]
  · simp [lastValue?, here]

namespace Environment

theorem lookup_eq_ok_iff {env : Environment} {name : String} {value : Number} :
    env.lookup name = .ok value ↔ env.get? name = some value := by
  rw [lookup]
  cases env.get? name with
  | none => simp
  | some found => simp

theorem lookup_eq_error_iff {env : Environment} {name : String} {e : RuntimeError} :
    env.lookup name = .error e ↔ env.get? name = none ∧ e = .unboundVariable name := by
  rw [lookup]
  cases env.get? name with
  | none => simp [eq_comm]
  | some found => simp

theorem mem_toList_iff {env : Environment} {name : String} {value : Number} :
    (name, value) ∈ env.toList ↔ env.get? name = some value :=
  Std.ExtTreeMap.mem_toList_iff_getElem?_eq_some

theorem nodup_names (env : Environment) : (env.toList.map Prod.fst).Nodup := by
  rw [toList, Std.ExtTreeMap.map_fst_toList_eq_keys]
  exact Std.ExtTreeMap.nodup_keys

theorem isEmpty_eq_false_iff {env : Environment} : env.isEmpty = false ↔ env.size ≠ 0 := by
  rw [isEmpty, Std.ExtTreeMap.isEmpty_eq_size_beq_zero, beq_eq_false_iff_ne, size]

theorem size_set (env : Environment) (name : String) (value : Number) :
    (env.set name value).size = if env.binds name then env.size else env.size + 1 := by
  rw [size, set, Std.ExtTreeMap.size_insert, Std.ExtTreeMap.contains_eq_isSome_getElem?]
  rfl

/-- A new environment binds the constants. -/
theorem get?_initial (name : String) : initial.get? name = constants.lookup name := by
  cases found : constants.lookup name with
  | none =>
    have absent : (constants.map Prod.fst).contains name = false := by
      rw [List.contains_eq_mem, decide_eq_false_iff_not, List.mem_map]
      rintro ⟨binding, member, rfl⟩
      simpa using List.lookup_eq_none_iff.mp found binding member
    exact Std.ExtTreeMap.getElem?_ofList_of_contains_eq_false absent
  | some value =>
    obtain ⟨before, behind, split, -⟩ := List.lookup_eq_some_iff.mp found
    refine Std.ExtTreeMap.getElem?_ofList_of_mem Std.ReflCmp.compare_self (by decide) ?_
    simp [split]

theorem binds_initial_iff {name : String} :
    initial.binds name = true ↔ name ∈ constants.map Prod.fst := by
  rw [binds, get?_initial, List.lookup_isSome_iff, List.mem_map]
  simp only [beq_iff_eq, @eq_comm _ name]

theorem size_initial : initial.size = 3 := Std.ExtTreeMap.size_ofList (by decide)

end Environment
open Environment

/-- An environment and the writes that have succeeded on it, in order. -/
structure Ledger where
  env : Environment
  log : List Write

namespace Ledger

/-- The ledger of a new environment. -/
def start : Ledger := ⟨.initial, []⟩

/-- The ledger after one more call. -/
def call (ledger : Ledger) (w : Write) : Ledger :=
  match w.apply ledger.env with
  | .ok env => ⟨env, ledger.log ++ [w]⟩
  | .error _ => ledger

/-- The ledger after calls on a new environment. -/
def after (calls : List Write) : Ledger := calls.foldl call start

theorem call_of_allowed {ledger : Ledger} {w : Write} (allowed : w.Allowed ledger.env) :
    ledger.call w = ⟨ledger.env.set w.name w.value, ledger.log ++ [w]⟩ := by
  rw [call, Write.apply_of_allowed allowed]

theorem call_of_not_allowed {ledger : Ledger} {w : Write} (refused : ¬ w.Allowed ledger.env) :
    ledger.call w = ledger := by
  rw [call, Write.apply_of_not_allowed refused]

theorem after_append (calls more : List Write) :
    after (calls ++ more) = more.foldl call (after calls) := List.foldl_append

/-- The environment has the values, the names and the size that its log tells. -/
structure Agrees (ledger : Ledger) : Prop where
  get?_eq : ∀ name,
    ledger.env.get? name = (lastValue? ledger.log name).or (constants.lookup name)
  binds_iff : ∀ name, ledger.env.binds name = true ↔
    name ∈ constants.map Prod.fst ∨ ∃ value, .declare name value ∈ ledger.log
  size_eq : ledger.env.size = 3 + ledger.log.countP Write.isDeclare

theorem agrees_start : start.Agrees where
  get?_eq name := by simp [start, lastValue?, get?_initial]
  binds_iff name := by
    simp only [start, binds_initial_iff, List.not_mem_nil, exists_false, or_false]
  size_eq := size_initial

/-- A call keeps the environment and its log in agreement, whether it succeeds or fails. -/
theorem Agrees.call {ledger : Ledger} (agrees : ledger.Agrees) (w : Write) :
    (ledger.call w).Agrees := by
  by_cases allowed : w.Allowed ledger.env
  · rw [call_of_allowed allowed]
    refine ⟨?_, ?_, ?_⟩
    · intro name
      rw [get?_set, lastValue?_concat, agrees.get?_eq]
      split <;> rfl
    · intro name
      rw [binds_set, agrees.binds_iff]
      cases w with
      | declare other value =>
        simp only [Write.name, List.mem_append, List.mem_singleton, exists_or, Write.declare.injEq,
          exists_and_left, exists_eq, and_true, @eq_comm _ name]
        exact or_comm.trans or_assoc
      | assign other value =>
        have bound := (agrees.binds_iff other).mp allowed
        simp only [Write.name, List.mem_append, List.mem_singleton, reduceCtorEq, or_false]
        refine ⟨?_, .inr⟩
        rintro (rfl | earlier)
        · exact bound
        · exact earlier
    · rw [size_set, agrees.size_eq, List.countP_append]
      cases w with
      | declare other value =>
        have new : ledger.env.binds other = false := allowed
        simp [Write.name, Write.isDeclare, new, Nat.add_assoc]
      | assign other value =>
        have bound : ledger.env.binds other = true := allowed
        simp [Write.name, Write.isDeclare, bound]
  · rw [call_of_not_allowed allowed]
    exact agrees

theorem agrees_after (calls : List Write) : (after calls).Agrees := by
  induction calls using List.reverseRecOn with
  | nil => exact agrees_start
  | append_singleton calls w ih =>
    rw [after_append]
    exact ih.call w

theorem binds_call {ledger : Ledger} {name : String} (bound : ledger.env.binds name = true)
    (w : Write) : (ledger.call w).env.binds name = true := by
  by_cases allowed : w.Allowed ledger.env
  · rw [call_of_allowed allowed]
    exact (binds_set ..).mpr (.inr bound)
  · rw [call_of_not_allowed allowed]
    exact bound

/-- No call makes a name unbound. -/
theorem binds_after_append {calls : List Write} {name : String}
    (bound : (after calls).env.binds name = true) (more : List Write) :
    (after (calls ++ more)).env.binds name = true := by
  rw [after_append]
  induction more using List.reverseRecOn with
  | nil => exact bound
  | append_singleton more w ih =>
    rw [List.foldl_append]
    exact binds_call ih w

/-- An environment is the log of its successful writes. After any calls on a new environment, a
declaration fails exactly where its name is bound and an assignment exactly where it is not, and a
call that fails changes nothing. A name has the value of the last successful write to it, or else
the value it has as a constant, and is unbound if there is neither. All bindings are listed once,
there are as many of them as constants and successful declarations, and none is ever lost. -/
theorem observed_after (calls : List Write) :
    (∀ name value e, (after calls).env.declare name value = .error e ↔
      (after calls).env.binds name = true ∧ e = .duplicateBinding name) ∧
    (∀ name value e, (after calls).env.assign name value = .error e ↔
      (after calls).env.binds name = false ∧ e = .unboundVariable name) ∧
    (∀ w env, w.apply (after calls).env = .ok env →
      after (calls ++ [w]) = ⟨env, (after calls).log ++ [w]⟩) ∧
    (∀ w e, w.apply (after calls).env = .error e → after (calls ++ [w]) = after calls) ∧
    (∀ name, (after calls).env.get? name =
      (lastValue? (after calls).log name).or (constants.lookup name)) ∧
    (∀ name value, (after calls).env.lookup name = .ok value ↔
      (after calls).env.get? name = some value) ∧
    (∀ name e, (after calls).env.lookup name = .error e ↔
      (after calls).env.get? name = none ∧ e = .unboundVariable name) ∧
    (∀ name, (after calls).env.binds name = true ↔
      name ∈ constants.map Prod.fst ∨ ∃ value, .declare name value ∈ (after calls).log) ∧
    (∀ name value, (name, value) ∈ (after calls).env.toList ↔
      (after calls).env.get? name = some value) ∧
    ((after calls).env.toList.map Prod.fst).Nodup ∧
    (after calls).env.size = 3 + (after calls).log.countP Write.isDeclare ∧
    (after calls).env.isEmpty = false ∧
    ∀ more name, (after calls).env.binds name = true →
      (after (calls ++ more)).env.binds name = true := by
  have agrees := agrees_after calls
  refine ⟨?_, ?_, ?_, ?_, agrees.get?_eq, fun _ _ => lookup_eq_ok_iff,
    fun _ _ => lookup_eq_error_iff, agrees.binds_iff, fun _ _ => mem_toList_iff, nodup_names _,
    agrees.size_eq, ?_, fun more _ bound => binds_after_append bound more⟩
  · intro name value e
    have fails := @Write.apply_eq_error_iff (after calls).env (.declare name value) e
    rwa [Write.Allowed, Bool.not_eq_false] at fails
  · intro name value e
    have fails := @Write.apply_eq_error_iff (after calls).env (.assign name value) e
    rwa [Write.Allowed, Bool.not_eq_true] at fails
  · intro w env done
    rw [after_append, List.foldl_cons, List.foldl_nil, call, done]
  · intro w e failed
    rw [after_append, List.foldl_cons, List.foldl_nil, call, failed]
  · rw [isEmpty_eq_false_iff, agrees.size_eq]
    omega

/-- A constant takes another value, and is not declared again afterwards either. -/
theorem observed_after_constant :
    (after [.assign "pi" (.int 3), .declare "pi" (.int 4)]).log = [.assign "pi" (.int 3)] ∧
    (after [.assign "pi" (.int 3), .declare "pi" (.int 4)]).env.get? "pi" = some (.int 3) ∧
    (after [.assign "pi" (.int 3), .declare "pi" (.int 4)]).env.size = 3 := by
  obtain ⟨-, -, succeeds, -, -, -, -, bound, -, -, -, -, kept⟩ := observed_after []
  obtain ⟨refused, -, -, unchanged, value, -, -, -, -, -, size, -⟩ :=
    observed_after [.assign "pi" (.int 3)]
  have constant : (after []).env.binds "pi" = true := (bound "pi").mpr (.inl (by decide))
  have assigned := succeeds (.assign "pi" (.int 3)) _ (Write.apply_of_allowed constant)
  have again := unchanged (.declare "pi" (.int 4)) _
    ((refused ..).mpr ⟨kept [.assign "pi" (.int 3)] "pi" constant, rfl⟩)
  rw [List.nil_append] at assigned
  rw [List.singleton_append] at again
  rw [again, value, size, assigned]
  exact ⟨rfl, rfl, rfl⟩

end Ledger
end BlockCalc
