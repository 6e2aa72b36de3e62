import BlockCalc.Proofs.Running

/-!
# Independent statements commute

An expression has the same value wherever its variables have the same values (`Expr.eval_congr`),
and a statement writes no binding but its target. So two neighbouring statements that do not depend
on each other can change places (`Session.step_swap`), and the statements of a program that succeeds
can be put into every order that keeps the order of those that do depend on each other
(`Session.run_of_reorders`).
-/
namespace BlockCalc

mutual

theorem Factor.eval_congr {env other : Environment} :
    (f : Factor) → (∀ x ∈ f.variables, env.get? x = other.get? x) → f.eval env = f.eval other
  | .number _, _ => rfl
  | .group inner, same => inner.eval_congr same
  | .variable name, same => by
    have bound : env.get? name = other.get? name := same name List.mem_cons_self
    simp only [Factor.eval, Environment.lookup, bound]

theorem Term.eval_congr {env other : Environment} :
    (t : Term) → (∀ x ∈ t.variables, env.get? x = other.get? x) → t.eval env = t.eval other
  | .lead first, same => first.eval_congr same
  | .extend before op sign factor, same => by
    obtain ⟨left, right⟩ := List.forall_mem_append.mp same
    simp only [Term.eval, before.eval_congr left, factor.eval_congr right]

/-- An expression reads its variables and nothing else. -/
theorem Expr.eval_congr {env other : Environment} :
    (e : Expr) → (∀ x ∈ e.variables, env.get? x = other.get? x) → e.eval env = e.eval other
  | .lead sign first, same => by
    simp only [Expr.eval, first.eval_congr same]
  | .extend before op term, same => by
    obtain ⟨left, right⟩ := List.forall_mem_append.mp same
    simp only [Expr.eval, before.eval_congr left, term.eval_congr right]

end

theorem Environment.get?_set_of_ne {x y : String} (different : x ≠ y) (env : Environment)
    (v : Number) : (env.set x v).get? y = env.get? y := by
  rw [get?_set, if_neg different]

theorem Environment.set_comm {x y : String} (different : x ≠ y) (env : Environment)
    (v w : Number) : (env.set x v).set y w = (env.set y w).set x v := by
  apply ext_get?
  intro name
  simp only [get?_set]
  by_cases here : y = name
  · have other : x ≠ name := fun same => different (same.trans here.symm)
    simp [here, other]
  · simp [here]

namespace Statement

/-- Two statements depend on each other if both print, or if one writes a name that the other writes
or reads. -/
def Dependent (a b : Statement) : Prop :=
  (a.target? = none ∧ b.target? = none) ∨ (∃ x ∈ a.target?, x ∈ b.names) ∨
    ∃ x ∈ b.target?, x ∈ a.names

instance (a b : Statement) : Decidable (a.Dependent b) := inferInstanceAs (Decidable (_ ∨ _ ∨ _))

theorem Dependent.symm {a b : Statement} (dependent : a.Dependent b) : b.Dependent a := by
  rcases dependent with ⟨first, second⟩ | first | second
  · exact .inl ⟨second, first⟩
  · exact .inr (.inr first)
  · exact .inr (.inl second)

theorem outcome_of_target {statement : Statement} {x : String}
    (writes : statement.target? = some x) (env : Environment) (v : Number) :
    statement.outcome env v = (env.set x v, none) := by
  cases statement with
  | declare name value => cases writes; rfl
  | assign name value => cases writes; rfl
  | print value => cases writes

theorem outcome_of_print {statement : Statement} (prints : statement.target? = none)
    (env : Environment) (v : Number) : statement.outcome env v = (env, some v) := by
  cases statement with
  | declare name value => cases prints
  | assign name value => cases prints
  | print value => rfl

/-- A statement does not notice a change of a name that it neither writes nor reads. -/
theorem unaffected {statement : Statement} {x : String} (free : x ∉ statement.names)
    (env : Environment) (v : Number) :
    statement.targetFault? (env.set x v) = statement.targetFault? env ∧
      statement.value.eval (env.set x v) = statement.value.eval env := by
  have untouched : ∀ y ∈ statement.names, (env.set x v).get? y = env.get? y := by
    intro y used
    refine Environment.get?_set_of_ne ?_ env v
    rintro rfl
    exact free used
  obtain ⟨target, read⟩ := List.forall_mem_append.mp untouched
  refine ⟨?_, statement.value.eval_congr read⟩
  cases statement with
  | declare name value =>
    have same : (env.set x v).binds name = env.binds name :=
      congrArg Option.isSome (target name List.mem_cons_self)
    rw [targetFault?, targetFault?, same]
  | assign name value =>
    have same : (env.set x v).binds name = env.binds name :=
      congrArg Option.isSome (target name List.mem_cons_self)
    rw [targetFault?, targetFault?, same]
  | print value => rfl

end Statement

namespace Session

theorem step_eq_ok_iff {s s' : Session} {statement : Statement} :
    s.step statement = .ok s' ↔
      statement.targetFault? s.env = none ∧
        ∃ v, statement.value.eval s.env = .ok v ∧
          s.settle (statement.outcome s.env v) = .ok s' := by
  constructor
  · intro done
    obtain ⟨sound, v, given, -⟩ := of_step_ok done
    exact ⟨sound, v, given, (step_of_value sound given).symm.trans done⟩
  · rintro ⟨sound, v, given, settled⟩
    exact (step_of_value sound given).trans settled

theorem step_eq_ok_iff_of_target {s s' : Session} {statement : Statement} {x : String}
    (writes : statement.target? = some x) :
    s.step statement = .ok s' ↔
      statement.targetFault? s.env = none ∧
        ∃ v, statement.value.eval s.env = .ok v ∧ { s with env := s.env.set x v } = s' := by
  simp only [step_eq_ok_iff, Statement.outcome_of_target writes, settle, Except.ok.injEq]

theorem step_eq_ok_iff_of_print {s s' : Session} {statement : Statement}
    (prints : statement.target? = none) :
    s.step statement = .ok s' ↔
      statement.targetFault? s.env = none ∧
        ∃ v, statement.value.eval s.env = .ok v ∧
          ∃ out, s.out.write (v.text ++ "\n") = .ok out ∧ { s with out } = s' := by
  have print_iff (v : Number) : s.print v = .ok s' ↔
      ∃ out, s.out.write (v.text ++ "\n") = .ok out ∧ { s with out } = s' := by
    rw [print]
    cases s.out.write (v.text ++ "\n") <;> simp
  simp only [step_eq_ok_iff, Statement.outcome_of_print prints, settle, print_iff]

theorem run_cons_eq_ok_iff {s s' : Session} {statement : Statement} {rest : Program} :
    s.run (statement :: rest) = .ok s' ↔
      ∃ next, s.step statement = .ok next ∧ next.run rest = .ok s' := by
  cases outcome : s.step statement with
  | error failure => simp [run_cons_of_error rest outcome]
  | ok next => simp [run_cons_of_ok rest outcome]

/-- Two neighbours that do not depend on each other can change places. -/
theorem step_swap {s next last : Session} {a b : Statement} (independent : ¬ a.Dependent b)
    (first : s.step a = .ok next) (second : next.step b = .ok last) :
    ∃ other, s.step b = .ok other ∧ other.step a = .ok last := by
  simp only [Statement.Dependent, not_or, not_exists, not_and] at independent
  obtain ⟨notBoth, writtenA, writtenB⟩ := independent
  cases targetA : a.target? with
  | some x =>
    obtain ⟨soundA, v, givenA, rfl⟩ := (step_eq_ok_iff_of_target targetA).mp first
    obtain ⟨faultB, valueB⟩ := Statement.unaffected (writtenA x targetA) s.env v
    cases targetB : b.target? with
    | some y =>
      obtain ⟨soundB, w, givenB, rfl⟩ := (step_eq_ok_iff_of_target targetB).mp second
      obtain ⟨faultA, valueA⟩ := Statement.unaffected (writtenB y targetB) s.env w
      have different : x ≠ y := by
        rintro rfl
        exact writtenA x targetA (by simp [Statement.names, targetB])
      refine ⟨{ s with env := s.env.set y w }, ?_, ?_⟩
      · exact (step_eq_ok_iff_of_target targetB).mpr
          ⟨faultB.symm.trans soundB, w, valueB.symm.trans givenB, rfl⟩
      · refine (step_eq_ok_iff_of_target targetA).mpr
          ⟨faultA.trans soundA, v, valueA.trans givenA, ?_⟩
        rw [Environment.set_comm different]
    | none =>
      obtain ⟨soundB, w, givenB, out, written, rfl⟩ := (step_eq_ok_iff_of_print targetB).mp second
      refine ⟨{ s with out }, ?_, ?_⟩
      · exact (step_eq_ok_iff_of_print targetB).mpr
          ⟨faultB.symm.trans soundB, w, valueB.symm.trans givenB, out, written, rfl⟩
      · exact (step_eq_ok_iff_of_target targetA).mpr ⟨soundA, v, givenA, rfl⟩
  | none =>
    obtain ⟨soundA, v, givenA, out, written, rfl⟩ := (step_eq_ok_iff_of_print targetA).mp first
    cases targetB : b.target? with
    | some y =>
      obtain ⟨soundB, w, givenB, rfl⟩ := (step_eq_ok_iff_of_target targetB).mp second
      obtain ⟨faultA, valueA⟩ := Statement.unaffected (writtenB y targetB) s.env w
      refine ⟨{ s with env := s.env.set y w }, ?_, ?_⟩
      · exact (step_eq_ok_iff_of_target targetB).mpr ⟨soundB, w, givenB, rfl⟩
      · exact (step_eq_ok_iff_of_print targetA).mpr
          ⟨faultA.trans soundA, v, valueA.trans givenA, out, written, rfl⟩
    | none => exact absurd targetB (notBoth targetA)

/-- A statement that depends on none before it can be run first. -/
theorem run_pull {s s' : Session} {left right : Program} {statement : Statement}
    (free : ∀ a ∈ left, ¬ a.Dependent statement)
    (done : s.run (left ++ statement :: right) = .ok s') :
    ∃ next, s.step statement = .ok next ∧ next.run (left ++ right) = .ok s' := by
  induction left generalizing s with
  | nil => exact run_cons_eq_ok_iff.mp done
  | cons a left ih =>
    obtain ⟨freeA, freeLeft⟩ := List.forall_mem_cons.mp free
    obtain ⟨next, first, onward⟩ := run_cons_eq_ok_iff.mp done
    obtain ⟨last, second, rest⟩ := ih freeLeft onward
    obtain ⟨other, pulled, pushed⟩ := step_swap freeA first second
    exact ⟨other, pulled, run_cons_eq_ok_iff.mpr ⟨last, pushed, rest⟩⟩

end Session

/-- The second program has the statements of the first in another order, in which of two statements
that depend on each other still the earlier one comes first. Each statement goes with its place in
the first program, since a program may hold the same statement several times. -/
def Program.Reorders (program other : Program) : Prop :=
  ∃ placed : List (Statement × Nat), placed.Perm program.zipIdx ∧ other = placed.map Prod.fst ∧
    placed.Pairwise fun a b => a.1.Dependent b.1 → a.2 < b.2

namespace Session

-- The statement that the new order begins with depends on none that stand before it in the old one,
-- so that it can be pulled to the front; the rest is an order of the remaining statements.
theorem run_of_placed {s s' : Session} {listed placed : List (Statement × Nat)}
    (increasing : listed.Pairwise fun a b => a.2 < b.2) (same : placed.Perm listed)
    (kept : placed.Pairwise fun a b => a.1.Dependent b.1 → a.2 < b.2)
    (done : s.run (listed.map Prod.fst) = .ok s') : s.run (placed.map Prod.fst) = .ok s' := by
  induction placed generalizing s listed with
  | nil =>
    obtain rfl := same.nil_eq
    exact done
  | cons first rest ih =>
    obtain ⟨left, right, rfl⟩ := List.append_of_mem (same.subset List.mem_cons_self)
    have others : rest.Perm (left ++ right) := (same.trans List.perm_middle).cons_inv
    obtain ⟨keptFirst, keptRest⟩ := List.pairwise_cons.mp kept
    obtain ⟨increasingLeft, increasingRight, across⟩ := List.pairwise_append.mp increasing
    have free : ∀ a ∈ left.map Prod.fst, ¬ a.Dependent first.1 := by
      intro a member dependent
      obtain ⟨placedA, before, rfl⟩ := List.mem_map.mp member
      have earlier := across placedA before first List.mem_cons_self
      have later := keptFirst placedA (others.mem_iff.mpr (List.mem_append_left right before))
        dependent.symm
      omega
    rw [List.map_append, List.map_cons] at done
    obtain ⟨next, pulled, onward⟩ := run_pull free done
    rw [← List.map_append] at onward
    have remaining : (left ++ right).Pairwise fun a b => a.2 < b.2 :=
      increasing.sublist ((List.sublist_cons_self first right).append_left left)
    exact run_cons_eq_ok_iff.mpr ⟨next, pulled, ih remaining others keptRest onward⟩

/-- A program that succeeds from a session does so in every order that keeps the order of dependent
statements, and leads to the same session: the same bindings and the same output. -/
theorem run_of_reorders (s s' : Session) (program other : Program)
    (reorders : program.Reorders other) (done : s.run program = .ok s') : s.run other = .ok s' := by
  obtain ⟨placed, same, rfl, kept⟩ := reorders
  have increasing : program.zipIdx.Pairwise fun a b => a.2 < b.2 := by
    have places := List.pairwise_lt_range' (s := 0) (n := program.length)
    rw [← List.zipIdx_map_snd] at places
    exact List.pairwise_map.mp places
  refine run_of_placed increasing same kept ?_
  rwa [List.zipIdx_map_fst]

/-- Two declarations with a print statement between them. -/
private def scattered : Program :=
  [.declare "x" (.ofFactor (.number (.int 1))), .print (.ofFactor (.variable "x")),
    .declare "y" (.ofFactor (.variable "pi"))]

/-- The same with both declarations in front, the later one first. -/
private def gathered : Program :=
  [.declare "y" (.ofFactor (.variable "pi")), .declare "x" (.ofFactor (.number (.int 1))),
    .print (.ofFactor (.variable "x"))]

theorem run_of_reorders_gathered :
    scattered.Reorders gathered ∧
    ∃ s', (start (.empty none)).run scattered = .ok s' ∧
      (start (.empty none)).run gathered = .ok s' := by
  have reorders : scattered.Reorders gathered :=
    ⟨[(.declare "y" (.ofFactor (.variable "pi")), 2),
        (.declare "x" (.ofFactor (.number (.int 1))), 0), (.print (.ofFactor (.variable "x")), 1)],
      (@List.perm_middle _ _ [_, _] []).symm, rfl, by decide⟩
  exact ⟨reorders, _, rfl, run_of_reorders (start (.empty none)) _ scattered _ reorders rfl⟩

end Session
end BlockCalc
