import BlockCalc.Proofs.Atomicity
import BlockCalc.Proofs.Conversation
import BlockCalc.Proofs.NumberText

/-!
# The output tells the printed values

On an output without a limit, a run adds the text of each value that a print statement computes, on
a line of its own (`Session.written_run`). The lines read as literals give the values back
(`readLines_linesOf`), so that runs with the same output have printed the same values
(`Session.read_output`).
-/
namespace BlockCalc

/-- The bytes of a text. -/
def utf8Bytes (text : String) : List UInt8 := text.toUTF8.data.toList

theorem ofNat_ne_newline {n : Nat} (small : n < 256) (other : n ≠ 10) : ¬ 10 = UInt8.ofNat n := by
  intro same
  have value := congrArg UInt8.toNat same
  rw [UInt8.toNat_ofNat_of_lt' small] at value
  exact other value.symm

/-- Only a newline has the byte of a newline in it. -/
theorem newline_notMem_utf8EncodeChar {c : Char} (other : c ≠ '\n') :
    10 ∉ String.utf8EncodeChar c := by
  have code : c.val.toNat ≠ 10 := fun same => other (Char.toNat_inj.mp same)
  simp only [String.utf8EncodeChar]
  -- The bytes of longer encodings are all at least 128.
  split
  · simpa only [List.mem_singleton] using ofNat_ne_newline (by omega) code
  · split
    · simp only [List.mem_cons, List.not_mem_nil, or_false, not_or]
      exact ⟨ofNat_ne_newline (by omega) (by omega), ofNat_ne_newline (by omega) (by omega)⟩
    · split
      · simp only [List.mem_cons, List.not_mem_nil, or_false, not_or]
        exact ⟨ofNat_ne_newline (by omega) (by omega), ofNat_ne_newline (by omega) (by omega),
          ofNat_ne_newline (by omega) (by omega)⟩
      · simp only [List.mem_cons, List.not_mem_nil, or_false, not_or]
        exact ⟨ofNat_ne_newline (by omega) (by omega), ofNat_ne_newline (by omega) (by omega),
          ofNat_ne_newline (by omega) (by omega), ofNat_ne_newline (by omega) (by omega)⟩

theorem newline_notMem_utf8Bytes {text : String} (line : '\n' ∉ text.toList) :
    10 ∉ utf8Bytes text := by
  rw [utf8Bytes, String.toUTF8_eq_toByteArray, ← String.utf8Encode_toList, List.utf8Encode,
    List.data_toByteArray, List.mem_flatMap]
  rintro ⟨c, member, newline⟩
  refine newline_notMem_utf8EncodeChar (fun same => line ?_) newline
  exact same ▸ member

theorem fromUTF8?_utf8Bytes (text : String) :
    String.fromUTF8? (utf8Bytes text).toByteArray = some text :=
  fromUTF8?_eq_some_iff.mpr (ByteArray.ext (by simp [utf8Bytes]))

/-- The bytes of values that are printed one after the other. -/
def linesOf (values : List Number) : List UInt8 :=
  values.flatMap fun value => utf8Bytes value.text ++ [10]

/-- The numbers that the lines of some bytes denote. -/
def readLines (bytes : List UInt8) : List (Option Number) :=
  (Prompt.lines bytes).map fun line =>
    (String.fromUTF8? (line.takeWhile (· ≠ 10)).toByteArray).bind Number.ofLiteral?

theorem readLines_linesOf (values : List Number) :
    readLines (linesOf values) = values.map some := by
  induction values with
  | nil => rfl
  | cons value rest ih =>
    obtain ⟨denotes, line⟩ := value.ofLiteral?_text
    have plain := newline_notMem_utf8Bytes line
    have text : (utf8Bytes value.text ++ [10]).takeWhile (· ≠ 10) = utf8Bytes value.text := by
      rw [List.takeWhile_append_of_pos]
      · simp
      · intro b member
        simpa using ne_of_mem_of_not_mem member plain
    rw [linesOf, List.flatMap_cons, List.append_assoc, List.singleton_append, readLines,
      Prompt.lines_of_newline plain, List.map_cons, text, fromUTF8?_utf8Bytes, Option.bind_some,
      denotes, List.map_cons]
    exact congrArg _ ih

namespace Statement

/-- The value that a statement prints. -/
def shown (env : Environment) : Statement → List Number
  | .print value => (value.eval env).toOption.toList
  | _ => []

/-- The effect of a statement says what it prints. -/
theorem shown_eq (env : Environment) (statement : Statement) :
    statement.shown env =
      match statement.effect env with
      | .ok (_, value) => value.toList
      | .error _ => [] := by
  rw [effect_eq]
  cases statement with
  | declare name value | assign name value =>
    simp only [Statement.value, shown, outcome]
    cases targetFault? env _ with
    | some fault => rfl
    | none => cases value.eval env <;> rfl
  | print value =>
    simp only [Statement.value, shown, targetFault?]
    cases value.eval env <;> rfl

end Statement

namespace Session

/-- The values of the print statements that a run executes, in order. -/
def printed (s : Session) : Program → List Number
  | [] => []
  | statement :: rest =>
    statement.shown s.env ++
      match s.step statement with
      | .ok next => next.printed rest
      | .error _ => []

/-- The session that a run ends in, also when it fails. -/
def afterRun (s : Session) (program : Program) : Session := (s.perform (.run program)).2

/-- The bytes that a run adds to the output. -/
def output (s : Session) (program : Program) : List UInt8 :=
  (s.afterRun program).out.written.data.toList.drop s.out.written.size

theorem written_push {out : Sink} (unlimited : out.limit = none) (text : String) :
    (out.push (text ++ "\n").toUTF8).written.data.toList =
      out.written.data.toList ++ (utf8Bytes text ++ [10]) := by
  have ending : "\n".toByteArray.data.toList = [10] := rfl
  simp only [Sink.push, unlimited]
  simp [utf8Bytes, ending]

/-- A statement that succeeds adds a line for the value that it prints. -/
theorem written_of_step {s next : Session} (unlimited : s.out.limit = none) {statement : Statement}
    (done : s.step statement = .ok next) :
    next.out.written.data.toList =
      s.out.written.data.toList ++ linesOf (statement.shown s.env) := by
  rw [Statement.shown_eq]
  rw [step] at done
  split at done
  · cases done
  · next env effect =>
    cases done
    simp [effect, linesOf]
  · next env value effect =>
    rw [print_of_unlimited (s := { s with env }) unlimited] at done
    cases done
    rw [written_push unlimited]
    simp [effect, linesOf]

/-- A statement that fails has printed nothing. -/
theorem shown_of_step_error {s : Session} (unlimited : s.out.limit = none) {statement : Statement}
    {failure : RuntimeError × Session} (failed : s.step statement = .error failure) :
    statement.shown s.env = [] := by
  rw [Statement.shown_eq]
  rw [step] at failed
  split at failed
  · next effect => simp only [effect]
  · cases failed
  · next env value effect =>
    rw [print_of_unlimited (s := { s with env }) unlimited] at failed
    cases failed

theorem written_run {s : Session} (unlimited : s.out.limit = none) (program : Program) :
    (s.afterRun program).out.written.data.toList =
      s.out.written.data.toList ++ linesOf (s.printed program) := by
  induction program generalizing s with
  | nil => simp [afterRun, perform, printed, linesOf]
  | cons statement rest ih =>
    cases outcome : s.step statement with
    | error failure =>
      have nothing := shown_of_step_error unlimited outcome
      have same := eq_of_step_error unlimited outcome
      simp [afterRun, perform, run_cons_of_error rest outcome, printed, outcome, nothing, same,
        linesOf]
    | ok next =>
      have after : s.afterRun (statement :: rest) = next.afterRun rest := by
        simp only [afterRun, perform, run_cons_of_ok rest outcome]
      have line := written_of_step unlimited outcome
      rw [after, ih (limit_of_step unlimited outcome), line]
      simp [printed, outcome, linesOf]

theorem output_eq {s : Session} (unlimited : s.out.limit = none) (program : Program) :
    s.output program = linesOf (s.printed program) := by
  rw [output, written_run unlimited]
  exact List.drop_left' (by simp)

/-- The output tells the printed values. A run on an output without a limit, whether it succeeds or
fails, leaves what was written and adds lines that denote the values of the executed print
statements, in their order and each of its kind. Runs that add the same bytes have printed the same
values. -/
theorem read_output (s : Session) (unlimited : s.out.limit = none) (program : Program) :
    (s.afterRun program).out.written.data.toList =
      s.out.written.data.toList ++ s.output program ∧
    readLines (s.output program) = (s.printed program).map some ∧
    ∀ (t : Session) (other : Program), t.out.limit = none →
      t.output other = s.output program → t.printed other = s.printed program := by
  have denotes : readLines (s.output program) = (s.printed program).map some := by
    rw [output_eq unlimited, readLines_linesOf]
  refine ⟨?_, denotes, ?_⟩
  · rw [output_eq unlimited, written_run unlimited]
  · intro t other free same
    rw [output_eq free] at same
    have values : (t.printed other).map some = (s.printed program).map some := by
      rw [← denotes, ← same, readLines_linesOf]
    exact List.map_injective_iff.mpr (Option.some_injective Number) values

/-- Two in both kinds, and then a variable without a value. -/
private def bothKinds : Program :=
  [.print (.ofFactor (.number (.int 2))), .print (.ofFactor (.number (.float 2))),
    .print (.ofFactor (.variable "x"))]

theorem read_output_bothKinds :
    (start (.empty none)).out.limit = none ∧
    (∃ failure, (start (.empty none)).run bothKinds = .error failure) ∧
    readLines ((start (.empty none)).output bothKinds) = [some (.int 2), some (.float 2)] :=
  ⟨rfl, ⟨_, rfl⟩, (read_output (start (.empty none)) rfl bothKinds).2.1⟩

end Session
end BlockCalc
