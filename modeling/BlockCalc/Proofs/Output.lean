import BlockCalc.Proofs.Running

/-!
# What a run writes

A run ends with a result and writes an output that do not depend on the sink, as long as the sink
takes everything. A limited sink takes what fits; if that is not all, the run fails there
(`Emits`). This holds of every run of a program or a source (`Session.run_emits`,
`execute_emits`), because writing one text after the other is writing them at once
(`Sink.push_push`).
-/
namespace BlockCalc

namespace Sink

/-- No more is written than the limit allows. -/
def Sound (s : Sink) : Prop := s.hasRoom 0 = true

theorem sound_empty (limit : Option Nat) : (empty limit).Sound := by
  cases limit <;> simp [Sound, hasRoom, empty]

@[simp] theorem limit_push (s : Sink) (bytes : ByteArray) : (s.push bytes).limit = s.limit := by
  obtain ⟨limit, written⟩ := s
  cases limit <;> rfl

@[simp] theorem push_empty (s : Sink) : s.push .empty = s := by
  obtain ⟨limit, written⟩ := s
  cases limit with
  | none => simp [push]
  | some limit =>
    have none : ByteArray.empty.extract 0 (limit - written.size) = .empty := by
      simp [ByteArray.extract_eq_empty_iff]
    simp [push, none]

/-- Pushing twice is pushing the concatenation, also beyond the limit. -/
theorem push_push (s : Sink) (a b : ByteArray) : (s.push a).push b = s.push (a ++ b) := by
  obtain ⟨limit, written⟩ := s
  cases limit with
  | none => simp [push, ByteArray.append_assoc]
  | some limit =>
    have left : limit - (written.size + min (limit - written.size) a.size) =
        limit - written.size - a.size := by omega
    simp [push, ByteArray.extract_append, ByteArray.append_assoc, ByteArray.size_extract, left]

theorem hasRoom_of_le {s : Sink} {m n : Nat} (le : m ≤ n) (room : s.hasRoom n) : s.hasRoom m := by
  obtain ⟨limit, written⟩ := s
  cases limit with
  | none => rfl
  | some limit =>
    simp only [hasRoom, decide_eq_true_eq] at room ⊢
    omega

theorem hasRoom_push {s : Sink} {bytes : ByteArray} (room : s.hasRoom bytes.size) (n : Nat) :
    (s.push bytes).hasRoom n = s.hasRoom (bytes.size + n) := by
  obtain ⟨limit, written⟩ := s
  cases limit with
  | none => rfl
  | some limit =>
    simp only [hasRoom, decide_eq_true_eq] at room
    have fits : min (limit - written.size) bytes.size = bytes.size := by omega
    simp [hasRoom, push, ByteArray.size_extract, fits, Nat.add_assoc]

/-- A sink that could not take everything takes nothing more. -/
theorem not_hasRoom_push {s : Sink} (sound : s.Sound) {bytes : ByteArray}
    (full : ¬ s.hasRoom bytes.size) {n : Nat} (positive : 0 < n) : ¬ (s.push bytes).hasRoom n := by
  obtain ⟨limit, written⟩ := s
  cases limit with
  | none => exact absurd rfl full
  | some limit =>
    simp only [Sound, hasRoom, decide_eq_true_eq] at sound full
    simp only [hasRoom, push, ByteArray.size_append, ByteArray.size_extract, decide_eq_true_eq]
    omega

theorem sound_push {s : Sink} (sound : s.Sound) (bytes : ByteArray) : (s.push bytes).Sound := by
  obtain ⟨limit, written⟩ := s
  cases limit with
  | none => rfl
  | some limit =>
    simp only [Sound, hasRoom, decide_eq_true_eq] at sound
    simp only [Sound, hasRoom, push, ByteArray.size_append, ByteArray.size_extract,
      decide_eq_true_eq]
    omega

theorem not_hasRoom_append {s : Sink} {a : ByteArray} (full : ¬ s.hasRoom a.size) (b : ByteArray) :
    ¬ s.hasRoom (a ++ b).size := by
  rw [ByteArray.size_append]
  exact fun room => full (hasRoom_of_le (Nat.le_add_right ..) room)

theorem push_append_of_full {s : Sink} {a : ByteArray} (full : ¬ s.hasRoom a.size) (b : ByteArray) :
    s.push (a ++ b) = s.push a := by
  obtain ⟨limit, written⟩ := s
  cases limit with
  | none => exact absurd rfl full
  | some limit =>
    simp only [hasRoom, decide_eq_true_eq] at full
    have none : limit - written.size - a.size = 0 := by omega
    simp [push, ByteArray.extract_append, none]

end Sink

/-- On every sink the run ends with the result and writes the output, if there is room for it.
Otherwise it fails with `full` after as much of the output as fits. -/
def Emits {ε α : Type} (full : ε) (run : Sink → Except ε α × Sink) (result : Except ε α)
    (output : ByteArray) : Prop :=
  ∀ out : Sink, out.Sound →
    run out = (if out.hasRoom output.size then result else .error full, out.push output)

namespace Emits
variable {ε α : Type} {full : ε}

theorem unlimited {run : Sink → Except ε α × Sink} {result : Except ε α} {output : ByteArray}
    (emits : Emits full run result output) : run (.empty none) = (result, ⟨none, output⟩) := by
  have ran := emits (.empty none) (Sink.sound_empty none)
  have room : (Sink.empty none).hasRoom output.size := rfl
  have taken : (Sink.empty none).push output = ⟨none, output⟩ := by simp [Sink.push, Sink.empty]
  rw [ran, if_pos room, taken]

theorem nothing (result : Except ε α) : Emits full (fun out => (result, out)) result .empty := by
  intro out sound
  rw [Sink.Sound] at sound
  rw [ByteArray.size_empty, if_pos sound, Sink.push_empty]

/-- Writing a text and going on. -/
theorem write {text : String} {next : Sink → Except ε α × Sink} {result : Except ε α}
    {output : ByteArray} (emits : Emits full next result output) :
    Emits full (fun out =>
        match out.write text with
        | .ok out => next out
        | .error out => (.error full, out))
      result (text.toUTF8 ++ output) := by
  intro out sound
  by_cases room : out.hasRoom text.toUTF8.size
  · simp only [Sink.write, if_pos room]
    rw [emits _ (Sink.sound_push sound _), Sink.hasRoom_push room, Sink.push_push,
      ByteArray.size_append]
  · simp only [Sink.write, if_neg room]
    rw [if_neg (Sink.not_hasRoom_append room output), Sink.push_append_of_full room]

end Emits

namespace Session

/-- The result of a run and the sink at its end. -/
def report {ε : Type} : Except (ε × Session) Session → Except ε Environment × Sink
  | .ok s => (.ok s.env, s.out)
  | .error (e, s) => (.error e, s.out)

/-- What a run that begins with a statement does with the sink. -/
theorem report_run_cons (env : Environment) (out : Sink) (statement : Statement) (rest : Program) :
    report (run ⟨env, out⟩ (statement :: rest)) =
      match statement.effect env with
      | .error error => (.error error, out)
      | .ok (next, none) => report (run ⟨next, out⟩ rest)
      | .ok (next, some value) =>
        match out.write (value.text ++ "\n") with
        | .ok out => report (run ⟨next, out⟩ rest)
        | .error out => (.error .output, out) := by
  cases effect : statement.effect env with
  | error error =>
    have failed : step ⟨env, out⟩ statement = .error (error, ⟨env, out⟩) := by
      simp only [step, effect]
    rw [run_cons_of_error rest failed]
    rfl
  | ok taken =>
    obtain ⟨next, shown⟩ := taken
    cases shown with
    | none =>
      have done : step ⟨env, out⟩ statement = .ok ⟨next, out⟩ := by simp only [step, effect]
      rw [run_cons_of_ok rest done]
    | some value =>
      have printed : step ⟨env, out⟩ statement = print ⟨next, out⟩ value := by
        simp only [step, effect]
      rw [print] at printed
      cases written : out.write (value.text ++ "\n") with
      | ok after =>
        rw [written] at printed
        rw [run_cons_of_ok rest printed]
        simp only [written]
      | error after =>
        rw [written] at printed
        rw [run_cons_of_error rest printed]
        simp only [written]
        rfl

theorem run_emits (env : Environment) (program : Program) :
    ∃ result output, Emits .output (fun out => report (run ⟨env, out⟩ program)) result output := by
  induction program generalizing env with
  | nil => exact ⟨.ok env, .empty, .nothing (.ok env)⟩
  | cons statement rest ih =>
    simp only [report_run_cons]
    cases statement.effect env with
    | error error => exact ⟨.error error, .empty, .nothing _⟩
    | ok taken =>
      obtain ⟨next, shown⟩ := taken
      obtain ⟨result, output, emits⟩ := ih next
      cases shown with
      | none => exact ⟨result, output, emits⟩
      | some value => exact ⟨result, _, emits.write⟩

end Session

/-- What a source does with the sink: nothing, unless it is a program. -/
theorem report_execute (source : String) (out : Sink) :
    Session.report (execute source out) =
      match scan source with
      | .error error => (.error (.scan error), out)
      | .ok tokens =>
        match Program.ofTokens tokens with
        | .error error => (.error (.parse error), out)
        | .ok program =>
          let ran := Session.report (Session.run ⟨.initial, out⟩ program)
          (ran.1.mapError .runtime, ran.2) := by
  rw [execute, Session.runSource, Session.start]
  cases scan source with
  | error error => rfl
  | ok tokens =>
    cases read : Program.ofTokens tokens with
    | error error => simp only [read]; rfl
    | ok program =>
      simp only [read]
      cases Session.run ⟨.initial, out⟩ program <;> rfl

theorem execute_emits (source : String) :
    ∃ result output, Emits (.runtime .output) (fun out => Session.report (execute source out))
      result output := by
  simp only [report_execute]
  cases scan source with
  | error error => exact ⟨.error (.scan error), .empty, .nothing _⟩
  | ok tokens =>
    cases read : Program.ofTokens tokens with
    | error error =>
      simp only [read]
      exact ⟨.error (.parse error), .empty, .nothing _⟩
    | ok program =>
      obtain ⟨result, output, emits⟩ := Session.run_emits .initial program
      refine ⟨result.mapError .runtime, output, fun out sound => ?_⟩
      simp only [read, emits out sound]
      by_cases room : out.hasRoom output.size
      · simp only [if_pos room]
      · simp only [if_neg room]
        rfl

end BlockCalc
