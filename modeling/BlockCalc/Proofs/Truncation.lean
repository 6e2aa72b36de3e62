import BlockCalc.Proofs.Conversation

/-!
# Outputs that fill up

An output that takes only so many bytes changes nothing but the end of a run: as long as everything
fits, the run is the same, and where it does not, the run fails behind the bytes that do
(`limit_truncates`). The prompt reads no further line then (`Prompt.converse_of_full`).
-/
namespace BlockCalc

/-- On an output that takes `limit` bytes, the run is the one without a limit, or it fails with
`full` and is cut off there. -/
def Truncates {ε α : Type} (full : ε) (limit : Nat) (run : Sink → Except ε α × Sink) : Prop :=
  if (run (.empty none)).2.written.size ≤ limit then
    (run (.empty (some limit))).1 = (run (.empty none)).1 ∧
      (run (.empty (some limit))).2.written = (run (.empty none)).2.written
  else
    (run (.empty (some limit))).1 = .error full ∧
      (run (.empty (some limit))).2.written = (run (.empty none)).2.written.extract 0 limit

theorem Truncates.of_beyond {ε α : Type} {full : ε} {limit : Nat} {run : Sink → Except ε α × Sink}
    (truncates : Truncates full limit run) (beyond : limit < (run (.empty none)).2.written.size) :
    (run (.empty (some limit))).1 = .error full ∧
      (run (.empty (some limit))).2.written = (run (.empty none)).2.written.extract 0 limit := by
  rw [Truncates, if_neg (Nat.not_le.mpr beyond)] at truncates
  exact truncates

theorem Sink.hasRoom_limited (limit n : Nat) : (empty (some limit)).hasRoom n ↔ n ≤ limit := by
  simp [hasRoom, empty]

theorem Sink.push_limited (limit : Nat) (bytes : ByteArray) :
    (empty (some limit)).push bytes = ⟨some limit, bytes.extract 0 limit⟩ := by
  simp [push, empty]

theorem Emits.truncates {ε α : Type} {full : ε} {run : Sink → Except ε α × Sink}
    {result : Except ε α} {output : ByteArray} (emits : Emits full run result output)
    (limit : Nat) : Truncates full limit run := by
  have ran := emits (.empty (some limit)) (Sink.sound_empty _)
  rw [Sink.push_limited] at ran
  rw [Truncates, ran, emits.unlimited]
  by_cases fits : output.size ≤ limit
  · have all : output.extract 0 limit = output := by
      rw [← Nat.max_eq_left fits, ByteArray.extract_zero_max_size]
    rw [if_pos fits, if_pos ((Sink.hasRoom_limited ..).mpr fits)]
    exact ⟨rfl, all⟩
  · rw [if_neg fits, if_neg (mt (Sink.hasRoom_limited ..).mp fits)]
    exact ⟨rfl, rfl⟩

namespace Prompt

/-- The first thing that is written is an invitation. -/
theorem transcript_eq_invitation_append (lines : List (List UInt8)) :
    ∃ more, (transcript lines).2 = invitation.toUTF8 ++ more := by
  cases lines with
  | nil => exact ⟨"\n".toUTF8, by simp [transcript, String.toByteArray_append]⟩
  | cons line rest =>
    rw [transcript, contribution]
    cases ending? line with
    | some result => exact ⟨_, rfl⟩
    | none => exact ⟨_, ByteArray.append_assoc⟩

/-- Once the output is full, no further line is read. -/
theorem converse_of_full {limit : Nat} {earlier : List (List UInt8)}
    (keepsOpen : ∀ line ∈ earlier, ending? line = none)
    (full : limit < (contributions earlier ++ invitation.toUTF8).size)
    (later : List (List UInt8)) :
    report (converse (.empty (some limit)) (earlier ++ later)) =
      (.error .outputFull,
        ⟨some limit, (contributions earlier ++ invitation.toUTF8).extract 0 limit⟩) := by
  obtain ⟨more, begins⟩ := transcript_eq_invitation_append later
  have beyond : ¬ (Sink.empty (some limit)).hasRoom
      (contributions earlier ++ invitation.toUTF8).size :=
    mt (Sink.hasRoom_limited ..).mp (Nat.not_le.mpr full)
  have ran : report (converse (.empty (some limit)) (earlier ++ later)) = _ :=
    converse_emits (earlier ++ later) _ (Sink.sound_empty _)
  rw [transcript_append keepsOpen, begins, ← ByteArray.append_assoc,
    if_neg (Sink.not_hasRoom_append beyond more), Sink.push_append_of_full beyond,
    Sink.push_limited] at ran
  exact ran

end Prompt

/-- A limit only truncates: it leaves the runs whose output fits as they are, and cuts off the
others. The prompt reads no line after the one at which the output is full. -/
theorem limit_truncates (limit : Nat) :
    (∀ source, Truncates (.runtime .output) limit fun out => Session.report (execute source out)) ∧
    (∀ input, Truncates .outputFull limit fun out => Prompt.report (Prompt.run out input)) ∧
    ∀ earlier later : List (List UInt8), (∀ line ∈ earlier, Prompt.ending? line = none) →
      limit < (Prompt.contributions earlier ++ Prompt.invitation.toUTF8).size →
      Prompt.report (Prompt.converse (.empty (some limit)) (earlier ++ later)) =
        Prompt.report (Prompt.converse (.empty (some limit)) earlier) := by
  refine ⟨fun source => ?_, fun input => ?_, fun earlier later keepsOpen full => ?_⟩
  · obtain ⟨result, output, emits⟩ := execute_emits source
    exact emits.truncates limit
  · exact (Prompt.converse_emits (Prompt.lines input)).truncates limit
  · have alone := Prompt.converse_of_full keepsOpen full []
    rw [List.append_nil] at alone
    rw [Prompt.converse_of_full keepsOpen full, alone]

/-- Prints a number of seven digits. -/
private def sevenDigits : String := "\x7b;1234567;\x7d\n"

/-- The bytes of `sevenDigits`, as they are typed. -/
private def sevenDigitsLine : List UInt8 := sevenDigits.toUTF8.data.toList

-- Six bytes hold the number but for its last digit, or the invitation and two digits. The byte that
-- is not text is not read any more.
theorem limit_truncates_sevenDigits :
    ((Session.report (execute sevenDigits (.empty (some 6)))).1 = .error (.runtime .output) ∧
      (Session.report (execute sevenDigits (.empty (some 6)))).2.written = "123456".toUTF8) ∧
    ((Prompt.report (Prompt.run (.empty (some 6)) sevenDigitsLine)).1 = .error .outputFull ∧
      (Prompt.report (Prompt.run (.empty (some 6)) sevenDigitsLine)).2.written =
        ">>> 12".toUTF8) ∧
    (∀ line ∈ [sevenDigitsLine], Prompt.ending? line = none) ∧
    6 < (Prompt.contributions [sevenDigitsLine] ++ Prompt.invitation.toUTF8).size ∧
    Prompt.report (Prompt.converse (.empty (some 6)) ([sevenDigitsLine] ++ [[255]])) =
      Prompt.report (Prompt.converse (.empty (some 6)) [sevenDigitsLine]) := by
  have printed : (Session.report (execute sevenDigits (.empty none))).2.written =
      "1234567\n".toUTF8 := by decide +kernel
  have shown : (Prompt.report (Prompt.run (.empty none) sevenDigitsLine)).2.written =
      ">>> 1234567\n>>> \n".toUTF8 := by decide +kernel
  have keepsOpen : ∀ line ∈ [sevenDigitsLine], Prompt.ending? line = none :=
    List.forall_mem_singleton.mpr rfl
  have full : 6 < (Prompt.contributions [sevenDigitsLine] ++ Prompt.invitation.toUTF8).size := by
    decide +kernel
  refine ⟨?_, ?_, keepsOpen, full,
    (limit_truncates 6).2.2 [sevenDigitsLine] [[255]] keepsOpen full⟩
  · have cut := ((limit_truncates 6).1 sevenDigits).of_beyond (by rw [printed]; decide +kernel)
    rw [printed] at cut
    exact cut
  · have cut := ((limit_truncates 6).2.1 sevenDigitsLine).of_beyond (by rw [shown]; decide +kernel)
    rw [shown] at cut
    exact cut

end BlockCalc
