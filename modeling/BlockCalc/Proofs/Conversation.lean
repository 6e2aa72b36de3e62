import BlockCalc.Prompt
import BlockCalc.Proofs.Output

/-!
# Conversations

The prompt answers line by line. What it writes for a line is what the line alone calls for
(`Prompt.contribution`): no line sees what another one did, and the output is the concatenation,
up to the line that ends the prompt (`Prompt.converse_emits`). So a conversation can be taken apart
behind any newline (`Prompt.outcome_append`).
-/
namespace BlockCalc

/-- A character at the end can be taken off: its first byte cannot belong to the one before it. -/
theorem isValidUTF8_append_char (bytes : ByteArray) (c : Char) :
    (bytes ++ [c].utf8Encode).IsValidUTF8 ↔ bytes.IsValidUTF8 := by
  constructor
  · intro valid
    have inside : bytes.size < (bytes ++ [c].utf8Encode).size := by
      simp [List.utf8Encode_singleton, Char.utf8Size_pos]
    have boundary : (⟨bytes.size⟩ : String.Pos.Raw).IsValid (.ofByteArray _ valid) := by
      refine String.Pos.Raw.isValid_iff_isUTF8FirstByte.mpr (.inr ⟨inside, ?_⟩)
      simp only [String.getUTF8Byte]
      rw [ByteArray.getElem_append_right (Nat.le_refl _)]
      simp [List.isUTF8FirstByte_getElem_utf8Encode_singleton]
    obtain ⟨-, before⟩ := String.Pos.Raw.isValid_iff_isValidUTF8_extract_zero.mp boundary
    simpa [ByteArray.extract_append] using before
  · intro valid
    exact valid.append ByteArray.isValidUTF8_utf8Encode

theorem fromUTF8?_append_char (bytes : ByteArray) (c : Char) :
    String.fromUTF8? (bytes ++ [c].utf8Encode) = (String.fromUTF8? bytes).map (·.push c) := by
  by_cases valid : bytes.IsValidUTF8
  · have both := (isValidUTF8_append_char bytes c).mpr valid
    simp only [String.fromUTF8?, dif_pos valid, dif_pos both, Option.map_some]
    rw [Option.some_inj, ← String.toByteArray_inj, String.toByteArray_push]
    rfl
  · have neither := mt (isValidUTF8_append_char bytes c).mp valid
    simp only [String.fromUTF8?, dif_neg valid, dif_neg neither, Option.map_none]

theorem fromUTF8?_eq_some_iff {bytes : ByteArray} {text : String} :
    String.fromUTF8? bytes = some text ↔ bytes = text.toUTF8 := by
  rw [String.fromUTF8?]
  constructor
  · intro decoded
    split at decoded
    · cases decoded
      rfl
    · cases decoded
  · rintro rfl
    exact dif_pos text.isValidUTF8

namespace Prompt

/-! ## Lines -/

/-- A line goes up to the next newline and includes it. -/
theorem lines_of_newline {body : List UInt8} (plain : 10 ∉ body) (rest : List UInt8) :
    lines (body ++ 10 :: rest) = (body ++ [10]) :: lines rest := by
  induction body with
  | nil => simp [lines]
  | cons byte more ih =>
    rw [List.mem_cons, not_or] at plain
    rw [List.cons_append, lines, if_neg (Ne.symm plain.1), ih plain.2]
    rfl

theorem lines_of_plain {body : List UInt8} (plain : 10 ∉ body) (some : body ≠ []) :
    lines body = [body] := by
  induction body with
  | nil => exact absurd rfl some
  | cons byte more ih =>
    rw [List.mem_cons, not_or] at plain
    rw [lines, if_neg (Ne.symm plain.1)]
    by_cases alone : more = []
    · subst alone
      rfl
    · rw [ih plain.2 alone]

theorem lines_ne_nil {input : List UInt8} (some : input ≠ []) : lines input ≠ [] := by
  cases input with
  | nil => exact absurd rfl some
  | cons byte rest =>
    rw [lines]
    split
    · exact List.cons_ne_nil _ _
    · split <;> exact List.cons_ne_nil _ _

/-- Behind a newline a new line begins. -/
theorem lines_append {first : List UInt8} (complete : first = [] ∨ first.getLast? = some 10)
    (second : List UInt8) : lines (first ++ second) = lines first ++ lines second := by
  induction first with
  | nil => rfl
  | cons byte rest ih =>
    have last : (byte :: rest).getLast? = some 10 := complete.resolve_left (List.cons_ne_nil _ _)
    by_cases alone : rest = []
    · subst alone
      obtain rfl : byte = 10 := by simpa using last
      simp [lines]
    · rw [List.getLast?_cons_of_ne_nil alone] at last
      have split := ih (.inr last)
      rw [List.cons_append, lines, lines, split]
      by_cases newline : byte = 10
      · rw [if_pos newline, if_pos newline, List.cons_append]
      · rw [if_neg newline, if_neg newline]
        cases others : lines rest with
        | nil => exact absurd others (lines_ne_nil alone)
        | cons line more => rfl

/-- Newlines and carriage returns. -/
def isEnding (c : Char) : Bool := c == '\n' || c == '\r'

theorem trim_eq (text : String) :
    trim text = .ofList (text.toList.reverse.dropWhile isEnding).reverse := rfl

theorem trim_push (text : String) {c : Char} (ending : isEnding c) :
    trim (text.push c) = trim text := by
  simp [trim_eq, ending]

theorem trim_append {text ending : String} (dropped : ∀ c ∈ ending.toList, isEnding c)
    (last : ∀ c ∈ text.toList.getLast?, ¬ isEnding c) : trim (text ++ ending) = text := by
  have all : ∀ c ∈ ending.toList.reverse, isEnding c := fun c member =>
    dropped c (List.mem_reverse.mp member)
  rw [trim_eq, String.toList_append, List.reverse_append, List.dropWhile_append_of_pos all]
  rw [← List.head?_reverse] at last
  cases reversed : text.toList.reverse with
  | nil =>
    have none : text.toList = [] := List.reverse_eq_nil_iff.mp reversed
    rw [← String.ofList_toList (s := text), none]
    rfl
  | cons c before =>
    rw [reversed] at last
    rw [List.dropWhile_cons_of_neg (last c rfl), ← reversed, List.reverse_reverse,
      String.ofList_toList]

theorem exists_trim_append (text : String) : ∃ ending : String, text = trim text ++ ending ∧
    (∀ c ∈ ending.toList, isEnding c) ∧ ∀ c ∈ (trim text).toList.getLast?, ¬ isEnding c := by
  have split : text.toList.reverse.takeWhile isEnding ++ text.toList.reverse.dropWhile isEnding =
      text.toList.reverse := List.takeWhile_append_dropWhile
  refine ⟨.ofList (text.toList.reverse.takeWhile isEnding).reverse, ?_, ?_, ?_⟩
  · rw [trim_eq, ← String.ofList_append, ← List.reverse_append, split, List.reverse_reverse,
      String.ofList_toList]
  · intro c member
    rw [String.toList_ofList, List.mem_reverse] at member
    exact List.all_eq_true.mp List.all_takeWhile c member
  · intro c last
    rw [trim_eq, String.toList_ofList, List.getLast?_reverse] at last
    have stops := List.head?_dropWhile_not isEnding text.toList.reverse
    rw [Option.mem_def.mp last] at stops
    exact Bool.eq_false_iff.mp stops

/-- The trimmed text of a line, if it is text. -/
def source? (line : List UInt8) : Option String := (String.fromUTF8? line.toByteArray).map trim

/-- A line says a text if it is that text but for the newlines and carriage returns at its end. -/
def Says (line : List UInt8) (text : String) : Prop :=
  ∃ ending : String, line.toByteArray = (text ++ ending).toUTF8 ∧
    (∀ c ∈ ending.toList, isEnding c) ∧ ∀ c ∈ text.toList.getLast?, ¬ isEnding c

theorem source?_eq_some_iff {line : List UInt8} {text : String} :
    source? line = some text ↔ Says line text := by
  rw [source?, Option.map_eq_some_iff]
  constructor
  · rintro ⟨whole, decoded, rfl⟩
    obtain ⟨ending, split, rest⟩ := exists_trim_append whole
    refine ⟨ending, ?_, rest⟩
    rw [← split]
    exact fromUTF8?_eq_some_iff.mp decoded
  · rintro ⟨ending, bytes, dropped, last⟩
    exact ⟨text ++ ending, fromUTF8?_eq_some_iff.mpr bytes, trim_append dropped last⟩

theorem source?_append_char (line : List UInt8) {c : Char} (ending : isEnding c) :
    source? (line ++ String.utf8EncodeChar c) = source? line := by
  have trimmed : (trim ∘ fun text : String => text.push c) = trim :=
    funext fun text => trim_push text ending
  rw [source?, List.toByteArray_append, ← List.utf8Encode_singleton, fromUTF8?_append_char,
    Option.map_map, trimmed, source?]

/-- It makes no difference to a line whether it ends in a newline or in a carriage return and a
newline. -/
theorem source?_carriageReturn (line : List UInt8) :
    source? (line ++ [13, 10]) = source? (line ++ [10]) := by
  have newline : ∀ line, source? (line ++ [10]) = source? line := fun line =>
    source?_append_char (c := '\n') line rfl
  have carriage : source? (line ++ [13]) = source? line :=
    source?_append_char (c := '\r') line rfl
  calc source? (line ++ [13, 10])
      = source? (line ++ [13] ++ [10]) := by rw [List.append_assoc]; rfl
    _ = source? (line ++ [13]) := newline _
    _ = source? (line ++ [10]) := by rw [carriage, newline]

/-! ## What is written -/

/-- The result of the prompt and the sink at its end. -/
def report : Except (PromptError × Sink) Sink → Except PromptError Unit × Sink
  | .ok out => (.ok (), out)
  | .error (error, out) => (.error error, out)

/-- What is said of a failure. -/
def complaint (failure : Failure) : String := "Error: " ++ failure.message ++ "\n"

/-- What is written for a source: what it prints on its own, and its failure if it fails. -/
def reply (source : String) : ByteArray :=
  match execute source (.empty none) with
  | .ok s => s.out.written
  | .error (failure, s) => s.out.written ++ (complaint failure).toUTF8

/-- What is written for a line. -/
def contribution (line : List UInt8) : ByteArray :=
  invitation.toUTF8 ++
    match source? line with
    | none => .empty
    | some source => if source = quit ∨ source = "" then .empty else reply source

/-- How the prompt ends at a line, if it does: it fails if the line is not text, and not if the line
is the one that ends the prompt. -/
def ending? (line : List UInt8) : Option (Except PromptError Unit) :=
  match source? line with
  | none => some (.error .invalidText)
  | some source => if source = quit then some (.ok ()) else none

/-- How the prompt ends on some lines, and all that it writes. -/
def transcript : List (List UInt8) → Except PromptError Unit × ByteArray
  | [] => (.ok (), (invitation ++ "\n").toUTF8)
  | line :: rest =>
    match ending? line with
    | some result => (result, contribution line)
    | none => ((transcript rest).1, contribution line ++ (transcript rest).2)

theorem report_bind (outcome : Except (PromptError × Sink) Sink)
    (next : Sink → Except (PromptError × Sink) Sink) :
    report (outcome >>= next) =
      match report outcome with
      | (.ok (), out) => report (next out)
      | (.error error, out) => (.error error, out) := by
  cases outcome with
  | ok out => rfl
  | error failure => rfl

/-- One thing after another: the second is done only if there was room for all of the first. -/
theorem emits_bind {first next : Sink → Except (PromptError × Sink) Sink}
    {result : Except PromptError Unit} {before after : ByteArray}
    (begins : Emits .outputFull (fun out => report (first out)) (.ok ()) before)
    (goesOn : Emits .outputFull (fun out => report (next out)) result after) :
    Emits .outputFull (fun out => report (first out >>= next)) result (before ++ after) := by
  intro out sound
  have start : report (first out) = _ := begins out sound
  simp only [report_bind, start]
  by_cases room : out.hasRoom before.size
  · have rest : report (next (out.push before)) = _ := goesOn _ (Sink.sound_push sound before)
    rw [Sink.hasRoom_push room, Sink.push_push, ← ByteArray.size_append] at rest
    simp only [if_pos room, rest]
  · have beyond := Sink.not_hasRoom_append room after
    simp only [if_neg room, if_neg beyond, Sink.push_append_of_full room]

theorem say_emits (text : String) :
    Emits .outputFull (fun out => report (say out text)) (.ok ()) text.toUTF8 := by
  intro out _
  by_cases room : out.hasRoom text.toUTF8.size
  · simp only [say, Sink.write, if_pos room, report]
  · simp only [say, Sink.write, if_neg room, report]

theorem report_answer (out : Sink) (source : String) :
    report (answer out source) =
      match Session.report (execute source out) with
      | (.ok _, after) => (.ok (), after)
      | (.error failure, after) => report (say after (complaint failure)) := by
  rw [answer]
  cases execute source out with
  | ok s => rfl
  | error failure => rfl

theorem reply_eq (source : String) :
    reply source =
      match Session.report (execute source (.empty none)) with
      | (.ok _, out) => out.written
      | (.error failure, out) => out.written ++ (complaint failure).toUTF8 := by
  rw [reply]
  cases execute source (.empty none) with
  | ok s => rfl
  | error failure => rfl

/-- There is no room for a complaint about an output that is full. -/
theorem say_complaint_of_full {out : Sink} (sound : out.Sound) {output : ByteArray}
    (full : ¬ out.hasRoom output.size) (failure : Failure) :
    report (say (out.push output) (complaint failure)) = (.error .outputFull, out.push output) := by
  have positive : 0 < (complaint failure).toUTF8.size := by
    have newline : 0 < "\n".utf8ByteSize := by decide
    simp only [complaint, String.toUTF8_eq_toByteArray, String.size_toByteArray,
      String.utf8ByteSize_append]
    omega
  have room := Sink.not_hasRoom_push sound full positive
  have said := say_emits (complaint failure) _ (Sink.sound_push sound output)
  rw [if_neg room, Sink.push_push, Sink.push_append_of_full full] at said
  exact said

/-- A program that overflows the output is answered like any other program that fails, but there is
no room for the answer. -/
theorem answer_emits (source : String) :
    Emits .outputFull (fun out => report (answer out source)) (.ok ()) (reply source) := by
  obtain ⟨result, output, emits⟩ := execute_emits source
  have alone : Session.report (execute source (.empty none)) = _ := emits.unlimited
  intro out sound
  have ran : Session.report (execute source out) = _ := emits out sound
  simp only [report_answer, reply_eq, ran, alone]
  cases result with
  | ok env =>
    by_cases room : out.hasRoom output.size
    · simp only [if_pos room]
    · -- the program fails only here, and its complaint is lost like the rest of its output
      simp only [if_neg room, say_complaint_of_full sound room]
  | error failure =>
    by_cases room : out.hasRoom output.size
    · have said : report (say (out.push output) (complaint failure)) = _ :=
        say_emits (complaint failure) _ (Sink.sound_push sound output)
      rw [Sink.hasRoom_push room, Sink.push_push, ← ByteArray.size_append] at said
      simp only [if_pos room, said]
    · have beyond := Sink.not_hasRoom_append room (complaint failure).toUTF8
      simp only [if_neg room, if_neg beyond, say_complaint_of_full sound room,
        Sink.push_append_of_full room]

theorem request?_eq (line : List UInt8) :
    request? line = (source? line).map fun source =>
      if source = quit then .stop else if source = "" then .skip else .run source := by
  rw [request?, source?, Option.map_map]
  rfl

theorem invitation_emits {next : Sink → Except (PromptError × Sink) Sink}
    {result : Except PromptError Unit} {output : ByteArray}
    (goesOn : Emits .outputFull (fun out => report (next out)) result output) :
    Emits .outputFull (fun out => report (say out invitation >>= next)) result
      (invitation.toUTF8 ++ output) :=
  emits_bind (say_emits invitation) goesOn

theorem converse_nil (out : Sink) :
    converse out [] = say out invitation >>= fun out => say out "\n" := by
  rw [converse]
  congr 1
  funext after
  rw [respond]
  cases say after "\n" <;> rfl

theorem converse_cons (out : Sink) (line : List UInt8) (rest : List (List UInt8)) :
    converse out (line :: rest) = say out invitation >>= fun out =>
      match request? line with
      | none => .error (.invalidText, out)
      | some .stop => .ok out
      | some .skip => converse out rest
      | some (.run source) => answer out source >>= fun out => converse out rest := by
  rw [converse]
  congr 1
  funext after
  rw [respond]
  cases request? line with
  | none => rfl
  | some request =>
    cases request with
    | stop => rfl
    | skip => rfl
    | run source => cases ran : answer after source <;> simp only [ran] <;> rfl

/-- The prompt ends as it should and writes the transcript. -/
theorem converse_emits (lines : List (List UInt8)) :
    Emits .outputFull (fun out => report (converse out lines)) (transcript lines).1
      (transcript lines).2 := by
  induction lines with
  | nil =>
    have both : (invitation ++ "\n").toUTF8 = invitation.toUTF8 ++ "\n".toUTF8 := by
      simp [String.toByteArray_append]
    simp only [transcript, both, converse_nil]
    exact invitation_emits (say_emits "\n")
  | cons line rest ih =>
    simp only [converse_cons, transcript, ending?, contribution, request?_eq]
    cases source? line with
    | none => exact invitation_emits (.nothing (.error PromptError.invalidText))
    | some source =>
      simp only [Option.map_some]
      by_cases stop : source = quit
      · simp only [if_pos stop, if_pos (Or.inl stop)]
        exact invitation_emits (.nothing (.ok ()))
      · by_cases blank : source = ""
        · simp only [if_neg stop, if_pos blank, if_pos (Or.inr blank), ByteArray.append_empty]
          exact invitation_emits ih
        · have program : ¬ (source = quit ∨ source = "") := not_or.mpr ⟨stop, blank⟩
          simp only [if_neg stop, if_neg blank, if_neg program, ByteArray.append_assoc]
          exact invitation_emits (emits_bind (answer_emits source) ih)

/-- The result of the prompt on an input and all that it writes, on an output without a limit. -/
def outcome (input : List UInt8) : Except PromptError Unit × ByteArray :=
  let (result, out) := report (run (.empty none) input)
  (result, out.written)

theorem outcome_eq (input : List UInt8) : outcome input = transcript (lines input) := by
  have ran : report (run (.empty none) input) = _ := (converse_emits (lines input)).unlimited
  rw [outcome, ran]

/-- What is written for lines. -/
def contributions : List (List UInt8) → ByteArray
  | [] => .empty
  | line :: rest => contribution line ++ contributions rest

/-- Lines that do not end the prompt are only put in front of what comes after them. -/
theorem transcript_append {first : List (List UInt8)}
    (keepsOpen : ∀ line ∈ first, ending? line = none) (second : List (List UInt8)) :
    transcript (first ++ second) =
      ((transcript second).1, contributions first ++ (transcript second).2) := by
  induction first with
  | nil => simp [contributions]
  | cons line rest ih =>
    obtain ⟨here, later⟩ := List.forall_mem_cons.mp keepsOpen
    rw [List.cons_append, transcript, here, contributions]
    simp only [ih later, ByteArray.append_assoc]

/-- Nothing that comes after a line that ends the prompt matters. -/
theorem transcript_of_ending {line : List UInt8} {result : Except PromptError Unit}
    (ends : ending? line = some result) (rest : List (List UInt8)) :
    transcript (line :: rest) = (result, contribution line) := by
  simp only [transcript, ends]

theorem contribution_of_ending {line : List UInt8} {result : Except PromptError Unit}
    (ends : ending? line = some result) : contribution line = invitation.toUTF8 := by
  rw [ending?] at ends
  rw [contribution]
  cases said : source? line with
  | none => exact ByteArray.append_empty
  | some source =>
    rw [said] at ends
    by_cases stop : source = quit
    · simp only [if_pos (Or.inl stop), ByteArray.append_empty]
    · simp [stop] at ends

/-- The first line that ends the prompt. -/
theorem exists_first_ending {lines : List (List UInt8)}
    (ends : ∃ line ∈ lines, ending? line ≠ none) :
    ∃ before line after result, lines = before ++ line :: after ∧
      (∀ earlier ∈ before, ending? earlier = none) ∧ ending? line = some result := by
  cases found : lines.find? fun line => (ending? line).isSome with
  | none =>
    obtain ⟨line, member, last⟩ := ends
    have none_ends := List.find?_eq_none.mp found line member
    simp [Option.isSome_iff_ne_none, last] at none_ends
  | some line =>
    obtain ⟨last, before, after, cut, quiet⟩ := List.find?_eq_some_iff_append.mp found
    obtain ⟨result, last⟩ := Option.isSome_iff_exists.mp last
    refine ⟨before, line, after, result, cut, fun earlier member => ?_, last⟩
    simpa using quiet earlier member

/-- A conversation can be taken apart behind a newline. If no line of the first part ends the
prompt, that part ends well, and its lines are put in front of what the second part comes to.
Otherwise the second part does not matter. A line counts as what it says, with or without a carriage
return, and goes up to the next newline. -/
theorem outcome_append (first second : List UInt8)
    (complete : first = [] ∨ first.getLast? = some 10) :
    ((∀ line ∈ lines first, ending? line = none) →
      outcome first = (.ok (), contributions (lines first) ++ (invitation ++ "\n").toUTF8) ∧
      outcome (first ++ second) =
        ((outcome second).1, contributions (lines first) ++ (outcome second).2)) ∧
    ((∃ line ∈ lines first, ending? line ≠ none) →
      outcome (first ++ second) = outcome first ∧
      ∃ before line after result, lines first = before ++ line :: after ∧
        (∀ earlier ∈ before, ending? earlier = none) ∧ ending? line = some result ∧
        outcome first = (result, contributions before ++ invitation.toUTF8)) ∧
    (∀ line, contribution (line ++ [13, 10]) = contribution (line ++ [10]) ∧
      ending? (line ++ [13, 10]) = ending? (line ++ [10])) ∧
    (∀ line text, source? line = some text ↔ Says line text) ∧
    ∀ body, 10 ∉ body → (body ≠ [] → lines body = [body]) ∧
      ∀ rest, lines (body ++ 10 :: rest) = (body ++ [10]) :: lines rest := by
  have parts : outcome (first ++ second) = transcript (lines first ++ lines second) := by
    rw [outcome_eq, lines_append complete]
  refine ⟨fun keepsOpen => ?_, fun ends => ?_, fun line => ?_, fun _ _ => source?_eq_some_iff,
    fun body plain => ⟨lines_of_plain plain, lines_of_newline plain⟩⟩
  · have alone := transcript_append keepsOpen []
    rw [List.append_nil] at alone
    rw [parts, outcome_eq, outcome_eq, transcript_append keepsOpen, alone]
    exact ⟨rfl, rfl⟩
  · obtain ⟨before, line, after, result, cut, quiet, last⟩ := exists_first_ending ends
    have upTo (more : List (List UInt8)) : transcript (lines first ++ more) =
        (result, contributions before ++ invitation.toUTF8) := by
      rw [cut, List.append_assoc, List.cons_append, transcript_append quiet,
        transcript_of_ending last, contribution_of_ending last]
    have alone := upTo []
    rw [List.append_nil, ← outcome_eq] at alone
    refine ⟨?_, before, line, after, result, cut, quiet, last, alone⟩
    rw [parts, upTo, alone]
  · rw [contribution, contribution, ending?, ending?, source?_carriageReturn]
    exact ⟨rfl, rfl⟩

-- "1", which is not a program, with a carriage return; then "q", first without and then with a
-- newline; then a byte that is not text.
theorem outcome_append_sample :
    (∀ line ∈ lines [49, 13, 10], ending? line = none) ∧
    outcome ([49, 13, 10] ++ [113]) =
      ((outcome [113]).1, contributions (lines [49, 13, 10]) ++ (outcome [113]).2) ∧
    (∃ line ∈ lines [113, 10], ending? line ≠ none) ∧
    outcome ([113, 10] ++ [255]) = outcome [113, 10] := by
  have keepsOpen : ∀ line ∈ lines [49, 13, 10], ending? line = none :=
    List.forall_mem_singleton.mpr rfl
  have stop : ending? [113, 10] = some (.ok ()) := rfl
  have ends : ∃ line ∈ lines [113, 10], ending? line ≠ none :=
    ⟨[113, 10], List.mem_singleton.mpr rfl, by simp [stop]⟩
  exact ⟨keepsOpen, ((outcome_append [49, 13, 10] [113] (.inr rfl)).1 keepsOpen).2, ends,
    ((outcome_append [113, 10] [255] (.inr rfl)).2.1 ends).1⟩

end Prompt
end BlockCalc
