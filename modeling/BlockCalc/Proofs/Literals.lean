import BlockCalc.Proofs.NumberText

/-!
# Runs of digits and points

Which runs of digits and points are numbers. A run without a point and one with a single point are
read as digits around a place for a point, so that only a run with two points or without a digit
denotes nothing (`Number.ofLiteral?_eq_none_iff`).
-/
namespace BlockCalc
open Character

/-- A run of digits and points that is no number: it has two points or no digit. -/
def Malformed (run : List Char) : Prop := 2 ≤ run.count '.' ∨ ∀ c ∈ run, c.isDigit = false

/-- A run without a point is made up of digits. -/
theorem digits_of_run {run : List Char} (members : ∀ c ∈ run, isDigitOrPoint c = true)
    (points : run.count '.' = 0) : Digits run := by
  intro c member
  have other : c ≠ '.' := by
    rintro rfl
    exact List.count_eq_zero.mp points member
  simpa [isDigitOrPoint, other] using members c member

/-- A run with at most one point is made up of digits, or of digits around the point. -/
theorem parts_of_run {run : List Char} (members : ∀ c ∈ run, isDigitOrPoint c = true)
    (points : run.count '.' ≤ 1) :
    Digits run ∨ ∃ whole places, run = whole ++ '.' :: places ∧ Digits whole ∧ Digits places := by
  by_cases point : '.' ∈ run
  · obtain ⟨whole, places, rfl⟩ := List.append_of_mem point
    simp only [List.count_append, List.count_cons_self] at points
    refine .inr ⟨whole, places, rfl, digits_of_run ?_ (by omega), digits_of_run ?_ (by omega)⟩
    · exact fun c member => members c (List.mem_append_left _ member)
    · exact fun c member => members c (List.mem_append_right _ (List.mem_cons_of_mem _ member))
  · exact .inl (digits_of_run members (List.count_eq_zero.mpr point))

namespace Numeral
variable {run : List Char}

theorem decimal?_of_run (members : ∀ c ∈ run, isDigitOrPoint c = true)
    (points : run.count '.' ≤ 1) (digit : ∃ c ∈ run, c.isDigit = true) :
    ∃ d, decimal? run = some d := by
  obtain ⟨c, member, isDigit⟩ := digit
  rcases parts_of_run members points with digits | ⟨whole, places, rfl, digits, more⟩
  · have none : ∀ c ∈ ([] : List Char).head?, c.isDigit = false := by simp
    have read := decimal?_of_splitPlaces digits none rfl (by simpa using List.ne_nil_of_mem member)
    rw [List.append_nil] at read
    exact ⟨_, read⟩
  · have split : splitPlaces ('.' :: (places ++ [])) = (places, []) :=
      splitPlaces_digits more (by simp)
    rw [List.append_nil] at split
    refine ⟨_, decimal?_of_splitPlaces digits ?_ split ?_⟩
    · rintro d ⟨⟩
      rfl
    · intro none
      obtain ⟨rfl, rfl⟩ := List.append_eq_nil_iff.mp none
      rw [List.mem_singleton.mp member] at isDigit
      cases isDigit

theorem toLower_of_isDigitOrPoint {c : Char} (digit : isDigitOrPoint c = true) : c.toLower = c := by
  rcases Bool.or_eq_true_iff.mp digit with digit | point
  · exact toLower_of_isDigit digit
  · rw [beq_iff_eq.mp point]
    rfl

/-- A run of digits and points is none of the names of numbers without digits. -/
theorem map_toLower_ne (members : ∀ c ∈ run, isDigitOrPoint c = true) {name : List Char}
    (letter : ∃ c ∈ name, isDigitOrPoint c = false) : run.map Char.toLower ≠ name := by
  rintro rfl
  obtain ⟨lower, member, letter⟩ := letter
  obtain ⟨c, inside, rfl⟩ := List.mem_map.mp member
  rw [toLower_of_isDigitOrPoint (members c inside), members c inside] at letter
  cases letter

theorem real?_of_run (members : ∀ c ∈ run, isDigitOrPoint c = true)
    (points : run.count '.' ≤ 1) (digit : ∃ c ∈ run, c.isDigit = true) :
    ∃ x, real? run = some x := by
  obtain ⟨d, read⟩ := decimal?_of_run members points digit
  have noName {name : List Char} (letter : ∃ c ∈ name, isDigitOrPoint c = false) :
      run.map Char.toLower ≠ name := map_toLower_ne members letter
  have notNaN : run.map Char.toLower ≠ "nan".toList := noName ⟨'n', by decide, by decide⟩
  have notInf : run.map Char.toLower ≠ "inf".toList := noName ⟨'i', by decide, by decide⟩
  have notInfinity : run.map Char.toLower ≠ "infinity".toList := noName ⟨'i', by decide, by decide⟩
  have magnitude : magnitude? run = some d.nearest := by
    rw [magnitude?, if_neg (not_or.mpr ⟨notInf, notInfinity⟩), read, Option.map_some]
  refine ⟨Magnitude.toFloat false d.nearest, ?_⟩
  simp only [real?, splitSign_of_run members, if_neg notNaN, magnitude, Option.map_some]

end Numeral

/-- A run of digits and points denotes a number unless it has two points or no digit. -/
theorem Number.ofLiteral?_eq_none_iff {run : List Char}
    (members : ∀ c ∈ run, isDigitOrPoint c = true) :
    ofLiteral? (.ofList run) = none ↔ Malformed run := by
  rw [ofLiteral?, String.toList_ofList]
  by_cases points : run.count '.' ≤ 1
  · by_cases digit : ∃ c ∈ run, c.isDigit = true
    · obtain ⟨x, real⟩ := Numeral.real?_of_run members points digit
      have sound : ¬ Malformed run := by
        rintro (many | none)
        · omega
        · obtain ⟨c, member, isDigit⟩ := digit
          rw [none c member] at isDigit
          cases isDigit
      rcases Nat.le_one_iff_eq_zero_or_eq_one.mp points with zero | one
      · simp [zero, floatLiteral?, real, sound]
      · simp [one, floatLiteral?, real, sound]
    · have none : ∀ c ∈ run, c.isDigit = false := by simpa using digit
      -- There are only points, and so there is at most one character.
      have only : ∀ c ∈ run, c = '.' := by
        intro c member
        simpa [isDigitOrPoint, none c member] using members c member
      obtain ⟨n, rfl⟩ : ∃ n, run = List.replicate n '.' := ⟨_, List.eq_replicate_of_mem only⟩
      rw [List.count_replicate_self] at points
      refine ⟨fun _ => .inr none, fun _ => ?_⟩
      rcases Nat.le_one_iff_eq_zero_or_eq_one.mp points with rfl | rfl
      · rfl
      · rfl
  · have many : 2 ≤ run.count '.' := by omega
    refine ⟨fun _ => .inl many, fun _ => ?_⟩
    split
    · omega
    · omega
    · rfl

end BlockCalc
