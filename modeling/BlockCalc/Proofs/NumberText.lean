import Mathlib.Data.List.TakeWhile
import BlockCalc.Number.Text
import BlockCalc.Proofs.Doubles
import BlockCalc.Proofs.RoundTrip
import BlockCalc.Proofs.Rounding

/-!
# Number texts read back

The text of every number is a literal that denotes it (`Number.ofLiteral?_text`): integers and
doubles are told apart by the shape of their texts, since a double is never written with digits
alone. The digits of a double are those of its shortest decimal without the zeros at their end; they
are put around a point and maybe before an exponent, and the decimal that is read has the same value
again.
-/
namespace BlockCalc

/-- All characters are digits. -/
def Digits (cs : List Char) : Prop := ∀ c ∈ cs, c.isDigit = true

/-- The number that digits denote. -/
def digitsValue (cs : List Char) : Nat := Nat.ofDigitChars 10 cs 0

theorem digits_toDigits (n : Nat) : Digits (Nat.toDigits 10 n) :=
  fun _ => Nat.isDigit_of_mem_toDigits (by decide) (by decide)

theorem digits_replicate_zero (n : Nat) : Digits (List.replicate n '0') := by
  intro c member
  rw [List.eq_of_mem_replicate member]
  rfl

theorem Digits.append {cs ds : List Char} (first : Digits cs) (second : Digits ds) :
    Digits (cs ++ ds) := fun c member => (List.mem_append.mp member).elim (first c) (second c)

theorem Digits.notMem {cs : List Char} (digits : Digits cs) {c : Char}
    (other : c.isDigit = false) : c ∉ cs := by
  intro member
  rw [digits c member] at other
  cases other

/-- Zeros behind digits multiply them by powers of ten. -/
theorem digitsValue_append_zeros (cs : List Char) (n : Nat) :
    digitsValue (cs ++ List.replicate n '0') = digitsValue cs * 10 ^ n := by
  rw [digitsValue, Nat.ofDigitChars_append, Nat.ofDigitChars_replicate_zero, Nat.mul_comm]
  rfl

/-- Zeros before digits do not count. -/
theorem digitsValue_zeros_append (cs : List Char) (n : Nat) :
    digitsValue (List.replicate n '0' ++ cs) = digitsValue cs := by
  rw [digitsValue, Nat.ofDigitChars_append, Nat.ofDigitChars_replicate_zero, Nat.mul_zero]
  rfl

/-- Digits end where another character comes. -/
theorem span_digits {cs rest : List Char} (digits : Digits cs)
    (ends : ∀ c ∈ rest.head?, c.isDigit = false) :
    (cs ++ rest).takeWhile Char.isDigit = cs ∧ (cs ++ rest).dropWhile Char.isDigit = rest := by
  rw [List.takeWhile_append_of_pos digits, List.dropWhile_append_of_pos digits]
  cases rest with
  | nil => simp
  | cons c rest => simp [ends c rfl]

/-- Without the zeros at its end a text is shorter by that many. -/
theorem exists_append_zeros (cs : List Char) :
    ∃ n, cs = (cs.reverse.dropWhile (· == '0')).reverse ++ List.replicate n '0' := by
  have zeros : cs.reverse.takeWhile (· == '0') =
      List.replicate (cs.reverse.takeWhile (· == '0')).length '0' := by
    refine List.eq_replicate_of_mem fun c member => ?_
    exact beq_iff_eq.mp (List.mem_takeWhile_imp (p := (· == '0')) member)
  refine ⟨(cs.reverse.takeWhile (· == '0')).length, ?_⟩
  calc
    cs = (cs.reverse.takeWhile (· == '0') ++ cs.reverse.dropWhile (· == '0')).reverse := by
      rw [List.takeWhile_append_dropWhile, List.reverse_reverse]
    _ = _ := by rw [List.reverse_append, zeros, List.reverse_replicate, List.length_replicate]

theorem Numeral.digits?_toDigits (n : Nat) : Numeral.digits? (Nat.toDigits 10 n) = some n := by
  have all : (Nat.toDigits 10 n).all Char.isDigit = true := List.all_eq_true.mpr (digits_toDigits n)
  rw [Numeral.digits?, if_pos ⟨Nat.toDigits_ne_nil, all⟩, Nat.ofDigitChars_ten_toDigits]

theorem Numeral.whole?_integer (z : Int) : Numeral.whole? (Layout.integer z) = some z := by
  rw [Layout.integer]
  by_cases negative : z < 0
  · have split : Numeral.splitSign ('-' :: Nat.toDigits 10 z.natAbs) =
        (true, Nat.toDigits 10 z.natAbs) := rfl
    rw [if_pos negative, Numeral.whole?_of_splitSign split, Numeral.digits?_toDigits,
      Option.map_some, if_pos rfl]
    congr 1
    omega
  · rw [if_neg negative, Numeral.whole?_toDigits]
    congr 1
    omega

theorem mem_integer {z : Int} {c : Char} (member : c ∈ Layout.integer z) :
    c = '-' ∨ c.isDigit = true := by
  rw [Layout.integer] at member
  split at member
  · rcases List.mem_cons.mp member with sign | digit
    · exact .inl sign
    · exact .inr (digits_toDigits _ c digit)
  · exact .inr (digits_toDigits _ c member)

theorem Numeral.exponent?_integer (z : Int) :
    Numeral.exponent? ('e' :: Layout.integer z) = some z := by
  rw [Numeral.exponent?, if_pos (.inl rfl), Numeral.whole?_integer]

theorem Numeral.splitPlaces_digits {places rest : List Char} (digits : Digits places)
    (ends : ∀ c ∈ rest.head?, c.isDigit = false) :
    Numeral.splitPlaces ('.' :: (places ++ rest)) = (places, rest) := by
  obtain ⟨taken, dropped⟩ := span_digits digits ends
  rw [Numeral.splitPlaces, taken, dropped]

theorem Numeral.decimal?_of_splitPlaces {whole rest places behind : List Char}
    (digits : Digits whole) (ends : ∀ c ∈ rest.head?, c.isDigit = false)
    (split : Numeral.splitPlaces rest = (places, behind)) (some : whole ++ places ≠ []) :
    Numeral.decimal? (whole ++ rest) = (Numeral.exponent? behind).map fun e =>
      ⟨digitsValue (whole ++ places), e - places.length⟩ := by
  obtain ⟨taken, dropped⟩ := span_digits digits ends
  simp only [Numeral.decimal?, taken, dropped, split, if_neg some, digitsValue]

/-- A text that is read as a decimal and not as an integer: digits around a point, or digits with
an exponent and maybe a point. -/
inductive RealText : List Char → Decimal → Prop
  | plain {whole places : List Char} (some : whole ≠ []) (digits : Digits whole)
      (more : Digits places) :
      RealText (whole ++ '.' :: places) ⟨digitsValue (whole ++ places), -places.length⟩
  | whole {whole : List Char} (exponent : Int) (some : whole ≠ []) (digits : Digits whole) :
      RealText (whole ++ 'e' :: Layout.integer exponent) ⟨digitsValue whole, exponent⟩
  | scientific {whole places : List Char} (exponent : Int) (some : whole ≠ [])
      (digits : Digits whole) (more : Digits places) :
      RealText (whole ++ '.' :: (places ++ 'e' :: Layout.integer exponent))
        ⟨digitsValue (whole ++ places), exponent - places.length⟩

namespace RealText
variable {text : List Char} {d : Decimal}

theorem decimal?_eq (written : RealText text d) : Numeral.decimal? text = some d := by
  have point (cs : List Char) : ∀ c ∈ ('.' :: cs).head?, c.isDigit = false := by
    rintro c ⟨⟩
    rfl
  have mark (cs : List Char) : ∀ c ∈ ('e' :: cs).head?, c.isDigit = false := by
    rintro c ⟨⟩
    rfl
  have filled {whole : List Char} (places : List Char) (some : whole ≠ []) : whole ++ places ≠ [] :=
    List.append_ne_nil_of_left_ne_nil some places
  cases written with
  | @plain whole places some digits more =>
    have split : Numeral.splitPlaces ('.' :: (places ++ [])) = (places, []) :=
      Numeral.splitPlaces_digits more (by simp)
    rw [List.append_nil] at split
    rw [Numeral.decimal?_of_splitPlaces digits (point _) split (filled places some)]
    simp [Numeral.exponent?]
  | whole exponent some digits =>
    rw [Numeral.decimal?_of_splitPlaces digits (mark _) rfl (filled [] some),
      Numeral.exponent?_integer]
    simp
  | @scientific whole places exponent some digits more =>
    have split := Numeral.splitPlaces_digits more (mark (Layout.integer exponent))
    rw [Numeral.decimal?_of_splitPlaces digits (point _) split (filled places some),
      Numeral.exponent?_integer]
    rfl

theorem exists_head (written : RealText text d) :
    ∃ c rest, text = c :: rest ∧ c.isDigit = true := by
  have head {whole : List Char} (rest : List Char) (some : whole ≠ []) (digits : Digits whole) :
      ∃ c rest', whole ++ rest = c :: rest' ∧ c.isDigit = true := by
    obtain ⟨c, tail, rfl⟩ := List.exists_cons_of_ne_nil some
    exact ⟨c, tail ++ rest, rfl, digits c List.mem_cons_self⟩
  cases written with
  | plain some digits _ => exact head _ some digits
  | whole _ some digits => exact head _ some digits
  | scientific _ some digits _ => exact head _ some digits

/-- There are only digits, points, exponent marks and minus signs. -/
theorem mem_cases (written : RealText text d) {c : Char} (member : c ∈ text) :
    c.isDigit = true ∨ c = '.' ∨ c = 'e' ∨ c = '-' := by
  cases written with
  | plain _ digits more =>
    simp only [List.mem_append, List.mem_cons] at member
    rcases member with digit | point | digit
    · exact .inl (digits c digit)
    · exact .inr (.inl point)
    · exact .inl (more c digit)
  | whole _ _ digits =>
    simp only [List.mem_append, List.mem_cons] at member
    rcases member with digit | mark | exponent
    · exact .inl (digits c digit)
    · exact .inr (.inr (.inl mark))
    · exact (mem_integer exponent).elim (fun sign => .inr (.inr (.inr sign))) .inl
  | scientific _ _ digits more =>
    simp only [List.mem_append, List.mem_cons] at member
    rcases member with digit | point | digit | mark | exponent
    · exact .inl (digits c digit)
    · exact .inr (.inl point)
    · exact .inl (more c digit)
    · exact .inr (.inr (.inl mark))
    · exact (mem_integer exponent).elim (fun sign => .inr (.inr (.inr sign))) .inl

theorem exists_mark (written : RealText text d) : ∃ c ∈ text, c.isDigit = false := by
  cases written with
  | plain _ _ _ => exact ⟨'.', by simp, rfl⟩
  | whole _ _ _ => exact ⟨'e', by simp, rfl⟩
  | scientific _ _ _ _ => exact ⟨'e', by simp, rfl⟩

theorem count_point_le (written : RealText text d) : text.count '.' ≤ 1 := by
  have none {cs : List Char} (digits : Digits cs) : cs.count '.' = 0 :=
    List.count_eq_zero.mpr (digits.notMem rfl)
  have integer (z : Int) : (Layout.integer z).count '.' = 0 := by
    refine List.count_eq_zero.mpr fun member => ?_
    rcases mem_integer member with sign | digit
    · cases sign
    · cases digit
  cases written with
  | plain _ digits more => simp [none digits, none more]
  | whole _ _ digits => simp [none digits, integer]
  | scientific _ _ digits more => simp [none digits, none more, integer]

end RealText

/-! ## Texts of doubles -/

open Number (floatLayout)

namespace Layout

theorem plain_of_length_le {cs : List Char} {n : Nat} (short : cs.length ≤ n + 1) :
    plain cs ((n + 1 : Nat) : Int) =
      (cs ++ List.replicate (n + 1 - cs.length) '0') ++ '.' :: ['0'] := by
  change (cs.take (n + 1) ++ _) ++ '.' :: (if (cs.drop (n + 1)).isEmpty then ['0'] else _) = _
  rw [List.take_of_length_le short, List.drop_of_length_le short]
  rfl

theorem plain_of_lt_length {cs : List Char} {n : Nat} (long : n + 1 < cs.length) :
    plain cs ((n + 1 : Nat) : Int) = cs.take (n + 1) ++ '.' :: cs.drop (n + 1) := by
  have places : (cs.drop (n + 1)).isEmpty = false := by
    simpa using long
  change (cs.take (n + 1) ++ List.replicate (n + 1 - cs.length) '0') ++
    '.' :: (if (cs.drop (n + 1)).isEmpty then ['0'] else _) = _
  rw [Nat.sub_eq_zero_of_le (Nat.le_of_lt long), places, if_neg Bool.false_ne_true,
    List.replicate_zero, List.append_nil]

theorem plain_of_nonpos {cs : List Char} {point : Int} (nonpos : point ≤ 0) :
    plain cs point = ['0'] ++ '.' :: (List.replicate point.natAbs '0' ++ cs) := by
  rw [plain.eq_def]
  split
  · next n => exact absurd nonpos (by simp)
  · rfl

/-- Digits with a point between or around them are read as what they were. -/
theorem exists_realText_plain {cs : List Char} (some : cs ≠ []) (digits : Digits cs)
    (point : Int) : ∃ d, RealText (plain cs point) d ∧
      d.nearest = Decimal.nearest ⟨digitsValue cs, point - cs.length⟩ := by
  by_cases nonpos : point ≤ 0
  · rw [plain_of_nonpos nonpos]
    refine ⟨_, .plain (by simp) (digits_replicate_zero 1)
      ((digits_replicate_zero _).append digits), ?_⟩
    have value : digitsValue (['0'] ++ (List.replicate point.natAbs '0' ++ cs)) = digitsValue cs :=
      (digitsValue_zeros_append _ 1).trans (digitsValue_zeros_append ..)
    rw [value]
    congr 2
    simp only [List.length_append, List.length_replicate]
    omega
  · obtain ⟨n, rfl⟩ : ∃ n : Nat, point = ((n + 1 : Nat) : Int) := ⟨point.toNat - 1, by omega⟩
    by_cases short : cs.length ≤ n + 1
    · -- All digits stand before the point, zeros fill the gap, and one more stands behind it.
      rw [plain_of_length_le short]
      refine ⟨_, .plain (List.append_ne_nil_of_left_ne_nil some _)
        (digits.append (digits_replicate_zero _)) (digits_replicate_zero 1), ?_⟩
      have value : digitsValue (cs ++ List.replicate (n + 1 - cs.length) '0' ++ ['0']) =
          digitsValue cs * 10 ^ (n + 1 - cs.length + 1) := by
        rw [List.append_assoc, ← digitsValue_append_zeros, List.replicate_succ']
      rw [value, Decimal.nearest_shift]
      congr 2
      simp only [List.length_singleton]
      omega
    · rw [plain_of_lt_length (Nat.not_le.mp short)]
      refine ⟨_, .plain ?_ (fun c member => digits c (List.mem_of_mem_take member))
        (fun c member => digits c (List.mem_of_mem_drop member)), ?_⟩
      · simpa using some
      · rw [List.take_append_drop, List.length_drop]
        congr 2
        omega

/-- Digits with an exponent are read as what they were. -/
theorem exists_realText_scientific {cs : List Char} (some : cs ≠ []) (digits : Digits cs)
    (exponent : Int) : ∃ d, RealText (floatLayout.scientific cs exponent) d ∧
      d.nearest = Decimal.nearest ⟨digitsValue cs, exponent + 1 - cs.length⟩ := by
  obtain ⟨c, places, rfl⟩ := List.exists_cons_of_ne_nil some
  have lead : Digits [c] := by
    intro d member
    rw [List.mem_singleton.mp member]
    exact digits c List.mem_cons_self
  have more : Digits places := fun d member => digits d (List.mem_cons_of_mem c member)
  cases places with
  | nil =>
    refine ⟨_, .whole exponent some lead, ?_⟩
    congr 2
    simp
  | cons d rest =>
    have text : floatLayout.scientific (c :: d :: rest) exponent =
        [c] ++ '.' :: ((d :: rest) ++ 'e' :: integer exponent) := by
      simp [scientific, floatLayout]
    rw [text]
    refine ⟨_, .scientific exponent (by simp) lead more, ?_⟩
    rw [List.singleton_append]
    congr 2
    simp only [List.length_cons]
    omega

/-- The written form of a positive decimal is read as a decimal of its value. -/
theorem exists_realText_decimal {d : Decimal} (positive : d.coefficient ≠ 0) :
    ∃ read, RealText (floatLayout.decimal d) read ∧ read.nearest = d.nearest := by
  obtain ⟨zeros, split⟩ := exists_append_zeros d.digits
  generalize stripped : (d.digits.reverse.dropWhile (· == '0')).reverse = cs at split
  have digits : Digits cs := by
    intro c member
    refine digits_toDigits d.coefficient c ?_
    rw [← Decimal.digits, split]
    exact List.mem_append_left _ member
  have value : d.coefficient = digitsValue cs * 10 ^ zeros := by
    rw [← digitsValue_append_zeros, ← split, digitsValue, Decimal.digits,
      Nat.ofDigitChars_ten_toDigits]
  have some : cs ≠ [] := by
    rintro rfl
    refine positive (value.trans ?_)
    exact Nat.zero_mul _
  have nearest : d.nearest = Decimal.nearest ⟨digitsValue cs, d.exponent + zeros⟩ := by
    rw [← Decimal.nearest_shift, ← value]
  have length : d.digits.length = cs.length + zeros := by
    rw [split, List.length_append, List.length_replicate]
  simp only [decimal, stripped]
  rw [nearest]
  split
  · obtain ⟨read, text, same⟩ :=
      exists_realText_plain some digits (d.digits.length - 1 + d.exponent + 1)
    refine ⟨read, text, same.trans ?_⟩
    congr 2
    omega
  · obtain ⟨read, text, same⟩ :=
      exists_realText_scientific some digits (d.digits.length - 1 + d.exponent)
    refine ⟨read, text, same.trans ?_⟩
    congr 2
    omega

/-- The written form of a finite magnitude is read as the magnitude. -/
theorem exists_realText_magnitude {m : Magnitude} (finite : m.isInfinite = false) :
    ∃ d, RealText (floatLayout.magnitude m) d ∧ d.nearest = m := by
  rw [magnitude, finite, if_neg Bool.false_ne_true]
  split
  · next zero =>
    obtain ⟨d, text, same⟩ := exists_realText_plain (by simp) (digits_replicate_zero 1) 1
    exact ⟨d, text, same.trans zero.symm⟩
  · next positive =>
    have back := Magnitude.nearest_shortest positive
    have some : m.shortest.coefficient ≠ 0 := by
      intro none
      rw [Decimal.nearest, if_pos none] at back
      exact positive back.symm
    obtain ⟨d, text, same⟩ := exists_realText_decimal some
    exact ⟨d, text, same.trans back⟩

end Layout

/-- A text of an unsigned double: it is read as the magnitude, begins with no sign, is neither NaN
nor digits alone, has at most one point and is a single line. -/
structure MagnitudeText (text : List Char) (m : Magnitude) : Prop where
  reads : Numeral.magnitude? text = some m
  unsigned : Numeral.splitSign text = (false, text)
  isNumber : text.map Char.toLower ≠ "nan".toList
  marked : ∃ c ∈ text, c.isDigit = false
  points : text.count '.' ≤ 1
  line : '\n' ∉ text

theorem toLower_of_isDigit {c : Char} (digit : c.isDigit = true) : c.toLower = c := by
  refine Char.toLower_eq_of_not_isUpper fun upper => ?_
  rw [Char.isUpper, decide_eq_true_eq] at upper
  have low : 'A'.toNat ≤ c.toNat := UInt32.le_iff_toNat_le.mp upper.1
  exact absurd (low.trans (Char.isDigit_iff_toNat.mp digit).2) (by decide)

theorem RealText.magnitudeText {text : List Char} {d : Decimal} (written : RealText text d) :
    MagnitudeText text d.nearest := by
  obtain ⟨c, rest, rfl, digit⟩ := written.exists_head
  have other {d : Char} {name : List Char} (letter : d.isDigit = false) :
      (c :: rest).map Char.toLower ≠ d :: name := by
    intro same
    rw [List.map_cons, toLower_of_isDigit digit, List.cons.injEq] at same
    rw [same.1, letter] at digit
    cases digit
  refine ⟨?_, ?_, other rfl, written.exists_mark, written.count_point_le, ?_⟩
  · rw [Numeral.magnitude?, if_neg, written.decimal?_eq, Option.map_some]
    exact not_or.mpr ⟨other rfl, other rfl⟩
  · unfold Numeral.splitSign
    split
    · next same => cases same; cases digit
    · next same => cases same; cases digit
    · rfl
  · intro newline
    have cases := written.mem_cases newline
    revert cases
    decide

theorem magnitudeText (m : Magnitude) : MagnitudeText (floatLayout.magnitude m) m := by
  cases infinite : m.isInfinite with
  | true =>
    have same : m = .infinity := by
      cases m with
      | mk rank le =>
        have rank : rank = infiniteRank := beq_iff_eq.mp infinite
        subst rank
        rfl
    subst same
    exact ⟨rfl, rfl, by decide, ⟨'i', by decide, rfl⟩, by decide, by decide⟩
  | false =>
    obtain ⟨d, written, same⟩ := Layout.exists_realText_magnitude infinite
    exact same ▸ written.magnitudeText

namespace Number

theorem integerLiteral?_of_mark {cs rest : List Char} {negative : Bool}
    (split : Numeral.splitSign cs = (negative, rest)) (marked : ∃ c ∈ rest, c.isDigit = false) :
    integerLiteral? cs = none := by
  obtain ⟨c, member, mark⟩ := marked
  have all : rest.all Char.isDigit ≠ true := by
    intro all
    rw [List.all_eq_true.mp all c member] at mark
    cases mark
  rw [integerLiteral?, Numeral.whole?_of_splitSign split, Numeral.digits?,
    if_neg fun both => all both.2]
  rfl

/-- A sign and the text of a magnitude are read as a double. -/
theorem ofLiteral?_of_magnitudeText {cs rest : List Char} {negative : Bool} {m : Magnitude}
    (split : Numeral.splitSign cs = (negative, rest)) (text : MagnitudeText rest m)
    (points : cs.count '.' ≤ 1) :
    ofLiteral? (.ofList cs) = some (.float (m.toFloat negative)) := by
  have float : floatLiteral? cs = some (.float (m.toFloat negative)) := by
    simp only [floatLiteral?, Numeral.real?, split, if_neg text.isNumber, text.reads,
      Option.map_some]
  rw [ofLiteral?, String.toList_ofList]
  split
  · rw [integerLiteral?_of_mark split text.marked, Option.none_or, float]
  · exact float
  · next notNone notOne =>
    rcases Nat.le_one_iff_eq_zero_or_eq_one.mp points with none | one
    · exact absurd none notNone
    · exact absurd one notOne

/-- The text of a double is a line that is read as the double. -/
theorem ofLiteral?_floatLayout (x : Float) :
    ofLiteral? (.ofList (floatLayout.text x)) = some (.float x) ∧ '\n' ∉ floatLayout.text x := by
  rw [Layout.text]
  split
  · next nan =>
    rw [eq_notANumber nan]
    exact ⟨rfl, by decide⟩
  · next number =>
    have text := magnitudeText (.ofFloat x)
    have whole := Magnitude.toFloat_ofFloat (Bool.eq_false_iff.mpr number)
    split
    · next negative =>
      rw [negative] at whole
      have split : Numeral.splitSign ('-' :: floatLayout.magnitude (.ofFloat x)) =
          (true, floatLayout.magnitude (.ofFloat x)) := rfl
      refine ⟨?_, ?_⟩
      · rw [ofLiteral?_of_magnitudeText split text (by simpa using text.points), whole]
      · simpa using text.line
    · next positive =>
      rw [Bool.eq_false_iff.mpr positive] at whole
      rw [ofLiteral?_of_magnitudeText text.unsigned text text.points, whole]
      exact ⟨rfl, text.line⟩

/-- The text of an integer is a line that is read as the integer. -/
theorem ofLiteral?_integer (n : Int64) :
    ofLiteral? (.ofList (Layout.integer n.toInt)) = some (.int n) ∧
      '\n' ∉ Layout.integer n.toInt := by
  have other {c : Char} (sign : c ≠ '-') (digit : c.isDigit = false) :
      c ∉ Layout.integer n.toInt := by
    intro member
    rcases mem_integer member with same | same
    · exact sign same
    · rw [same] at digit
      cases digit
  have fits : Fits n.toInt := ⟨n.minValue_le_toInt, n.toInt_le⟩
  refine ⟨?_, other (by decide) rfl⟩
  rw [ofLiteral?, String.toList_ofList]
  simp only [List.count_eq_zero.mpr (other (by decide : '.' ≠ '-') rfl), integerLiteral?,
    Numeral.whole?_integer, Option.bind_some, if_pos fits, Int64.ofInt_toInt, Option.some_or]

/-- The text of a number is a line that is read as the number. -/
theorem ofLiteral?_text (a : Number) : ofLiteral? a.text = some a ∧ '\n' ∉ a.text.toList := by
  rw [text, String.toList_ofList]
  cases a with
  | int n => exact ofLiteral?_integer n
  | float x => exact ofLiteral?_floatLayout x

end Number

end BlockCalc
