import BlockCalc.Proofs.ExactIntegers
import BlockCalc.Proofs.Literals

/-!
# The grammar of literals

Which texts denote which numbers, without the way in which they are read:

    Whole    ::= Sign? Digit+
    Mantissa ::= Digit+ | Digit+ '.' Digit* | Digit* '.' Digit+
    Exponent ::= ('e' | 'E') Whole
    Real     ::= Sign? (Mantissa Exponent? | inf | infinity | nan)

with the names in any case. A whole numeral is read as the integer it denotes
(`Numeral.whole?_eq_some_iff`) and a real one as the closest double (`Numeral.real?_eq_some_iff`,
`Decimal.nearest_eq_iff`).
No whole numeral has a point and no real one has two, so that counting points decides nothing that
the grammar leaves open, and a literal is an integer of 64 bits if it can be one, and else a double
if it can be one (`Number.ofLiteral?_classifies`).
-/
namespace BlockCalc
open Character

namespace Numeral

/-- An optional sign, and whether it is a minus. -/
inductive IsSign : List Char → Bool → Prop
  | absent : IsSign [] false
  | plus : IsSign ['+'] false
  | minus : IsSign ['-'] true

/-- An optional sign and one or more digits denote an integer. -/
inductive IsWhole : List Char → Int → Prop
  | intro {sign digits : List Char} {negative : Bool} (signed : IsSign sign negative)
      (some : digits ≠ []) (only : Digits digits) :
      IsWhole (sign ++ digits)
        (if negative then -(digitsValue digits : Int) else digitsValue digits)

/-- Digits with at most one point among them, their number without the point, and how many of them
stand behind it. -/
inductive IsMantissa : List Char → Nat → Nat → Prop
  | whole {digits : List Char} (some : digits ≠ []) (only : Digits digits) :
      IsMantissa digits (digitsValue digits) 0
  | pointed {whole places : List Char} (some : whole ≠ [] ∨ places ≠ []) (before : Digits whole)
      (behind : Digits places) :
      IsMantissa (whole ++ '.' :: places) (digitsValue (whole ++ places)) places.length

/-- An optional power of ten. -/
inductive IsExponent : List Char → Int → Prop
  | absent : IsExponent [] 0
  | written {mark : Char} {text : List Char} {power : Int} (marked : mark = 'e' ∨ mark = 'E')
      (whole : IsWhole text power) : IsExponent (mark :: text) power

/-- A real numeral denotes the double that is closest to its value (`Decimal.nearest_eq_iff`). -/
inductive IsReal : List Char → Float → Prop
  | decimal {sign mantissa exponent : List Char} {negative : Bool} {coefficient places : Nat}
      {power : Int} (signed : IsSign sign negative)
      (digits : IsMantissa mantissa coefficient places) (scaled : IsExponent exponent power) :
      IsReal (sign ++ (mantissa ++ exponent))
        (Magnitude.toFloat negative (Decimal.nearest ⟨coefficient, power - places⟩))
  | infinity {sign name : List Char} {negative : Bool} (signed : IsSign sign negative)
      (named : name.map Char.toLower = "inf".toList ∨ name.map Char.toLower = "infinity".toList) :
      IsReal (sign ++ name) (Magnitude.toFloat negative .infinity)
  | notANumber {sign name : List Char} {negative : Bool} (signed : IsSign sign negative)
      (named : name.map Char.toLower = "nan".toList) : IsReal (sign ++ name) notANumber

/-- The text begins with no sign. -/
def Unsigned (cs : List Char) : Prop := ∀ c ∈ cs.head?, c ≠ '+' ∧ c ≠ '-'

theorem unsigned_of_isDigitOrPoint {cs : List Char}
    (first : ∀ c ∈ cs.head?, isDigitOrPoint c = true) : Unsigned cs := by
  intro c head
  constructor
  · rintro rfl
    exact absurd (first _ head) (by decide)
  · rintro rfl
    exact absurd (first _ head) (by decide)

theorem unsigned_of_name {cs name : List Char} {letter : Char}
    (named : cs.map Char.toLower = letter :: name) (plus : '+' ≠ letter) (minus : '-' ≠ letter) :
    Unsigned cs := by
  obtain ⟨c, rest, rfl, rfl, rfl⟩ := List.map_eq_cons_iff.mp named
  rintro _ ⟨⟩
  constructor
  · rintro rfl
    exact plus rfl
  · rintro rfl
    exact minus rfl

theorem isSign_of_splitSign {cs rest : List Char} {negative : Bool}
    (split : splitSign cs = (negative, rest)) :
    ∃ sign, cs = sign ++ rest ∧ IsSign sign negative := by
  unfold splitSign at split
  split at split
  · cases split
    exact ⟨['+'], rfl, .plus⟩
  · cases split
    exact ⟨['-'], rfl, .minus⟩
  · cases split
    exact ⟨[], rfl, .absent⟩

/-- A sign is split off in front of a text that begins with none. -/
theorem splitSign_of_isSign {sign rest : List Char} {negative : Bool}
    (signed : IsSign sign negative) (unsigned : Unsigned rest) :
    splitSign (sign ++ rest) = (negative, rest) := by
  cases signed with
  | absent =>
    rw [List.nil_append]
    unfold splitSign
    split
    · exact absurd rfl (unsigned '+' rfl).1
    · exact absurd rfl (unsigned '-' rfl).2
    · rfl
  | plus => rfl
  | minus => rfl

theorem digits?_eq_some_iff {cs : List Char} {n : Nat} :
    digits? cs = some n ↔ cs ≠ [] ∧ Digits cs ∧ digitsValue cs = n := by
  rw [digits?, Option.ite_none_right_eq_some, List.all_eq_true, Option.some_inj, and_assoc]
  rfl

theorem whole?_eq_some_iff {cs : List Char} {z : Int} : whole? cs = some z ↔ IsWhole cs z := by
  constructor
  · intro read
    cases split : splitSign cs with
    | mk negative rest =>
      rw [whole?_of_splitSign split] at read
      obtain ⟨n, digits, rfl⟩ := Option.map_eq_some_iff.mp read
      obtain ⟨some, only, rfl⟩ := digits?_eq_some_iff.mp digits
      obtain ⟨sign, rfl, signed⟩ := isSign_of_splitSign split
      exact .intro signed some only
  · rintro ⟨signed, some, only⟩
    have unsigned := unsigned_of_isDigitOrPoint fun c head => by
      rw [isDigitOrPoint, only c (List.mem_of_mem_head? head), Bool.true_or]
    rw [whole?_of_splitSign (splitSign_of_isSign signed unsigned),
      digits?_eq_some_iff.mpr ⟨some, only, rfl⟩, Option.map_some]

/-! ## Real numerals -/

theorem exponent?_eq_some_iff {cs : List Char} {power : Int} :
    exponent? cs = some power ↔ IsExponent cs power := by
  cases cs with
  | nil =>
    rw [exponent?, Option.some_inj]
    constructor
    · rintro rfl
      exact .absent
    · rintro ⟨⟩
      rfl
  | cons mark rest =>
    rw [exponent?, Option.ite_none_right_eq_some, whole?_eq_some_iff]
    constructor
    · rintro ⟨marked, whole⟩
      exact .written marked whole
    · rintro ⟨⟩
      exact ⟨‹_›, ‹_›⟩

/-- What stands behind a mantissa continues neither its digits nor its point. -/
theorem IsExponent.ends {cs : List Char} {power : Int} (scaled : IsExponent cs power) :
    ∀ c ∈ cs.head?, isDigitOrPoint c = false := by
  cases scaled with
  | absent => simp
  | written marked _ =>
    rintro _ ⟨⟩
    rcases marked with rfl | rfl
    · rfl
    · rfl

theorem IsMantissa.exists_head {cs : List Char} {coefficient places : Nat}
    (digits : IsMantissa cs coefficient places) :
    ∃ c rest, cs = c :: rest ∧ isDigitOrPoint c = true := by
  have digit {c : Char} {rest : List Char} (only : Digits (c :: rest)) :
      isDigitOrPoint c = true := by
    rw [isDigitOrPoint, only c List.mem_cons_self, Bool.true_or]
  cases digits with
  | whole some only =>
    obtain ⟨c, rest, rfl⟩ := List.exists_cons_of_ne_nil some
    exact ⟨c, rest, rfl, digit only⟩
  | @pointed whole places some before behind =>
    cases whole with
    | nil => exact ⟨'.', places, rfl, rfl⟩
    | cons c rest => exact ⟨c, rest ++ '.' :: places, rfl, digit before⟩

theorem isMantissa_of_splitPlaces {whole rest places behind : List Char} (before : Digits whole)
    (split : splitPlaces rest = (places, behind)) (some : whole ++ places ≠ []) :
    ∃ mantissa, whole ++ rest = mantissa ++ behind ∧
      IsMantissa mantissa (digitsValue (whole ++ places)) places.length := by
  unfold splitPlaces at split
  split at split
  · next rest =>
    cases split
    refine ⟨whole ++ '.' :: rest.takeWhile Char.isDigit, by simp, .pointed ?_ before ?_⟩
    · rwa [ne_eq, List.append_eq_nil_iff, not_and_or] at some
    · exact fun c member => List.mem_takeWhile_imp member
  · cases split
    rw [List.append_nil] at some ⊢
    exact ⟨whole, rfl, .whole some before⟩

/-- A mantissa ends where neither a digit nor a point comes next. -/
theorem decimal?_of_isMantissa {mantissa rest : List Char} {coefficient places : Nat}
    (digits : IsMantissa mantissa coefficient places)
    (ends : ∀ c ∈ rest.head?, isDigitOrPoint c = false) :
    decimal? (mantissa ++ rest) =
      (exponent? rest).map fun power => ⟨coefficient, power - places⟩ := by
  have noDigit : ∀ c ∈ rest.head?, c.isDigit = false := fun c head =>
    (Bool.or_eq_false_iff.mp (ends c head)).1
  cases digits with
  | whole some only =>
    have split : splitPlaces rest = ([], rest) := by
      unfold splitPlaces
      split
      · exact absurd (ends '.' rfl) (by decide)
      · rfl
    rw [decimal?_of_splitPlaces only noDigit split (by simpa using some), List.append_nil]
    rfl
  | @pointed whole places some before behind =>
    have split := splitPlaces_digits behind noDigit
    rw [List.append_assoc, List.cons_append]
    refine decimal?_of_splitPlaces before ?_ split ?_
    · rintro _ ⟨⟩
      rfl
    · rwa [ne_eq, List.append_eq_nil_iff, not_and_or]

theorem decimal?_eq_some_iff {cs : List Char} {d : Decimal} :
    decimal? cs = some d ↔ ∃ mantissa exponent coefficient places power,
      cs = mantissa ++ exponent ∧ IsMantissa mantissa coefficient places ∧
        IsExponent exponent power ∧ d = ⟨coefficient, power - places⟩ := by
  constructor
  · intro read
    have before : Digits (cs.takeWhile Char.isDigit) :=
      fun c member => List.mem_takeWhile_imp member
    rw [decimal?] at read
    cases split : splitPlaces (cs.dropWhile Char.isDigit) with
    | mk places behind =>
      simp only [split, Option.ite_none_left_eq_some] at read
      obtain ⟨some, scaled⟩ := read
      obtain ⟨power, exponent, rfl⟩ := Option.map_eq_some_iff.mp scaled
      obtain ⟨mantissa, parts, digits⟩ := isMantissa_of_splitPlaces before split some
      rw [List.takeWhile_append_dropWhile] at parts
      exact ⟨mantissa, behind, _, _, power, parts, digits, exponent?_eq_some_iff.mp exponent, rfl⟩
  · rintro ⟨mantissa, exponent, coefficient, places, power, rfl, digits, scaled, rfl⟩
    rw [decimal?_of_isMantissa digits scaled.ends, exponent?_eq_some_iff.mpr scaled,
      Option.map_some]

/-- A text that begins with a digit or a point is no name. -/
theorem map_toLower_ne_of_head {c letter : Char} {rest name : List Char}
    (first : isDigitOrPoint c = true) (other : isDigitOrPoint letter = false) :
    (c :: rest).map Char.toLower ≠ letter :: name := by
  intro same
  rw [List.map_cons, toLower_of_isDigitOrPoint first, List.cons.injEq] at same
  rw [same.1, other] at first
  cases first

theorem real?_of_splitSign {cs rest : List Char} {negative : Bool}
    (split : splitSign cs = (negative, rest)) :
    real? cs = if rest.map Char.toLower = "nan".toList then some notANumber
      else (magnitude? rest).map (Magnitude.toFloat negative) := by
  simp only [real?, split]

theorem real?_eq_some_iff {cs : List Char} {x : Float} : real? cs = some x ↔ IsReal cs x := by
  constructor
  · intro read
    cases split : splitSign cs with
    | mk negative rest =>
      obtain ⟨sign, rfl, signed⟩ := isSign_of_splitSign split
      rw [real?_of_splitSign split] at read
      by_cases nan : rest.map Char.toLower = "nan".toList
      · rw [if_pos nan, Option.some_inj] at read
        subst read
        exact .notANumber signed nan
      · rw [if_neg nan, magnitude?] at read
        by_cases infinite : rest.map Char.toLower = "inf".toList ∨
            rest.map Char.toLower = "infinity".toList
        · rw [if_pos infinite, Option.map_some, Option.some_inj] at read
          subst read
          exact .infinity signed infinite
        · rw [if_neg infinite, Option.map_map] at read
          obtain ⟨d, decimal, rfl⟩ := Option.map_eq_some_iff.mp read
          obtain ⟨mantissa, exponent, coefficient, places, power, rfl, digits, scaled, rfl⟩ :=
            decimal?_eq_some_iff.mp decimal
          exact .decimal signed digits scaled
  · intro real
    cases real with
    | @decimal sign mantissa exponent negative coefficient places power signed digits scaled =>
      have decimal :=
        decimal?_eq_some_iff.mpr ⟨mantissa, exponent, _, _, _, rfl, digits, scaled, rfl⟩
      obtain ⟨c, rest, rfl, first⟩ := digits.exists_head
      have unsigned : Unsigned (c :: (rest ++ exponent)) :=
        unsigned_of_isDigitOrPoint fun _ head => by cases head; exact first
      have notNaN : (c :: (rest ++ exponent)).map Char.toLower ≠ "nan".toList :=
        map_toLower_ne_of_head first rfl
      have notInf : (c :: (rest ++ exponent)).map Char.toLower ≠ "inf".toList :=
        map_toLower_ne_of_head first rfl
      have notInfinity : (c :: (rest ++ exponent)).map Char.toLower ≠ "infinity".toList :=
        map_toLower_ne_of_head first rfl
      rw [List.cons_append] at decimal ⊢
      rw [real?_of_splitSign (splitSign_of_isSign signed unsigned), if_neg notNaN, magnitude?,
        if_neg (not_or.mpr ⟨notInf, notInfinity⟩), decimal, Option.map_some, Option.map_some]
    | infinity signed named =>
      have unsigned : Unsigned _ := named.elim
        (unsigned_of_name · (by decide) (by decide)) (unsigned_of_name · (by decide) (by decide))
      rw [real?_of_splitSign (splitSign_of_isSign signed unsigned), magnitude?, if_pos named,
        Option.map_some, if_neg]
      rcases named with named | named
      · rw [named]
        decide
      · rw [named]
        decide
    | notANumber signed named =>
      have unsigned : Unsigned _ := unsigned_of_name named (by decide) (by decide)
      rw [real?_of_splitSign (splitSign_of_isSign signed unsigned), if_pos named]

/-! ## Points -/

theorem IsSign.notMem_point {sign : List Char} {negative : Bool} (signed : IsSign sign negative) :
    '.' ∉ sign := by
  cases signed <;> decide

theorem IsWhole.notMem_point {cs : List Char} {z : Int} (whole : IsWhole cs z) : '.' ∉ cs := by
  cases whole with
  | intro signed _ only => exact List.not_mem_append signed.notMem_point (only.notMem rfl)

theorem IsExponent.notMem_point {cs : List Char} {power : Int} (scaled : IsExponent cs power) :
    '.' ∉ cs := by
  cases scaled with
  | absent => exact List.not_mem_nil
  | written marked whole =>
    refine List.not_mem_cons_of_ne_of_not_mem ?_ whole.notMem_point
    rcases marked with rfl | rfl
    · decide
    · decide

theorem IsMantissa.count_point_le {cs : List Char} {coefficient places : Nat}
    (digits : IsMantissa cs coefficient places) : cs.count '.' ≤ 1 := by
  have none {cs : List Char} (only : Digits cs) : cs.count '.' = 0 :=
    List.count_eq_zero.mpr (only.notMem rfl)
  cases digits with
  | whole _ only => simp [none only]
  | pointed _ before behind => simp [none before, none behind]

theorem notMem_point_of_name {cs name : List Char} (named : cs.map Char.toLower = name)
    (other : '.' ∉ name) : '.' ∉ cs := by
  intro point
  exact other (named ▸ List.mem_map_of_mem (f := Char.toLower) point)

theorem IsReal.count_point_le {cs : List Char} {x : Float} (real : IsReal cs x) :
    cs.count '.' ≤ 1 := by
  cases real with
  | decimal signed digits scaled =>
    rw [List.count_append, List.count_append, List.count_eq_zero.mpr signed.notMem_point,
      List.count_eq_zero.mpr scaled.notMem_point]
    have := digits.count_point_le
    omega
  | infinity signed named =>
    have none : '.' ∉ _ := named.elim (notMem_point_of_name · (by decide))
      (notMem_point_of_name · (by decide))
    simp [List.count_eq_zero.mpr signed.notMem_point, List.count_eq_zero.mpr none]
  | notANumber signed named =>
    have none : '.' ∉ _ := notMem_point_of_name named (by decide)
    simp [List.count_eq_zero.mpr signed.notMem_point, List.count_eq_zero.mpr none]

/-- Every whole numeral is a real numeral. -/
theorem IsWhole.real {cs : List Char} {z : Int} (whole : IsWhole cs z) : ∃ x, IsReal cs x := by
  cases whole with
  | @intro sign digits negative signed some only =>
    have real := IsReal.decimal signed (.whole some only) .absent
    rw [List.append_nil] at real
    exact ⟨_, real⟩

end Numeral
open Numeral

/-- Among runs of digits and points, those without a point are whole numerals. -/
theorem isWhole_run_iff {run : List Char} (members : ∀ c ∈ run, isDigitOrPoint c = true) {z : Int} :
    IsWhole run z ↔ run ≠ [] ∧ '.' ∉ run ∧ z = digitsValue run := by
  constructor
  · intro whole
    have point := whole.notMem_point
    cases whole with
    | intro signed some only =>
      cases signed with
      | absent => exact ⟨some, point, rfl⟩
      | plus => exact absurd (members '+' List.mem_cons_self) (by decide)
      | minus => exact absurd (members '-' List.mem_cons_self) (by decide)
  · rintro ⟨some, point, rfl⟩
    exact .intro .absent some (digits_of_run members (List.count_eq_zero.mpr point))

namespace Number

theorem integerLiteral?_eq_some_iff {cs : List Char} {a : Number} :
    integerLiteral? cs = some a ↔ ∃ z, IsWhole cs z ∧ Fits z ∧ .int (.ofInt z) = a := by
  simp only [integerLiteral?, Option.bind_eq_some_iff, whole?_eq_some_iff,
    Option.ite_none_right_eq_some, Option.some_inj]

theorem floatLiteral?_eq_some_iff {cs : List Char} {a : Number} :
    floatLiteral? cs = some a ↔ ∃ x, IsReal cs x ∧ .float x = a := by
  simp only [floatLiteral?, Option.map_eq_some_iff, real?_eq_some_iff]

/-- Counting points decides nothing: a literal is read as an integer, and else as a double. -/
theorem ofLiteral?_eq_or (lexeme : String) :
    ofLiteral? lexeme = (integerLiteral? lexeme.toList).or (floatLiteral? lexeme.toList) := by
  generalize cs_eq : lexeme.toList = cs
  have noInteger (point : cs.count '.' ≠ 0) : integerLiteral? cs = none := by
    refine Option.eq_none_iff_forall_ne_some.mpr fun a read => ?_
    obtain ⟨z, whole, -, -⟩ := integerLiteral?_eq_some_iff.mp read
    exact point (List.count_eq_zero.mpr whole.notMem_point)
  have noFloat (points : ¬ cs.count '.' ≤ 1) : floatLiteral? cs = none := by
    refine Option.eq_none_iff_forall_ne_some.mpr fun a read => ?_
    obtain ⟨x, real, -⟩ := floatLiteral?_eq_some_iff.mp read
    exact points real.count_point_le
  simp only [ofLiteral?, cs_eq]
  split
  · rfl
  · next one => rw [noInteger (by omega), Option.none_or]
  · next notNone notOne =>
    have none : cs.count '.' ≠ 0 := notNone
    have one : cs.count '.' ≠ 1 := notOne
    rw [noInteger none, noFloat (by omega), Option.none_or]

theorem ofLiteral?_eq_int_iff {lexeme : String} {n : Int64} :
    ofLiteral? lexeme = some (.int n) ↔ IsWhole lexeme.toList n.toInt := by
  rw [ofLiteral?_eq_or, Option.or_eq_some_iff, integerLiteral?_eq_some_iff]
  constructor
  · rintro (⟨z, whole, fits, same⟩ | ⟨-, float⟩)
    · cases same
      rwa [toInt_ofInt_of_fits fits]
    · obtain ⟨x, -, same⟩ := floatLiteral?_eq_some_iff.mp float
      cases same
  · intro whole
    exact .inl ⟨n.toInt, whole, fits_toInt n, by rw [Int64.ofInt_toInt]⟩

theorem ofLiteral?_eq_float_iff {lexeme : String} {x : Float} :
    ofLiteral? lexeme = some (.float x) ↔
      (∀ z, IsWhole lexeme.toList z → ¬ Fits z) ∧ IsReal lexeme.toList x := by
  rw [ofLiteral?_eq_or, Option.or_eq_some_iff, integerLiteral?_eq_some_iff,
    floatLiteral?_eq_some_iff, Option.eq_none_iff_forall_ne_some]
  constructor
  · rintro (⟨z, -, -, same⟩ | ⟨noInteger, y, real, same⟩)
    · cases same
    · cases same
      refine ⟨fun z whole fits => ?_, real⟩
      exact noInteger _ (integerLiteral?_eq_some_iff.mpr ⟨z, whole, fits, rfl⟩)
  · rintro ⟨beyond, real⟩
    refine .inr ⟨fun a read => ?_, x, real, rfl⟩
    obtain ⟨z, whole, fits, -⟩ := integerLiteral?_eq_some_iff.mp read
    exact beyond z whole fits

theorem ofLiteral?_eq_none_iff_not_isReal {lexeme : String} :
    ofLiteral? lexeme = none ↔ ∀ x, ¬ IsReal lexeme.toList x := by
  constructor
  · intro nothing x real
    rw [ofLiteral?_eq_or, Option.or_eq_none_iff] at nothing
    rw [floatLiteral?_eq_some_iff.mpr ⟨x, real, rfl⟩] at nothing
    cases nothing.2
  · intro noReal
    refine Option.eq_none_iff_forall_ne_some.mpr fun a read => ?_
    cases a with
    | int n =>
      obtain ⟨x, real⟩ := (ofLiteral?_eq_int_iff.mp read).real
      exact noReal x real
    | float x => exact noReal x (ofLiteral?_eq_float_iff.mp read).2

/-- A run of digits and points is an integer if it has no point and its value fits. -/
theorem exists_int_of_run_iff {lexeme : String} (nonempty : lexeme.toList ≠ [])
    (members : ∀ c ∈ lexeme.toList, isDigitOrPoint c = true) :
    (∃ n, ofLiteral? lexeme = some (.int n)) ↔
      '.' ∉ lexeme.toList ∧ digitsValue lexeme.toList ≤ 2 ^ 63 - 1 := by
  have largest : Int64.maxValue.toInt = 2 ^ 63 - 1 := rfl
  have least : Int64.minValue.toInt = -2 ^ 63 := rfl
  simp only [ofLiteral?_eq_int_iff, isWhole_run_iff members]
  constructor
  · rintro ⟨n, -, point, value⟩
    have fits := (fits_toInt n).2
    exact ⟨point, by omega⟩
  · rintro ⟨point, small⟩
    have fits : Fits (digitsValue lexeme.toList) := ⟨by omega, by omega⟩
    exact ⟨.ofInt (digitsValue lexeme.toList), nonempty, point, toInt_ofInt_of_fits fits⟩

/-- What every text denotes. A text denotes an integer exactly if it is a whole numeral whose value
fits into 64 bits; otherwise it denotes the double of a real numeral, and nothing if it is none. So
the number of points makes no difference to trying an integer first and then a double. A run of
digits and points denotes nothing exactly if it has two points or no digit, and an integer exactly
if it has no point and its value fits. -/
theorem ofLiteral?_classifies (lexeme : String) :
    (∀ n, ofLiteral? lexeme = some (.int n) ↔
      ∃ z, IsWhole lexeme.toList z ∧ -2 ^ 63 ≤ z ∧ z ≤ 2 ^ 63 - 1 ∧ n.toInt = z) ∧
    (∀ x, ofLiteral? lexeme = some (.float x) ↔
      (¬ ∃ z, IsWhole lexeme.toList z ∧ -2 ^ 63 ≤ z ∧ z ≤ 2 ^ 63 - 1) ∧
        IsReal lexeme.toList x) ∧
    (ofLiteral? lexeme = none ↔ ¬ ∃ x, IsReal lexeme.toList x) ∧
    ofLiteral? lexeme = (integerLiteral? lexeme.toList).or (floatLiteral? lexeme.toList) ∧
    (lexeme.toList ≠ [] → (∀ c ∈ lexeme.toList, isDigitOrPoint c = true) →
      (ofLiteral? lexeme = none ↔
        2 ≤ lexeme.toList.count '.' ∨ ∀ c ∈ lexeme.toList, c.isDigit = false) ∧
      ((∃ n, ofLiteral? lexeme = some (.int n)) ↔
        '.' ∉ lexeme.toList ∧ digitsValue lexeme.toList ≤ 2 ^ 63 - 1)) := by
  refine ⟨?_, ?_, ?_, ofLiteral?_eq_or lexeme, ?_⟩
  · intro n
    rw [ofLiteral?_eq_int_iff]
    constructor
    · intro whole
      exact ⟨n.toInt, whole, (fits_toInt n).1, (fits_toInt n).2, rfl⟩
    · rintro ⟨z, whole, -, -, rfl⟩
      exact whole
  · intro x
    rw [ofLiteral?_eq_float_iff, not_exists]
    exact and_congr_left fun _ => forall_congr' fun z => not_and.symm
  · rw [ofLiteral?_eq_none_iff_not_isReal, not_exists]
  · intro nonempty members
    refine ⟨?_, exists_int_of_run_iff nonempty members⟩
    have malformed := ofLiteral?_eq_none_iff members
    rwa [String.ofList_toList] at malformed

/-- Zeros in front do not count, however many there are: the value alone decides. -/
theorem ofLiteral?_classifies_zeros :
    (∃ n, ofLiteral? "0000000000000000000009223372036854775807" = some (.int n)) ∧
      ¬ ∃ n, ofLiteral? "9223372036854775808" = some (.int n) := by
  obtain ⟨-, -, -, -, largest⟩ := ofLiteral?_classifies "0000000000000000000009223372036854775807"
  obtain ⟨-, -, -, -, beyond⟩ := ofLiteral?_classifies "9223372036854775808"
  refine ⟨(largest (by simp) (List.all_eq_true.mp (by decide))).2.mpr ⟨by decide, by decide⟩, ?_⟩
  rw [(beyond (by simp) (List.all_eq_true.mp (by decide))).2]
  decide

end Number
end BlockCalc
