import BlockCalc.Proofs.Occurrences
import BlockCalc.Proofs.Stopping

/-!
# Integer results are exact

An expression gives an integer exactly if it is made of integers, sums, differences and products,
and the computation in unbounded integers never leaves the 64 bits on its way; the integer is then
the exact value. Once a value on the way does not fit, the result is a double, whatever the rest of
the expression does (`Expr.eval_eq_int_iff`).
-/
namespace BlockCalc

namespace Number

def IsInt : Number → Prop
  | .int _ => True
  | .float _ => False

/-- The integer that a number is; a double counts as zero. -/
def toInt : Number → Int
  | .int n => n.toInt
  | .float _ => 0

end Number

mutual

/-- The multiplicative operators from left to right. -/
def Factor.operators : Factor → List MulOp
  | .number _ => []
  | .group inner => inner.operators
  | .variable _ => []

def Term.operators : Term → List MulOp
  | .lead first => first.operators
  | .extend before op _ factor => before.operators ++ op :: factor.operators

def Expr.operators : Expr → List MulOp
  | .lead _ first => first.operators
  | .extend before _ term => before.operators ++ term.operators

end

/-- The literals are integers, the variables are bound to integers, and the multiplicative operators
are products. -/
structure WholeParts (env : Environment) (literals : List Number) (names : List String)
    (operators : List MulOp) : Prop where
  literals : ∀ value ∈ literals, value.IsInt
  names : ∀ name ∈ names, ∃ n, env.get? name = some (.int n)
  operators : ∀ op ∈ operators, op = .mul

/-- Everything in the factor is an integer, and nothing is divided or put under a root. -/
def Factor.Whole (env : Environment) (f : Factor) : Prop :=
  WholeParts env f.literals f.variables f.operators

def Term.Whole (env : Environment) (t : Term) : Prop :=
  WholeParts env t.literals t.variables t.operators

def Expr.Whole (env : Environment) (e : Expr) : Prop :=
  WholeParts env e.literals e.variables e.operators

def Sign.exact : Sign → Int → Int
  | .plus, z => z
  | .minus, z => -z

def AddOp.exact : AddOp → Int → Int → Int
  | .add, a, b => a + b
  | .sub, a, b => a - b

mutual

/-- The value in unbounded integers. It is meant for whole expressions: all else counts as zero, and
every multiplicative operator as a product. -/
def Factor.exact (env : Environment) : Factor → Int
  | .number value => value.toInt
  | .group inner => inner.exact env
  | .variable name => ((env.get? name).map Number.toInt).getD 0

def Term.exact (env : Environment) : Term → Int
  | .lead first => first.exact env
  | .extend before _ sign factor => before.exact env * sign.exact (factor.exact env)

def Expr.exact (env : Environment) : Expr → Int
  | .lead sign first => sign.exact (first.exact env)
  | .extend before op term => op.exact (before.exact env) (term.exact env)

end

mutual

/-- The values that the computation in unbounded integers comes through, in its order: each signed
factor, each product of the first factors of a term, each signed first term and each sum of the
first terms, at every depth. -/
def Factor.passed (env : Environment) : Factor → List Int
  | .number _ => []
  | .group inner => inner.passed env
  | .variable _ => []

def Term.passed (env : Environment) : Term → List Int
  | .lead first => first.passed env ++ [first.exact env]
  | .extend before op sign factor =>
    before.passed env ++ factor.passed env ++
      [sign.exact (factor.exact env), (Term.extend before op sign factor).exact env]

def Expr.passed (env : Environment) : Expr → List Int
  | .lead sign first => first.passed env ++ [sign.exact (first.exact env)]
  | .extend before op term =>
    before.passed env ++ term.passed env ++ [(Expr.extend before op term).exact env]

end

/-- Each of the integers fits into 64 bits. -/
def AllFit (zs : List Int) : Prop := ∀ z ∈ zs, Number.Fits z

instance (zs : List Int) : Decidable (AllFit zs) :=
  inferInstanceAs (Decidable (∀ z ∈ zs, Number.Fits z))

@[simp] theorem allFit_nil : AllFit [] := List.forall_mem_nil _

@[simp] theorem allFit_cons {z : Int} {zs : List Int} :
    AllFit (z :: zs) ↔ Number.Fits z ∧ AllFit zs :=
  List.forall_mem_cons

@[simp] theorem allFit_append {ys zs : List Int} : AllFit (ys ++ zs) ↔ AllFit ys ∧ AllFit zs :=
  List.forall_mem_append

namespace Number

theorem fits_toInt (n : Int64) : Fits n.toInt := ⟨n.minValue_le_toInt, n.toInt_le⟩

theorem toInt_ofInt_of_fits {z : Int} (fits : Fits z) : (Int64.ofInt z).toInt = z := by
  have least : Int64.minValue.toInt = -2 ^ 63 := rfl
  have largest : Int64.maxValue.toInt = 2 ^ 63 - 1 := rfl
  rw [Fits, least, largest] at fits
  exact Int64.toInt_ofInt_of_le (by omega) (by omega)

/-- How a number stands for an exact integer: it is that integer if all values so far have fitted,
and a double otherwise. -/
def Follows (fitted : Prop) (z : Int) : Number → Prop
  | .int n => fitted ∧ n.toInt = z
  | .float _ => ¬ fitted

theorem Follows.congr {fitted same : Prop} {z : Int} {v : Number} (follows : v.Follows fitted z)
    (iff : fitted ↔ same) : v.Follows same z := by
  rwa [propext iff] at follows

/-- The value itself fits if all values before it have fitted. -/
theorem Follows.and_fits {fitted : Prop} {z : Int} {v : Number} (follows : v.Follows fitted z) :
    v.Follows (fitted ∧ Fits z) z := by
  cases v with
  | int n =>
    obtain ⟨fits, rfl⟩ := follows
    exact ⟨⟨fits, fits_toInt n⟩, rfl⟩
  | float x => exact fun fits => follows fits.1

theorem follows_exactOr (z : Int) (instead : Float) : (exactOr z instead).Follows (Fits z) z := by
  rw [exactOr]
  split
  · next fits => exact ⟨fits, toInt_ofInt_of_fits fits⟩
  · next fits => exact fits

/-- The operation is exact on integers as far as the result fits, and gives a double otherwise and
where an operand is one. -/
def Computes (op : Number → Number → Number) (exact : Int → Int → Int) : Prop :=
  ∀ a b : Number, match a, b with
    | .int m, .int n => ∃ instead, op a b = exactOr (exact m.toInt n.toInt) instead
    | _, _ => ∃ x, op a b = .float x

theorem computes_mul : Computes (· * ·) (· * ·) := by
  intro a b
  cases a <;> cases b <;> exact ⟨_, rfl⟩

theorem computes_apply (op : AddOp) : Computes op.apply op.exact := by
  intro a b
  cases op <;> cases a <;> cases b <;> exact ⟨_, rfl⟩

theorem Computes.isInt {op : Number → Number → Number} {exact : Int → Int → Int}
    (computes : Computes op exact) {a b : Number} {n : Int64} (result : op a b = .int n) :
    a.IsInt ∧ b.IsInt := by
  have given := computes a b
  cases a with
  | int m => cases b with
    | int k => exact ⟨trivial, trivial⟩
    | float y =>
      obtain ⟨x, float⟩ := given
      rw [float] at result
      cases result
  | float y =>
    obtain ⟨x, float⟩ := given
    rw [float] at result
    cases result

theorem Follows.combine {op : Number → Number → Number} {exact : Int → Int → Int}
    (computes : Computes op exact) {first second : Prop} {a b : Int} {v w : Number}
    (left : v.Follows first a) (right : w.Follows second b) :
    (op v w).Follows (first ∧ second ∧ Fits (exact a b)) (exact a b) := by
  have given := computes v w
  cases v with
  | int m => cases w with
    | int n =>
      obtain ⟨instead, result⟩ := given
      obtain ⟨leftFits, rfl⟩ := left
      obtain ⟨rightFits, rfl⟩ := right
      rw [result]
      exact (follows_exactOr _ instead).congr (by simp [leftFits, rightFits])
    | float y =>
      obtain ⟨x, result⟩ := given
      rw [result]
      exact fun fits => right fits.2.1
  | float y =>
    obtain ⟨x, result⟩ := given
    rw [result]
    exact fun fits => left fits.1

theorem Follows.signed {fitted : Prop} {z : Int} {v : Number} (follows : v.Follows fitted z)
    (sign : Sign) : (sign.apply v).Follows (fitted ∧ Fits (sign.exact z)) (sign.exact z) := by
  cases sign with
  | plus => exact follows.and_fits
  | minus =>
    cases v with
    | int n =>
      obtain ⟨fits, rfl⟩ := follows
      exact (follows_exactOr (-n.toInt) _).congr (by simp [fits, Sign.exact])
    | float x => exact fun fits => follows fits.1

theorem isInt_of_signed {sign : Sign} {v : Number} (int : (sign.apply v).IsInt) : v.IsInt := by
  cases v with
  | int n => trivial
  | float x => cases sign <;> exact int

theorem isInt_of_mulOp {op : MulOp} {a b : Number} {n : Int64}
    (result : op.apply a b = .ok (.int n)) : op = .mul ∧ a.IsInt ∧ b.IsInt := by
  cases op with
  | mul => exact ⟨rfl, computes_mul.isInt (Except.ok.inj result)⟩
  | div =>
    rw [MulOp.apply] at result
    split at result <;> cases result
  | root =>
    rw [MulOp.apply] at result
    split at result
    · next r root =>
      -- a root is a double, and so is a product with it
      have double := (computes_mul.isInt (Except.ok.inj result)).2
      rw [sqrt?] at root
      split at root
      · cases root
      · cases root
        cases double
    · cases result

end Number

theorem WholeParts.append_iff {env : Environment} {literals others : List Number}
    {names more : List String} {operators further : List MulOp} :
    WholeParts env (literals ++ others) (names ++ more) (operators ++ further) ↔
      WholeParts env literals names operators ∧ WholeParts env others more further := by
  constructor
  · rintro ⟨numbers, bound, ops⟩
    simp only [List.forall_mem_append] at numbers bound ops
    exact ⟨⟨numbers.1, bound.1, ops.1⟩, numbers.2, bound.2, ops.2⟩
  · rintro ⟨⟨numbers, bound, ops⟩, otherNumbers, otherBound, otherOps⟩
    refine ⟨?_, ?_, ?_⟩
    · exact List.forall_mem_append.mpr ⟨numbers, otherNumbers⟩
    · exact List.forall_mem_append.mpr ⟨bound, otherBound⟩
    · exact List.forall_mem_append.mpr ⟨ops, otherOps⟩

theorem WholeParts.cons_iff {env : Environment} {literals : List Number}
    {names : List String} {op : MulOp} {operators : List MulOp} :
    WholeParts env literals names (op :: operators) ↔
      op = .mul ∧ WholeParts env literals names operators := by
  constructor
  · rintro ⟨numbers, bound, ops⟩
    obtain ⟨here, later⟩ := List.forall_mem_cons.mp ops
    exact ⟨here, numbers, bound, later⟩
  · rintro ⟨here, numbers, bound, later⟩
    exact ⟨numbers, bound, List.forall_mem_cons.mpr ⟨here, later⟩⟩

theorem Term.whole_extend {env : Environment} {before : Term} {op : MulOp} {sign : Sign}
    {factor : Factor} :
    (before.extend op sign factor).Whole env ↔ before.Whole env ∧ op = .mul ∧ factor.Whole env :=
  WholeParts.append_iff.trans (and_congr_right fun _ => WholeParts.cons_iff)

theorem Expr.whole_extend {env : Environment} {before : Expr} {op : AddOp} {term : Term} :
    (before.extend op term).Whole env ↔ before.Whole env ∧ term.Whole env :=
  WholeParts.append_iff

mutual

theorem Factor.follows {env : Environment} :
    (f : Factor) → f.Whole env → ∃ v, f.eval env = .ok v ∧
      v.Follows (AllFit (f.passed env)) (f.exact env)
  | .number value, whole => by
    have int : value.IsInt := whole.literals value List.mem_cons_self
    cases value with
    | int n => exact ⟨.int n, rfl, by simp [Factor.passed], rfl⟩
    | float x => cases int
  | .group inner, whole => inner.follows whole
  | .variable name, whole => by
    obtain ⟨n, bound⟩ := whole.names name List.mem_cons_self
    refine ⟨.int n, ?_, by simp [Factor.passed], ?_⟩
    · rw [Factor.eval, Environment.lookup, bound]
    · rw [Factor.exact, bound]
      rfl

theorem Term.follows {env : Environment} :
    (t : Term) → t.Whole env → ∃ v, t.eval env = .ok v ∧
      v.Follows (AllFit (t.passed env)) (t.exact env)
  | .lead first, whole => by
    obtain ⟨v, value, follows⟩ := first.follows whole
    exact ⟨v, value, follows.and_fits.congr (by simp [Term.passed])⟩
  | .extend before op sign factor, whole => by
    obtain ⟨wholeBefore, rfl, wholeFactor⟩ := Term.whole_extend.mp whole
    obtain ⟨v, valueBefore, followsBefore⟩ := before.follows wholeBefore
    obtain ⟨w, valueFactor, followsFactor⟩ := factor.follows wholeFactor
    refine ⟨v * sign.apply w, ?_, ?_⟩
    · rw [Term.eval, valueBefore, valueFactor]
      rfl
    · have product := followsBefore.combine Number.computes_mul (followsFactor.signed sign)
      exact product.congr (by simp [Term.passed, Term.exact, and_assoc])

/-- A whole expression has a value: the exact one if every value on the way fits, and a double
otherwise. -/
theorem Expr.follows {env : Environment} :
    (e : Expr) → e.Whole env → ∃ v, e.eval env = .ok v ∧
      v.Follows (AllFit (e.passed env)) (e.exact env)
  | .lead sign first, whole => by
    obtain ⟨v, value, follows⟩ := first.follows whole
    refine ⟨sign.apply v, ?_, ?_⟩
    · rw [Expr.eval, value]
      rfl
    · exact (follows.signed sign).congr (by simp [Expr.passed])
  | .extend before op term, whole => by
    obtain ⟨wholeBefore, wholeTerm⟩ := Expr.whole_extend.mp whole
    obtain ⟨v, valueBefore, followsBefore⟩ := before.follows wholeBefore
    obtain ⟨w, valueTerm, followsTerm⟩ := term.follows wholeTerm
    refine ⟨op.apply v w, ?_, ?_⟩
    · rw [Expr.eval, valueBefore, valueTerm]
      rfl
    · have sum := followsBefore.combine (Number.computes_apply op) followsTerm
      exact sum.congr (by simp [Expr.passed, Expr.exact])

end

/-! ## Integers come from whole expressions -/

mutual

theorem Factor.whole_of_eval {env : Environment} :
    (f : Factor) → {v : Number} → f.eval env = .ok v → v.IsInt → f.Whole env
  | .number value, v, given, int => by
    cases given
    exact ⟨by simp [Factor.literals, int], by simp [Factor.variables], by simp [Factor.operators]⟩
  | .group inner, _, given, int => inner.whole_of_eval given int
  | .variable name, v, given, int => by
    rw [Factor.eval, Environment.lookup] at given
    split at given
    · next value bound =>
      cases given
      cases v with
      | int n =>
        exact ⟨by simp [Factor.literals], by simp [Factor.variables, bound],
          by simp [Factor.operators]⟩
      | float x => cases int
    · cases given

theorem Term.whole_of_eval {env : Environment} :
    (t : Term) → {v : Number} → t.eval env = .ok v → v.IsInt → t.Whole env
  | .lead first, _, given, int => first.whole_of_eval given int
  | .extend before op sign factor, .int n, given, _ => by
    simp only [Term.eval, bind_eq_ok_iff] at given
    obtain ⟨a, first, b, second, result⟩ := given
    obtain ⟨product, left, right⟩ := Number.isInt_of_mulOp result
    exact Term.whole_extend.mpr ⟨before.whole_of_eval first left, product,
      factor.whole_of_eval second (Number.isInt_of_signed right)⟩

/-- An integer comes from integers, through sums, differences and products. -/
theorem Expr.whole_of_eval {env : Environment} :
    (e : Expr) → {v : Number} → e.eval env = .ok v → v.IsInt → e.Whole env
  | .lead sign first, _, given, int => by
    simp only [Expr.eval, bind_eq_ok_iff] at given
    obtain ⟨a, value, result⟩ := given
    cases result
    exact first.whole_of_eval value (Number.isInt_of_signed int)
  | .extend before op term, .int n, given, _ => by
    simp only [Expr.eval, bind_eq_ok_iff] at given
    obtain ⟨a, first, b, second, result⟩ := given
    obtain ⟨left, right⟩ := (Number.computes_apply op).isInt (Except.ok.inj result)
    exact Expr.whole_extend.mpr ⟨before.whole_of_eval first left, term.whole_of_eval second right⟩

end

/-- An expression gives an integer exactly if it is whole and every value on the way fits into 64
bits, and the integer is then the exact value. A whole expression always has a value, and it is a
double if some value on the way does not fit. -/
theorem Expr.eval_eq_int_iff (env : Environment) (e : Expr) :
    (∀ n, e.eval env = .ok (.int n) ↔
      e.Whole env ∧ AllFit (e.passed env) ∧ n.toInt = e.exact env) ∧
    (e.Whole env → AllFit (e.passed env) → ∃ n, e.eval env = .ok (.int n)) ∧
    (e.Whole env → ¬ AllFit (e.passed env) → ∃ x, e.eval env = .ok (.float x)) := by
  refine ⟨?_, ?_, ?_⟩
  · intro n
    constructor
    · intro given
      have whole : e.Whole env := e.whole_of_eval given trivial
      obtain ⟨v, value, follows⟩ := e.follows whole
      rw [given] at value
      cases value
      exact ⟨whole, follows⟩
    · rintro ⟨whole, fitted, exact⟩
      obtain ⟨v, value, follows⟩ := e.follows whole
      cases v with
      | int m =>
        rw [value, Int64.toInt_inj.mp (follows.2.trans exact.symm)]
      | float x => exact absurd fitted follows
  · intro whole fitted
    obtain ⟨v, value, follows⟩ := e.follows whole
    cases v with
    | int m => exact ⟨m, value⟩
    | float x => exact absurd fitted follows
  · intro whole overflow
    obtain ⟨v, value, follows⟩ := e.follows whole
    cases v with
    | int m => exact absurd follows.1 overflow
    | float x => exact ⟨x, value⟩

/-- The largest integer, and two steps of one there and back. -/
private def thereAndBack (there back : AddOp) : Expr :=
  ((Expr.ofFactor (.number (.int .maxValue))).extend there (.lead (.number (.int 1)))).extend back
    (.lead (.number (.int 1)))

theorem whole_thereAndBack (there back : AddOp) : (thereAndBack there back).Whole .initial := by
  have largest : (Expr.ofFactor (.number (.int .maxValue))).Whole .initial :=
    Expr.whole_of_eval _ rfl trivial
  have one : (Term.lead (.number (.int 1))).Whole .initial := Term.whole_of_eval _ rfl trivial
  exact Expr.whole_extend.mpr ⟨Expr.whole_extend.mpr ⟨largest, one⟩, one⟩

-- Both ways end at the largest integer, but one of them leaves the 64 bits.
theorem Expr.eval_eq_int_iff_thereAndBack :
    (thereAndBack .sub .add).Whole .initial ∧ AllFit ((thereAndBack .sub .add).passed .initial) ∧
    (thereAndBack .sub .add).eval .initial = .ok (.int .maxValue) ∧
    (thereAndBack .add .sub).Whole .initial ∧ ¬ AllFit ((thereAndBack .add .sub).passed .initial) ∧
    (thereAndBack .add .sub).exact .initial = Int64.maxValue.toInt ∧
    ∃ x, (thereAndBack .add .sub).eval .initial = .ok (.float x) := by
  have inside : AllFit ((thereAndBack .sub .add).passed .initial) := by decide
  have outside : ¬ AllFit ((thereAndBack .add .sub).passed .initial) := by decide
  refine ⟨whole_thereAndBack _ _, inside, ?_, whole_thereAndBack _ _, outside, by decide, ?_⟩
  · exact ((eval_eq_int_iff .initial (thereAndBack .sub .add)).1 _).mpr
      ⟨whole_thereAndBack _ _, inside, by decide⟩
  · exact (eval_eq_int_iff .initial (thereAndBack .add .sub)).2.2 (whole_thereAndBack _ _) outside

end BlockCalc
