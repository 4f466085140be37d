import Polish.Expr.Evaluation
import Polish.Proofs.Binary.Bounds
import Polish.Proofs.Expr.Evaluation

/-!
Evaluation over arithmetic that raises. An integer out of range has no double, a quotient by zero
has no value, a power may be out of range; guards catch what they raise. Main statement: as long as
roots of nonnegative numbers do not raise, nothing passes the guards, so evaluation raises just
where it has no value.
-/

set_option autoImplicit false

namespace Polish

inductive Raised where
  /-- A result is out of range. -/
  | overflow
  | zeroDivision
  /-- An operator has another number of arguments. -/
  | wrongCount
  /-- The function of an operator that is not registered raises something of its own. -/
  | custom (exception : String)
  /-- The value of a plain value is asked for. -/
  | noMember
deriving DecidableEq, Repr

/-- Does something else where this is raised. -/
def Raised.caught {α : Type} (raised : Raised) (instead : Except Raised α) :
    Except Raised α → Except Raised α
  | .ok value => .ok value
  | .error other => if other = raised then instead else .error other

def EvaluationError.raised : EvaluationError → Raised
  | .wrongCount => .wrongCount
  | .rootOfNothing => .zeroDivision
  | .custom exception => .custom exception
  | .notAnExpression _ => .noMember

namespace Raising

def ofInteger (n : Int) : Except Raised Double :=
  let d := Binary.ofInt .double n
  if d.isInfinite then .error .overflow else .ok d

/-- The double nearest to an integer; one out of range becomes infinite. -/
def saturated (n : Int) : Except Raised Double :=
  Raised.overflow.caught (.ok (.infinite (if 0 < n then false else true))) (ofInteger n)

def ofNumber : Number → Except Raised Double
  | .integer n => saturated n
  | .truth b => saturated (if b then 1 else 0)
  | .double d => .ok d

def quotient (a b : Double) : Except Raised Double :=
  if b.isZero then .error .zeroDivision else .ok (a / b)

/-- The first number with the sign of the second. -/
def copySign (size sign : Double) : Double :=
  if sign.isNegative then -size.magnitude else size.magnitude

/-- The quotient; by zero it is a NaN, or infinite with the sign of the quotient. -/
def divide (a b : Double) : Except Raised Double :=
  Raised.zeroDivision.caught
    (.ok (if a.isZero || a.isNaN then .nan
      else copySign (.infinite false) a * copySign (.ofInt .double 1) b))
    (quotient a b)

def ratio (m n : Nat) : Except Raised Double :=
  if n = 0 then .error .zeroDivision
  else
    let d := Binary.ofFraction .double false m n
    if d.isInfinite then .error .overflow else .ok d

def onDoubles (power : Double → Double → Except Raised Double) :
    Kernel → List Double → Except Raised Double
  | .add, [a, b] => .ok (a + b)
  | .subtract, [a, b] => .ok (a - b)
  | .multiply, [a, b] => .ok (a * b)
  | .divide, [a, b] => divide a b
  | .negate, [a] => .ok (-a)
  | .meanOfFive, [a, b, c, d, e] => do divide (a + b + c + d + e) (← saturated 5)
  | .medianOfThree, [a, b, c] => .ok (Kernel.median a b c)
  | .arithmeticMean, values => do divide (Binary.sum values) (← saturated values.length)
  | .geometricMean, values => do
      power (Binary.product values).magnitude (← ratio 1 values.length)
  | .harmonicMean, values => do
      let inverses ← values.mapM fun value => do divide (← saturated 1) value
      divide (← saturated values.length) (Binary.sum inverses)
  | .custom function, values => (function values).mapError EvaluationError.raised
  | _, _ => .error .wrongCount

/-- A power of a nonnegative number to an exponent between zero and one does not raise. -/
def Mild (power : Double → Double → Except Raised Double) : Prop :=
  ∀ base exponent : Double, base.isNegative = false → exponent.InUnitInterval →
    power base exponent = .ok (Binary.power base exponent)

theorem ok_bind {α β : Type} (value : α) (next : α → Except Raised β) :
    (Except.ok value >>= next) = next value := rfl

theorem saturated_eq (n : Int) : saturated n = .ok (.ofInt .double n) := by
  rw [saturated, ofInteger]
  rcases Binary.ofInt_cases (f := .double) n with ⟨m, s, canonical, finite⟩ | infinite
  · rw [finite]
    rfl
  · have nonzero : n ≠ 0 := by
      rintro rfl
      rw [Binary.ofInt_zero] at infinite
      cases infinite
    have sign : (if 0 < n then false else true) = decide (n < 0) := by
      split <;> simp <;> omega
    rw [infinite, sign]
    rfl

theorem ofNumber_eq (a : Number) : ofNumber a = .ok a.toDouble := by
  cases a with
  | integer n => exact saturated_eq n
  | truth b => exact saturated_eq _
  | double d => rfl

/-- One with a sign is not zero. -/
theorem copySign_one (b : Double) : ∃ m s canonical, m ≠ 0 ∧
    copySign (.ofInt .double 1) b = .finite b.isNegative m s canonical := by
  obtain ⟨m, s, canonical, nonzero, one⟩ := Binary.ofInt_one Format.wide_double
  refine ⟨m, s, canonical, nonzero, ?_⟩
  rw [copySign, one]
  cases b.isNegative <;> rfl

/-- An infinity with the sign of a quotient by zero. -/
theorem copySign_mul (sign b : Double) :
    copySign (.infinite false) sign * copySign (.ofInt .double 1) b =
      .infinite (sign.isNegative != b.isNegative) := by
  obtain ⟨m, s, canonical, nonzero, one⟩ := copySign_one b
  have product : ∀ negative, (Binary.infinite negative : Double) *
      .finite b.isNegative m s canonical = .infinite (negative != b.isNegative) := fun negative => by
    rw [Binary.mul_eq, Binary.mul, if_neg nonzero]
  rw [one]
  cases below : sign.isNegative with
  | false =>
      rw [copySign, below]
      exact product false
  | true =>
      rw [copySign, below]
      exact product true

theorem div_of_isZero {f : Format} {a b : Binary f} (zero : b.isZero = true) :
    a / b = if a.isZero || a.isNaN then .nan else .infinite (a.isNegative != b.isNegative) := by
  cases b with
  | nan => cases zero
  | infinite negative => cases zero
  | finite negative m s canonical =>
      cases m with
      | succ m => cases zero
      | zero =>
          cases a with
          | finite sign n t canonical' => cases n <;> rfl
          | _ => rfl

/-- What is caught is the value of a quotient by zero. -/
theorem divide_eq (a b : Double) : divide a b = .ok (a / b) := by
  rw [divide, quotient, copySign_mul]
  cases zero : b.isZero with
  | false => rw [if_neg Bool.false_ne_true, Raised.caught]
  | true => rw [if_pos rfl, Raised.caught, if_pos rfl, div_of_isZero zero]

theorem ratio_eq {n : Nat} (positive : 0 < n) :
    ratio 1 n = .ok (.ofFraction .double false 1 n) ∧
      (Binary.ofFraction .double false 1 n).InUnitInterval := by
  have inside := Binary.inUnitInterval_reciprocal Format.wide_double positive
  refine ⟨?_, inside⟩
  obtain ⟨units, finite, _⟩ := inside
  have bounded : (Binary.ofFraction .double false 1 n).isInfinite = false := by
    cases shape : Binary.ofFraction .double false 1 n with
    | infinite negative =>
        rw [shape] at finite
        cases finite
    | _ => rfl
  rw [ratio, if_neg (Nat.ne_of_gt positive)]
  simp only [bounded, Bool.false_eq_true, ↓reduceIte]

theorem isNegative_magnitude (a : Double) : a.magnitude.isNegative = false := by
  cases a <;> rfl

theorem divide_saturated (d : Double) (n : Int) :
    (do divide d (← saturated n)) = .ok (d / .ofInt .double n) := by
  rw [saturated_eq, ok_bind, divide_eq]

theorem mapM_divide (values : List Double) :
    (values.mapM fun value => do divide (← saturated 1) value) =
      .ok (values.map (.ofInt .double 1 / ·)) := by
  simp only [saturated_eq, ok_bind, divide_eq]
  exact List.mapM_pure

theorem harmonicMean_eq (values : List Double) :
    (do
      let inverses ← values.mapM fun value => do divide (← saturated 1) value
      divide (← saturated values.length) (Binary.sum inverses)) =
      .ok (Kernel.harmonicMeanOf values) := by
  rw [mapM_divide, ok_bind, saturated_eq, ok_bind, divide_eq, Kernel.harmonicMeanOf]

/-- The exponent is between zero and one, so the root does not raise. -/
theorem geometricMean_eq {power : Double → Double → Except Raised Double} (mild : Mild power)
    (values : List Double) :
    (do power (Binary.product values).magnitude (← ratio 1 values.length)) =
      (Kernel.geometricMean.onDoubles values).mapError EvaluationError.raised := by
  cases values with
  | nil => rfl
  | cons value values =>
      obtain ⟨exponent, inside⟩ := ratio_eq (Nat.succ_pos values.length)
      rw [List.length_cons, exponent, ok_bind, mild _ _ (isNegative_magnitude _) inside,
        Kernel.onDoubles, Kernel.geometricMeanOf, List.length_cons]
      · rfl
      · simp

/-- No guard lets anything through, so a kernel raises just where it has no value. -/
theorem onDoubles_eq {power : Double → Double → Except Raised Double} (mild : Mild power)
    (kernel : Kernel) (values : List Double) :
    onDoubles power kernel values = (kernel.onDoubles values).mapError EvaluationError.raised := by
  cases kernel with
  | add | subtract | multiply =>
      match values with
      | [a, b] => rfl
      | [] | [_] | _ :: _ :: _ :: _ => rfl
  | divide =>
      match values with
      | [a, b] => exact divide_eq a b
      | [] | [_] | _ :: _ :: _ :: _ => rfl
  | negate =>
      match values with
      | [a] => rfl
      | [] | _ :: _ :: _ => rfl
  | meanOfFive =>
      match values with
      | [a, b, c, d, e] => exact divide_saturated (a + b + c + d + e) 5
      | [] | [_] | [_, _] | [_, _, _] | [_, _, _, _] | _ :: _ :: _ :: _ :: _ :: _ :: _ => rfl
  | medianOfThree =>
      match values with
      | [a, b, c] => rfl
      | [] | [_] | [_, _] | _ :: _ :: _ :: _ :: _ => rfl
  | arithmeticMean => exact divide_saturated (Binary.sum values) values.length
  | geometricMean => exact geometricMean_eq mild values
  | harmonicMean => exact harmonicMean_eq values
  | custom function => rfl

end Raising

def Raising.meaning (power : Double → Double → Except Raised Double) (p : Point Number) :
    Meaning Raised Double where
  constant := ofNumber
  slot v := ofNumber (p.get v)
  operator op values := onDoubles power op.kernel values
  foreign _ := .noMember

namespace Expr

variable {power : Double → Double → Except Raised Double}

def evaluateRaising (power : Double → Double → Except Raised Double) (p : Point Number) (e : Expr) :
    Except Raised Double :=
  e.evaluateWith (Raising.meaning power p)

/-- Evaluation raises just where there is no value, and what it raises tells why. -/
theorem evaluateRaising_eq (mild : Raising.Mild power) (p : Point Number) (e : Expr) :
    e.evaluateRaising power p = (e.evaluate p).mapError EvaluationError.raised := by
  have carries : (Meaning.doubles p).Carries EvaluationError.raised id (Raising.meaning power p) := by
    refine ⟨Raising.ofNumber_eq, fun v => Raising.ofNumber_eq (p.get v), fun op values => ?_,
      fun _ => rfl⟩
    rw [List.map_id]
    refine (Raising.onDoubles_eq mild op.kernel values).trans ?_
    simp only [Meaning.doubles]
    cases op.kernel.onDoubles values <;> rfl
  rw [evaluateRaising, evaluateWith_carry carries, ← evaluate]
  cases e.evaluate p <;> rfl

end Expr

end Polish
