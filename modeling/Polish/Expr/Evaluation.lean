import Polish.Expr.Basic

set_option autoImplicit false

namespace Polish

namespace Kernel

def median (a b c : Double) : Double :=
  Binary.greater (Binary.lesser a c) (Binary.greater (Binary.lesser a b) (Binary.lesser b c))

def arithmeticMeanOf (values : List Double) : Double :=
  Binary.sum values / .ofInt .double values.length

def geometricMeanOf (values : List Double) : Double :=
  Binary.power (Binary.product values).magnitude (.ofFraction .double false 1 values.length)

def harmonicMeanOf (values : List Double) : Double :=
  .ofInt .double values.length / Binary.sum (values.map (.ofInt .double 1 / ·))

/-- What an operator computes from the values of its arguments. -/
def onDoubles : Kernel → List Double → Except EvaluationError Double
  | .add, [a, b] => .ok (a + b)
  | .subtract, [a, b] => .ok (a - b)
  | .multiply, [a, b] => .ok (a * b)
  | .divide, [a, b] => .ok (a / b)
  | .negate, [a] => .ok (-a)
  | .meanOfFive, [a, b, c, d, e] => .ok ((a + b + c + d + e) / .ofInt .double 5)
  | .medianOfThree, [a, b, c] => .ok (median a b c)
  | .arithmeticMean, values => .ok (arithmeticMeanOf values)
  | .geometricMean, [] => .error .rootOfNothing
  | .geometricMean, values => .ok (geometricMeanOf values)
  | .harmonicMean, values => .ok (harmonicMeanOf values)
  | .custom function, values => function values
  | _, _ => .error .wrongCount

end Kernel

/-- What the parts of an expression mean among the values `α`. -/
structure Meaning (ε α : Type) where
  constant : Number → Except ε α
  slot : Variable → Except ε α
  operator : Operator → List α → Except ε α
  /-- The error of a plain value that stands where an expression should. -/
  foreign : Datum → ε

/-- The variables hold the values of a point, converted where they are asked for. -/
def Meaning.at {ε α β : Type} (M : Meaning ε β) (convert : α → Except ε β) (p : Point α) :
    Meaning ε β :=
  { M with slot := fun v => convert (p.get v) }

def Meaning.doubles (p : Point Number) : Meaning EvaluationError Double where
  constant value := .ok value.toDouble
  slot v := .ok (p.get v).toDouble
  operator op values := op.kernel.onDoubles values
  foreign value := .notAnExpression value.kindName

namespace Expr

section

variable {ε α : Type}

mutual

/-- The value of an expression. Arguments are evaluated from the left before the operator is
applied, so the error is the first one met in that order. -/
def evaluateWith (M : Meaning ε α) : Expr → Except ε α
  | .const value => M.constant value
  | .var v => M.slot v
  | .apply op args => do
      let values ← evaluateListWith M args
      M.operator op values
  | .foreign value => .error (M.foreign value)

def evaluateListWith (M : Meaning ε α) : List Expr → Except ε (List α)
  | [] => .ok []
  | e :: es => do
      let value ← evaluateWith M e
      let values ← evaluateListWith M es
      return value :: values

end

end

def evaluate (p : Point Number) (e : Expr) : Except EvaluationError Double :=
  e.evaluateWith (.doubles p)

end Expr

end Polish
