import Polish.Expr.Evaluation

/-!
What variables are bound to on the command line.

A flag for a number may be given none at all; it then holds the list without elements. Such lists
are values of their own: they can be added to each other and compared with each other, and all else
that meets one is an error. On numbers alone operators compute what they always do.
-/

set_option autoImplicit false

namespace Polish.CommandLine

/-- A number, or the list without elements. -/
inductive Operand where
  | number (value : Double)
  | emptyList
deriving DecidableEq

/-- The kinds of values that errors speak of; counts are integers. -/
inductive OperandKind where
  | integer
  | number
  | list
deriving DecidableEq, Repr

def OperandKind.name : OperandKind → String
  | .integer => "int"
  | .number => "float"
  | .list => "list"

inductive OperandError where
  /-- An operator is not defined between values of these kinds. -/
  | unsupported (symbol : String) (left right : OperandKind)
  /-- Only a list can be put behind a list. -/
  | notJoined (right : OperandKind)
  /-- A list can be repeated only a whole number of times. -/
  | notRepeated (times : OperandKind)
  | noNegative
  | noMagnitude
  /-- Values of these kinds have no order. -/
  | notOrdered (symbol : String) (left right : OperandKind)
  /-- The expression itself has no value. -/
  | evaluation (error : EvaluationError)
deriving DecidableEq, Repr

def OperandError.message : OperandError → String
  | .unsupported symbol left right =>
      "unsupported operand type(s) for " ++ symbol ++ ": '" ++ left.name ++ "' and '" ++
        right.name ++ "'"
  | .notJoined right => "can only concatenate list (not \"" ++ right.name ++ "\") to list"
  | .notRepeated times => "can't multiply sequence by non-int of type '" ++ times.name ++ "'"
  | .noNegative => "bad operand type for unary -: 'list'"
  | .noMagnitude => "bad operand type for abs(): 'list'"
  | .notOrdered symbol left right =>
      "'" ++ symbol ++ "' not supported between instances of '" ++ left.name ++ "' and '" ++
        right.name ++ "'"
  | .evaluation _ => "the expression has no value"

namespace Operand

def kind : Operand → OperandKind
  | .number _ => .number
  | .emptyList => .list

def text : Operand → String
  | .number d => Layout.plain.text d
  | .emptyList => "[]"

def number? : Operand → Option Double
  | .number d => some d
  | .emptyList => none

def onNumbers (symbol : String) (operation : Double → Double → Double) (a b : Operand) :
    Except OperandError Operand :=
  match a, b with
  | .number x, .number y => .ok (.number (operation x y))
  | _, _ => .error (.unsupported symbol a.kind b.kind)

/-- The sum of numbers; of lists, the two behind each other. -/
def add : Operand → Operand → Except OperandError Operand
  | .emptyList, .emptyList => .ok .emptyList
  | .emptyList, .number _ => .error (.notJoined .number)
  | a, b => onNumbers "+" (· + ·) a b

/-- The product of numbers; a list is not repeated by a value that is no integer. -/
def multiply : Operand → Operand → Except OperandError Operand
  | .number x, .number y => .ok (.number (x * y))
  | .emptyList, b => .error (.notRepeated b.kind)
  | .number _, .emptyList => .error (.notRepeated .number)

def divide : Operand → Operand → Except OperandError Operand := onNumbers "/" (· / ·)

/-- Whether the first value is less. Lists without elements are equal, and not less. -/
def less (symbol : String) (order : Double → Double → Bool) (a b : Operand) :
    Except OperandError Bool :=
  match a, b with
  | .number x, .number y => .ok (order x y)
  | .emptyList, .emptyList => .ok false
  | _, _ => .error (.notOrdered symbol a.kind b.kind)

def lesser (a b : Operand) : Except OperandError Operand := do
  return if ← less "<" Binary.lt a b then a else b

def greater (a b : Operand) : Except OperandError Operand := do
  return if ← less ">" (fun x y => Binary.lt y x) a b then a else b

def median (a b c : Operand) : Except OperandError Operand := do
  let outer ← lesser a c
  let first ← lesser a b
  let second ← lesser b c
  greater outer (← greater first second)

/-- The sum from the left, which starts with an integer. -/
def total : List Operand → Except OperandError Operand
  | [] => .ok (.number (.zero false))
  | .emptyList :: _ => .error (.unsupported "+" .integer .list)
  | value :: values => values.foldlM add value

/-- The magnitude of the product from the left; once nothing is repeated by one. -/
def magnitudeOfProduct : List Operand → Except OperandError Operand
  | [] => .ok (.number (.ofInt .double 1))
  | value :: values => do
      match ← values.foldlM multiply value with
      | .number d => return .number d.magnitude
      | .emptyList => throw .noMagnitude

/-- What an operator computes from values of which not all are numbers, or the first error. -/
def ofMixed : Kernel → List Operand → Except OperandError Operand
  | .add, [a, b] => add a b
  | .subtract, [a, b] => onNumbers "-" (· - ·) a b
  | .multiply, [a, b] => multiply a b
  | .divide, [a, b] => divide a b
  | .negate, [.emptyList] => .error .noNegative
  | .medianOfThree, [a, b, c] => median a b c
  | .meanOfFive, a :: others => do divide (← others.foldlM add a) (.number (.ofInt .double 5))
  | .arithmeticMean, values => do
      divide (← total values) (.number (.ofInt .double values.length))
  | .geometricMean, values => magnitudeOfProduct values
  | .harmonicMean, values => do
      let reciprocals ← values.mapM (divide (.number (.ofInt .double 1)))
      divide (.number (.ofInt .double values.length)) (← total reciprocals)
  | _, _ => .error (.evaluation .wrongCount)

def ofKernel (kernel : Kernel) (values : List Operand) : Except OperandError Operand :=
  match values.mapM number? with
  | some numbers =>
      match kernel.onDoubles numbers with
      | .ok value => .ok (.number value)
      | .error error => .error (.evaluation error)
  | none => ofMixed kernel values

end Operand

def Operand.meaning (bound : Point Operand) : Meaning OperandError Operand where
  constant value := .ok (.number value.toDouble)
  slot v := .ok (bound.get v)
  operator op values := ofKernel op.kernel values
  foreign value := .evaluation (.notAnExpression value.kindName)

def valueAt (bound : Point Operand) (e : Expr) : Except OperandError Operand :=
  e.evaluateWith (Operand.meaning bound)

end Polish.CommandLine
