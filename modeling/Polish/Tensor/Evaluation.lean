import Polish.Graph.Basic
import Polish.Tensor.Kernels

set_option autoImplicit false

namespace Polish

/-- An argument as it is given: a number, or an array. -/
inductive Argument where
  | number (value : Scalar)
  | array (values : Tensor)
deriving DecidableEq

def Argument.tensor : Argument → Except TensorError Tensor
  | .number n => Tensor.ofScalar n
  | .array values => .ok values

inductive RunError where
  | tensor (error : TensorError)
  | unknownKernel (symbol : String)
  | unknownArgument (name : Option String)
  | dangling
  | wrongCount (expected given : Nat)
deriving DecidableEq, Repr

namespace Tensor

def lift {α : Type} : Except TensorError α → Except RunError α
  | .ok value => .ok value
  | .error error => .error (.tensor error)

def bound? {α : Type} (names : List String) (values : List α) (name : Option String) : Option α :=
  do (names.zip values).reverse.lookup (← name)

/-- Graphs on arrays: constants are numbers, kernels those of the operators. -/
def interpretation (argument? : Option String → Option (Except TensorError Tensor)) :
    Interpretation RunError Tensor where
  constant n := lift (ofScalar n)
  argument name :=
    match argument? name with
    | some value => lift value
    | none => .error (.unknownArgument name)
  kernel symbol :=
    match Operator.ofSymbol? symbol with
    | some op => .ok fun tensors => lift (ofKernel op.kernel tensors)
    | none => .error (.unknownKernel symbol)
  dangling := .dangling

/-- Graphs on arguments bound to names. -/
def onArguments (names : List String) (arguments : List Argument) :
    Interpretation RunError Tensor :=
  interpretation fun name => (bound? names arguments name).map Argument.tensor

end Tensor

namespace Graph

/-- The value of a graph whose arguments have the given names. -/
def evaluateOn (g : Graph) (names : List String) (arguments : List Argument) :
    Except RunError Tensor :=
  if arguments.length = names.length then g.evaluate (Tensor.onArguments names arguments)
  else .error (.wrongCount names.length arguments.length)

def call (g : Graph) (arguments : List Argument) : Except RunError Tensor :=
  g.evaluateOn argumentNames arguments

def callTensors (g : Graph) (arguments : List Argument) :
    Except RunError (List Tensor × Tensor) := do
  let tensors ← arguments.mapM fun a => Tensor.lift a.tensor
  return (tensors, ← g.call arguments)

/-- The value of a graph once all its arguments are converted. -/
def callStrict (g : Graph) (arguments : List Argument) : Except RunError Tensor := do
  return (← g.callTensors arguments).2

def typeOf (t : Tensor) : ElementType × Shape := (t.elementType, t.shape)

def trace (g : Graph) (arguments : List Argument) :
    Except RunError (List (ElementType × Shape) × (ElementType × Shape)) := do
  let (tensors, value) ← g.callTensors arguments
  return (tensors.map typeOf, typeOf value)

end Graph

end Polish
