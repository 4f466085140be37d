import Polish.Number
import Polish.Tensor.Array

set_option autoImplicit false

namespace Polish

inductive ElementType where
  | int32
  | float32
deriving DecidableEq, Repr

def ElementType.name : ElementType → String
  | .int32 => "int32"
  | .float32 => "float32"

inductive Tensor where
  | words (array : NDArray Int32)
  | singles (array : NDArray Single)
deriving DecidableEq

inductive TensorError where
  /-- An integer does not fit 32 bits. -/
  | outOfRange
  /-- An operation has the wrong operands: their number, their shapes, or their kind. -/
  | badOperands
  /-- Arrays cannot be brought together in one, or axes do not fit them. -/
  | badShapes
  /-- An argument is named more than once. -/
  | repeated
deriving DecidableEq, Repr

namespace Tensor

def shape : Tensor → Shape
  | .words a => a.shape
  | .singles a => a.shape

def elementType : Tensor → ElementType
  | .words _ => .int32
  | .singles _ => .float32

def singleOfWord (w : Int32) : Single := .ofInt .single w.toInt

def toSingles : Tensor → NDArray Single
  | .words a => a.map singleOfWord
  | .singles a => a

def singleOf (n : Scalar) : Single := n.number.toDouble.convert .single

/-- The word that holds an integer, if it fits. -/
def word? (n : Int) : Option Int32 :=
  if -2 ^ (31 : Nat) ≤ n ∧ n < 2 ^ (31 : Nat) then some (Int32.ofInt n) else none

def wordOf (n : Int) : Except TensorError Int32 :=
  match word? n with
  | some w => .ok w
  | none => .error .outOfRange

/-- A number as an array without axes: integers become words, doubles are rounded. -/
def ofScalar : Scalar → Except TensorError Tensor
  | .integer n => (wordOf n).map fun w => .words (.scalar w)
  | .double d => .ok (.singles (.scalar (singleOf (.double d))))

def wordOfScalar? : Scalar → Option Int32
  | .integer n => word? n
  | .double _ => none

/-- Numbers in an array: words if all are integers and there is one, else single precision. Integers
have to fit words, or the range of doubles. -/
def ofScalars (numbers : NDArray Scalar) : Except TensorError Tensor :=
  if !numbers.entries.isEmpty && numbers.entries.all (·.number.integer?.isSome) then
    if numbers.entries.all fun n => (wordOfScalar? n).isSome then
      .ok (.words (numbers.map fun n => (wordOfScalar? n).getD 0))
    else .error .outOfRange
  else if numbers.entries.any fun n => n.number.integer?.isSome && n.number.toDouble.isInfinite then
    .error .outOfRange
  else .ok (.singles (numbers.map singleOf))

def slice (t : Tensor) (axis index : Nat) : Tensor :=
  match t with
  | .words a => .words (a.slice axis index)
  | .singles a => .singles (a.slice axis index)

def stack (type : ElementType) (shape : Shape) (axis : Nat) (tensors : List Tensor) : Tensor :=
  match type with
  | .int32 =>
      .words (NDArray.stack shape axis (tensors.filterMap fun
        | .words a => some a
        | .singles _ => none))
  | .float32 => .singles (NDArray.stack shape axis (tensors.map toSingles))

end Tensor

end Polish
