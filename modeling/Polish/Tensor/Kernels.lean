import Polish.Operator
import Polish.Tensor.Basic

set_option autoImplicit false

namespace Polish

/-- The power of two single-precision numbers, taken in doubles and rounded. -/
def Binary.powerSingle (base exponent : Single) : Single :=
  (Binary.power (base.convert .double) (exponent.convert .double)).convert .single

namespace Tensor

/-- Combines two arrays entry by entry, as words if both hold words. -/
def combine (onWords : Int32 → Int32 → Int32) (onSingles : Single → Single → Single)
    (a b : Tensor) : Except TensorError Tensor :=
  let result :=
    match a, b with
    | .words x, .words y => (x.zipWith? onWords y).map Tensor.words
    | _, _ => (a.toSingles.zipWith? onSingles b.toSingles).map Tensor.singles
  match result with
  | some t => .ok t
  | none => .error .badOperands

def add : Tensor → Tensor → Except TensorError Tensor := combine (· + ·) (· + ·)
def subtract : Tensor → Tensor → Except TensorError Tensor := combine (· - ·) (· - ·)
def multiply : Tensor → Tensor → Except TensorError Tensor := combine (· * ·) (· * ·)

def divide (a b : Tensor) : Except TensorError Tensor :=
  match a.toSingles.zipWith? (· / ·) b.toSingles with
  | some t => .ok (.singles t)
  | none => .error .badOperands

def negate : Tensor → Tensor
  | .words a => .words (a.map fun w => -w)
  | .singles a => .singles (a.map fun x => -x)

def wordMinimum (a b : Int32) : Int32 := if b < a then b else a
def wordMaximum (a b : Int32) : Int32 := if a < b then b else a

/-- The least of two, a NaN if one is; of two zeros the negative one. -/
def singleMinimum (a b : Single) : Single :=
  if a.isNaN || b.isNaN then .nan
  else if b.lt a then b
  else if a.lt b then a
  else if b.isNegative then b else a

/-- The greatest of two, a NaN if one is; of two zeros the positive one. -/
def singleMaximum (a b : Single) : Single :=
  if a.isNaN || b.isNaN then .nan
  else if a.lt b then b
  else if b.lt a then a
  else if a.isNegative then b else a

def minimum : Tensor → Tensor → Except TensorError Tensor := combine wordMinimum singleMinimum
def maximum : Tensor → Tensor → Except TensorError Tensor := combine wordMaximum singleMaximum

def median (a b c : Tensor) : Except TensorError Tensor := do
  let outer ← minimum a c
  let first ← minimum a b
  let second ← minimum b c
  maximum outer (← maximum first second)

/-- The size of a word; the least word has none and stays as it is. -/
def wordMagnitude (w : Int32) : Int32 := if w < 0 then -w else w

def magnitude : Tensor → Tensor
  | .words a => .words (a.map wordMagnitude)
  | .singles a => .singles (a.map Binary.magnitude)

def constant (x : Single) : Tensor := .singles (.scalar x)

def singleOfCount (n : Nat) : Single := .ofInt .single n

def allWords? (tensors : List Tensor) : Option (List (NDArray Int32)) :=
  tensors.mapM fun
    | .words a => some a
    | .singles _ => none

/-- Folds at least one array entry by entry in their common shape. -/
def reduce (onWords : Int32 → Int32 → Int32) (firstWord : Int32)
    (onSingles : Single → Single → Single) (firstSingle : Single) (tensors : List Tensor) :
    Except TensorError Tensor :=
  if tensors.isEmpty then .error .badShapes
  else
    let result :=
      match allWords? tensors with
      | some arrays =>
          (NDArray.align? arrays).map fun (shape, aligned) =>
            Tensor.words (NDArray.fold onWords firstWord shape aligned)
      | none =>
          (NDArray.align? (tensors.map toSingles)).map fun (shape, aligned) =>
            Tensor.singles (NDArray.fold onSingles firstSingle shape aligned)
    match result with
    | some t => .ok t
    | none => .error .badShapes

def sum (tensors : List Tensor) : Except TensorError Tensor :=
  reduce (· + ·) 0 (· + ·) (.zero false) tensors

def product (tensors : List Tensor) : Except TensorError Tensor :=
  reduce (· * ·) 1 (· * ·) (singleOfCount 1) tensors

def arithmeticMean (tensors : List Tensor) : Except TensorError Tensor := do
  divide (← sum tensors) (constant (singleOfCount tensors.length))

def rootExponent (count : Nat) : Single :=
  (Binary.ofFraction .double false 1 count).convert .single

def geometricMean (tensors : List Tensor) : Except TensorError Tensor := do
  let size := (← product tensors).magnitude
  return .singles (size.toSingles.map (Binary.powerSingle · (rootExponent tensors.length)))

def reciprocal (t : Tensor) : Tensor := .singles (t.toSingles.map (singleOfCount 1 / ·))

def harmonicMean (tensors : List Tensor) : Except TensorError Tensor := do
  divide (constant (singleOfCount tensors.length)) (← sum (tensors.map reciprocal))

def meanOfFive (a b c d e : Tensor) : Except TensorError Tensor := do
  divide (← add (← add (← add (← add a b) c) d) e) (constant (singleOfCount 5))

def ofKernel : Kernel → List Tensor → Except TensorError Tensor
  | .add, [a, b] => add a b
  | .subtract, [a, b] => subtract a b
  | .multiply, [a, b] => multiply a b
  | .divide, [a, b] => divide a b
  | .negate, [a] => .ok (negate a)
  | .meanOfFive, [a, b, c, d, e] => meanOfFive a b c d e
  | .medianOfThree, [a, b, c] => median a b c
  | .arithmeticMean, tensors => arithmeticMean tensors
  | .geometricMean, tensors => geometricMean tensors
  | .harmonicMean, tensors => harmonicMean tensors
  | _, _ => .error .badOperands

end Tensor

end Polish
