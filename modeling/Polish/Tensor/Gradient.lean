import Polish.Axes
import Polish.Tensor.Evaluation

set_option autoImplicit false

namespace Polish

namespace Kernel

def inverseSquare (x : Single) : Single := Tensor.singleOfCount 1 / (x * x)

/-- The part of a derivative that goes to an input of a minimum or maximum: ties are halved. -/
def share (input result other : Single) : Single :=
  let mine := Tensor.singleOfCount (if input.same result then 1 else 0)
  let sides := Tensor.singleOfCount (if other.same result then 2 else 1)
  mine / sides

def sign (x : Single) : Single :=
  if x.isNaN || x.isZero then x
  else if x.isNegative then -Tensor.singleOfCount 1 else Tensor.singleOfCount 1

/-- What a quotient passes on to its divisor. -/
def toDivisor (g dividend divisor : Single) : Single := -g * dividend * inverseSquare divisor

def productsOfOthers (values : List Single) : List Single :=
  (List.range values.length).map fun i => Binary.product (values.eraseIdx i)

/-- What a median passes on, back through its four minima and maxima. -/
def medianShares (g a b c : Single) : List Single :=
  let outer := Tensor.singleMinimum a c
  let first := Tensor.singleMinimum a b
  let second := Tensor.singleMinimum b c
  let inner := Tensor.singleMaximum first second
  let result := Tensor.singleMaximum outer inner
  let gOuter := g * share outer result inner
  let gInner := g * share inner result outer
  let gFirst := gInner * share first inner second
  let gSecond := gInner * share second inner first
  [ gOuter * share a outer c + gFirst * share a first b,
    gFirst * share b first a + gSecond * share b second c,
    gOuter * share c outer a + gSecond * share c second b ]

/-- What a geometric mean passes on: the root, the magnitude and the product in turn. -/
def geometricShares (g : Single) (values : List Single) : List Single :=
  let product := Binary.product values
  let exponent := Tensor.rootExponent values.length
  let power := Binary.powerSingle product.magnitude (exponent - Tensor.singleOfCount 1)
  let toProduct := g * (exponent * power) * sign product
  (productsOfOthers values).map (toProduct * ·)

/-- What a harmonic mean passes on: the quotient, the sum and the reciprocals in turn. -/
def harmonicShares (g : Single) (values : List Single) : List Single :=
  let one := Tensor.singleOfCount 1
  let total := Binary.sum (values.map (one / ·))
  let toSum := toDivisor g (Tensor.singleOfCount values.length) total
  values.map fun v => toDivisor toSum one v

/-- What an operator passes on to its inputs when `g` is the derivative by its value. -/
def shares (g : Single) : Kernel → List Single → List Single
  | .add, _ => [g, g]
  | .subtract, _ => [g, -g]
  | .multiply, [a, b] => [g * b, a * g]
  | .divide, [a, b] => [g / b, toDivisor g a b]
  | .negate, _ => [-g]
  | .meanOfFive, values => values.map fun _ => g / Tensor.singleOfCount 5
  | .medianOfThree, [a, b, c] => medianShares g a b c
  | .arithmeticMean, values => values.map fun _ => g / Tensor.singleOfCount values.length
  | .geometricMean, values => geometricShares g values
  | .harmonicMean, values => harmonicShares g values
  | _, _ => []

end Kernel

namespace Graph

def accumulate (derivatives : List Single) (parts : List (Nat × Single)) : List Single :=
  parts.foldl (fun all (i, part) => all.modify i (· + part)) derivatives

/-- Passes the derivative of one node on to its inputs. -/
def passOn (values : List Single) (node : Node) (derivatives : List Single) : List Single :=
  match node.instruction with
  | .kernel symbol inputs =>
      match Operator.ofSymbol? symbol with
      | some op =>
          let g := derivatives.getD node.id (.zero false)
          let operands := inputs.map fun i => values.getD i (.zero false)
          accumulate derivatives (inputs.zip (op.kernel.shares g operands))
      | none => derivatives
  | _ => derivatives

/-- The derivatives of the output by all nodes, given their values. -/
def derivatives (g : Graph) (values : List Single) : List Single :=
  let start := (List.replicate g.nodes.length (Binary.zero false)).set g.output
    (Tensor.singleOfCount 1)
  g.nodes.foldr (passOn values) start

/-- The derivative of the output by an argument; zero for one that no node asks for. -/
def derivativeBy (g : Graph) (all : List Single) (name : String) : Single :=
  match g.nodes.find? (·.instruction == .argument (some name)) with
  | some node => all.getD node.id (.zero false)
  | none => .zero false

/-- The places of the arguments that indices mean among `count`. That there are so many arguments
is seen before negative indices are counted from the last one. -/
def places (count : Nat) (indices : List Int) : Except TensorError (List Nat) :=
  if indices.isEmpty then .error .badShapes
  else if indices.any (count ≤ ·) then .error .badOperands
  else
    match indices.mapM (Shape.axis? count) with
    | some found => .ok found
    | none => .error .badShapes

def differentiable (arguments : List Argument) (place : Nat) :
    Except TensorError (String × Shape) := do
  let some name := argumentNames[place]? | throw .badOperands
  let some argument := arguments[place]? | throw .badOperands
  match ← argument.tensor with
  | .singles a => return (name, a.shape)
  | .words _ => throw .badOperands

/-- The derivatives by some arguments of a graph whose value is a single-precision number. -/
def gradients (g : Graph) (indices : List Int) (arguments : List Argument) :
    Except RunError (List Tensor) := do
  let found ← Tensor.lift (places arguments.length indices)
  let chosen ← found.mapM fun place => Tensor.lift (differentiable arguments place)
  if found.eraseDups.length ≠ found.length then throw (.tensor .repeated)
  if arguments.length ≠ argumentNames.length then
    throw (.wrongCount argumentNames.length arguments.length)
  let values ← run (Tensor.onArguments argumentNames arguments) [] g.nodes
  match values[g.output]? with
  | some (.singles ⟨[], _, _⟩) =>
      let numbers := values.map fun t => t.toSingles.entries.headD (.zero false)
      let all := g.derivatives numbers
      return chosen.map fun (name, shape) =>
        .singles (.full shape (g.derivativeBy all name))
  | _ => throw (.tensor .badOperands)

end Graph

end Polish
