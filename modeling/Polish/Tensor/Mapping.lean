import Polish.Axes
import Polish.Tensor.Evaluation

set_option autoImplicit false

namespace Polish

def Argument.shape : Argument → Shape
  | .number _ => []
  | .array values => values.shape

namespace Graph

def asksFor (g : Graph) (name : String) : Bool :=
  g.nodes.any fun node => node.instruction == .argument (some name)

/-- An argument with the axis of it that is mapped, if one is. -/
structure MappedArgument where
  argument : Argument
  axis : Option Nat

/-- Finds the axis of each argument; one that an argument does not have is an error. -/
def mapArguments (arguments : List Argument) (axes : List (Option Int)) :
    Except TensorError (List MappedArgument) :=
  (arguments.zip axes).mapM fun (argument, axis) =>
    match axis with
    | none => .ok ⟨argument, none⟩
    | some index =>
        match Shape.axis? argument.shape.length index with
        | some found => .ok ⟨argument, some found⟩
        | none => .error .badShapes

/-- The common size of all mapped axes, of which there is at least one. -/
def mappedSize (arguments : List MappedArgument) : Except TensorError Nat :=
  let sizes := arguments.filterMap fun m => m.axis.map fun axis => m.argument.shape.getD axis 0
  match sizes with
  | [] => .error .badShapes
  | size :: others => if others.all (· == size) then .ok size else .error .badShapes

/-- The value on the slices at one index. An axis of size zero is taken to hold zeros. -/
def callSlice (g : Graph) (arguments : List MappedArgument) (index : Nat) :
    Except RunError Tensor :=
  let slice (m : MappedArgument) : Except TensorError Tensor := do
    let tensor ← m.argument.tensor
    match m.axis with
    | none => return tensor
    | some axis =>
        if index < tensor.shape.getD axis 0 then return tensor.slice axis index
        else
          let shape : Shape := tensor.shape.eraseIdx axis
          match tensor.elementType with
          | .int32 => return .words (.full shape 0)
          | .float32 => return .singles (.full shape (.zero false))
  g.evaluate (Tensor.interpretation fun name =>
    (Tensor.bound? argumentNames arguments name).map slice)

/-- The value of a graph mapped over axes of its arguments, stacked along an axis of its own. -/
def callMapped (g : Graph) (inAxes outAxes : Axes) (arguments : List Argument) :
    Except RunError Tensor := do
  let some axes := inAxes.spread? arguments.length | throw (.tensor .badShapes)
  let mapped ← Tensor.lift (mapArguments arguments axes)
  let size ← Tensor.lift (mappedSize mapped)
  if arguments.length ≠ argumentNames.length then
    throw (.wrongCount argumentNames.length arguments.length)
  let values ← (List.range size).mapM (g.callSlice mapped)
  let value ← g.callSlice mapped 0
  match outAxes with
  | .each _ => throw (.tensor .badShapes)
  | .unmapped =>
      let isMapped := (argumentNames.zip mapped).any fun (name, m) =>
        m.axis.isSome && g.asksFor name
      if isMapped then throw (.tensor .badShapes) else return value
  | .axis index =>
      match Shape.axis? (value.shape.length + 1) index with
      | some axis => return Tensor.stack value.elementType value.shape axis values
      | none => throw (.tensor .badShapes)

end Graph

end Polish
