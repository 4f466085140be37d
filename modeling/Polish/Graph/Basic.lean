import Polish.Expr.Evaluation

set_option autoImplicit false

namespace Polish

/-- How a node gets its value. -/
inductive Instruction where
  | constant (value : Scalar)
  | argument (name : Option String)
  | kernel (symbol : String) (inputs : List Nat)
deriving DecidableEq

namespace Instruction

def opcode : Instruction → String
  | .constant _ => "const"
  | .argument _ => "arg"
  | .kernel symbol _ => "op:" ++ symbol

def inputs : Instruction → List Nat
  | .kernel _ inputs => inputs
  | _ => []

end Instruction

structure Node where
  id : Nat
  instruction : Instruction
deriving DecidableEq

structure Graph where
  nodes : List Node
  output : Nat
deriving DecidableEq

namespace Graph

def argumentNames : List String := Variable.all.map (·.name)

def constants (g : Graph) : List Scalar :=
  g.nodes.filterMap fun node =>
    match node.instruction with
    | .constant value => some value
    | _ => none

/-- The node that an index means behind `count` nodes: negative indices count from the last one.
An index out of range means the next node, which has no value yet. -/
def resolve (count : Nat) (index : Int) : Nat :=
  if 0 ≤ index then index.toNat
  else if 0 ≤ index + count then (index + count).toNat
  else count

end Graph

/-- What constants, arguments and kernels mean among the values `α`. -/
structure Interpretation (ε α : Type) where
  constant : Scalar → Except ε α
  argument : Option String → Except ε α
  kernel : String → Except ε (List α → Except ε α)
  /-- The error of an input that has no value yet. -/
  dangling : ε

namespace Graph

variable {ε α : Type}

def gather (dangling : ε) (values : List α) : List Nat → Except ε (List α)
  | [] => .ok []
  | i :: is =>
      match values[i]? with
      | none => .error dangling
      | some value => do
          let others ← gather dangling values is
          return value :: others

/-- The value of an instruction, given those of the earlier nodes. -/
def execute (I : Interpretation ε α) (values : List α) : Instruction → Except ε α
  | .constant value => I.constant value
  | .argument name => I.argument name
  | .kernel symbol inputs => do
      let apply ← I.kernel symbol
      let operands ← gather I.dangling values inputs
      apply operands

/-- The values of all nodes, computed in order behind those already there. -/
def run (I : Interpretation ε α) (values : List α) : List Node → Except ε (List α)
  | [] => .ok values
  | node :: nodes => do
      let value ← execute I values node.instruction
      run I (values ++ [value]) nodes

def evaluate (I : Interpretation ε α) (g : Graph) : Except ε α := do
  let values ← run I [] g.nodes
  match values[g.output]? with
  | some value => return value
  | none => throw I.dangling

end Graph

/-- The meaning of expressions: constants are doubles, and a kernel is looked up once its operands
have values. -/
def Interpretation.meaning {ε α : Type} (I : Interpretation ε α) : Meaning ε α where
  constant value := I.constant (.double value.toDouble)
  slot v := I.argument (some v.name)
  operator op operands := do
    let apply ← I.kernel op.symbol
    apply operands
  foreign _ := I.dangling

section

variable {ε α : Type} (I : Interpretation ε α)

@[simp] theorem Interpretation.meaning_constant (value : Number) :
    I.meaning.constant value = I.constant (.double value.toDouble) := rfl

@[simp] theorem Interpretation.meaning_slot (v : Variable) :
    I.meaning.slot v = I.argument (some v.name) := rfl

@[simp] theorem Interpretation.meaning_operator (op : Operator) (operands : List α) :
    I.meaning.operator op operands = (do let apply ← I.kernel op.symbol; apply operands) := rfl

theorem Interpretation.meaning_of_symbol {op other : Operator} (symbol : op.symbol = other.symbol) :
    I.meaning.operator op = I.meaning.operator other := by
  funext operands
  rw [meaning_operator, meaning_operator, symbol]

end

def Expr.evaluateIn {ε α : Type} (I : Interpretation ε α) (e : Expr) : Except ε α :=
  e.evaluateWith I.meaning

end Polish
