import Polish.Decimal.Reading
import Polish.Graph.Basic
import Polish.Text.Quoted

/-!
Lowering an expression to a graph. Each variable has one argument node. With sharing, equal
subexpressions have one node together, the one of the first of them that is complete.
-/

set_option autoImplicit false

namespace Polish

inductive LoweringError where
  /-- No kernel computes the operator. -/
  | unsupportedOperation (symbol : String)
  /-- A plain value stands where an expression should. -/
  | unsupportedKind (kindName : String)
  /-- The expression holds a value that no table can be keyed by. -/
  | unhashable (kindName : String)
  /-- The expression holds an integer that is too long to be written out. -/
  | unwritable
deriving DecidableEq, Repr

def LoweringError.message : LoweringError → String
  | .unsupportedOperation symbol =>
      "Unsupported in JAX IR backend: operation " ++ Text.quote symbol
  | .unsupportedKind kindName => "Unsupported in JAX IR backend: node type " ++ kindName
  | .unhashable kindName => "unhashable type: '" ++ kindName ++ "'"
  | .unwritable => Decimal.unwritableMessage

/-- The nodes so far, the argument node of each variable, and the node of each known expression. -/
structure Builder where
  nodes : List Node
  arguments : List (Variable × Nat)
  known : List (Expr × Nat)

namespace Builder

def empty : Builder := ⟨[], [], []⟩

def add (b : Builder) (instruction : Instruction) : Nat × Builder :=
  (b.nodes.length, { b with nodes := b.nodes ++ [⟨b.nodes.length, instruction⟩] })

/-- The argument node of a variable, added when it is not there. -/
def argument (b : Builder) (v : Variable) : Nat × Builder :=
  match b.arguments.lookup v with
  | some id => (id, b)
  | none =>
      let (id, b) := b.add (.argument (some v.name))
      (id, { b with arguments := (v, id) :: b.arguments })

def find? (b : Builder) (e : Expr) : Option Nat :=
  (b.known.find? fun entry => e.same entry.1).map (·.2)

/-- The node to share, if sharing is wanted and there is one. -/
def seen? (b : Builder) (sharing : Bool) (e : Expr) : Option Nat :=
  if sharing then b.find? e else none

def remember (b : Builder) (e : Expr) (id : Nat) : Builder :=
  { b with known := (e, id) :: b.known }

end Builder

namespace Expr

def hasKernel (symbol : String) : Bool := (Operator.ofSymbol? symbol).isSome

mutual

/-- Lowers an expression behind the nodes there are, and gives the number of its node. -/
def lowerInto (sharing : Bool) (b : Builder) : Expr → Except LoweringError (Nat × Builder)
  | e@(.const value) =>
      match b.seen? sharing e with
      | some id => .ok (id, b)
      | none =>
          let (id, b) := b.add (.constant (.double value.toDouble))
          .ok (id, b.remember e id)
  | e@(.var v) =>
      match b.seen? sharing e with
      | some id => .ok (id, b)
      | none =>
          let (id, b) := b.argument v
          .ok (id, b.remember e id)
  | .apply op args =>
      match b.seen? sharing (.apply op args) with
      | some id => .ok (id, b)
      | none =>
          if hasKernel op.symbol then do
            let (inputs, b) ← lowerListInto sharing b args
            let (id, b) := b.add (.kernel op.symbol inputs)
            return (id, b.remember (.apply op args) id)
          else .error (.unsupportedOperation op.symbol)
  | .foreign value => .error (.unsupportedKind value.kindName)

def lowerListInto (sharing : Bool) (b : Builder) :
    List Expr → Except LoweringError (List Nat × Builder)
  | [] => .ok ([], b)
  | e :: es => do
      let (id, b) ← lowerInto sharing b e
      let (ids, b) ← lowerListInto sharing b es
      return (id :: ids, b)

end

/-- The graph of an expression. Sharing keys a table by expressions, which must then be hashable. -/
def lower (sharing : Bool) (e : Expr) : Except LoweringError Graph :=
  let refused := if sharing then e.unhashable? else none
  match refused with
  | some value => .error (.unhashable value.kindName)
  | none => do
      let (id, b) ← lowerInto sharing .empty e
      return ⟨b.nodes, id⟩

end Expr

end Polish
