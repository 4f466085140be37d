import Polish.Number
import Polish.Operator

set_option autoImplicit false

namespace Polish

inductive Variable where
  | x
  | y
  | z
deriving DecidableEq, Repr

namespace Variable

def all : List Variable := [.x, .y, .z]

def name : Variable → String
  | .x => "x"
  | .y => "y"
  | .z => "z"

def slot : Variable → Nat
  | .x => 0
  | .y => 1
  | .z => 2

def ofName? (name : String) : Option Variable := all.find? (·.name == name)

theorem name_of_ofName? {name : String} {v : Variable} (found : ofName? name = some v) :
    v.name = name := by
  simpa using List.find?_some found

theorem ofName?_name (v : Variable) : ofName? v.name = some v := by
  cases v <;> decide

end Variable

structure Point (α : Type) where
  x : α
  y : α
  z : α

def Point.get {α : Type} (p : Point α) : Variable → α
  | .x => p.x
  | .y => p.y
  | .z => p.z

/-- A plain value that stands where an expression should. -/
inductive Datum where
  | integer (value : Int)
  | truth (value : Bool)
  | nothing
  | text (value : String)
  | list (items : List Datum)
  | table (keys : List String) (values : List Datum)

namespace Datum

def kindName : Datum → String
  | .integer _ => "int"
  | .truth _ => "bool"
  | .nothing => "NoneType"
  | .text _ => "str"
  | .list _ => "list"
  | .table .. => "dict"

/-- Lists and tables can change, so no table is keyed by them. -/
def isHashable : Datum → Bool
  | .list _ => false
  | .table .. => false
  | _ => true

mutual

def same : Datum → Datum → Bool
  | .integer m, .integer n => m == n
  | .integer m, .truth b => m == if b then 1 else 0
  | .truth b, .integer n => n == if b then 1 else 0
  | .truth b, .truth c => b == c
  | .nothing, .nothing => true
  | .text s, .text t => s == t
  | .list as, .list bs => sameList as bs
  | .table ks as, .table ls bs => ks == ls && sameList as bs
  | _, _ => false

def sameList : List Datum → List Datum → Bool
  | [], [] => true
  | a :: as, b :: bs => same a b && sameList as bs
  | _, _ => false

end

end Datum

/-- An expression; nothing is assumed about how many arguments an application has. -/
inductive Expr where
  | const (value : Number)
  | var (v : Variable)
  | apply (op : Operator) (args : List Expr)
  | foreign (value : Datum)

namespace Expr

instance : Inhabited Expr := ⟨.var .x⟩

mutual

/-- Structural equality: constants by numeric value, operators by symbol and arity. -/
def same : Expr → Expr → Bool
  | .const a, .const b => a.same b
  | .var v, .var w => v == w
  | .apply op as, .apply op' bs => op.same op' && sameList as bs
  | .foreign a, .foreign b => a.same b
  | _, _ => false

def sameList : List Expr → List Expr → Bool
  | [], [] => true
  | a :: as, b :: bs => same a b && sameList as bs
  | _, _ => false

end

/-- The label of a node, as a walk from the root meets it. -/
inductive Label where
  | operation (symbol : String) (argumentCount : Nat)
  | variable (v : Variable)
  | constant (value : Number)
  | foreign (value : Datum)

mutual

def labels : Expr → List Label
  | .const value => [.constant value]
  | .var v => [.variable v]
  | .apply op args => .operation op.symbol args.length :: labelsList args
  | .foreign value => [.foreign value]

def labelsList : List Expr → List Label
  | [] => []
  | e :: es => labels e ++ labelsList es

end

/-- The plain value met first from the left. -/
def foreign? (e : Expr) : Option Datum :=
  e.labels.findSome? fun
    | .foreign value => some value
    | _ => none

/-- The list or table met first from the left, for which no tree that holds it can be a key. -/
def unhashable? (e : Expr) : Option Datum :=
  e.labels.findSome? fun
    | .foreign value => if value.isHashable then none else some value
    | _ => none

def kindName : Expr → String
  | .const _ => "Const"
  | .var _ => "Variable"
  | .apply .. => "Operation"
  | .foreign value => value.kindName

end Expr

end Polish
