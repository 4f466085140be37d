import Polish.Binary.Arithmetic

set_option autoImplicit false

namespace Polish

/-- How many arguments an operator takes. No list has a negative count of them. -/
inductive Arity where
  | exactly (count : Int)
  | variadic
deriving DecidableEq, Repr

namespace Arity

/-- A variadic operator takes one argument or more. -/
def accepts : Arity → Int → Bool
  | .exactly count, given => given == count
  | .variadic, given => 1 ≤ given

def text : Arity → String
  | .exactly count => toString count
  | .variadic => "at least 1"

end Arity

inductive EvaluationError where
  /-- An operator of fixed arity has another number of arguments. -/
  | wrongCount
  /-- A geometric mean has no arguments, so no root is defined. -/
  | rootOfNothing
  /-- The function of an operator that is not registered fails in its own way. -/
  | custom (exception : String)
  /-- A plain value stands where an expression should. -/
  | notAnExpression (kindName : String)
deriving DecidableEq, Repr

/-- What an operator computes: one of the functions of the registered operators, or any other. -/
inductive Kernel where
  | add
  | subtract
  | multiply
  | divide
  | negate
  | arithmeticMean
  | geometricMean
  | harmonicMean
  | meanOfFive
  | medianOfThree
  | custom (function : List Double → Except EvaluationError Double)

def Kernel.isCustom : Kernel → Bool
  | .custom _ => true
  | _ => false

structure Operator where
  symbol : String
  arity : Arity
  kernel : Kernel

namespace Operator

def registered : List Operator :=
  [ ⟨"+", .exactly 2, .add⟩,
    ⟨"-", .exactly 2, .subtract⟩,
    ⟨"*", .exactly 2, .multiply⟩,
    ⟨"/", .exactly 2, .divide⟩,
    ⟨"negate", .exactly 1, .negate⟩,
    ⟨"arith-mean", .variadic, .arithmeticMean⟩,
    ⟨"geom-mean", .variadic, .geometricMean⟩,
    ⟨"harm-mean", .variadic, .harmonicMean⟩,
    ⟨"avg5", .exactly 5, .meanOfFive⟩,
    ⟨"med3", .exactly 3, .medianOfThree⟩ ]

def ofSymbol? (symbol : String) : Option Operator :=
  registered.find? (·.symbol == symbol)

/-- Operators are told apart by symbol and arity alone. -/
def same (a b : Operator) : Bool := a.symbol == b.symbol && a.arity == b.arity

/-- An operator that is not registered, with a function of its own. -/
def custom (symbol : String) (arity : Arity)
    (function : List Double → Except EvaluationError Double) : Operator :=
  ⟨symbol, arity, .custom function⟩

theorem same_refl (op : Operator) : op.same op = true := by simp [same]

theorem same_comm (a b : Operator) : a.same b = b.same a := by
  simp [same, Bool.beq_comm]

theorem isCustom_of_known {op : Operator} (known : ofSymbol? op.symbol = some op) :
    op.kernel.isCustom = false := by
  have each : ∀ op ∈ registered, op.kernel.isCustom = false := by decide
  exact each op (List.mem_of_find?_eq_some known)

theorem symbol_of_ofSymbol? {symbol : String} {op : Operator}
    (found : ofSymbol? symbol = some op) : op.symbol = symbol := by
  simpa using List.find?_some found

end Operator

end Polish
