import Polish.Expr.Basic
import Polish.Text.Quoted

set_option autoImplicit false

namespace Polish

inductive BuildError where
  | unknownVariable (name : String)
  | unknownOperator (symbol : String)
  | wrongCount (op : Operator) (given : Nat)

namespace BuildError

def message : BuildError → String
  | .unknownVariable name => "Unknown variable " ++ Text.quote name ++ "; expected one of x, y, z"
  | .unknownOperator symbol => Text.quote symbol
  | .wrongCount op given =>
      Text.quote op.symbol ++ " takes " ++ op.arity.text ++ " argument(s), got " ++ toString given

end BuildError

namespace Expr

def named (name : String) : Except BuildError Expr :=
  match Variable.ofName? name with
  | some v => .ok (.var v)
  | none => .error (.unknownVariable name)

def registered (symbol : String) : Except BuildError Operator :=
  match Operator.ofSymbol? symbol with
  | some op => .ok op
  | none => .error (.unknownOperator symbol)

/-- An operator applied to as many arguments as it takes. -/
def call (op : Operator) (args : List Expr) : Except BuildError Expr :=
  if op.arity.accepts args.length then .ok (.apply op args)
  else .error (.wrongCount op args.length)

/-- A registered operator applied to as many arguments as it takes. -/
def callSymbol (symbol : String) (args : List Expr) : Except BuildError Expr := do
  call (← registered symbol) args

/-- A registered operator over any number of arguments. -/
def applySymbol (symbol : String) (args : List Expr) : Except BuildError Expr := do
  return .apply (← registered symbol) args

end Expr

end Polish
