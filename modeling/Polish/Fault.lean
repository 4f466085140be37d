import Polish.Operator

set_option autoImplicit false

namespace Polish

inductive Expectation where
  | expression
  | operation
  | argument (number : Nat) (symbol : String)
  | closing
  | label (text : String)
deriving DecidableEq, Repr

namespace Expectation

def text : Expectation → String
  | .expression => "expression"
  | .operation => "operation"
  | .argument number symbol => "argument " ++ toString number ++ " of " ++ symbol
  | .closing => ")"
  | .label text => text

/-- The expectation that a text names; texts without a rule of their own are labels. -/
def ofText (text : String) : Expectation :=
  if text == "expression" then .expression
  else if text == "operation" then .operation
  else if text == ")" then .closing
  else .label text

end Expectation

inductive Cause where
  /-- The text ends while something is still expected. -/
  | endOfInput (wanted : Expectation)
  /-- The word behind an opening parenthesis is no operator. -/
  | unknownOperation (found : String)
  /-- A closing parenthesis stands where the expression should begin. -/
  | illegalToken
  /-- A closing parenthesis stands where an argument should. -/
  | missingArgument (wanted : Expectation)
  /-- Something other than a closing parenthesis follows the last argument. -/
  | tooManyArguments (found : String)
  /-- A variadic operator has no arguments. -/
  | noArguments (symbol : String)
  /-- A word is neither an integer nor a variable. -/
  | illegalVariable (found : String)
  /-- Something follows the expression. -/
  | trailing (found : String)
deriving DecidableEq, Repr

inductive FaultKind where
  | general
  | unexpectedEnd
  | expectedOperation
  | arityMismatch
  | unknownVariable
  | trailingInput
deriving DecidableEq, Repr

namespace FaultKind

def name : FaultKind → String
  | .general => "ParseError"
  | .unexpectedEnd => "UnexpectedEndOfInput"
  | .expectedOperation => "ExpectedOperation"
  | .arityMismatch => "ArityMismatch"
  | .unknownVariable => "UnknownVariable"
  | .trailingInput => "TrailingInput"

end FaultKind

structure Diagnostic where
  kind : FaultKind
  summary : String
  position : Int
  expected : List String
  found : Option String
deriving DecidableEq, Repr

/-- The report in one sentence; what was expected and found is left out where it is not known. -/
def Diagnostic.message (d : Diagnostic) : String :=
  let expected := if d.expected.isEmpty then "" else "; expected " ++ ", ".intercalate d.expected
  let found :=
    match d.found with
    | some token => "; found \"" ++ token ++ "\""
    | none => ""
  d.summary ++ " at position " ++ toString d.position ++ expected ++ found

structure Fault where
  cause : Cause
  position : Nat
deriving DecidableEq, Repr

namespace Cause

def kind : Cause → FaultKind
  | .endOfInput _ => .unexpectedEnd
  | .unknownOperation _ => .expectedOperation
  | .illegalToken | .missingArgument _ | .tooManyArguments _ | .noArguments _ => .arityMismatch
  | .illegalVariable _ => .unknownVariable
  | .trailing _ => .trailingInput

def summary : Cause → String
  | .endOfInput _ => "Unexpected end of input"
  | .unknownOperation _ => "Unknown operation"
  | .illegalToken => "Illegal token"
  | .missingArgument _ => "Missing argument"
  | .tooManyArguments _ => "Too many arguments"
  | .noArguments symbol => "Operation " ++ symbol ++ " needs at least one argument"
  | .illegalVariable _ => "Illegal variable"
  | .trailing _ => "Illegal token after end of expression"

def expected : Cause → List String
  | .endOfInput wanted | .missingArgument wanted => [wanted.text]
  | .unknownOperation _ => [Expectation.operation.text]
  | .illegalToken => [Expectation.expression.text]
  | .tooManyArguments _ => [Expectation.closing.text]
  | .noArguments symbol => [(Expectation.argument 1 symbol).text]
  | .illegalVariable _ => ["integer", "x", "y", "z"]
  | .trailing _ => ["end of input"]

/-- The token that is named; the end of input is an empty one. -/
def found : Cause → String
  | .endOfInput _ => ""
  | .illegalToken | .missingArgument _ | .noArguments _ => ")"
  | .unknownOperation token | .tooManyArguments token | .illegalVariable token
  | .trailing token => token

end Cause

def Fault.diagnostic (fault : Fault) : Diagnostic :=
  { kind := fault.cause.kind
    summary := fault.cause.summary
    position := fault.position
    expected := fault.cause.expected
    found := some fault.cause.found }

inductive Rejection where
  /-- The text is malformed. -/
  | malformed (fault : Fault)
  /-- An integer has more digits than are read; the position is behind it. -/
  | tooLong (digits : Nat) (position : Nat)
deriving DecidableEq, Repr

def Rejection.position : Rejection → Nat
  | .malformed fault => fault.position
  | .tooLong _ position => position

/-- The cause that rules out a token where something is expected. A closing parenthesis belongs
exactly where one is expected, but an open list of arguments admits it at any place. -/
def Expectation.objection? (wanted : Expectation) (openList : Bool) (found : String) :
    Option Cause :=
  if wanted = .operation ∧ Operator.ofSymbol? found = none then some (.unknownOperation found)
  else if openList then none
  else if wanted = .closing then
    if found = ")" then none else some (.tooManyArguments found)
  else if found = ")" then
    if wanted = .expression then some .illegalToken else some (.missingArgument wanted)
  else none

end Polish
