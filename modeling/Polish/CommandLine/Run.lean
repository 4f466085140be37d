import Polish.CommandLine.Options
import Polish.Expr.Rendering
import Polish.Graph.Lowering
import Polish.Parser.Basic
import Polish.Tensor.Evaluation
import Polish.Text.UpperCase

set_option autoImplicit false

namespace Polish.CommandLine

structure Report where
  code : Nat
  output : String
  errors : String
deriving DecidableEq, Repr

inductive Crash where
  | unknownLevel (level : String)
  | tooLong (digits : Nat)
  | noLevel
  | noDisplay
  | operand (error : OperandError)
  /-- The arrays give an array with axes, which is not a number. -/
  | notANumber (axes : Nat)
  | noValue
deriving DecidableEq, Repr

def Crash.message : Crash → String
  | .unknownLevel level => "Unknown level: " ++ Text.quote level
  | .tooLong digits => Decimal.tooLongMessage digits
  | .noLevel => "'list' object has no attribute 'upper'"
  | .noDisplay => "unhashable type: 'list'"
  | .operand error => error.message
  | .notANumber axes =>
      "Only scalar arrays can be converted to Python scalars; got arr.ndim=" ++ toString axes
  | .noValue => "the expression has no value"

def usage : String :=
  "usage: prefix-expr [-h] [--x X] [--y Y] [--z Z]\n" ++
  "                   [--format \x7bvalue,prefix,postfix,all\x7d]\n" ++
  "                   [--backend \x7bpython,jax\x7d] [--log-level LOG_LEVEL]\n" ++
  "                   expression\n"

def help : String :=
  usage ++ "\n" ++
  "Command-line entry point: parse a prefix expression and evaluate or render it.\n\n" ++
  "positional arguments:\n" ++
  "  expression            prefix expression, e.g. \"(+ x 2)\"\n\n" ++
  "options:\n" ++
  "  -h, --help            show this help message and exit\n" ++
  "  --x X                 binding for x\n" ++
  "  --y Y                 binding for y\n" ++
  "  --z Z                 binding for z\n" ++
  "  --format \x7bvalue,prefix,postfix,all\x7d\n" ++
  "                        what to print\n" ++
  "  --backend \x7bpython,jax\x7d\n" ++
  "                        evaluation backend\n" ++
  "  --log-level LOG_LEVEL\n" ++
  "                        logging level name\n"

/-- The levels of messages, and whether messages for debugging are shown at them. -/
def levels : List (String × Bool) :=
  [ ("CRITICAL", false), ("FATAL", false), ("ERROR", false), ("WARN", false),
    ("WARNING", false), ("INFO", false), ("DEBUG", true), ("NOTSET", true) ]

def debugLine (shown : Bool) (part words : String) : String :=
  if shown then "DEBUG:prefix_expr." ++ part ++ ":" ++ words ++ "\n" else ""

/-- An operand as an argument: a list without elements is an array of none. -/
def Operand.argument : Operand → Argument
  | .number d => .number (.double d)
  | .emptyList => .array (.singles ⟨[0], [], rfl⟩)

/-- The value as text, and what is noted on the way. -/
def valueText (shown : Bool) (options : Options) (e : Expr) : Except Crash (String × String) :=
  match options.backend with
  | .doubles =>
      match valueAt options.bound e with
      | .ok value => .ok (value.text, "")
      | .error error => .error (.operand error)
  | .arrays =>
      match e.lower true with
      | .error _ => .error .noValue
      | .ok graph =>
          match graph.callStrict (Variable.all.map fun v => (options.bound.get v).argument) with
          | .ok (.singles ⟨[], [value], _⟩) =>
              let note := debugLine shown "ir"
                ("Lowered " ++ e.prefixText ++ " to " ++ toString graph.nodes.length ++ " IR nodes")
              .ok (Layout.plain.text (value.convert .double), note)
          | .ok other => .error (.notANumber other.shape.length)
          | .error _ => .error .noValue

def report (shown : Bool) (options : Options) (e : Expr) : Except Crash Report := do
  let some display := options.display | throw .noDisplay
  let parsed := debugLine shown "parser"
    ("Parsed " ++ toString options.expression.length ++ " characters into " ++ e.kindName)
  let shows (wanted : Display) := display = wanted ∨ display = .all
  let first := if shows .prefixForm then e.prefixText ++ "\n" else ""
  let second := if shows .postfixForm then e.postfixText ++ "\n" else ""
  if shows .value then
    let (value, note) ← valueText shown options e
    return ⟨0, first ++ second ++ value ++ "\n", parsed ++ note⟩
  else return ⟨0, first ++ second, parsed⟩

/-- Parses and prints, with messages at a level. -/
def runOptions (options : Options) : Except Crash Report :=
  match options.logLevel with
  | none => .error .noLevel
  | some level =>
      let level := Text.upper level
      match levels.lookup level with
      | none => .error (.unknownLevel level)
      | some shown =>
          match Parser.parse options.expression with
          | .ok e => report shown options e
          | .error (.tooLong digits _) => .error (.tooLong digits)
          | .error (.malformed fault) =>
              let note := debugLine shown "cli" ("Parse failed with " ++ fault.cause.kind.name)
              .ok ⟨2, "", note ++ "error: " ++ fault.diagnostic.message ++ "\n"⟩

def run (arguments : List String) : Except Crash Report :=
  match parseArguments arguments with
  | .ok options => runOptions options
  | .error .help => .ok ⟨0, help, ""⟩
  | .error (.usage error) =>
      .ok ⟨2, "", usage ++ "prefix-expr: error: " ++ error.message ++ "\n"⟩

end Polish.CommandLine
