set_option autoImplicit false

namespace Polish.Interface

/-- All names, in order of their characters. -/
def names : List String :=
  [ "ADD", "ARITH_MEAN", "AVG5", "ArityMismatchError", "CompiledExpression", "Const", "DIVIDE",
    "ExpectedOperationError", "Expr", "ExpressionError", "GEOM_MEAN", "HARM_MEAN", "JaxIR",
    "MED3", "MULTIPLY", "NEGATE", "OPERATIONS", "Operation", "OperatorSpec", "ParseError",
    "SUBTRACT", "TrailingInputError", "UnexpectedEndOfInputError", "UnknownVariableError",
    "UnsupportedNodeError", "VARIABLES", "Variable", "compile_cache_stats",
    "compile_expression", "lower_to_ir", "parse_prefix" ]

def missingEngine (name : String) : String :=
  "jax is required for " ++ name ++ "(). Install runtime deps first."

end Polish.Interface
