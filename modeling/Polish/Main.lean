import Polish.CommandLine.Run

set_option autoImplicit false

/-- Prints the report and returns its code; a crash prints its message and returns one. -/
def main (arguments : List String) : IO UInt32 := do
  match Polish.CommandLine.run arguments with
  | .ok report =>
      IO.eprint report.errors
      IO.print report.output
      return report.code.toUInt32
  | .error crash =>
      IO.eprintln crash.message
      return 1
