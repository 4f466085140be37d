import Polish.CommandLine.Operand
import Polish.Decimal.Reading
import Polish.Text.Quoted

/-!
The arguments of the command line.

Arguments are told apart first: a flag begins with a hyphen and may be abbreviated, and gets its
value behind an equals sign or from the next argument; negative numbers, texts with spaces and
whatever follows a double hyphen are values. Then they are taken in order, so the first argument
that is wrong is the one reported.
-/

set_option autoImplicit false

namespace Polish.CommandLine

inductive Display where
  | value
  | prefixForm
  | postfixForm
  | all
deriving DecidableEq, Repr

/-- What evaluates: doubles on the tree, or arrays on the graph. -/
inductive Backend where
  | doubles
  | arrays
deriving DecidableEq, Repr

/-- What the arguments ask for. A flag that is given no value at all, by a double hyphen behind
an equals sign, leaves no display and no level. -/
structure Options where
  expression : String
  bound : Point Operand
  display : Option Display
  backend : Backend
  logLevel : Option String

inductive Flag where
  | help
  | x
  | y
  | z
  | format
  | backend
  | logLevel
deriving DecidableEq, Repr

namespace Flag

/-- How each flag is written, in the order in which matches are listed. -/
def spellings : List (String × Flag) :=
  [ ("-h", .help), ("--help", .help), ("--x", .x), ("--y", .y), ("--z", .z),
    ("--format", .format), ("--backend", .backend), ("--log-level", .logLevel) ]

def ofSpelling? (text : String) : Option Flag := spellings.lookup text

def title (flag : Flag) : String :=
  "/".intercalate ((spellings.filter (·.2 == flag)).map (·.1))

end Flag

def displays : List (String × Display) :=
  [("value", .value), ("prefix", .prefixForm), ("postfix", .postfixForm), ("all", .all)]

def backends : List (String × Backend) := [("python", .doubles), ("jax", .arrays)]

inductive UsageError where
  | missingExpression
  | unrecognized (arguments : List String)
  | ambiguous (argument : String) (candidates : List String)
  | missingValue (flag : Flag)
  | unwantedValue (flag : Flag) (value : String)
  | invalidNumber (flag : Flag) (value : String)
  | invalidChoice (flag : Flag) (value : String) (choices : List String)
deriving DecidableEq, Repr

namespace UsageError

def about (flag : Flag) (words : String) : String := "argument " ++ flag.title ++ ": " ++ words

def message : UsageError → String
  | .missingExpression => "the following arguments are required: expression"
  | .unrecognized arguments => "unrecognized arguments: " ++ " ".intercalate arguments
  | .ambiguous argument candidates =>
      "ambiguous option: " ++ argument ++ " could match " ++ ", ".intercalate candidates
  | .missingValue flag => about flag "expected one argument"
  | .unwantedValue flag value => about flag ("ignored explicit argument " ++ Text.quote value)
  | .invalidNumber flag value => about flag ("invalid float value: " ++ Text.quote value)
  | .invalidChoice flag value choices =>
      about flag ("invalid choice: " ++ Text.quote value ++ " (choose from " ++
        ", ".intercalate (choices.map Text.quote) ++ ")")

end UsageError

inductive Stop where
  /-- Help is asked for. -/
  | help
  | usage (error : UsageError)
deriving DecidableEq, Repr

inductive Word where
  | value
  | flag (flag : Flag) (attached : Option String)
  | unknown
deriving DecidableEq, Repr

def splitEquals? (text : String) : Option (String × String) :=
  let cs := text.toList
  let name := cs.takeWhile (· != '=')
  match cs.drop name.length with
  | [] => none
  | _ :: value => some (String.ofList name, String.ofList value)

/-- Digits and more, from a text behind a hyphen; one line end may close it. -/
def isNegativeNumber (text : String) : Bool :=
  match text.toList with
  | '-' :: body =>
      let body := if body.getLast? == some '\n' then body.dropLast else body
      let whole := body.takeWhile Text.isDigit
      match body.drop whole.length with
      | [] => !whole.isEmpty
      | '.' :: fraction => !fraction.isEmpty && fraction.all Text.isDigit
      | _ => false
  | _ => false

/-- The flags that an argument may abbreviate, with the values attached to it. -/
def candidates (text : String) : List (String × Flag × Option String) :=
  match text.toList with
  | '-' :: '-' :: _ =>
      let (name, attached) :=
        match splitEquals? text with
        | some (name, value) => (name, some value)
        | none => (text, none)
      (Flag.spellings.filter fun (spelling, _) => name.isPrefixOf spelling).map
        fun (spelling, flag) => (spelling, flag, attached)
  | '-' :: c :: rest =>
      Flag.spellings.filterMap fun (spelling, flag) =>
        if spelling == String.ofList ['-', c] then
          some (spelling, flag, some (String.ofList rest))
        else if text.isPrefixOf spelling then some (spelling, flag, none)
        else none
  | _ => []

def classify (text : String) : Except UsageError Word :=
  if !"-".isPrefixOf text then .ok .value
  else
    match Flag.ofSpelling? text with
    | some flag => .ok (.flag flag none)
    | none =>
        if text == "-" then .ok .value
        else
          let exact := do
            let (name, value) ← splitEquals? text
            let flag ← Flag.ofSpelling? name
            return Word.flag flag (some value)
          match exact with
          | some word => .ok word
          | none =>
              match candidates text with
              | [(_, flag, attached)] => .ok (.flag flag attached)
              | first :: second :: more =>
                  .error (.ambiguous text ((first :: second :: more).map (·.1)))
              | [] =>
                  if isNegativeNumber text || text.toList.contains ' ' then .ok .value
                  else .ok .unknown

/-- An argument that is told apart, or the double hyphen behind which all are values. -/
inductive Item where
  | word (text : String) (word : Word)
  | separator
deriving DecidableEq, Repr

def itemize : List String → Except UsageError (List Item)
  | [] => .ok []
  | text :: rest =>
      if text == "--" then .ok (.separator :: rest.map (Item.word · .value))
      else do
        let word ← classify text
        let items ← itemize rest
        return .word text word :: items

/-- What has been taken so far; the expression may come late. -/
structure Taken where
  options : Options
  hasExpression : Bool
  extras : List String

def Taken.nothing : Taken :=
  { options :=
      { expression := ""
        bound := ⟨.number (.zero false), .number (.zero false), .number (.zero false)⟩
        display := some .value
        backend := .doubles
        logLevel := some "WARNING" }
    hasExpression := false
    extras := [] }

def Taken.withExpression (t : Taken) (text : String) : Taken :=
  { t with options := { t.options with expression := text }, hasExpression := true }

def Taken.withExtra (t : Taken) (text : String) : Taken :=
  { t with extras := t.extras ++ [text] }

/-- The stop at a short help flag, from what is attached to it: further letters may ask for help
again, and from the first other character on it is a value, which is refused. -/
def shortHelp : List Char → Stop
  | [] => .help
  | 'h' :: rest => shortHelp rest
  | value => .usage (.unwantedValue .help (String.ofList value))

/-- The stop at a help flag. Its long spelling takes no value, and neither takes an empty one. -/
def helpStop (text : String) : Option String → Stop
  | none => .help
  | some value =>
      if value.isEmpty || "--".isPrefixOf text then .usage (.unwantedValue .help value)
      else shortHelp value.toList

def readNumber (flag : Flag) (value : String) : Except Stop Operand :=
  match Decimal.read? .double value with
  | some d => .ok (.number d)
  | none => .error (.usage (.invalidNumber flag value))

def readChoice {α : Type} (flag : Flag) (choices : List (String × α)) (value : String) :
    Except Stop α :=
  match choices.lookup value with
  | some choice => .ok choice
  | none => .error (.usage (.invalidChoice flag value (choices.map (·.1))))

def Options.bind (options : Options) (flag : Flag) (operand : Operand) : Options :=
  match flag with
  | .x => { options with bound := { options.bound with x := operand } }
  | .y => { options with bound := { options.bound with y := operand } }
  | .z => { options with bound := { options.bound with z := operand } }
  | _ => options

/-- Leaves a flag without a value. What evaluates is then not the arrays. -/
def Options.clear (options : Options) (flag : Flag) : Options :=
  match flag with
  | .format => { options with display := none }
  | .backend => { options with backend := .doubles }
  | .logLevel => { options with logLevel := none }
  | flag => options.bind flag .emptyList

/-- Sets what a flag stands for. A double hyphen is no value. -/
def setFlag (options : Options) (flag : Flag) (value : String) : Except Stop Options :=
  if value == "--" then .ok (options.clear flag)
  else
    match flag with
    | .help => .error .help
    | .x | .y | .z => (readNumber flag value).map (options.bind flag)
    | .format => (readChoice flag displays value).map fun c => { options with display := some c }
    | .backend => (readChoice flag backends value).map fun c => { options with backend := c }
    | .logLevel => .ok { options with logLevel := some value }

def Taken.withValue (t : Taken) (text : String) : Taken :=
  if t.hasExpression then t.withExtra text else t.withExpression text

/-- Takes the arguments in order. A double hyphen beside the expression goes with it. -/
def take (t : Taken) : List Item → Except Stop Taken
  | [] => .ok t
  | .separator :: rest =>
      if t.hasExpression || rest.isEmpty then take (t.withExtra "--") rest else take t rest
  | .word text .value :: .separator :: rest =>
      if t.hasExpression then take ((t.withExtra text).withExtra "--") rest
      else take (t.withExpression text) rest
  | .word text .value :: rest => take (t.withValue text) rest
  | .word text .unknown :: rest => take (t.withExtra text) rest
  | .word text (.flag .help attached) :: _ => .error (helpStop text attached)
  | .word _ (.flag flag (some value)) :: rest => do
      take { t with options := ← setFlag t.options flag value } rest
  | .word _ (.flag flag none) :: .word value .value :: rest => do
      take { t with options := ← setFlag t.options flag value } rest
  | .word _ (.flag flag none) :: _ => .error (.usage (.missingValue flag))

def parseArguments (arguments : List String) : Except Stop Options :=
  match itemize arguments with
  | .error error => .error (.usage error)
  | .ok items => do
      let t ← take .nothing items
      if !t.hasExpression then throw (.usage .missingExpression)
      if !t.extras.isEmpty then throw (.usage (.unrecognized t.extras))
      return t.options

end Polish.CommandLine
