import Polish.Axes
import Polish.Expr.Rendering
import Polish.Graph.Lowering
import Polish.Parser.Basic
import Polish.Session.Recent

/-!
A session lowers and compiles expressions, and remembers what it has done.

It keeps the trees of recent texts, the graph of every tree lowered since the last reset, and for
every compiled expression the functions derived from it. Graphs and functions have identities,
which count up as they are created; asking again for the same one gives the same identity.
-/

set_option autoImplicit false

namespace Polish

/-- What a session remembers, and whether its graphs share nodes. -/
structure Settings where
  parseCapacity : Nat
  keepsGraphs : Bool
  sharing : Bool
deriving DecidableEq, Repr

/-- Why there are no settings: the capacity is no integer, or too large to count with. -/
inductive SettingsFault where
  | unreadable (fault : Decimal.IntegerFault)
  | hugeCapacity
deriving DecidableEq, Repr

/-- The settings that variables of the environment ask for; the capacity is at least one. -/
def Settings.ofEnvironment (lookup? : String → Option String) : Except SettingsFault Settings := do
  let capacity ←
    match Decimal.readInteger ((lookup? "PREFIX_EXPR_PARSE_CACHE_MAX").getD "512") with
    | .ok capacity => pure capacity
    | .error fault => throw (.unreadable fault)
  if 2 ^ (63 : Nat) ≤ capacity then throw .hugeCapacity
  return {
    parseCapacity := max 1 capacity.toNat
    keepsGraphs := lookup? "PREFIX_EXPR_DISABLE_IR_CACHE" != some "1"
    sharing := lookup? "PREFIX_EXPR_DISABLE_CSE" != some "1" }

def SettingsFault.message (asked : String) : SettingsFault → String
  | .unreadable .malformed =>
      "invalid literal for int() with base 10: " ++ String.ofList ((Text.quote asked).toList.take 200)
  | .unreadable (.tooLong digits) => Decimal.tooLongMessage digits
  | .hugeCapacity => "cannot fit 'int' into an index-sized integer"

/-- What to lower: a text, or a tree that is already built. -/
inductive Source where
  | text (text : String)
  | tree (e : Expr)

inductive SourceError where
  | rejected (rejection : Rejection)
  | lowering (error : LoweringError)

structure GraphObject where
  identity : Nat
  graph : Graph

/-- A compiled expression with the identities of the functions derived from it. -/
structure Compiled where
  graph : GraphObject
  source : String
  jit : Option Nat
  /-- The mapped functions are kept by the texts of their axes. -/
  mapped : List ((String × String) × Nat)
  gradients : List (Selection × Nat)

/-- The graph of an expression that is reported with its text, so that it has one. -/
def Expr.lowerWritten (sharing : Bool) (e : Expr) : Except LoweringError Graph :=
  match e.lower sharing with
  | .ok graph => if e.isWritable then .ok graph else .error .unwritable
  | .error error => .error error

structure Session where
  settings : Settings
  texts : Recent String Expr
  graphs : List (Expr × GraphObject)
  hits : Nat
  misses : Nat
  nextGraph : Nat
  compiled : List Compiled
  nextFunction : Nat

namespace Session

def start (settings : Settings) : Session :=
  { settings
    texts := .empty settings.parseCapacity
    graphs := []
    hits := 0
    misses := 0
    nextGraph := 0
    compiled := []
    nextFunction := 0 }

/-- The tree of a source; only texts go through the table of recent texts. -/
def tree (s : Session) : Source → Except Rejection Expr × Session
  | .tree e => (.ok e, s)
  | .text text =>
      match s.texts.find? text with
      | some e => (.ok e, { s with texts := s.texts.use text e })
      | none =>
          match Parser.parse text with
          | .ok e => (.ok e, { s with texts := s.texts.miss.store text e })
          | .error rejection => (.error rejection, { s with texts := s.texts.miss })

def kept? (s : Session) (e : Expr) : Option GraphObject :=
  (s.graphs.find? fun entry => e.same entry.1).map (·.2)

/-- Lowers a tree to a graph with an identity of its own. -/
def create (s : Session) (e : Expr) : Except LoweringError GraphObject × Session :=
  match e.lowerWritten s.settings.sharing with
  | .ok graph =>
      (.ok ⟨s.nextGraph, graph⟩, { s with nextGraph := s.nextGraph + 1 })
  | .error error => (.error error, s)

/-- The graph of a tree: the kept one, or a new one that is then kept. -/
def lowerTree (s : Session) (useCache : Bool) (e : Expr) :
    Except LoweringError GraphObject × Session :=
  if useCache && s.settings.keepsGraphs then
    match e.unhashable? with
    | some value => (.error (.unhashable value.kindName), s)
    | none =>
        match s.kept? e with
        | some object => (.ok object, { s with hits := s.hits + 1 })
        | none =>
            match { s with misses := s.misses + 1 }.create e with
            | (.ok object, s) => (.ok object, { s with graphs := (e, object) :: s.graphs })
            | (.error error, s) => (.error error, s)
  else s.create e

def lower (s : Session) (useCache : Bool) (source : Source) :
    Except SourceError (Expr × GraphObject) × Session :=
  match s.tree source with
  | (.error rejection, s) => (.error (.rejected rejection), s)
  | (.ok e, s) =>
      match s.lowerTree useCache e with
      | (.ok object, s) => (.ok (e, object), s)
      | (.error error, s) => (.error (.lowering error), s)

/-- Compiles a source; the compiled expression goes behind those there are. -/
def compile (s : Session) (useCache : Bool) (source : Source) :
    Except SourceError Compiled × Session :=
  match s.lower useCache source with
  | (.error error, s) => (.error error, s)
  | (.ok (e, object), s) =>
      let text :=
        match source with
        | .text text => text
        | .tree _ => e.prefixText
      let compiled : Compiled := ⟨object, text, none, [], []⟩
      (.ok compiled, { s with compiled := s.compiled ++ [compiled] })

def reset (s : Session) : Session := { s with graphs := [], hits := 0, misses := 0 }

def newFunction (s : Session) (index : Nat) (compiled : Compiled) : Session :=
  { s with
    compiled := s.compiled.set index compiled
    nextFunction := s.nextFunction + 1 }

def jit (s : Session) (index : Nat) (c : Compiled) : Nat × Session :=
  match c.jit with
  | some identity => (identity, s)
  | none => (s.nextFunction, s.newFunction index { c with jit := some s.nextFunction })

/-- The identity of a mapped function, and how many the compiled expression has. -/
def mapped (s : Session) (index : Nat) (c : Compiled) (inAxes outAxes : Axes) :
    Nat × Nat × Session :=
  let key := (inAxes.text, outAxes.text)
  match c.mapped.lookup key with
  | some identity => (identity, c.mapped.length, s)
  | none =>
      let all := (key, s.nextFunction) :: c.mapped
      (s.nextFunction, all.length, s.newFunction index { c with mapped := all })

/-- The identity of a gradient, and how many the compiled expression has. -/
def gradient (s : Session) (index : Nat) (c : Compiled) (selection : Selection) :
    Nat × Nat × Session :=
  match c.gradients.lookup selection with
  | some identity => (identity, c.gradients.length, s)
  | none =>
      let all := (selection, s.nextFunction) :: c.gradients
      (s.nextFunction, all.length, s.newFunction index { c with gradients := all })

end Session

end Polish
