import Polish.Session.Basic

set_option autoImplicit false

namespace Polish

inductive Request where
  | lower (useCache : Bool) (source : Source)
  | compile (useCache : Bool) (source : Source)
  /-- The counts of kept graphs, which a reset then clears. -/
  | graphCounts (reset : Bool)
  | textCounts
  | jit (compiled : Nat)
  | mapped (compiled : Nat) (inAxes outAxes : Axes)
  | gradient (compiled : Nat) (selection : Selection)

inductive Reply where
  | lowered (object : GraphObject)
  | compiled (index : Nat) (compiled : Compiled)
  | graphCounts (hits misses entries : Nat)
  | textCounts (hits misses capacity entries : Nat)
  | function (identity : Nat)
  /-- A function, and how many of its kind the compiled expression has. -/
  | derived (identity cached : Nat)
  | failed (error : SourceError)
  /-- Nothing was compiled under the index. -/
  | absent
  /-- The axes hold an integer that is too long to be written. -/
  | unwritable

namespace Session

def step (s : Session) : Request → Reply × Session
  | .lower useCache source =>
      match s.lower useCache source with
      | (.ok (_, object), s) => (.lowered object, s)
      | (.error error, s) => (.failed error, s)
  | .compile useCache source =>
      let index := s.compiled.length
      match s.compile useCache source with
      | (.ok compiled, s) => (.compiled index compiled, s)
      | (.error error, s) => (.failed error, s)
  | .graphCounts reset =>
      (.graphCounts s.hits s.misses s.graphs.length, if reset then s.reset else s)
  | .textCounts =>
      (.textCounts s.texts.hits s.texts.misses s.texts.capacity s.texts.entries.length, s)
  | .jit index =>
      match s.compiled[index]? with
      | none => (.absent, s)
      | some c =>
          let (identity, s) := s.jit index c
          (.function identity, s)
  | .mapped index inAxes outAxes =>
      match s.compiled[index]? with
      | none => (.absent, s)
      | some c =>
          if inAxes.isWritable && outAxes.isWritable then
            let (identity, cached, s) := s.mapped index c inAxes outAxes
            (.derived identity cached, s)
          else (.unwritable, s)
  | .gradient index selection =>
      match s.compiled[index]? with
      | none => (.absent, s)
      | some c =>
          let (identity, cached, s) := s.gradient index c selection
          (.derived identity cached, s)

def run (s : Session) : List Request → List Reply × Session
  | [] => ([], s)
  | request :: requests =>
      let (reply, s) := s.step request
      let (replies, s) := s.run requests
      (reply :: replies, s)

end Session

end Polish
