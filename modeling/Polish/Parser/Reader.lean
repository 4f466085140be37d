import Polish.Parser.Basic

set_option autoImplicit false

namespace Polish

/-- A place in a text: its position and the characters from there on. -/
structure Reader where
  position : Nat
  rest : List Char

namespace Reader

def ofText (text : String) : Reader := ⟨0, text.toList⟩

def stop (r : Reader) : Nat := r.position + r.rest.length

def advance (r : Reader) (position : Nat) : Reader :=
  ⟨position, r.rest.drop (position - r.position)⟩

def skipBlanks (r : Reader) : Reader :=
  r.advance (r.position + (r.rest.takeWhile Token.isBlank).length)

def isAtEnd (r : Reader) : Bool := r.rest.isEmpty

def tokens (r : Reader) : List Token := Token.scan r.position r.rest

/-- The next token, empty at the end of the text. -/
def token (r : Reader) : String × Reader :=
  match r.tokens with
  | [] => ("", r.advance r.stop)
  | t :: _ => (t.text, r.advance t.stop)

/-- The next token, if it has a place where `wanted` is expected. -/
def expect (r : Reader) (wanted : Expectation) (openList : Bool) :
    Except Rejection String × Reader :=
  match Parser.next r.stop wanted openList r.tokens with
  | .ok (t, _) => (.ok t.text, r.advance t.stop)
  | .error rejection => (.error rejection, r.advance rejection.position)

def expression (r : Reader) : Except Rejection Expr × Reader :=
  let tokens := r.tokens
  match Parser.expression r.stop tokens with
  | .ok (e, ⟨left, _⟩) =>
      let last := (tokens.take (tokens.length - left.length)).getLast?
      (.ok e, r.advance (last.elim r.position (·.stop)))
  | .error rejection => (.error rejection, r.advance rejection.position)

/-- The tokens up to the end of the text, each with the place behind it. -/
def readAll (r : Reader) : List (String × Nat) := r.tokens.map fun t => (t.text, t.stop)

end Reader

end Polish
