import Polish.Token

set_option autoImplicit false

namespace Polish.Text

/-- A place in a text; a negative index counts from the end. -/
structure Cursor where
  text : List Char
  index : Int

/-- The cursor stands below the first character. -/
inductive OutOfRange where
  | outOfRange
deriving DecidableEq, Repr

namespace Cursor

def length (c : Cursor) : Int := c.text.length

/-- Whether the index is below the end, so that a character is left to read. -/
def hasCharacter (c : Cursor) : Bool := c.index < c.length

/-- The character at the index, from the end for a negative one. -/
def character? (c : Cursor) : Option Char :=
  let i := if c.index < 0 then c.index + c.length else c.index
  if i < 0 then none else c.text[i.toNat]?

/-- The character at the index, unless the end is reached. -/
def peek (c : Cursor) : Except OutOfRange (Option Char) :=
  if c.hasCharacter then
    match c.character? with
    | some ch => .ok (some ch)
    | none => .error .outOfRange
  else .ok none

def test (c : Cursor) (expected : String) : Except OutOfRange Bool := do
  return (← c.peek).any fun ch => String.singleton ch == expected

def isAtBlank (c : Cursor) : Except OutOfRange Bool := do
  return (← c.peek).any Token.isBlank

/-- Steps over white space. -/
def skipBlanks (c : Cursor) : Except OutOfRange Cursor :=
  match c.isAtBlank with
  | .error e => .error e
  | .ok blank =>
      if blank ∧ c.index < c.length then skipBlanks { c with index := c.index + 1 } else .ok c
termination_by (c.length - c.index).toNat
decreasing_by
  simp only [length] at *
  omega

def next (c : Cursor) : Except OutOfRange (Char × Cursor) :=
  match c.character? with
  | some ch => .ok (ch, { c with index := c.index + 1 })
  | none => .error .outOfRange

def shift (c : Cursor) (distance : Int) : Cursor := { c with index := c.index + distance }

end Cursor

end Polish.Text
