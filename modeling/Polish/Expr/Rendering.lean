import Polish.Expr.Basic

set_option autoImplicit false

namespace Polish.Expr

def isWritable (e : Expr) : Bool :=
  e.labels.all fun
    | .constant value => value.isWritable
    | _ => true

/-- Words with one space between each two. -/
def spaced (words : List (List Char)) : List Char := [' '].intercalate words

/-- The text of a leaf; a plain value shows its kind. -/
def leafChars : Expr → List Char
  | .const value => value.text.toList
  | .var v => v.name.toList
  | .foreign value => '<' :: value.kindName.toList ++ ['>']
  | .apply .. => []

mutual

def prefixChars : Expr → List Char
  | .apply op args =>
      '(' :: op.symbol.toList ++ ' ' :: spaced (prefixCharsList args) ++ [')']
  | leaf => leafChars leaf

def prefixCharsList : List Expr → List (List Char)
  | [] => []
  | e :: es => prefixChars e :: prefixCharsList es

end

mutual

def postfixChars : Expr → List Char
  | .apply op args => spaced (postfixCharsList args) ++ ' ' :: op.symbol.toList
  | leaf => leafChars leaf

def postfixCharsList : List Expr → List (List Char)
  | [] => []
  | e :: es => postfixChars e :: postfixCharsList es

end

/-- The fully parenthesised text, operators first. -/
def prefixText (e : Expr) : String := String.ofList e.prefixChars

/-- The text without parentheses, operators last. -/
def postfixText (e : Expr) : String := String.ofList e.postfixChars

theorem prefixCharsList_eq_map (es : List Expr) : prefixCharsList es = es.map prefixChars := by
  induction es with
  | nil => rfl
  | cons e es ih => simp [prefixCharsList, ih]

theorem postfixCharsList_eq_map (es : List Expr) : postfixCharsList es = es.map postfixChars := by
  induction es with
  | nil => rfl
  | cons e es ih => simp [postfixCharsList, ih]

end Polish.Expr
