import Polish.Operator

/-!
Tokens of expression text.

White space separates tokens; parentheses and the operators of one character are tokens wherever
they stand. A hyphen joins the character after it, so `-5` and `arith-mean` are one token each.
Main statement: reading a word takes at least one character, so a text has finitely many tokens.
-/

set_option autoImplicit false

namespace Polish

/-- A token with the positions of its first character and behind its last. -/
structure Token where
  text : String
  start : Nat
  stop : Nat
deriving DecidableEq, Repr

namespace Token

def isBlank (c : Char) : Bool := c == ' ' || c == '\t' || c == '\n' || c == '\r'

/-- The characters that are tokens of their own: parentheses and one-character symbols. -/
def delimiters : List Char :=
  ['(', ')'] ++ Operator.registered.filterMap fun op =>
    match op.symbol.toList with
    | [c] => some c
    | _ => none

def isDelimiter (c : Char) : Bool := delimiters.contains c

/-- Reads one word, and the text behind it. Once the word has `started`, a delimiter ends it. -/
def word (started : Bool) : List Char → List Char × List Char
  | [] => ([], [])
  | [c] =>
      if isBlank c || (started && isDelimiter c) then ([], [c]) else ([c], [])
  | c :: d :: rest =>
      if isBlank c then ([], c :: d :: rest)
      else if c == '-' && !isBlank d then
        if isDelimiter d then (['-'], d :: rest)
        else
          let (more, left) := word true rest
          ('-' :: d :: more, left)
      else if isDelimiter c then
        if started then ([], c :: d :: rest) else ([c], d :: rest)
      else
        let (more, left) := word true (d :: rest)
        (c :: more, left)

/-- A word and what is left make up the text. -/
theorem word_append (started : Bool) (cs : List Char) :
    (word started cs).1 ++ (word started cs).2 = cs := by
  fun_induction word started cs <;> simp_all

theorem word_ne_nil (c : Char) (cs : List Char) (notBlank : isBlank c = false) :
    (word false (c :: cs)).1 ≠ [] := by
  cases cs with
  | nil => simp [word, notBlank]
  | cons d rest =>
      by_cases joined : (c == '-' && !isBlank d) = true <;>
        by_cases ends : isDelimiter d = true <;>
          by_cases single : isDelimiter c = true <;> simp [word, notBlank, joined, ends, single]

theorem length_word_lt (c : Char) (cs : List Char) (notBlank : isBlank c = false) :
    (word false (c :: cs)).2.length < (c :: cs).length := by
  have whole := congrArg List.length (word_append false (c :: cs))
  have taken := List.length_pos_iff.mpr (word_ne_nil c cs notBlank)
  rw [List.length_append] at whole
  omega

/-- The tokens of a text that begins at a position. -/
def scan (position : Nat) (cs : List Char) : List Token :=
  match _found : cs.dropWhile isBlank with
  | [] => []
  | c :: rest =>
      let start := position + (cs.takeWhile isBlank).length
      let taken := (word false (c :: rest)).1
      ⟨String.ofList taken, start, start + taken.length⟩ ::
        scan (start + taken.length) (word false (c :: rest)).2
termination_by cs.length
decreasing_by
  have notBlank : isBlank c = false := by
    have head := List.head?_dropWhile_not isBlank cs
    rw [_found] at head
    simpa using head
  have shorter := length_word_lt c rest notBlank
  have suffix := (List.dropWhile_suffix isBlank (l := cs)).length_le
  rw [_found] at suffix
  omega

def ofText (text : String) : List Token := scan 0 text.toList

def opening : String := "("
def closing : String := ")"

end Token

end Polish
