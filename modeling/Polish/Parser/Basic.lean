import Polish.Decimal.Reading
import Polish.Expr.Basic
import Polish.Fault
import Polish.Token

/-!
Reading an expression from its tokens, from the left and without looking ahead. Each step returns
the tokens that it leaves, which are never more than it was given.

The stack is taken as unbounded. The interpreter's is not: with its usual recursion limit it gives
up on some 330 nested parentheses.
-/

set_option autoImplicit false

namespace Polish.Parser

/-- What a step reads and the tokens it leaves. -/
abbrev Step (tokens : List Token) (α : Type) :=
  Except Rejection (α × { rest : List Token // rest.length ≤ tokens.length })

/-- The sign and the digits of an integer: a hyphen may stand in front of the digits. -/
def integerParts? (token : String) : Option (Bool × List Char) :=
  let (negative, digits) :=
    match token.toList with
    | '-' :: digits => (true, digits)
    | digits => (false, digits)
  if !digits.isEmpty && digits.all Char.isDigit then some (negative, digits) else none

def integerOf (negative : Bool) (digits : List Char) : Int :=
  let size : Int := Decimal.ofDigits digits
  if negative then -size else size

/-- An integer or a variable, from a token that ends at a position. -/
def leaf (token : String) (position : Nat) : Except Rejection Expr :=
  match integerParts? token with
  | some (negative, digits) =>
      if Decimal.digitLimit < digits.length then .error (.tooLong digits.length position)
      else .ok (.const (.integer (integerOf negative digits)))
  | none =>
      match Variable.ofName? token with
      | some v => .ok (.var v)
      | none => .error (.malformed ⟨.illegalVariable token, position⟩)

/-- The next token, unless it has no place where `wanted` is expected. -/
def next (stop : Nat) (wanted : Expectation) (openList : Bool) (tokens : List Token) :
    Except Rejection (Token × { rest : List Token // rest.length < tokens.length }) :=
  match tokens with
  | [] => .error (.malformed ⟨.endOfInput wanted, stop⟩)
  | token :: rest =>
      match wanted.objection? openList token.text with
      | some cause => .error (.malformed ⟨cause, token.stop⟩)
      | none => .ok (token, ⟨rest, Nat.lt_succ_self _⟩)

mutual

/-- What begins with a token that is already taken. -/
def argument (stop : Nat) (token : Token) (tokens : List Token) : Step tokens Expr :=
  if token.text = Token.opening then operation stop tokens
  else
    match leaf token.text token.stop with
    | .error rejection => .error rejection
    | .ok e => .ok (e, ⟨tokens, Nat.le_refl _⟩)
termination_by (tokens.length, 3)

def operation (stop : Nat) (tokens : List Token) : Step tokens Expr :=
  match next stop .operation false tokens with
  | .error rejection => .error rejection
  | .ok (token, ⟨rest, shorter⟩) =>
      match Operator.ofSymbol? token.text with
      | none => .error (.malformed ⟨.unknownOperation token.text, token.stop⟩)
      | some op =>
          match arguments stop op rest with
          | .error rejection => .error rejection
          | .ok (args, ⟨left, fewer⟩) => .ok (.apply op args, ⟨left, by omega⟩)
termination_by (tokens.length, 2)

def arguments (stop : Nat) (op : Operator) (tokens : List Token) : Step tokens (List Expr) :=
  match op.arity with
  | .exactly count => fixed stop op.symbol 1 count.toNat tokens
  | .variadic => variadic stop op.symbol 1 tokens
termination_by (tokens.length, 1)

/-- As many arguments as `missing` says, the first with the given number, and the parenthesis. -/
def fixed (stop : Nat) (symbol : String) (number missing : Nat) (tokens : List Token) :
    Step tokens (List Expr) :=
  match missing with
  | 0 =>
      match next stop .closing false tokens with
      | .error rejection => .error rejection
      | .ok (_, ⟨rest, shorter⟩) => .ok ([], ⟨rest, by omega⟩)
  | missing + 1 =>
      match next stop (.argument number symbol) false tokens with
      | .error rejection => .error rejection
      | .ok (token, ⟨rest, shorter⟩) =>
          match argument stop token rest with
          | .error rejection => .error rejection
          | .ok (e, ⟨left, fewer⟩) =>
              match fixed stop symbol (number + 1) missing left with
              | .error rejection => .error rejection
              | .ok (es, ⟨last, least⟩) => .ok (e :: es, ⟨last, by omega⟩)
termination_by (tokens.length, 0)

/-- Arguments up to the closing parenthesis, the first with the given number. -/
def variadic (stop : Nat) (symbol : String) (number : Nat) (tokens : List Token) :
    Step tokens (List Expr) :=
  match next stop (.argument number symbol) true tokens with
  | .error rejection => .error rejection
  | .ok (token, ⟨rest, shorter⟩) =>
      if token.text = Token.closing then
        if number = 1 then .error (.malformed ⟨.noArguments symbol, token.stop⟩)
        else .ok ([], ⟨rest, by omega⟩)
      else
        match argument stop token rest with
        | .error rejection => .error rejection
        | .ok (e, ⟨left, fewer⟩) =>
            match variadic stop symbol (number + 1) left with
            | .error rejection => .error rejection
            | .ok (es, ⟨last, least⟩) => .ok (e :: es, ⟨last, by omega⟩)
termination_by (tokens.length, 0)

end

/-- An expression; `stop` is the position at which the text ends. -/
def expression (stop : Nat) (tokens : List Token) : Step tokens Expr :=
  match next stop .expression false tokens with
  | .error rejection => .error rejection
  | .ok (token, ⟨rest, shorter⟩) =>
      match argument stop token rest with
      | .error rejection => .error rejection
      | .ok (e, ⟨left, fewer⟩) => .ok (e, ⟨left, by omega⟩)

/-- The expression that a list of tokens spells from end to end. -/
def whole (stop : Nat) (tokens : List Token) : Except Rejection Expr :=
  match expression stop tokens with
  | .error rejection => .error rejection
  | .ok (e, ⟨[], _⟩) => .ok e
  | .ok (_, ⟨token :: _, _⟩) => .error (.malformed ⟨.trailing token.text, token.start⟩)

/-- The expression that a text spells. -/
def parse (text : String) : Except Rejection Expr := whole text.length (Token.ofText text)

end Polish.Parser
