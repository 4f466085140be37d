import Polish.Binary.Rounding
import Polish.Text.Digit

set_option autoImplicit false

namespace Polish.Decimal

open Polish.Text

/-- Digits of other scripts become the usual ones. -/
def plainDigit (c : Char) : Char :=
  match digitValue? c with
  | some d => Nat.digitChar d
  | none => c

/-- Drops the underscores, each of which stands between two digits. -/
def dropUnderscores? (before : Char) : List Char → Option (List Char)
  | [] => if before == '_' then none else some []
  | c :: rest =>
      if c == '_' then
        if before.isDigit then dropUnderscores? c rest else none
      else if before == '_' && !c.isDigit then none
      else (dropUnderscores? c rest).map (c :: ·)

def splitSign : List Char → Bool × List Char
  | '-' :: rest => (true, rest)
  | '+' :: rest => (false, rest)
  | cs => (false, cs)

def ofDigits (digits : List Char) : Nat :=
  digits.foldl (fun n c => 10 * n + (c.toNat - '0'.toNat)) 0

/-- A number of digits before the point, after it, and a power of ten. -/
structure Scientific where
  whole : List Char
  fraction : List Char
  exponent : Int

/-- Reads digits with an optional point and an optional exponent, up to the end. -/
def scientific? (cs : List Char) : Option Scientific :=
  let whole := cs.takeWhile Char.isDigit
  let afterWhole := cs.dropWhile Char.isDigit
  let (fraction, rest) :=
    match afterWhole with
    | '.' :: more => (more.takeWhile Char.isDigit, more.dropWhile Char.isDigit)
    | _ => ([], afterWhole)
  if whole.isEmpty && fraction.isEmpty then none
  else
    match rest with
    | [] => some ⟨whole, fraction, 0⟩
    | mark :: more =>
        if mark == 'e' || mark == 'E' then
          let (negative, digits) := splitSign more
          if digits.isEmpty || !digits.all Char.isDigit then none
          else
            let size : Int := ofDigits digits
            some ⟨whole, fraction, if negative then -size else size⟩
        else none

/-- The number nearest to a decimal; an exponent far out of range is not expanded. -/
def Scientific.round (f : Format) (negative : Bool) (s : Scientific) : Binary f :=
  let digits := s.whole ++ s.fraction
  let significand := ofDigits digits
  let exponent := s.exponent - s.fraction.length
  if significand = 0 then .zero negative
  else
    let reach : Int := 2 ^ f.exponentBits
    if reach < exponent then .infinite negative
    else if exponent + digits.length < -reach then .zero negative
    else
      .ofFraction f negative (significand * 10 ^ exponent.toNat) (10 ^ (-exponent).toNat)

/-- The names of the numbers that have no digits. -/
def special? (f : Format) (negative : Bool) (cs : List Char) : Option (Binary f) :=
  let word := String.ofList (cs.map Char.toLower)
  if word == "inf" || word == "infinity" then some (.infinite negative)
  else if word == "nan" then some .nan
  else none

def read? (f : Format) (s : String) : Option (Binary f) := do
  let cs ← dropUnderscores? ' ' ((trimSpace s.toList).map plainDigit)
  let (negative, body) := splitSign cs
  match special? f negative body with
  | some number => some number
  | none => (scientific? body).map (Scientific.round f negative)

inductive IntegerFault where
  | malformed
  | tooLong (digits : Nat)
deriving DecidableEq, Repr

def digitLimit : Nat := 4300

def tooLongMessage (digits : Nat) : String :=
  "Exceeds the limit (4300 digits) for integer string conversion: value has " ++
    toString digits ++ " digits; use sys.set_int_max_str_digits() to increase the limit"

def unwritableMessage : String :=
  "Exceeds the limit (4300 digits) for integer string conversion; " ++
    "use sys.set_int_max_str_digits() to increase the limit"

/-- Reads an integer; a run of digits that is too long is refused before what follows it. -/
def readInteger (s : String) : Except IntegerFault Int :=
  let (negative, body) := splitSign ((trimSpace s.toList).map plainDigit)
  let inRun (c : Char) : Bool := c.isDigit || c == '_'
  match dropUnderscores? ' ' (body.takeWhile inRun) with
  | none => .error .malformed
  | some digits =>
      if digitLimit < digits.length then .error (.tooLong digits.length)
      else if digits.isEmpty || !(body.dropWhile inRun).isEmpty then .error .malformed
      else
        let size : Int := ofDigits digits
        .ok (if negative then -size else size)

end Polish.Decimal
