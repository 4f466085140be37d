import Polish.Decimal.Shortest

set_option autoImplicit false

namespace Polish

/-- The choices that fix the text of a number. -/
structure Layout where
  /-- The least exponent of the leading digit that is still written with a point. -/
  lowest : Int
  /-- The greatest such exponent. -/
  highest : Int
  /-- The fewest digits of a written exponent. -/
  exponentDigits : Nat

namespace Layout

def padLeft (width : Nat) (digits : List Char) : List Char :=
  List.replicate (width - digits.length) '0' ++ digits

/-- The digits without closing zeros; at least one digit stays. -/
def trim (digits : List Char) : List Char :=
  match (digits.reverse.dropWhile (· == '0')).reverse with
  | [] => ['0']
  | kept => kept

/-- Digits with the point after `whole` of them; a point always has digits on both sides. -/
def positional (digits : List Char) (whole : Int) : List Char :=
  if whole ≤ 0 then '0' :: '.' :: (List.replicate (-whole).toNat '0' ++ digits)
  else
    let count := whole.toNat
    if digits.length ≤ count then
      digits ++ List.replicate (count - digits.length) '0' ++ ['.', '0']
    else digits.take count ++ '.' :: digits.drop count

/-- Digits with the point after the first, if more follow, and a signed exponent. -/
def scientific (layout : Layout) (digits : List Char) (exponent : Int) : List Char :=
  let fraction := if digits.length ≤ 1 then [] else '.' :: digits.drop 1
  let sign := if exponent < 0 then '-' else '+'
  digits.take 1 ++ fraction ++ 'e' :: sign ::
    padLeft layout.exponentDigits (Nat.toDigits 10 exponent.natAbs)

def decimal (layout : Layout) (d : Decimal) : List Char :=
  let all := Nat.toDigits 10 d.significand
  let digits := trim all
  let leading := d.exponent + all.length - 1
  if layout.lowest ≤ leading ∧ leading ≤ layout.highest then positional digits (leading + 1)
  else layout.scientific digits leading

def text (layout : Layout) {f : Format} : Binary f → String
  | .nan => "nan"
  | .infinite negative => if negative then "-inf" else "inf"
  | .finite negative m s _ =>
      let digits := if m = 0 then ['0', '.', '0'] else layout.decimal (Decimal.shortest f m s)
      String.ofList (if negative then '-' :: digits else digits)

/-- Sixteen digits before the point and four zeros after it are still written out. -/
def plain : Layout := ⟨-4, 15, 2⟩

end Layout

end Polish
