import Polish.Binary.Arithmetic
import Polish.Decimal.Layout
import Polish.Decimal.Reading

set_option autoImplicit false

namespace Polish

/-- A constant or an argument; a truth value counts as one or zero. -/
inductive Number where
  | integer (value : Int)
  | truth (value : Bool)
  | double (value : Double)
deriving DecidableEq

namespace Number

instance : Inhabited Number := ⟨.integer 0⟩

/-- The integer that an integer or a truth value stands for. -/
def integer? : Number → Option Int
  | .integer n => some n
  | .truth b => some (if b then 1 else 0)
  | .double _ => none

def toDouble : Number → Double
  | .integer n => .ofInt .double n
  | .truth b => .ofInt .double (if b then 1 else 0)
  | .double d => d

def unitsOf (n : Int) : Int := n * (2 ^ Format.double.unitBits : Nat)

/-- Exact numeric equality across kinds; a NaN equals nothing. -/
def same (a b : Number) : Bool :=
  match a, b with
  | .double d, .double e => d.same e
  | .double d, other | other, .double d =>
      match other.integer? with
      | some n => d.units? == some (unitsOf n)
      | none => false
  | _, _ => a.integer? == b.integer?

def integerBelow (n : Int) : Double → Bool
  | .nan => false
  | .infinite negative => !negative
  | d => d.units?.any (unitsOf n < ·)

def belowInteger (n : Int) : Double → Bool
  | .nan => false
  | .infinite negative => negative
  | d => d.units?.any (· < unitsOf n)

/-- Exact numeric order across kinds; false beside a NaN. -/
def lt (a b : Number) : Bool :=
  match a, b with
  | .double d, .double e => d.lt e
  | .double d, other => other.integer?.any (belowInteger · d)
  | other, .double d => other.integer?.any (integerBelow · d)
  | _, _ =>
      match a.integer?, b.integer? with
      | some m, some n => m < n
      | _, _ => false

def text : Number → String
  | .integer n => toString n
  | .truth b => if b then "True" else "False"
  | .double d => Layout.plain.text d

/-- Whether a number is written out: an integer is if it is not too long to be read again. -/
def isWritable : Number → Bool
  | .integer n => (Nat.toDigits 10 n.natAbs).length ≤ Decimal.digitLimit
  | _ => true

end Number

/-- A number that arrays are made of. A truth value is none: it would make an array of truth values,
on which operators do not compute as on numbers. -/
inductive Scalar where
  | integer (value : Int)
  | double (value : Double)
deriving DecidableEq

def Scalar.number : Scalar → Number
  | .integer n => .integer n
  | .double d => .double d

end Polish
