import Polish.Number
import Polish.Sorting.Runs

set_option autoImplicit false

namespace Polish

inductive StatisticsError where
  | divisionByZero
  | outOfRange
  | hugeIndex
  | hugeInteger
  | hugeQuotient
  | hugeSquare
  | infiniteIndex
  | undefinedIndex
deriving DecidableEq, Repr

namespace StatisticsError

def message : StatisticsError → String
  | .divisionByZero => "division by zero"
  | .outOfRange => "list index out of range"
  | .hugeIndex => "cannot fit 'int' into an index-sized integer"
  | .hugeInteger => "int too large to convert to float"
  | .hugeQuotient => "integer division result too large for a float"
  | .hugeSquare => "(34, 'Numerical result out of range')"
  | .infiniteIndex => "cannot convert float infinity to integer"
  | .undefinedIndex => "cannot convert float NaN to integer"

end StatisticsError

namespace Number

def toFiniteDouble (n : Number) : Except StatisticsError Double :=
  match n with
  | .double d => .ok d
  | other =>
      let d := other.toDouble
      if d.isInfinite then .error .hugeInteger else .ok d

def combine (onIntegers : Int → Int → Int) (onDoubles : Double → Double → Double) (a b : Number) :
    Except StatisticsError Number :=
  match a.integer?, b.integer? with
  | some m, some n => .ok (.integer (onIntegers m n))
  | _, _ => do return .double (onDoubles (← a.toFiniteDouble) (← b.toFiniteDouble))

def add : Number → Number → Except StatisticsError Number := combine (· + ·) (· + ·)
def subtract : Number → Number → Except StatisticsError Number := combine (· - ·) (· - ·)
def multiply : Number → Number → Except StatisticsError Number := combine (· * ·) (· * ·)

def divideBy (n : Number) (count : Nat) : Except StatisticsError Double :=
  if count = 0 then .error .divisionByZero
  else
    match n.integer? with
    | some i =>
        let d := Binary.ofFraction .double (i < 0) i.natAbs count
        if d.isInfinite then .error .hugeQuotient else .ok d
    | none => .ok (n.toDouble / .ofInt .double count)

end Number

namespace Statistics

def total (values : List Number) : Except StatisticsError Number :=
  values.foldlM Number.add (.integer 0)

def mean (values : List Number) : Except StatisticsError Double := do
  (← total values).divideBy values.length

/-- A square; one of a finite number that is not finite is an error. -/
def square (d : Double) : Except StatisticsError Double :=
  let result := Binary.power d (.ofInt .double 2)
  if result.isInfinite && !d.isInfinite then .error .hugeSquare else .ok result

/-- The deviation of a sample from its mean; zero below two values. -/
def deviation (values : List Number) : Except StatisticsError Double := do
  if values.length < 2 then return .zero false
  let middle ← mean values
  let squares ← values.mapM fun v => do square ((← v.toFiniteDouble) - middle)
  let variance := Binary.sum squares / .ofInt .double (values.length - 1 : Nat)
  return variance.sqrt

/-- The number at an index; negative indices count from the end. -/
def at? (values : List Number) (index : Int) : Except StatisticsError Number :=
  if index < -2 ^ (63 : Nat) ∨ 2 ^ (63 : Nat) ≤ index then .error .hugeIndex
  else
    let i := if index < 0 then index + values.length else index
    if i < 0 then .error .outOfRange
    else
      match values[i.toNat]? with
      | some n => .ok n
      | none => .error .outOfRange

/-- The integers next to a number, below and above. -/
def neighbours (n : Number) : Except StatisticsError (Int × Int) :=
  match n with
  | .double .nan => .error .undefinedIndex
  | .double (.infinite _) => .error .infiniteIndex
  | .double d =>
      let units := d.units?.getD 0
      let step : Int := (2 ^ Format.double.unitBits : Nat)
      let low := units.fdiv step
      .ok (low, if units.fmod step = 0 then low else low + 1)
  | other =>
      let i := other.integer?.getD 0
      .ok (i, i)

/-- The value below which a share `q` of the sample lies, between the two nearest ranks. -/
def percentile (values : List Number) (q : Number) : Except StatisticsError Number := do
  let ordered := Sorting.sort Number.lt values
  match ordered with
  | [only] => return only
  | _ =>
      let place ← Number.multiply (.integer (ordered.length - 1 : Int)) q
      let (low, high) ← neighbours place
      if low = high then at? ordered low
      else
        let part ← Number.subtract place (.integer low)
        let below ← at? ordered low
        let rest ← Number.subtract (.double (.ofInt .double 1)) part
        let left ← Number.multiply below rest
        let right ← Number.multiply (← at? ordered high) part
        Number.add left right

structure Summary where
  mean : Double
  median : Number
  ninetieth : Number
  deviation : Double

def summary (values : List Number) : Except StatisticsError Summary := do
  let middle ← mean values
  let median ← percentile values (.double (.ofFraction .double false 1 2))
  let ninetieth ← percentile values (.double (.ofFraction .double false 9 10))
  return ⟨middle, median, ninetieth, ← deviation values⟩

/-- How many rows a measurement has, and how many calls it makes. -/
def plan (repeats warmup samples : Int) : Except StatisticsError (Nat × Nat) :=
  let rows := samples.toNat
  if rows ≠ 0 ∧ repeats = 0 then .error .divisionByZero
  else .ok (rows, warmup.toNat + rows * repeats.toNat)

end Statistics

end Polish
