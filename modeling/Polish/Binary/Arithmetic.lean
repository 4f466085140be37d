import Polish.Binary.Rounding

set_option autoImplicit false

namespace Polish

namespace Binary

variable {f : Format}

def ofUnits (zeroNegative : Bool) (units : Int) : Binary f :=
  if units = 0 then zero zeroNegative else round (units < 0) units.natAbs 1

def signedUnits (negative : Bool) (significand scale : Nat) : Int :=
  let size : Int := (significand * 2 ^ scale : Nat)
  if negative then -size else size

/-- A sum that cancels is positive, unless both terms are negative zeros. -/
def add : Binary f → Binary f → Binary f
  | .nan, _ => .nan
  | _, .nan => .nan
  | .infinite n, .infinite n' => if n == n' then .infinite n else .nan
  | .infinite n, _ => .infinite n
  | _, .infinite n => .infinite n
  | .finite n m s _, .finite n' m' s' _ =>
      ofUnits (n && n') (signedUnits n m s + signedUnits n' m' s')

def sub (a b : Binary f) : Binary f := a.add b.negate

def mul : Binary f → Binary f → Binary f
  | .nan, _ => .nan
  | _, .nan => .nan
  | .infinite n, .infinite n' => .infinite (n != n')
  | .infinite n, .finite n' m' _ _ => if m' = 0 then .nan else .infinite (n != n')
  | .finite n m _ _, .infinite n' => if m = 0 then .nan else .infinite (n != n')
  | .finite n m s _, .finite n' m' s' _ =>
      round (n != n') (m * 2 ^ s * (m' * 2 ^ s')) (2 ^ f.unitBits)

/-- A zero divisor gives an infinity, or a NaN below a zero. -/
def div : Binary f → Binary f → Binary f
  | .nan, _ => .nan
  | _, .nan => .nan
  | .infinite _, .infinite _ => .nan
  | .infinite n, .finite n' _ _ _ => .infinite (n != n')
  | .finite n _ _ _, .infinite n' => zero (n != n')
  | .finite n m s _, .finite n' m' s' _ =>
      if m' = 0 then
        if m = 0 then .nan else .infinite (n != n')
      else round (n != n') (m * 2 ^ s * 2 ^ f.unitBits) (m' * 2 ^ s')

instance : Add (Binary f) := ⟨add⟩
instance : Sub (Binary f) := ⟨sub⟩
instance : Mul (Binary f) := ⟨mul⟩
instance : Div (Binary f) := ⟨div⟩
instance : Neg (Binary f) := ⟨negate⟩

/-- The integer square root, from the root of a quarter of the number. -/
def rootFloor (n : Nat) : Nat :=
  if h : n = 0 then 0
  else
    let low := 2 * rootFloor (n / 4)
    if (low + 1) * (low + 1) ≤ n then low + 1 else low
termination_by n
decreasing_by omega

/-- The square root; that of a negative number is a NaN, that of a zero is the zero itself. -/
def sqrt : Binary f → Binary f
  | .nan => .nan
  | .infinite negative => if negative then .nan else .infinite false
  | .finite negative m s h =>
      if m = 0 then .finite negative m s h
      else if negative then .nan
      else
        -- Four guard bits, and a last bit that is set when the root is inexact.
        let square := m * 2 ^ s * 2 ^ f.unitBits * 4 ^ (4 : Nat)
        let root := rootFloor square
        round false (2 * root + if root * root = square then 0 else 1) (2 ^ (5 : Nat))

/-- The power of two doubles, as the platform computes it. -/
def power (base exponent : Double) : Double :=
  let ofDouble (d : Double) : Float := Float.ofBits (UInt64.ofNat d.toBits)
  ofBits Format.double (Float.pow (ofDouble base) (ofDouble exponent)).toBits.toNat

def sum (values : List (Binary f)) : Binary f := values.foldl (· + ·) (zero false)

def product (values : List (Binary f)) : Binary f := values.foldl (· * ·) (ofInt f 1)

def greater (a b : Binary f) : Binary f := if b.lt a then a else b

def lesser (a b : Binary f) : Binary f := if a.lt b then a else b

theorem add_eq (a b : Binary f) : a + b = add a b := rfl
theorem mul_eq (a b : Binary f) : a * b = mul a b := rfl

end Binary

end Polish
