import Polish.Binary.Basic

set_option autoImplicit false

namespace Polish

/-- The integer nearest to a quotient, a half to the even one. -/
def roundQuotient (numerator denominator : Nat) : Nat :=
  let quotient := numerator / denominator
  let remainder := numerator % denominator
  if 2 * remainder < denominator then quotient
  else if 2 * remainder = denominator then quotient + quotient % 2
  else quotient + 1

namespace Binary

variable {f : Format}

/-- The least scale at which the integer part of a quotient fits a significand. -/
def scaleFor (f : Format) (numerator denominator : Nat) : Nat :=
  Nat.log2 (numerator / denominator) - f.fractionBits

/-- Moves a significand that rounding has carried into the next binade. -/
def carry (negative : Bool) (significand scale : Nat) : Binary f :=
  if significand = 2 ^ (f.fractionBits + 1) then pack negative (2 ^ f.fractionBits) (scale + 1)
  else pack negative significand scale

def round (negative : Bool) (numerator denominator : Nat) : Binary f :=
  let scale := scaleFor f numerator denominator
  carry negative (roundQuotient numerator (denominator * 2 ^ scale)) scale

def ofInt (f : Format) (n : Int) : Binary f :=
  round (n < 0) (n.natAbs * 2 ^ f.unitBits) 1

def ofFraction (f : Format) (negative : Bool) (numerator denominator : Nat) : Binary f :=
  round negative (numerator * 2 ^ f.unitBits) denominator

def convert (g : Format) : Binary f → Binary g
  | .nan => .nan
  | .infinite negative => .infinite negative
  | .finite negative m s _ => ofFraction g negative (m * 2 ^ s) (2 ^ f.unitBits)

theorem roundQuotient_mul (n d : Nat) (positive : 0 < d) : roundQuotient (n * d) d = n := by
  simp [roundQuotient, Nat.mul_div_cancel n positive, positive]

end Binary

end Polish
