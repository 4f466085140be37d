/-!
Binary floating-point numbers, one type for every format.

A finite number is an integer count of the least positive number of its format: its significand
shifted by its scale. Every value has one representation, so equality of values is equality of
bit patterns, with all NaNs counted as one.
-/

set_option autoImplicit false

namespace Polish

/-- Powers of naturals and of integers as the core library has them. With this instance a power
means the same in every module, also beside those of monoids. -/
@[reducible] def corePow {α : Type} [NatPow α] : Pow α Nat := instPowNat

attribute [scoped instance] corePow

/-- A binary format, given by the widths of its two stored fields. -/
structure Format where
  fractionBits : Nat
  exponentBits : Nat
deriving DecidableEq, Repr

namespace Format

def double : Format := ⟨52, 11⟩
def single : Format := ⟨23, 8⟩

def topScale (f : Format) : Nat := 2 ^ f.exponentBits - 3

/-- The least positive number is two to minus this. -/
def unitBits (f : Format) : Nat := 2 ^ (f.exponentBits - 1) - 2 + f.fractionBits

/-- A significand fits its field, and only numbers of scale zero have a short one. -/
def Canonical (f : Format) (significand scale : Nat) : Prop :=
  significand < 2 ^ (f.fractionBits + 1) ∧ scale ≤ f.topScale ∧
    (scale = 0 ∨ 2 ^ f.fractionBits ≤ significand)

instance (f : Format) (significand scale : Nat) : Decidable (f.Canonical significand scale) := by
  unfold Canonical
  infer_instance

end Format

inductive Binary (f : Format) where
  | nan
  | infinite (negative : Bool)
  | finite (negative : Bool) (significand scale : Nat)
      (canonical : f.Canonical significand scale)
deriving DecidableEq

abbrev Double := Binary Format.double
abbrev Single := Binary Format.single

namespace Binary

variable {f : Format}

theorem canonical_zero : f.Canonical 0 0 := by
  refine ⟨Nat.two_pow_pos _, Nat.zero_le _, Or.inl rfl⟩

def zero (negative : Bool) : Binary f := .finite negative 0 0 canonical_zero

instance : Inhabited (Binary f) := ⟨zero false⟩

/-- The number with these parts, infinite when they are out of range. -/
def pack (negative : Bool) (significand scale : Nat) : Binary f :=
  if canonical : f.Canonical significand scale then .finite negative significand scale canonical
  else .infinite negative

def isNaN : Binary f → Bool
  | .nan => true
  | _ => false

def isInfinite : Binary f → Bool
  | .infinite _ => true
  | _ => false

def isZero : Binary f → Bool
  | .finite _ 0 _ _ => true
  | _ => false

/-- The sign bit; a NaN counts as positive. -/
def isNegative : Binary f → Bool
  | .nan => false
  | .infinite negative => negative
  | .finite negative .. => negative

def negate : Binary f → Binary f
  | .nan => .nan
  | .infinite negative => .infinite (!negative)
  | .finite negative m s h => .finite (!negative) m s h

def magnitude : Binary f → Binary f
  | .nan => .nan
  | .infinite _ => .infinite false
  | .finite _ m s h => .finite false m s h

/-- The exact value of a finite number, in units of the least positive number. -/
def units? : Binary f → Option Int
  | .finite negative m s _ =>
      let size : Int := (m * 2 ^ s : Nat)
      some (if negative then -size else size)
  | _ => none

/-- Where a number stands among all numbers; the infinities stand beyond the finite ones. -/
def place? : Binary f → Option Int
  | .nan => none
  | .infinite negative =>
      let beyond : Int := (2 ^ (f.fractionBits + 1 + f.topScale) : Nat)
      some (if negative then -beyond else beyond)
  | .finite negative m s _ =>
      let size : Int := (m * 2 ^ s : Nat)
      some (if negative then -size else size)

/-- Less than; false beside a NaN. -/
def lt (a b : Binary f) : Bool :=
  match a.place?, b.place? with
  | some p, some q => p < q
  | _, _ => false

/-- Numeric equality: the two zeros are equal, a NaN equals nothing. -/
def same (a b : Binary f) : Bool :=
  match a.place?, b.place? with
  | some p, some q => p == q
  | _, _ => false

/-- The number stored as these bits, sign first. -/
def ofBits (f : Format) (bits : Nat) : Binary f :=
  let fraction := bits % 2 ^ f.fractionBits
  let exponent := bits / 2 ^ f.fractionBits % 2 ^ f.exponentBits
  let negative := bits / 2 ^ (f.fractionBits + f.exponentBits) % 2 == 1
  if exponent + 1 = 2 ^ f.exponentBits then
    if fraction = 0 then .infinite negative else .nan
  else if exponent = 0 then pack negative fraction 0
  else pack negative (2 ^ f.fractionBits + fraction) (exponent - 1)

def toBits : Binary f → Nat
  | .nan => (2 ^ f.exponentBits - 1) * 2 ^ f.fractionBits + 2 ^ (f.fractionBits - 1)
  | .infinite negative =>
      signBits negative + (2 ^ f.exponentBits - 1) * 2 ^ f.fractionBits
  | .finite negative m s _ =>
      if m < 2 ^ f.fractionBits then signBits negative + m
      else signBits negative + (s + 1) * 2 ^ f.fractionBits + (m - 2 ^ f.fractionBits)
where
  signBits (negative : Bool) : Nat :=
    if negative then 2 ^ (f.fractionBits + f.exponentBits) else 0

theorem same_comm (a b : Binary f) : a.same b = b.same a := by
  unfold same
  cases a.place? <;> cases b.place? <;> simp [Bool.beq_comm]

theorem lt_irrefl (a : Binary f) : a.lt a = false := by
  unfold lt
  cases a.place? <;> simp

end Binary

end Polish
