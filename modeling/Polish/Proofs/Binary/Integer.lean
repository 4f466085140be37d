import Polish.Binary.Arithmetic
import Polish.Proofs.Binary.Rounding

set_option autoImplicit false

namespace Polish

/-- The exponents reach from one to the largest integer that fits a significand. -/
structure Format.Wide (f : Format) : Prop where
  below : f.fractionBits ≤ f.unitBits
  above : f.unitBits < f.topScale

theorem Format.wide_double : Format.double.Wide := ⟨by decide, by decide⟩

theorem Format.wide_single : Format.single.Wide := ⟨by decide, by decide⟩

theorem roundQuotient_mul_mul (n d : Nat) {c : Nat} (positive : 0 < c) :
    roundQuotient (n * c) (d * c) = roundQuotient n d := by
  have less : 2 * (n % d * c) < d * c ↔ 2 * (n % d) < d := by
    rw [← Nat.mul_assoc, Nat.mul_lt_mul_right positive]
  have equal : 2 * (n % d * c) = d * c ↔ 2 * (n % d) = d := by
    rw [← Nat.mul_assoc, Nat.mul_left_inj (Nat.ne_of_gt positive)]
  simp only [roundQuotient, Nat.mul_div_mul_right _ _ positive, Nat.mul_mod_mul_right, less, equal]

namespace Binary

variable {f g : Format} {a b : Binary f} {m n : Int}

/-- Rounding a quotient that is a count of units is rounding the count. -/
theorem round_mul (negative : Bool) (units : Nat) {d : Nat} (positive : 0 < d) :
    (round negative (units * d) d : Binary f) = round negative units 1 := by
  have scale : scaleFor f (units * d) d = scaleFor f units 1 := by
    rw [scaleFor, scaleFor, Nat.mul_div_cancel _ positive, Nat.div_one]
  have quotient : roundQuotient (units * d) (d * 2 ^ scaleFor f units 1) =
      roundQuotient units (1 * 2 ^ scaleFor f units 1) := by
    rw [Nat.mul_comm d, Nat.one_mul, roundQuotient_mul_mul _ _ positive]
  rw [round, round, scale, quotient]

/-- An integer that fits a significand is a significand with a scale. -/
theorem exists_canonical (wide : f.Wide) {k : Nat} (small : k ≤ 2 ^ (f.fractionBits + 1)) :
    ∃ m s, f.Canonical m s ∧ m * 2 ^ s = k * 2 ^ f.unitBits := by
  have below := wide.below
  have above := wide.above
  by_cases zero : k = 0
  · exact ⟨0, 0, canonical_zero, by rw [zero]; simp⟩
  by_cases top : k = 2 ^ (f.fractionBits + 1)
  · refine ⟨2 ^ f.fractionBits, f.unitBits + 1, ⟨?_, above, Or.inr (Nat.le_refl _)⟩, ?_⟩
    · exact Nat.pow_lt_pow_right (by decide) (Nat.lt_succ_self _)
    · rw [top, ← Nat.pow_add, ← Nat.pow_add]
      congr 1
      omega
  -- The significand is brought to full length, and the scale makes up for it.
  have lower := Nat.log2_self_le zero
  have upper := Nat.lt_log2_self (n := k)
  have short : k.log2 ≤ f.fractionBits := by
    have less := (Nat.log2_lt zero).mpr (Nat.lt_of_le_of_ne small top)
    omega
  have length : k.log2 + (f.fractionBits - k.log2) = f.fractionBits := by omega
  refine ⟨k * 2 ^ (f.fractionBits - k.log2), f.unitBits - (f.fractionBits - k.log2),
    ⟨?_, by omega, Or.inr ?_⟩, ?_⟩
  · calc k * 2 ^ (f.fractionBits - k.log2)
        < 2 ^ (k.log2 + 1) * 2 ^ (f.fractionBits - k.log2) :=
          Nat.mul_lt_mul_of_pos_right upper (Nat.two_pow_pos _)
      _ = 2 ^ (f.fractionBits + 1) := by
          rw [← Nat.pow_add]
          congr 1
          omega
  · calc 2 ^ f.fractionBits = 2 ^ k.log2 * 2 ^ (f.fractionBits - k.log2) := by
          rw [← Nat.pow_add, length]
      _ ≤ k * 2 ^ (f.fractionBits - k.log2) := Nat.mul_le_mul_right _ lower
  · rw [Nat.mul_assoc, ← Nat.pow_add]
    congr 2
    omega

/-- The number is the integer; a zero may have either sign. -/
def IsInteger (d : Binary f) (n : Int) : Prop := d.units? = some (n * (2 ^ f.unitBits : Nat))

theorem units_pos (f : Format) : (0 : Int) < (2 ^ f.unitBits : Nat) :=
  Int.natCast_pos.mpr (Nat.two_pow_pos _)

/-- The size of an integer in units, with its sign, is rounded to the integer. -/
theorem isInteger_round (wide : f.Wide) {negative : Bool}
    (small : n.natAbs ≤ 2 ^ (f.fractionBits + 1))
    (sign : n ≠ 0 → negative = decide (n < 0)) :
    (round negative (n.natAbs * 2 ^ f.unitBits) 1 : Binary f).IsInteger n := by
  obtain ⟨m, s, canonical, size⟩ := exists_canonical wide small
  rw [← size, round_canonical negative canonical, IsInteger, units?, size, signed_natAbs]
  by_cases zero : n = 0
  · rw [zero]
    cases negative <;> simp
  · rw [sign zero]

theorem isInteger_ofInt (wide : f.Wide) (small : n.natAbs ≤ 2 ^ (f.fractionBits + 1)) :
    (ofInt f n).IsInteger n :=
  isInteger_round wide small fun _ => rfl

theorem isInteger_ofUnits (wide : f.Wide) (zeroNegative : Bool)
    (small : n.natAbs ≤ 2 ^ (f.fractionBits + 1)) :
    (ofUnits zeroNegative (n * (2 ^ f.unitBits : Nat)) : Binary f).IsInteger n := by
  have positive := units_pos f
  rw [ofUnits]
  by_cases none_ : n = 0
  · rw [none_, Int.zero_mul, if_pos rfl, IsInteger, zero, units?]
    cases zeroNegative <;> simp
  · have nonzero : n * (2 ^ f.unitBits : Nat) ≠ 0 :=
      Int.mul_ne_zero none_ (Int.ne_of_gt positive)
    have size : (n * (2 ^ f.unitBits : Nat)).natAbs = n.natAbs * 2 ^ f.unitBits := by
      rw [Int.natAbs_mul, Int.natAbs_natCast]
    have sign : n * (2 ^ f.unitBits : Nat) < 0 ↔ n < 0 :=
      ⟨fun below => Int.neg_of_mul_neg_left below positive,
        fun below => Int.mul_neg_of_neg_of_pos below positive⟩
    rw [if_neg nonzero, size]
    exact isInteger_round wide small fun _ => by simp only [sign]

/-- The parts of a number that is an integer. -/
theorem IsInteger.exists_finite (whole : a.IsInteger n) :
    ∃ negative m s canonical, a = .finite negative m s canonical ∧
      m * 2 ^ s = n.natAbs * 2 ^ f.unitBits ∧ (n ≠ 0 → negative = decide (n < 0)) ∧
      signedUnits negative m s = n * (2 ^ f.unitBits : Nat) := by
  cases a with
  | nan => cases whole
  | infinite negative => cases whole
  | finite negative m s canonical =>
      have signed : signedUnits negative m s = n * (2 ^ f.unitBits : Nat) := Option.some.inj whole
      have parts := signed
      rw [signedUnits, signed_natAbs] at parts
      obtain ⟨size, sign⟩ := eq_of_signed_eq parts
      refine ⟨negative, m, s, canonical, rfl, size, fun nonzero => ?_, signed⟩
      have positive : 0 < n.natAbs * 2 ^ f.unitBits :=
        Nat.mul_pos (Int.natAbs_pos.mpr nonzero) (Nat.two_pow_pos _)
      exact sign.resolve_right (size ▸ Nat.ne_of_gt positive)

theorem IsInteger.add (wide : f.Wide) (left : a.IsInteger m) (right : b.IsInteger n)
    (small : (m + n).natAbs ≤ 2 ^ (f.fractionBits + 1)) : (a + b).IsInteger (m + n) := by
  obtain ⟨negative, m', s, canonical, rfl, _, _, units⟩ := left.exists_finite
  obtain ⟨negative', n', s', canonical', rfl, _, _, units'⟩ := right.exists_finite
  rw [add_eq, Binary.add, units, units', ← Int.add_mul]
  exact isInteger_ofUnits wide _ small

theorem IsInteger.negate (whole : a.IsInteger n) : (-a).IsInteger (-n) := by
  obtain ⟨negative, m, s, canonical, rfl, _, _, units⟩ := whole.exists_finite
  have turned : signedUnits (!negative) m s = -signedUnits negative m s := by
    cases negative <;> simp [signedUnits]
  have opposite : (-(.finite negative m s canonical : Binary f)).units? =
      some (signedUnits (!negative) m s) := rfl
  rw [IsInteger, opposite, turned, units, Int.neg_mul]

theorem IsInteger.sub (wide : f.Wide) (left : a.IsInteger m) (right : b.IsInteger n)
    (small : (m - n).natAbs ≤ 2 ^ (f.fractionBits + 1)) : (a - b).IsInteger (m - n) := by
  rw [Int.sub_eq_add_neg] at small ⊢
  exact left.add wide right.negate small

/-- A product is negative if just one factor is. -/
theorem sign_mul (left : m ≠ 0) (right : n ≠ 0) :
    (decide (m < 0) != decide (n < 0)) = decide (m * n < 0) := by
  rcases Int.lt_or_gt_of_ne left with below | above
  · rcases Int.lt_or_gt_of_ne right with below' | above'
    · have positive := Int.mul_pos_of_neg_of_neg below below'
      have notLess : ¬ m * n < 0 := by omega
      simp [below, below', notLess]
    · have negative := Int.mul_neg_of_neg_of_pos below above'
      have notLess : ¬ n < 0 := by omega
      simp [below, notLess, negative]
  · have notLess : ¬ m < 0 := by omega
    rcases Int.lt_or_gt_of_ne right with below' | above'
    · have negative := Int.mul_neg_of_pos_of_neg above below'
      simp [notLess, below', negative]
    · have positive := Int.mul_pos above above'
      have notLess' : ¬ n < 0 ∧ ¬ m * n < 0 := by omega
      simp [notLess, notLess']

theorem IsInteger.mul (wide : f.Wide) (left : a.IsInteger m) (right : b.IsInteger n)
    (small : (m * n).natAbs ≤ 2 ^ (f.fractionBits + 1)) : (a * b).IsInteger (m * n) := by
  obtain ⟨negative, m', s, canonical, rfl, size, sign, _⟩ := left.exists_finite
  obtain ⟨negative', n', s', canonical', rfl, size', sign', _⟩ := right.exists_finite
  have product : m.natAbs * 2 ^ f.unitBits * (n.natAbs * 2 ^ f.unitBits) =
      (m * n).natAbs * 2 ^ f.unitBits * 2 ^ f.unitBits := by
    rw [Int.natAbs_mul]
    ac_rfl
  rw [mul_eq, Binary.mul, size, size', product, round_mul _ _ (Nat.two_pow_pos _)]
  refine isInteger_round wide small fun nonzero => ?_
  have left_ : m ≠ 0 := fun zero => nonzero (by rw [zero, Int.zero_mul])
  have right_ : n ≠ 0 := fun zero => nonzero (by rw [zero, Int.mul_zero])
  rw [sign left_, sign' right_, sign_mul left_ right_]

/-- An integer that fits both formats keeps its value in the other one. -/
theorem IsInteger.convert (wide : g.Wide) (whole : a.IsInteger n)
    (small : n.natAbs ≤ 2 ^ (g.fractionBits + 1)) : (a.convert g).IsInteger n := by
  obtain ⟨negative, m, s, canonical, rfl, size, sign, _⟩ := whole.exists_finite
  have units : n.natAbs * 2 ^ f.unitBits * 2 ^ g.unitBits =
      n.natAbs * 2 ^ g.unitBits * 2 ^ f.unitBits := by ac_rfl
  rw [Binary.convert, ofFraction, size, units, round_mul _ _ (Nat.two_pow_pos _)]
  exact isInteger_round wide small sign

theorem IsInteger.isNaN (whole : a.IsInteger n) : a.isNaN = false := by
  obtain ⟨negative, m, s, canonical, rfl, _⟩ := whole.exists_finite
  rfl

/-- Integers compare as they do without a format. -/
theorem IsInteger.lt (left : a.IsInteger m) (right : b.IsInteger n) :
    a.lt b = decide (m < n) := by
  rw [Binary.lt, place?_of_units? left, place?_of_units? right]
  simp only [Int.mul_lt_mul_right (units_pos f)]

theorem IsInteger.greater (left : a.IsInteger m) (right : b.IsInteger n) :
    (Binary.greater a b).IsInteger (max m n) := by
  rw [Binary.greater, right.lt left]
  by_cases less : n < m
  · rw [if_pos (decide_eq_true less), Int.max_eq_left (Int.le_of_lt less)]
    exact left
  · rw [if_neg (by simpa using less), Int.max_eq_right (Int.not_lt.mp less)]
    exact right

theorem IsInteger.lesser (left : a.IsInteger m) (right : b.IsInteger n) :
    (Binary.lesser a b).IsInteger (min m n) := by
  rw [Binary.lesser, left.lt right]
  by_cases less : m < n
  · rw [if_pos (decide_eq_true less), Int.min_eq_left (Int.le_of_lt less)]
    exact left
  · rw [if_neg (by simpa using less), Int.min_eq_right (Int.not_lt.mp less)]
    exact right

end Binary

end Polish
