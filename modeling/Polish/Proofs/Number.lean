import Polish.Number
import Polish.Proofs.Binary.Rounding

set_option autoImplicit false

namespace Polish.Number

/-- The zeros without a sign, of every kind. -/
def positiveZeros : List Number := [.integer 0, .truth false, .double (.zero false)]

theorem toDouble_of_integer? {a : Number} {n : Int} (whole : a.integer? = some n) :
    a.toDouble = .ofInt .double n := by
  cases a with
  | double d => cases whole
  | integer m =>
      cases whole
      rfl
  | truth t =>
      cases whole
      rfl

theorem mem_positiveZeros_of_integer? {a : Number} (whole : a.integer? = some 0) :
    a ∈ positiveZeros := by
  cases a with
  | double d => cases whole
  | integer m =>
      cases whole
      simp [positiveZeros]
  | truth t => cases t <;> simp_all [integer?, positiveZeros]

theorem same_of_integer? {a b : Number} {m n : Int} (left : a.integer? = some m)
    (right : b.integer? = some n) : a.same b = (m == n) := by
  cases a <;> cases b <;> simp_all [integer?, same]

theorem same_double_of_integer? {b : Number} {n : Int} (d : Double) (whole : b.integer? = some n) :
    (double d).same b = (d.units? == some (unitsOf n)) ∧
      b.same (.double d) = (d.units? == some (unitsOf n)) := by
  cases b <;> simp_all [integer?, same]

theorem integer?_cases (a : Number) : (∃ d, a = .double d) ∨ ∃ n, a.integer? = some n := by
  cases a with
  | double d => exact Or.inl ⟨d, rfl⟩
  | integer n => exact Or.inr ⟨n, rfl⟩
  | truth t => exact Or.inr ⟨_, rfl⟩

theorem toDouble_of_same_integer {d : Double} {b : Number} {n : Int}
    (whole : b.integer? = some n) (same : (d.units? == some (unitsOf n)) = true) :
    b.toDouble = d ∨ (d = .zero true ∧ b ∈ positiveZeros) := by
  rw [beq_iff_eq] at same
  rw [toDouble_of_integer? whole]
  rcases Binary.ofInt_eq_of_units same with exact_ | ⟨rfl, negative⟩
  · exact Or.inl exact_
  · exact Or.inr ⟨negative, mem_positiveZeros_of_integer? whole⟩

/-- Equal numbers are the same double, unless one is the negative zero and the other a zero. -/
theorem toDouble_of_same {a b : Number} (same : a.same b = true) :
    a.toDouble = b.toDouble ∨ (a = .double (.zero true) ∧ b ∈ positiveZeros) ∨
      (b = .double (.zero true) ∧ a ∈ positiveZeros) := by
  rcases integer?_cases a with ⟨d, rfl⟩ | ⟨m, left⟩
  · rcases integer?_cases b with ⟨d', rfl⟩ | ⟨n, right⟩
    · rcases Binary.eq_or_zeros_of_same same with rfl | ⟨negative, rfl, rfl⟩
      · exact Or.inl rfl
      · cases negative <;> simp [positiveZeros]
    · rw [(same_double_of_integer? d right).1] at same
      rcases toDouble_of_same_integer right same with exact_ | ⟨rfl, zero⟩
      · exact Or.inl exact_.symm
      · exact Or.inr (Or.inl ⟨rfl, zero⟩)
  · rcases integer?_cases b with ⟨d, rfl⟩ | ⟨n, right⟩
    · rw [(same_double_of_integer? d left).2] at same
      rcases toDouble_of_same_integer left same with exact_ | ⟨rfl, zero⟩
      · exact Or.inl exact_
      · exact Or.inr (Or.inr ⟨rfl, zero⟩)
    · rw [same_of_integer? left right, beq_iff_eq] at same
      left
      rw [toDouble_of_integer? left, toDouble_of_integer? right, same]

/-- The negative zero is equal to the other zeros, and not the same double as they are. -/
theorem same_positiveZeros {a : Number} (zero : a ∈ positiveZeros) :
    (double (.zero true)).same a = true ∧ (double (.zero true)).toDouble ≠ a.toDouble := by
  have differ : (Binary.zero true : Double) ≠ .zero false := by decide
  have units : ((Binary.zero true : Double).units? == some (unitsOf 0)) = true := by
    rw [unitsOf, Int.zero_mul]
    decide
  simp only [positiveZeros, List.mem_cons, List.not_mem_nil, or_false] at zero
  rcases zero with rfl | rfl | rfl
  · have whole : (integer 0).integer? = some 0 := rfl
    rw [toDouble_of_integer? whole, Binary.ofInt_zero, (same_double_of_integer? _ whole).1]
    exact ⟨units, differ⟩
  · have whole : (truth false).integer? = some 0 := rfl
    rw [toDouble_of_integer? whole, Binary.ofInt_zero, (same_double_of_integer? _ whole).1]
    exact ⟨units, differ⟩
  · exact ⟨by decide, differ⟩

theorem unitsOf_inj {m n : Int} : unitsOf m = unitsOf n ↔ m = n := by
  have positive : ((2 ^ Format.double.unitBits : Nat) : Int) ≠ 0 :=
    Int.natCast_ne_zero.mpr (Nat.ne_of_gt (Nat.two_pow_pos _))
  exact Int.mul_eq_mul_right_iff positive

def whole? : Number → Option Int
  | .double d =>
      d.units?.bind fun units =>
        let one : Int := (2 ^ Format.double.unitBits : Nat)
        if units % one = 0 then some (units / one) else none
  | a => a.integer?

/-- The integer that a number equals stands for the number. -/
def canonical (a : Number) : Number :=
  match a.whole? with
  | some n => .integer n
  | none => a

theorem whole?_of_integer? {a : Number} {n : Int} (whole : a.integer? = some n) :
    a.whole? = some n := by
  cases a with
  | double d => cases whole
  | _ => exact whole

theorem whole?_double_eq_some_iff (d : Double) (n : Int) :
    (double d).whole? = some n ↔ d.units? = some (unitsOf n) := by
  have positive : ((2 ^ Format.double.unitBits : Nat) : Int) ≠ 0 :=
    Int.natCast_ne_zero.mpr (Nat.ne_of_gt (Nat.two_pow_pos _))
  rw [whole?, unitsOf]
  cases d.units? with
  | none => exact iff_of_false nofun nofun
  | some units =>
      simp only [Option.bind_some, Option.some.injEq, Option.ite_none_right_eq_some]
      constructor
      · rintro ⟨divides, rfl⟩
        exact (Int.ediv_mul_cancel (Int.dvd_of_emod_eq_zero divides)).symm
      · rintro rfl
        exact ⟨Int.mul_emod_left _ _, Int.mul_ediv_cancel _ positive⟩

theorem canonical_of_whole? {a : Number} {n : Int} (whole : a.whole? = some n) :
    a.canonical = .integer n := by
  simp only [canonical, whole]

theorem canonical_of_not_whole? {a : Number} (other : a.whole? = none) : a.canonical = a := by
  simp only [canonical, other]

theorem canonical_integer (n : Int) : (integer n).canonical = .integer n :=
  canonical_of_whole? rfl

/-- Only doubles equal no integer. -/
theorem exists_double_of_not_whole? {a : Number} (other : a.whole? = none) :
    ∃ d, a = .double d := by
  cases a with
  | double d => exact ⟨d, rfl⟩
  | _ => cases other

theorem same_of_whole? {a b : Number} {m n : Int} (left : a.whole? = some m)
    (right : b.whole? = some n) : a.same b = true ↔ m = n := by
  rcases integer?_cases a with ⟨d, rfl⟩ | ⟨m', whole⟩
  · rw [whole?_double_eq_some_iff] at left
    rcases integer?_cases b with ⟨d', rfl⟩ | ⟨n', whole'⟩
    · rw [whole?_double_eq_some_iff] at right
      rw [same, Binary.same, Binary.place?_of_units? left, Binary.place?_of_units? right]
      simp only [beq_iff_eq, unitsOf_inj]
    · rw [whole?_of_integer? whole', Option.some.injEq] at right
      rw [(same_double_of_integer? d whole').1, left, beq_iff_eq, Option.some.injEq, unitsOf_inj,
        right]
  · rw [whole?_of_integer? whole, Option.some.injEq] at left
    rcases integer?_cases b with ⟨d', rfl⟩ | ⟨n', whole'⟩
    · rw [whole?_double_eq_some_iff] at right
      rw [(same_double_of_integer? d' whole).2, right, beq_iff_eq, Option.some.injEq, unitsOf_inj,
        left, eq_comm]
    · rw [whole?_of_integer? whole', Option.some.injEq] at right
      rw [same_of_integer? whole whole', beq_iff_eq, left, right]

theorem whole?_zero (negative : Bool) : (double (.zero negative)).whole? = some 0 := by
  rw [whole?_double_eq_some_iff, unitsOf, Int.zero_mul]
  cases negative <;> simp [Binary.zero, Binary.units?]

theorem whole?_of_same {a b : Number} (same : a.same b = true) : a.whole? = b.whole? := by
  rcases integer?_cases a with ⟨d, rfl⟩ | ⟨m, left⟩
  · rcases integer?_cases b with ⟨d', rfl⟩ | ⟨n, right⟩
    · rcases Binary.eq_or_zeros_of_same same with rfl | ⟨negative, rfl, rfl⟩
      · rfl
      · rw [whole?_zero, whole?_zero]
    · rw [(same_double_of_integer? d right).1, beq_iff_eq, ← whole?_double_eq_some_iff] at same
      rw [same, whole?_of_integer? right]
  · rcases integer?_cases b with ⟨d', rfl⟩ | ⟨n, right⟩
    · rw [(same_double_of_integer? d' left).2, beq_iff_eq, ← whole?_double_eq_some_iff] at same
      rw [same, whole?_of_integer? left]
    · rw [same_of_integer? left right, beq_iff_eq] at same
      rw [whole?_of_integer? left, whole?_of_integer? right, same]

theorem eq_negative_zero {a : Number} (zero : a.whole? = some 0) (negative : a.toDouble = .zero true) :
    a = .double (.zero true) := by
  rcases integer?_cases a with ⟨d, rfl⟩ | ⟨n, whole⟩
  · exact congrArg double negative
  · rw [whole?_of_integer? whole] at zero
    cases zero
    exact absurd negative.symm (same_positiveZeros (mem_positiveZeros_of_integer? whole)).2

/-- Equal numbers are the same double exactly if both or none is the negative zero. -/
theorem toDouble_eq_iff_of_same {a b : Number} (same : a.same b = true) :
    a.toDouble = b.toDouble ↔ (a = .double (.zero true) ↔ b = .double (.zero true)) := by
  have whole := whole?_of_same same
  constructor
  · intro exact_
    constructor
    · rintro rfl
      exact eq_negative_zero (whole ▸ whole?_zero true) exact_.symm
    · rintro rfl
      exact eq_negative_zero (whole ▸ whole?_zero true) exact_
  · intro both
    rcases toDouble_of_same same with exact_ | ⟨rfl, zero⟩ | ⟨rfl, zero⟩
    · exact exact_
    · rw [both.mp rfl]
    · rw [both.mpr rfl]

/-- Numbers are equal when what stands for them is, as long as one is no NaN. -/
theorem same_iff_canonical {a b : Number} (ordinary : b ≠ .double .nan) :
    a.same b = true ↔ a.canonical = b.canonical := by
  cases left : a.whole? with
  | some m =>
      rw [canonical_of_whole? left]
      cases right : b.whole? with
      | some n => rw [same_of_whole? left right, canonical_of_whole? right, integer.injEq]
      | none =>
          obtain ⟨d, rfl⟩ := exists_double_of_not_whole? right
          rw [canonical_of_not_whole? right]
          refine iff_of_false ?_ (by simp)
          intro same
          rw [whole?_of_same same, right] at left
          cases left
  | none =>
      obtain ⟨d, rfl⟩ := exists_double_of_not_whole? left
      rw [canonical_of_not_whole? left]
      cases right : b.whole? with
      | some n =>
          rw [canonical_of_whole? right]
          refine iff_of_false ?_ (by simp)
          intro same
          rw [whole?_of_same same, right] at left
          cases left
      | none =>
          obtain ⟨d', rfl⟩ := exists_double_of_not_whole? right
          rw [canonical_of_not_whole? right, double.injEq]
          constructor
          · intro same
            rcases Binary.eq_or_zeros_of_same same with exact_ | ⟨negative, rfl, _⟩
            · exact exact_
            · rw [whole?_zero] at left
              cases left
          · rintro rfl
            exact Binary.same_self fun undefined => ordinary (congrArg double undefined)

theorem canonical_canonical (a : Number) : a.canonical.canonical = a.canonical := by
  cases whole : a.whole? with
  | some n => rw [canonical_of_whole? whole, canonical_integer]
  | none => rw [canonical_of_not_whole? whole, canonical_of_not_whole? whole]

/-- Only the negative zero is another double than the number that stands for it. -/
theorem toDouble_canonical {a : Number} (other : a ≠ .double (.zero true)) :
    a.canonical.toDouble = a.toDouble := by
  cases whole : a.whole? with
  | none => rw [canonical_of_not_whole? whole]
  | some n =>
      rw [canonical_of_whole? whole]
      rcases integer?_cases a with ⟨d, rfl⟩ | ⟨m, integer_⟩
      · rw [whole?_double_eq_some_iff] at whole
        rcases Binary.ofInt_eq_of_units whole with exact_ | ⟨_, rfl⟩
        · exact exact_
        · exact absurd rfl other
      · rw [whole?_of_integer? integer_, Option.some.injEq] at whole
        rw [toDouble_of_integer? integer_, whole]
        rfl

theorem canonical_eq_nan_iff (a : Number) : a.canonical = .double .nan ↔ a = .double .nan := by
  cases whole : a.whole? with
  | none => rw [canonical_of_not_whole? whole]
  | some n =>
      rw [canonical_of_whole? whole]
      refine iff_of_false (by simp) ?_
      rintro rfl
      cases whole

theorem canonical_ne_negative_zero (a : Number) : a.canonical ≠ .double (.zero true) := by
  cases whole : a.whole? with
  | some n =>
      rw [canonical_of_whole? whole]
      simp
  | none =>
      rw [canonical_of_not_whole? whole]
      rintro rfl
      rw [whole?_zero] at whole
      cases whole

theorem length_toDigits_of_lt {n bits : Nat} (below : n < 2 ^ bits)
    (few : bits ≤ Decimal.digitLimit) : (Nat.toDigits 10 n).length ≤ Decimal.digitLimit := by
  have positive : 0 < Decimal.digitLimit := by decide
  rw [Nat.length_toDigits_le_iff (by decide) positive]
  calc n < 2 ^ bits := below
    _ ≤ 10 ^ bits := Nat.pow_le_pow_left (by decide) bits
    _ ≤ 10 ^ Decimal.digitLimit := Nat.pow_le_pow_right (by decide) few

/-- An integer that some double equals is short. -/
theorem length_toDigits_of_units? {d : Double} {n : Int} (units : d.units? = some (unitsOf n)) :
    (Nat.toDigits 10 n.natAbs).length ≤ Decimal.digitLimit := by
  have below := Binary.natAbs_lt_of_units? units
  have size : (unitsOf n).natAbs = n.natAbs * 2 ^ Format.double.unitBits := by
    rw [unitsOf, Int.natAbs_mul, Int.natAbs_natCast]
  obtain ⟨bits, few, split⟩ : ∃ bits ≤ Decimal.digitLimit,
      Format.double.fractionBits + 1 + Format.double.topScale = bits + Format.double.unitBits :=
    ⟨1024, by decide, by decide⟩
  rw [size, split, Nat.pow_add] at below
  exact length_toDigits_of_lt (Nat.lt_of_mul_lt_mul_right below) few

theorem isWritable_canonical (a : Number) : a.canonical.isWritable = a.isWritable := by
  cases whole : a.whole? with
  | none => rw [canonical_of_not_whole? whole]
  | some n =>
      rw [canonical_of_whole? whole]
      cases a with
      | integer m =>
          cases whole
          rfl
      | truth t =>
          cases whole
          cases t <;> decide
      | double d =>
          rw [whole?_double_eq_some_iff] at whole
          exact decide_eq_true (length_toDigits_of_units? whole)

end Polish.Number
