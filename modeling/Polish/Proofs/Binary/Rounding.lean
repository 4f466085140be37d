import Polish.Binary.Rounding

set_option autoImplicit false

namespace Polish.Binary

variable {f : Format} {m s : Nat}

theorem scaleFor_of_canonical (canonical : f.Canonical m s) : scaleFor f (m * 2 ^ s) 1 = s := by
  obtain ⟨short, _, normal⟩ := canonical
  rw [scaleFor, Nat.div_one]
  rcases normal with rfl | full
  · rw [Nat.pow_zero, Nat.mul_one]
    by_cases zero : m = 0
    · rw [zero]
      simp
    · have below := (Nat.log2_lt zero).mpr short
      omega
  · have positive : 0 < m := Nat.lt_of_lt_of_le (Nat.two_pow_pos _) full
    have nonzero : m * 2 ^ s ≠ 0 := Nat.ne_of_gt (Nat.mul_pos positive (Nat.two_pow_pos s))
    have log : Nat.log2 (m * 2 ^ s) = f.fractionBits + s := by
      rw [Nat.log2_eq_iff nonzero, Nat.pow_add, Nat.add_right_comm, Nat.pow_add]
      exact ⟨Nat.mul_le_mul_right _ full, Nat.mul_lt_mul_of_pos_right short (Nat.two_pow_pos s)⟩
    rw [log]
    omega

/-- A number that the format holds is rounded to itself. -/
theorem round_canonical (negative : Bool) (canonical : f.Canonical m s) :
    round negative (m * 2 ^ s) 1 = .finite negative m s canonical := by
  have notCarried : m ≠ 2 ^ (f.fractionBits + 1) := Nat.ne_of_lt canonical.1
  rw [round, scaleFor_of_canonical canonical, Nat.one_mul,
    roundQuotient_mul m _ (Nat.two_pow_pos s), carry, if_neg notCarried, pack, dif_pos canonical]

theorem pack_cases (negative : Bool) (m s : Nat) :
    (∃ canonical, pack negative m s = (.finite negative m s canonical : Binary f)) ∨
      pack negative m s = (.infinite negative : Binary f) := by
  unfold pack
  split
  · rename_i canonical
    exact Or.inl ⟨canonical, rfl⟩
  · exact Or.inr rfl

/-- What is rounded has the sign that is asked for, and is finite or infinite. -/
theorem round_cases (negative : Bool) (numerator denominator : Nat) :
    (∃ m s canonical, round negative numerator denominator =
      (.finite negative m s canonical : Binary f)) ∨
      round negative numerator denominator = (.infinite negative : Binary f) := by
  rw [round, carry]
  split
  all_goals
    rcases pack_cases negative _ _ with ⟨canonical, packed⟩ | infinite
    · exact Or.inl ⟨_, _, canonical, packed⟩
    · exact Or.inr infinite

theorem ofInt_cases (n : Int) :
    (∃ m s canonical, ofInt f n = .finite (decide (n < 0)) m s canonical) ∨
      ofInt f n = .infinite (decide (n < 0)) :=
  round_cases (decide (n < 0)) _ 1

theorem ofInt_ne_nan (n : Int) : ofInt f n ≠ .nan := by
  rcases ofInt_cases (f := f) n with ⟨_, _, _, finite⟩ | infinite
  · rw [finite]
    nofun
  · rw [infinite]
    nofun

theorem ofInt_zero : ofInt f 0 = zero false := by
  have exact_ := round_canonical (f := f) false canonical_zero
  simpa [ofInt, zero] using exact_

/-- Sizes with signs are equal only if the sizes are, and the signs unless they are zero. -/
theorem eq_of_signed_eq {negative negative' : Bool} {size size' : Nat}
    (same : (if negative then -(size : Int) else size) =
      if negative' then -(size' : Int) else size') :
    size = size' ∧ (negative = negative' ∨ size = 0) := by
  cases negative <;> cases negative' <;> simp at same ⊢ <;> omega

/-- A product with a count, as a size with a sign. -/
theorem signed_natAbs (n : Int) (count : Nat) :
    n * (count : Int) =
      if decide (n < 0) then -((n.natAbs * count : Nat) : Int) else (n.natAbs * count : Nat) := by
  by_cases below : n < 0
  · simp only [below, decide_true, ↓reduceIte, Int.natCast_mul]
    rw [← Int.neg_mul]
    congr 1
    omega
  · simp only [below, decide_false, Bool.false_eq_true, ↓reduceIte, Int.natCast_mul]
    congr 1
    omega

theorem finite_eq_of_size_eq {m' s' : Nat} (canonical : f.Canonical m s)
    (canonical' : f.Canonical m' s') (sizes : m * 2 ^ s = m' * 2 ^ s') (negative : Bool) :
    (.finite negative m s canonical : Binary f) = .finite negative m' s' canonical' := by
  rw [← round_canonical negative canonical, sizes, round_canonical negative canonical']

theorem finite_eq_zero (canonical : f.Canonical m s) (nothing : m * 2 ^ s = 0)
    (negative : Bool) : (.finite negative m s canonical : Binary f) = zero negative :=
  finite_eq_of_size_eq canonical canonical_zero (by rw [nothing, Nat.zero_mul]) negative

theorem size_lt_beyond (canonical : f.Canonical m s) :
    m * 2 ^ s < 2 ^ (f.fractionBits + 1 + f.topScale) := by
  rw [Nat.pow_add]
  calc m * 2 ^ s < 2 ^ (f.fractionBits + 1) * 2 ^ s :=
        Nat.mul_lt_mul_of_pos_right canonical.1 (Nat.two_pow_pos s)
    _ ≤ 2 ^ (f.fractionBits + 1) * 2 ^ f.topScale :=
        Nat.mul_le_mul_left _ (Nat.pow_le_pow_right Nat.two_pos canonical.2.1)

/-- Numbers are equal only if they are the same or zeros of either sign. -/
theorem eq_or_zeros_of_same {a b : Binary f} (same : a.same b = true) :
    a = b ∨ ∃ negative, a = zero negative ∧ b = zero (!negative) := by
  cases a with
  | nan => simp [Binary.same, place?] at same
  | infinite negative =>
      cases b with
      | nan => simp [Binary.same, place?] at same
      | infinite negative' =>
          simp only [Binary.same, place?, beq_iff_eq] at same
          obtain ⟨_, signs | nothing⟩ := eq_of_signed_eq same
          · exact Or.inl (by rw [signs])
          · exact absurd nothing (Nat.ne_of_gt (Nat.two_pow_pos _))
      | finite negative' m s canonical =>
          simp only [Binary.same, place?, beq_iff_eq] at same
          have sizes := (eq_of_signed_eq same).1
          exact absurd (size_lt_beyond canonical) (by rw [← sizes]; exact Nat.lt_irrefl _)
  | finite negative m s canonical =>
      cases b with
      | nan => simp [Binary.same, place?] at same
      | infinite negative' =>
          simp only [Binary.same, place?, beq_iff_eq] at same
          have sizes := (eq_of_signed_eq same).1
          exact absurd (size_lt_beyond canonical) (by rw [sizes]; exact Nat.lt_irrefl _)
      | finite negative' m' s' canonical' =>
          simp only [Binary.same, place?, beq_iff_eq] at same
          obtain ⟨sizes, signs⟩ := eq_of_signed_eq same
          by_cases agree : negative = negative'
          · rw [agree]
            exact Or.inl (finite_eq_of_size_eq canonical canonical' sizes negative')
          · have nothing : m * 2 ^ s = 0 := signs.resolve_left agree
            refine Or.inr ⟨negative, finite_eq_zero canonical nothing negative, ?_⟩
            rw [finite_eq_zero canonical' (sizes ▸ nothing) negative']
            cases negative <;> cases negative' <;> first | rfl | exact absurd rfl agree

/-- An integer that a number equals is converted to the number, unless it is zero. -/
theorem ofInt_eq_of_units {d : Binary f} {n : Int}
    (units : d.units? = some (n * (2 ^ f.unitBits : Nat))) :
    ofInt f n = d ∨ (n = 0 ∧ d = zero true) := by
  cases d with
  | nan => cases units
  | infinite negative => cases units
  | finite negative m s canonical =>
      simp only [units?, Option.some.injEq] at units
      rw [signed_natAbs] at units
      obtain ⟨sizes, signs⟩ := eq_of_signed_eq units
      rcases signs with signs | nothing
      · left
        rw [ofInt, ← signs, ← sizes, round_canonical negative canonical]
      · rw [nothing] at sizes
        have positive := Nat.two_pow_pos f.unitBits
        have zero_ : n = 0 := by
          rcases Nat.mul_eq_zero.mp sizes.symm with none | none
          · exact Int.natAbs_eq_zero.mp none
          · omega
        rw [finite_eq_zero canonical nothing negative, zero_, ofInt_zero]
        cases negative
        · exact Or.inl rfl
        · exact Or.inr ⟨rfl, rfl⟩

theorem place?_of_units? {d : Binary f} {u : Int} (finite : d.units? = some u) :
    d.place? = some u := by
  cases d with
  | finite negative m s canonical => exact finite
  | _ => cases finite

theorem exists_place {d : Binary f} (number : d ≠ nan) : ∃ p, d.place? = some p := by
  cases d with
  | nan => exact absurd rfl number
  | infinite negative => exact ⟨_, rfl⟩
  | finite negative m s canonical => exact ⟨_, rfl⟩

theorem same_self {d : Binary f} (number : d ≠ nan) : d.same d = true := by
  cases d with
  | nan => exact absurd rfl number
  | infinite negative => simp [same, place?]
  | finite negative m s canonical => simp [same, place?]

/-- What the format holds is less than the power of two that is out of range. -/
theorem natAbs_lt_of_units? {d : Binary f} {u : Int} (finite : d.units? = some u) :
    u.natAbs < 2 ^ (f.fractionBits + 1 + f.topScale) := by
  cases d with
  | finite negative m s canonical =>
      have below := size_lt_beyond canonical
      simp only [units?, Option.some.injEq] at finite
      rw [← finite]
      cases negative <;> simp only [Bool.false_eq_true, ↓reduceIte] <;> omega
  | _ => cases finite

end Polish.Binary
