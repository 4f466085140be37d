import Polish.Proofs.Binary.Integer

set_option autoImplicit false

namespace Polish

theorem roundQuotient_le {n d k : Nat} (below : n ≤ k * d) : roundQuotient n d ≤ k := by
  rcases Nat.eq_zero_or_pos d with rfl | positive
  · have nothing : n = 0 := by omega
    simp [roundQuotient, nothing]
  · have parts := Nat.div_add_mod n d
    have remainder := Nat.mod_lt n positive
    have quotient : n / d ≤ k := Nat.div_le_of_le_mul (Nat.mul_comm k d ▸ below)
    rw [roundQuotient]
    rcases Nat.lt_or_eq_of_le quotient with less | equal
    · split
      · omega
      · split <;> omega
    · -- The quotient is exact, so nothing is left to be rounded up.
      have rest : n % d = 0 := by
        rw [equal, Nat.mul_comm] at parts
        omega
      simp only [rest, Nat.mul_zero, positive, ↓reduceIte, equal, Nat.le_refl]

theorem le_roundQuotient {n d k : Nat} (positive : 0 < d) (above : k * d ≤ n) :
    k ≤ roundQuotient n d := by
  have quotient : k ≤ n / d := (Nat.le_div_iff_mul_le positive).mpr above
  rw [roundQuotient]
  split
  · exact quotient
  · split <;> omega

namespace Binary

variable {f g : Format} {m s n d : Nat}

theorem scaleFor_le (canonical : f.Canonical m s) (below : n ≤ m * 2 ^ s * d) :
    scaleFor f n d ≤ s := by
  have quotient : n / d ≤ m * 2 ^ s := Nat.div_le_of_le_mul (Nat.mul_comm d _ ▸ below)
  have short : n / d < 2 ^ (f.fractionBits + 1 + s) := by
    rw [Nat.pow_add]
    exact Nat.lt_of_le_of_lt quotient
      (Nat.mul_lt_mul_of_pos_right canonical.1 (Nat.two_pow_pos s))
  rw [scaleFor]
  by_cases nothing : n / d = 0
  · rw [nothing]
    simp
  · have log := (Nat.log2_lt nothing).mpr short
    omega

/-- At the chosen scale the quotient fits a significand, and fills it above the least scale. -/
theorem significand_bounds (f : Format) (n : Nat) (positive : 0 < d) :
    n ≤ 2 ^ (f.fractionBits + 1) * (d * 2 ^ scaleFor f n d) ∧
      (scaleFor f n d = 0 ∨ 2 ^ f.fractionBits * (d * 2 ^ scaleFor f n d) ≤ n) := by
  have upper : n < d * 2 ^ (Nat.log2 (n / d) + 1) := by
    have less := Nat.lt_log2_self (n := n / d)
    rw [Nat.div_lt_iff_lt_mul positive, Nat.mul_comm] at less
    exact less
  constructor
  · refine Nat.le_trans (Nat.le_of_lt upper) ?_
    rw [Nat.mul_left_comm, ← Nat.pow_add]
    refine Nat.mul_le_mul_left d (Nat.pow_le_pow_right Nat.two_pos ?_)
    rw [scaleFor]
    omega
  · rcases Nat.eq_zero_or_pos (scaleFor f n d) with least | scaled
    · exact Or.inl least
    · right
      have length : f.fractionBits + scaleFor f n d = Nat.log2 (n / d) := by
        rw [scaleFor] at scaled ⊢
        omega
      have nonzero : n / d ≠ 0 := by
        intro nothing
        rw [scaleFor, nothing] at scaled
        simp at scaled
      have lower := Nat.log2_self_le nonzero
      rw [Nat.le_div_iff_mul_le positive] at lower
      rw [Nat.mul_left_comm, ← Nat.pow_add, length, Nat.mul_comm]
      exact lower

/-- What is at most a number of the format is rounded to one that is at most this number. -/
theorem exists_round_le (negative : Bool) (canonical : f.Canonical m s) (positive : 0 < d)
    (below : n ≤ m * 2 ^ s * d) :
    ∃ m' s' canonical', round negative n d = (.finite negative m' s' canonical' : Binary f) ∧
      m' * 2 ^ s' ≤ m * 2 ^ s := by
  have scale := scaleFor_le canonical below
  obtain ⟨fits, fills⟩ := significand_bounds f n positive
  rw [round]
  generalize scaleFor f n d = t at scale fits fills ⊢
  have split : m * 2 ^ s = m * 2 ^ (s - t) * 2 ^ t := by
    rw [Nat.mul_assoc, ← Nat.pow_add, Nat.sub_add_cancel scale]
  have size : roundQuotient n (d * 2 ^ t) * 2 ^ t ≤ m * 2 ^ s := by
    rw [split]
    refine Nat.mul_le_mul_right _ (roundQuotient_le ?_)
    rw [split] at below
    calc n ≤ m * 2 ^ (s - t) * 2 ^ t * d := below
      _ = m * 2 ^ (s - t) * (d * 2 ^ t) := by rw [Nat.mul_assoc, Nat.mul_comm d]
  have short := roundQuotient_le fits
  have step : 0 < d * 2 ^ t := Nat.mul_pos positive (Nat.two_pow_pos t)
  rw [carry]
  by_cases full : roundQuotient n (d * 2 ^ t) = 2 ^ (f.fractionBits + 1)
  · -- The significand is carried, and the number that bounds it leaves room for that.
    rw [full, ← Nat.pow_add] at size
    have room : 2 ^ (f.fractionBits + 1 + t) < 2 ^ (f.fractionBits + 1 + s) := by
      refine Nat.lt_of_le_of_lt size ?_
      rw [Nat.pow_add 2 _ s]
      exact Nat.mul_lt_mul_of_pos_right canonical.1 (Nat.two_pow_pos s)
    have larger := (Nat.pow_lt_pow_iff_right (by decide)).mp room
    have top := canonical.2.1
    have canonical' : f.Canonical (2 ^ f.fractionBits) (t + 1) :=
      ⟨Nat.pow_lt_pow_right (by decide) (Nat.lt_succ_self _), by omega, Or.inr (Nat.le_refl _)⟩
    refine ⟨_, _, canonical', by rw [if_pos full, pack, dif_pos canonical'], ?_⟩
    rwa [← Nat.pow_add, Nat.add_comm t, ← Nat.add_assoc]
  · have canonical' : f.Canonical (roundQuotient n (d * 2 ^ t)) t :=
      ⟨by omega, Nat.le_trans scale canonical.2.1,
        fills.imp_right fun enough => le_roundQuotient step enough⟩
    exact ⟨_, _, canonical', by rw [if_neg full, pack, dif_pos canonical'], size⟩

theorem ofInt_one (wide : f.Wide) :
    ∃ m s canonical, m ≠ 0 ∧ (ofInt f 1 : Binary f) = .finite false m s canonical := by
  obtain ⟨negative, m, s, canonical, one, size, sign, _⟩ :=
    (isInteger_ofInt wide (n := 1) Nat.one_le_two_pow).exists_finite
  have positive : negative = false := sign (by decide)
  refine ⟨m, s, canonical, ?_, positive ▸ one⟩
  rintro rfl
  have large := Nat.two_pow_pos f.unitBits
  rw [Nat.zero_mul, Int.natAbs_one, Nat.one_mul] at size
  omega

/-- The number is neither below zero nor above one. -/
def InUnitInterval (a : Binary f) : Prop :=
  ∃ units : Nat, a.units? = some units ∧ units ≤ 2 ^ f.unitBits

/-- One over a count is between zero and one. -/
theorem inUnitInterval_reciprocal (wide : f.Wide) {count : Nat} (positive : 0 < count) :
    (ofFraction f false 1 count).InUnitInterval := by
  obtain ⟨m, s, canonical, size⟩ :=
    exists_canonical wide (k := 1) (Nat.one_le_two_pow)
  rw [Nat.one_mul] at size
  have below : 1 * 2 ^ f.unitBits ≤ m * 2 ^ s * count := by
    rw [size, Nat.one_mul]
    exact Nat.le_mul_of_pos_right _ positive
  obtain ⟨m', s', canonical', rounded, less⟩ := exists_round_le false canonical positive below
  rw [size] at less
  exact ⟨m' * 2 ^ s', by rw [ofFraction, rounded]; rfl, less⟩

/-- No rounding leads out of the interval from zero to one. -/
theorem InUnitInterval.convert (wide : g.Wide) {a : Binary f} (inside : a.InUnitInterval) :
    (a.convert g).InUnitInterval := by
  obtain ⟨units, value, most⟩ := inside
  have positive := Nat.two_pow_pos f.unitBits
  cases a with
  | nan => cases value
  | infinite negative => cases value
  | finite negative m s canonical =>
      rw [Binary.convert, ofFraction]
      have size : (if negative then -((m * 2 ^ s : Nat) : Int) else (m * 2 ^ s : Nat)) = units :=
        Option.some.inj value
      cases negative with
      | false =>
          replace size : m * 2 ^ s = units := Int.ofNat.inj size
          obtain ⟨m', s', canonical', one⟩ := exists_canonical wide (k := 1) Nat.one_le_two_pow
          rw [Nat.one_mul] at one
          have below : m * 2 ^ s * 2 ^ g.unitBits ≤ m' * 2 ^ s' * 2 ^ f.unitBits := by
            rw [size, one, Nat.mul_comm]
            exact Nat.mul_le_mul_left _ most
          obtain ⟨m'', s'', canonical'', rounded, less⟩ :=
            exists_round_le false canonical' positive below
          rw [one] at less
          exact ⟨m'' * 2 ^ s'', by rw [rounded]; rfl, less⟩
      | true =>
          -- A negative zero is inside as well.
          have nothing : m * 2 ^ s = 0 := by
            rw [if_pos rfl] at size
            omega
          have below : m * 2 ^ s * 2 ^ g.unitBits ≤ 0 * 2 ^ 0 * 2 ^ f.unitBits := by
            rw [nothing]
            simp
          obtain ⟨m'', s'', canonical'', rounded, less⟩ :=
            exists_round_le true canonical_zero positive below
          have nothing' : m'' * 2 ^ s'' = 0 := by omega
          exact ⟨0, by rw [rounded, units?, nothing']; rfl, Nat.zero_le _⟩

end Binary

end Polish
