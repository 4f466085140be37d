import Polish.Proofs.Binary.Bounds

set_option autoImplicit false

namespace Polish

/-- How far a place is from a quotient of units, as a multiple of one over the denominator. -/
def gap (numerator : Int) (denominator : Nat) (place : Int) : Nat :=
  (place * denominator - numerator).natAbs

/-- The first place is no farther from the quotient than the second. Where it is as near, it is the
same or the even one. -/
structure NoFarther (numerator : Int) (denominator : Nat) (even : Prop) (p q : Int) : Prop where
  near : gap numerator denominator p ≤ gap numerator denominator q
  tie : gap numerator denominator p = gap numerator denominator q → p = q ∨ even

theorem gap_natCast (n d w : Nat) : gap n d w = ((w * d : Nat) - (n : Int)).natAbs := by
  rw [gap, Int.natCast_mul]

theorem noFarther_natCast {n d v w : Nat} {even : Prop} : NoFarther n d even v w ↔
    ((v * d : Nat) - (n : Int)).natAbs ≤ ((w * d : Nat) - (n : Int)).natAbs ∧
      (((v * d : Nat) - (n : Int)).natAbs = ((w * d : Nat) - (n : Int)).natAbs →
        v = w ∨ even) := by
  have same : (v : Int) = w ↔ v = w := Int.ofNat_inj
  rw [← gap_natCast, ← gap_natCast, ← same]
  exact ⟨fun ⟨near, tie⟩ => ⟨near, tie⟩, fun ⟨near, tie⟩ => ⟨near, tie⟩⟩

theorem gap_mul (n d c w : Nat) : gap n (d * c) w = gap n d (w * c : Nat) := by
  rw [gap_natCast, gap_natCast, Nat.mul_assoc, Nat.mul_comm c]

theorem gap_lt_gap {n d v w : Nat} (positive : 0 < d) (less : w < v) (below : v * d ≤ n) :
    gap n d v < gap n d w := by
  have scaled := Nat.mul_lt_mul_of_pos_right less positive
  rw [gap_natCast, gap_natCast]
  omega

theorem NoFarther.scale {n d c v w : Nat} {even : Prop} (noFarther : NoFarther n (d * c) even v w) :
    NoFarther n d even (v * c : Nat) (w * c : Nat) := by
  obtain ⟨near, tie⟩ := noFarther
  rw [gap_mul, gap_mul] at near tie
  exact ⟨near, fun equal => (tie equal).imp_left fun same => by rw [Int.ofNat.inj same]⟩

/-- Of two neighbouring multiples of the divisor, the nearer is chosen, and half-way the even. -/
theorem roundQuotient_noFarther (n k : Nat) {d : Nat} (positive : 0 < d) :
    NoFarther n d (roundQuotient n d % 2 = 0) (roundQuotient n d) k := by
  have parts := Nat.div_add_mod' n d
  have remainder := Nat.mod_lt n positive
  rw [noFarther_natCast, roundQuotient]
  generalize n / d = quotient at parts ⊢
  generalize n % d = rest at parts remainder ⊢
  have next : (quotient + 1) * d = quotient * d + d := Nat.succ_mul quotient d
  -- The multiple is the one below, the one above, or outside of these two.
  have place : k = quotient ∨ k = quotient + 1 ∨ k * d + d ≤ quotient * d ∨
      quotient * d + 2 * d ≤ k * d := by
    rcases Nat.lt_trichotomy k quotient with less | equal | more
    · have below := Nat.mul_le_mul_right d less
      rw [Nat.succ_mul] at below
      exact Or.inr (Or.inr (Or.inl below))
    · exact Or.inl equal
    · rcases Nat.eq_or_lt_of_le more with equal | more
      · exact Or.inr (Or.inl equal.symm)
      · have above := Nat.mul_le_mul_right d more
        rw [Nat.succ_mul, Nat.succ_mul] at above
        exact Or.inr (Or.inr (Or.inr (by omega)))
  have half : quotient % 2 = 0 ∨ quotient % 2 = 1 := Nat.mod_two_eq_zero_or_one quotient
  split
  · rcases place with rfl | rfl | below | above <;> omega
  · split
    · rcases half with even | odd
      · rw [even, Nat.add_zero]
        rcases place with rfl | rfl | below | above <;> omega
      · rw [odd]
        rcases place with rfl | rfl | below | above <;> omega
    · rcases place with rfl | rfl | below | above <;> omega

namespace Binary

variable {f : Format} {a b : Binary f} {n d m s w : Nat}

/-- The last bit of the significand is zero, as that of the number beyond all others would be. -/
def IsEven : Binary f → Prop
  | .nan => False
  | .infinite _ => True
  | .finite _ significand _ _ => significand % 2 = 0

/-- Every number of the format is as far from the quotient or farther, and one as near leaves this
the even one. -/
structure IsNearest (a : Binary f) (numerator : Int) (denominator : Nat) : Prop where
  number : a ≠ nan
  noFarther : ∀ {p q : Int} {b : Binary f}, a.place? = some p → b.place? = some q →
    NoFarther numerator denominator a.IsEven p q

/-- The place of the infinity, without its sign. -/
def beyond (f : Format) : Nat := 2 ^ (f.fractionBits + 1 + f.topScale)

/-- The place of some number, without its sign. -/
def IsSize (f : Format) (w : Nat) : Prop :=
  w = beyond f ∨ ∃ m s, f.Canonical m s ∧ w = m * 2 ^ s

def signed (negative : Bool) (size : Nat) : Int := if negative then -(size : Int) else size

theorem size_eq_of_signed_eq {negative negative' : Bool} {v w : Nat}
    (same : signed negative v = signed negative' w) : v = w :=
  (eq_of_signed_eq same).1

theorem signed_of_nonneg {negative : Bool} {size : Nat} (nonneg : 0 ≤ signed negative size) :
    signed negative size = size := by
  cases negative with
  | false => rfl
  | true =>
      simp only [signed, ↓reduceIte] at nonneg ⊢
      omega

theorem isSize_zero : IsSize f 0 := Or.inr ⟨0, 0, canonical_zero, by simp⟩

theorem IsSize.le_beyond (size : IsSize f w) : w ≤ beyond f := by
  rcases size with rfl | ⟨m, s, canonical, rfl⟩
  · exact Nat.le_refl _
  · exact Nat.le_of_lt (size_lt_beyond canonical)

theorem exists_size {p : Int} (place : a.place? = some p) :
    ∃ negative w, IsSize f w ∧ p = signed negative w := by
  cases a with
  | nan => cases place
  | infinite negative => exact ⟨negative, _, Or.inl rfl, (Option.some.inj place).symm⟩
  | finite negative m s canonical =>
      exact ⟨negative, _, Or.inr ⟨m, s, canonical, rfl⟩, (Option.some.inj place).symm⟩

/-- Above a binade every number is a multiple of its step. -/
theorem IsSize.multiple_or_lt (size : IsSize f w) {t : Nat} (scale : t ≤ f.topScale) :
    (∃ k, w = k * 2 ^ t) ∨ (t ≠ 0 ∧ w < 2 ^ f.fractionBits * 2 ^ t) := by
  rcases size with rfl | ⟨m, s, canonical, rfl⟩
  · refine Or.inl ⟨2 ^ (f.fractionBits + 1 + (f.topScale - t)), ?_⟩
    rw [beyond, ← Nat.pow_add, Nat.add_assoc, Nat.add_assoc, Nat.sub_add_cancel scale,
      ← Nat.add_assoc]
  · rcases Nat.lt_or_ge s t with finer | coarser
    · refine Or.inr ⟨by omega, ?_⟩
      calc m * 2 ^ s < 2 ^ (f.fractionBits + 1) * 2 ^ s :=
            Nat.mul_lt_mul_of_pos_right canonical.1 (Nat.two_pow_pos s)
        _ = 2 ^ f.fractionBits * 2 ^ (s + 1) := by
            rw [← Nat.pow_add, ← Nat.pow_add, Nat.add_assoc, Nat.add_comm 1]
        _ ≤ 2 ^ f.fractionBits * 2 ^ t :=
            Nat.mul_le_mul_left _ (Nat.pow_le_pow_right Nat.two_pos finer)
    · refine Or.inl ⟨m * 2 ^ (s - t), ?_⟩
      rw [Nat.mul_assoc, ← Nat.pow_add, Nat.sub_add_cancel coarser]

theorem scaleFor_le_top (positive : 0 < d) (below : n < beyond f * d) :
    scaleFor f n d ≤ f.topScale := by
  have quotient : n / d < 2 ^ (f.fractionBits + 1 + f.topScale) :=
    (Nat.div_lt_iff_lt_mul positive).mpr below
  rw [scaleFor]
  by_cases nothing : n / d = 0
  · simp [nothing]
  · have log := (Nat.log2_lt nothing).mpr quotient
    omega

theorem top_lt_scaleFor (positive : 0 < d) (above : beyond f * d ≤ n) :
    f.topScale < scaleFor f n d := by
  have quotient : 2 ^ (f.fractionBits + 1 + f.topScale) ≤ n / d :=
    (Nat.le_div_iff_mul_le positive).mpr above
  have nonzero : n / d ≠ 0 := Nat.ne_of_gt (Nat.lt_of_lt_of_le (Nat.two_pow_pos _) quotient)
  have log := (Nat.le_log2 nonzero).mpr quotient
  rw [scaleFor]
  omega

/-- What is out of range becomes infinite. -/
theorem round_of_beyond_le (negative : Bool) (positive : 0 < d) (above : beyond f * d ≤ n) :
    round negative n d = (.infinite negative : Binary f) := by
  have scale := top_lt_scaleFor positive above
  have packed : ∀ m s, f.topScale < s → pack negative m s = (.infinite negative : Binary f) :=
    fun m s large => by
      rw [pack, dif_neg]
      exact fun canonical => absurd canonical.2.1 (Nat.not_le_of_gt large)
  rw [round, carry]
  split
  · exact packed _ _ (by omega)
  · exact packed _ _ scale

/-- What is in range is rounded to a multiple of the step, be it carried or not. -/
theorem place?_round (negative : Bool) (fraction : 0 < f.fractionBits) (positive : 0 < d)
    (below : n < beyond f * d) :
    (round negative n d : Binary f).place? = some (signed negative
        (roundQuotient n (d * 2 ^ scaleFor f n d) * 2 ^ scaleFor f n d)) ∧
      (roundQuotient n (d * 2 ^ scaleFor f n d) % 2 = 0 →
        (round negative n d : Binary f).IsEven) := by
  have scale := scaleFor_le_top positive below
  obtain ⟨fits, fills⟩ := significand_bounds f n positive
  rw [round]
  generalize scaleFor f n d = t at scale fits fills ⊢
  have short := roundQuotient_le fits
  have step : 0 < d * 2 ^ t := Nat.mul_pos positive (Nat.two_pow_pos t)
  have full : 2 ^ (f.fractionBits + 1) * 2 ^ t = 2 ^ f.fractionBits * 2 ^ (t + 1) := by
    rw [← Nat.pow_add, ← Nat.pow_add, Nat.add_assoc, Nat.add_comm 1]
  rw [carry]
  by_cases carried : roundQuotient n (d * 2 ^ t) = 2 ^ (f.fractionBits + 1)
  · rw [if_pos carried, carried, full]
    rcases pack_cases negative (2 ^ f.fractionBits) (t + 1) with ⟨canonical, packed⟩ | infinite
    · rw [packed]
      refine ⟨rfl, fun _ => ?_⟩
      obtain ⟨bits, length⟩ := Nat.exists_eq_succ_of_ne_zero (Nat.ne_of_gt fraction)
      rw [IsEven, length, Nat.pow_succ, Nat.mul_mod_left]
    · -- The power of two that is out of range is where the infinity stands.
      have top : t = f.topScale := by
        refine Nat.le_antisymm scale (Nat.le_of_not_lt fun room => ?_)
        have canonical : f.Canonical (2 ^ f.fractionBits) (t + 1) :=
          ⟨Nat.pow_lt_pow_right (by decide) (Nat.lt_succ_self _), room, Or.inr (Nat.le_refl _)⟩
        rw [pack, dif_pos canonical] at infinite
        cases infinite
      rw [infinite, ← full, top, ← Nat.pow_add]
      exact ⟨rfl, fun _ => trivial⟩
  · have canonical : f.Canonical (roundQuotient n (d * 2 ^ t)) t :=
      ⟨by omega, scale, fills.imp_right fun enough => le_roundQuotient step enough⟩
    rw [if_neg carried, pack, dif_pos canonical]
    exact ⟨rfl, id⟩

theorem gap_signed (negative : Bool) (n d w : Nat) :
    gap (signed negative n) d (signed negative w) = gap n d w := by
  cases negative with
  | false => rfl
  | true =>
      simp only [gap, signed, ↓reduceIte, Int.neg_mul]
      omega

/-- Numbers of the other sign are behind zero. -/
theorem gap_signed_not (negative : Bool) (n d w : Nat) :
    gap (signed negative n) d (signed (!negative) w) = gap n d 0 + w * d := by
  have product : ((w * d : Nat) : Int) = (w : Int) * d := Int.natCast_mul w d
  cases negative <;> simp only [gap, signed, Bool.not_true, Bool.not_false, Bool.false_eq_true,
    ↓reduceIte, Int.neg_mul, ← product] <;> omega

/-- Without signs, no size is nearer than the one that is rounded to. -/
theorem exists_nearest_size (negative : Bool) (fraction : 0 < f.fractionBits) (positive : 0 < d)
    (n : Nat) :
    ∃ r : Nat, (round negative n d : Binary f).place? = some (signed negative r) ∧
      ∀ w : Nat, IsSize f w → NoFarther n d (round negative n d : Binary f).IsEven r w := by
  rcases Nat.lt_or_ge n (beyond f * d) with below | above
  · obtain ⟨place, even⟩ := place?_round negative fraction positive below
    refine ⟨_, place, fun w size => ?_⟩
    have scale := scaleFor_le_top positive below
    have fills := (significand_bounds f n positive).2
    generalize scaleFor f n d = t at scale fills even ⊢
    have step : 0 < d * 2 ^ t := Nat.mul_pos positive (Nat.two_pow_pos t)
    have nearest (k : Nat) := (roundQuotient_noFarther n k step).scale
    rcases size.multiple_or_lt scale with ⟨k, rfl⟩ | ⟨nonzero, less⟩
    · exact ⟨(nearest k).near, fun equal => ((nearest k).tie equal).imp_right even⟩
    · -- A smaller number is farther away than the least of the binade.
      have least := fills.resolve_left nonzero
      rw [Nat.mul_comm d, ← Nat.mul_assoc] at least
      have farther := Nat.lt_of_le_of_lt (nearest (2 ^ f.fractionBits)).near
        (gap_lt_gap positive less least)
      exact ⟨Nat.le_of_lt farther, fun equal => absurd equal (Nat.ne_of_lt farther)⟩
  · have infinite : round negative n d = (.infinite negative : Binary f) :=
      round_of_beyond_le negative positive above
    rw [infinite]
    refine ⟨beyond f, rfl, fun w size => ⟨?_, fun _ => Or.inr trivial⟩⟩
    have most := Nat.mul_le_mul_right d size.le_beyond
    rw [gap_natCast, gap_natCast]
    omega

/-- A quotient with a sign is rounded to the nearest number. -/
theorem isNearest_round (negative : Bool) (fraction : 0 < f.fractionBits) (positive : 0 < d)
    (n : Nat) : (round negative n d : Binary f).IsNearest (signed negative n) d := by
  obtain ⟨r, place, nearest⟩ := exists_nearest_size negative fraction positive n
  refine ⟨?number, ?noFarther⟩
  case number =>
    intro missing
    rw [missing] at place
    cases place
  case noFarther =>
    intro p q b here there
    obtain rfl : signed negative r = p := Option.some.inj (place.symm.trans here)
    obtain ⟨negative', w, size, rfl⟩ := exists_size there
    by_cases agree : negative' = negative
    · subst agree
      obtain ⟨near, tie⟩ := nearest w size
      refine ⟨by rwa [gap_signed, gap_signed], fun equal => ?_⟩
      rw [gap_signed, gap_signed] at equal
      exact (tie equal).imp_left fun same => by rw [Int.ofNat.inj same]
    · -- Zero is between the quotient and a number of the other sign.
      obtain rfl : negative' = !negative := Bool.eq_not.mpr agree
      obtain ⟨near, tie⟩ := nearest 0 isSize_zero
      refine ⟨?_, fun equal => ?_⟩
      · rw [gap_signed, gap_signed_not]
        exact Nat.le_trans near (Nat.le_add_right _ _)
      · rw [gap_signed, gap_signed_not] at equal
        have nothing : w * d = 0 := by
          rw [equal] at near
          exact Nat.le_zero.mp (Nat.le_of_add_le_add_left near)
        obtain rfl : w = 0 := (Nat.mul_eq_zero.mp nothing).resolve_right (Nat.ne_of_gt positive)
        rw [Nat.zero_mul, Nat.add_zero] at equal
        refine (tie equal).imp_left fun zero => ?_
        rw [Int.ofNat.inj zero]
        cases negative <;> rfl

def largest (f : Format) : Nat := (2 ^ (f.fractionBits + 1) - 1) * 2 ^ f.topScale

theorem canonical_largest : f.Canonical (2 ^ (f.fractionBits + 1) - 1) f.topScale := by
  have positive := Nat.two_pow_pos f.fractionBits
  have double := Nat.pow_succ (n := 2) (m := f.fractionBits)
  exact ⟨by omega, Nat.le_refl _, Or.inr (by omega)⟩

theorem largest_add (f : Format) : largest f + 2 ^ f.topScale = beyond f := by
  have positive := Nat.two_pow_pos (f.fractionBits + 1)
  rw [largest, beyond, Nat.pow_add 2 (f.fractionBits + 1), ← Nat.succ_mul, Nat.succ_eq_add_one,
    Nat.sub_add_cancel positive]

theorem size_le_largest (canonical : f.Canonical m s) : m * 2 ^ s ≤ largest f :=
  Nat.mul_le_mul (Nat.le_sub_one_of_lt canonical.1)
    (Nat.pow_le_pow_right Nat.two_pos canonical.2.1)

theorem significand_eq_of_size_eq {m' s' : Nat} (canonical : f.Canonical m s)
    (canonical' : f.Canonical m' s') (sizes : m * 2 ^ s = m' * 2 ^ s') : m = m' := by
  have same := finite_eq_of_size_eq canonical canonical' sizes false
  exact (Binary.finite.inj same).2.1

/-- What becomes infinite lies at most half a step below the place of the infinity: from there the
even neighbour is not the largest finite number. -/
theorem round_eq_infinite_iff (negative : Bool) (fraction : 0 < f.fractionBits)
    (positive : 0 < d) (n : Nat) :
    round negative n d = (.infinite negative : Binary f) ↔
      2 * (beyond f * d) ≤ 2 * n + 2 ^ f.topScale * d := by
  obtain ⟨r, place, nearest⟩ := exists_nearest_size negative fraction positive n
  have step : largest f * d + 2 ^ f.topScale * d = beyond f * d := by
    rw [← Nat.add_mul, largest_add]
  constructor
  · intro infinite
    rw [infinite] at place
    obtain rfl : beyond f = r := size_eq_of_signed_eq (Option.some.inj place)
    have near := (nearest (largest f) (Or.inr ⟨_, _, canonical_largest, rfl⟩)).near
    rw [gap_natCast, gap_natCast] at near
    have width : 0 < 2 ^ f.topScale * d := Nat.mul_pos (Nat.two_pow_pos _) positive
    omega
  · intro high
    refine (round_cases negative n d).resolve_left ?_
    rintro ⟨m, s, canonical, finite⟩
    rw [finite] at place nearest
    obtain rfl : m * 2 ^ s = r := size_eq_of_signed_eq (Option.some.inj place)
    obtain ⟨near, tie⟩ := noFarther_natCast.mp (nearest (beyond f) (Or.inl rfl))
    have most := Nat.mul_le_mul_right d (size_le_largest canonical)
    -- A finite number this near is the largest one, and that one is odd.
    have equal : m * 2 ^ s * d = largest f * d := by omega
    have size : m * 2 ^ s = largest f := Nat.eq_of_mul_eq_mul_right positive equal
    have odd := significand_eq_of_size_eq canonical canonical_largest size
    have length := Nat.pow_succ (n := 2) (m := f.fractionBits)
    have some_ := Nat.two_pow_pos f.fractionBits
    rcases tie (by omega) with infinite | even
    · exact absurd infinite (Nat.ne_of_lt (size_lt_beyond canonical))
    · rw [IsEven] at even
      omega

theorem place?_negate {p : Int} (place : a.place? = some p) : a.negate.place? = some (-p) := by
  cases a with
  | nan => cases place
  | infinite negative =>
      obtain rfl := Option.some.inj place
      cases negative <;> simp [negate, place?]
  | finite negative m s canonical =>
      obtain rfl := Option.some.inj place
      cases negative <;> simp [negate, place?]

theorem IsEven.negate (even : a.IsEven) : a.negate.IsEven := by
  cases a <;> exact even

theorem canonical_succ (canonical : f.Canonical m s) (even : m % 2 = 0) :
    f.Canonical (m + 1) s := by
  have length := Nat.pow_succ (n := 2) (m := f.fractionBits)
  have short := canonical.1
  exact ⟨by omega, canonical.2.1, canonical.2.2.imp_right Nat.le_succ_of_le⟩

/-- Above a size of some scale the next one is a step of this scale away. -/
theorem IsSize.succ_le (size : IsSize f w) (canonical : f.Canonical m s) (less : m * 2 ^ s < w) :
    (m + 1) * 2 ^ s ≤ w := by
  rcases size.multiple_or_lt canonical.2.1 with ⟨k, rfl⟩ | ⟨scaled, short⟩
  · exact Nat.mul_le_mul_right _ (Nat.lt_of_mul_lt_mul_right less)
  · have full := Nat.mul_le_mul_right (2 ^ s) (canonical.2.2.resolve_left scaled)
    omega

/-- A number that follows an even one is not even itself. -/
theorem ne_succ_of_isEven (even : b.IsEven) (place : b.place? = some (w : Int))
    (canonical : f.Canonical (m + 1) s) (even' : m % 2 = 0) : (m + 1) * 2 ^ s ≠ w := by
  intro meets
  cases b with
  | nan => cases place
  | infinite sign =>
      have size : signed sign (beyond f) = signed false w := Option.some.inj place
      have last := size_lt_beyond canonical
      rw [meets, ← size_eq_of_signed_eq size] at last
      exact absurd last (Nat.lt_irrefl _)
  | finite sign m' s' canonical' =>
      have size : signed sign (m' * 2 ^ s') = signed false w := Option.some.inj place
      have sizes := meets.trans (size_eq_of_signed_eq size).symm
      have parity := significand_eq_of_size_eq canonical canonical' sizes
      rw [IsEven] at even
      omega

/-- Above an even number follows an odd one, before the next even one. -/
theorem exists_between_of_nonneg {p q : Int} (left : a.place? = some p) (right : b.place? = some q)
    (evenLeft : a.IsEven) (evenRight : b.IsEven) (nonneg : 0 ≤ p) (less : p < q) :
    ∃ (c : Binary f) (r : Int), c.place? = some r ∧ p < r ∧ r < q := by
  obtain ⟨negative, w, size, rfl⟩ := exists_size right
  have above : 0 ≤ signed negative w := by omega
  rw [signed_of_nonneg above] at less right ⊢
  cases a with
  | nan => cases left
  | infinite sign =>
      obtain rfl : signed sign (beyond f) = p := Option.some.inj left
      rw [signed_of_nonneg nonneg] at less
      exact absurd (Int.ofNat_lt.mp less) (Nat.not_lt_of_ge size.le_beyond)
  | finite sign m s canonical =>
      obtain rfl : signed sign (m * 2 ^ s) = p := Option.some.inj left
      rw [signed_of_nonneg nonneg] at less ⊢
      rw [IsEven] at evenLeft
      replace less : m * 2 ^ s < w := Int.ofNat_lt.mp less
      have next := canonical_succ canonical evenLeft
      refine ⟨.finite false (m + 1) s next, _, rfl, ?_, ?_⟩
      · exact Int.ofNat_lt.mpr
          (Nat.mul_lt_mul_of_pos_right (Nat.lt_succ_self m) (Nat.two_pow_pos s))
      · exact Int.ofNat_lt.mpr (Nat.lt_of_le_of_ne (size.succ_le canonical less)
          (ne_succ_of_isEven evenRight right next evenLeft))

theorem exists_between {p q : Int} (left : a.place? = some p) (right : b.place? = some q)
    (evenLeft : a.IsEven) (evenRight : b.IsEven) (less : p < q) :
    ∃ (c : Binary f) (r : Int), c.place? = some r ∧ p < r ∧ r < q := by
  rcases Int.lt_or_le p 0 with below | nonneg
  · rcases Int.lt_or_le 0 q with above | nonpos
    · exact ⟨zero false, 0, rfl, below, above⟩
    · obtain ⟨c, r, place, low, high⟩ := exists_between_of_nonneg (place?_negate right)
        (place?_negate left) evenRight.negate evenLeft.negate (by omega) (Int.neg_lt_neg less)
      exact ⟨c.negate, -r, place?_negate place, by omega, by omega⟩
  · exact exists_between_of_nonneg left right evenLeft evenRight nonneg less

/-- Two places as near as each other have the quotient half-way between them. -/
theorem gap_lt_of_between {n p q r : Int} {d : Nat} (positive : 0 < d) (low : p < r) (high : r < q)
    (equal : gap n d p = gap n d q) : gap n d r < gap n d p := by
  have positive' : (0 : Int) < d := Int.natCast_pos.mpr positive
  have low' := Int.mul_lt_mul_of_pos_right low positive'
  have high' := Int.mul_lt_mul_of_pos_right high positive'
  rw [gap, gap] at equal
  rw [gap, gap]
  omega

/-- Only one place is nearest. -/
theorem IsNearest.place_eq {n p q : Int} {d : Nat} (positive : 0 < d) (left : a.IsNearest n d)
    (right : b.IsNearest n d) (here : a.place? = some p) (there : b.place? = some q) : p = q := by
  have equal : gap n d p = gap n d q :=
    Nat.le_antisymm (left.noFarther here there).near (right.noFarther there here).near
  refine Classical.byContradiction fun other => ?_
  have even := ((left.noFarther here there).tie equal).resolve_left other
  have even' := ((right.noFarther there here).tie equal.symm).resolve_left (Ne.symm other)
  rcases Int.lt_or_gt_of_ne other with less | more
  · obtain ⟨c, r, place, low, high⟩ := exists_between here there even even' less
    have nearer := gap_lt_of_between positive low high equal
    exact absurd (left.noFarther here place).near (Nat.not_le_of_gt nearer)
  · obtain ⟨c, r, place, low, high⟩ := exists_between there here even' even more
    have nearer := gap_lt_of_between positive low high equal.symm
    exact absurd (right.noFarther there place).near (Nat.not_le_of_gt nearer)

/-- Beside the number itself only the zero of the other sign is nearest. -/
theorem IsNearest.iff_same {n : Int} {d : Nat} (positive : 0 < d) (nearest : a.IsNearest n d) :
    b.IsNearest n d ↔ b.same a = true := by
  constructor
  · intro nearest'
    obtain ⟨p, here⟩ := exists_place nearest.number
    obtain ⟨q, there⟩ := exists_place nearest'.number
    have equal := nearest'.place_eq positive nearest there here
    simp [same, here, there, equal]
  · intro equal
    rcases eq_or_zeros_of_same equal with rfl | ⟨negative, rfl, rfl⟩
    · exact nearest
    · have place : ∀ sign, (zero sign : Binary f).place? = some 0 := fun sign => by
        cases sign <;> simp [zero, place?]
      have number : (zero negative : Binary f) ≠ nan := by simp [zero]
      refine ⟨number, fun here there => ⟨?_, fun _ => Or.inr rfl⟩⟩
      rw [place] at here
      exact (nearest.noFarther ((place _).trans here) there).near

/-- Rounding to the nearest number keeps the order. -/
theorem IsNearest.place_le {m n p q : Int} {d : Nat} (positive : 0 < d) (left : a.IsNearest m d)
    (right : b.IsNearest n d) (less : m < n) (here : a.place? = some p)
    (there : b.place? = some q) : p ≤ q := by
  refine Int.not_lt.mp fun crossed => ?_
  have near := (left.noFarther here there).near
  have near' := (right.noFarther there here).near
  have apart := Int.mul_lt_mul_of_pos_right crossed (Int.natCast_pos.mpr positive)
  rw [gap, gap] at near near'
  omega

theorem isNearest_ofInt (fraction : 0 < f.fractionBits) (n : Int) :
    (ofInt f n).IsNearest (n * (2 ^ f.unitBits : Nat)) 1 := by
  have nearest := isNearest_round (f := f) (decide (n < 0)) fraction Nat.one_pos
    (n.natAbs * 2 ^ f.unitBits)
  rwa [signed, ← signed_natAbs] at nearest

theorem pack_not (negative : Bool) (m s : Nat) :
    (pack (!negative) m s : Binary f) = (pack negative m s).negate := by
  rw [pack, pack]
  split <;> rfl

theorem round_not (negative : Bool) (n d : Nat) :
    (round (!negative) n d : Binary f) = (round negative n d).negate := by
  rw [round, round, carry, carry]
  split <;> exact pack_not negative _ _

/-- Turning round the sign of an integer turns round that of the number; the integer zero has no
sign. -/
theorem ofInt_neg {n : Int} (nonzero : n ≠ 0) : ofInt f (-n) = -ofInt f n := by
  have sign : decide (-n < 0) = !decide (n < 0) := by
    rcases Int.lt_or_gt_of_ne nonzero with below | above
    · simpa [below] using Int.le_of_lt below
    · simpa [above] using Int.le_of_lt above
  rw [ofInt, ofInt, sign, Int.natAbs_neg, round_not]
  rfl

theorem isInfinite_ofInt_iff (fraction : 0 < f.fractionBits) (n : Int) {top half : Nat}
    (range : f.fractionBits + 1 + f.topScale = top + f.unitBits)
    (step : f.topScale = half + 1 + f.unitBits) :
    ofInt f n = .infinite (decide (n < 0)) ↔ 2 ^ top ≤ n.natAbs + 2 ^ half := by
  have positive := Nat.two_pow_pos f.unitBits
  have sum : 2 * (n.natAbs * 2 ^ f.unitBits) + 2 ^ (half + 1 + f.unitBits) =
      2 * (n.natAbs + 2 ^ half) * 2 ^ f.unitBits := by
    rw [Nat.pow_add, Nat.pow_succ, Nat.mul_comm (2 ^ half), ← Nat.mul_assoc, ← Nat.add_mul,
      ← Nat.mul_add]
  rw [ofInt, round_eq_infinite_iff _ fraction Nat.one_pos, Nat.mul_one, Nat.mul_one, beyond, range,
    step, sum, Nat.pow_add, ← Nat.mul_assoc, Nat.mul_le_mul_right_iff positive,
    Nat.mul_le_mul_left_iff Nat.two_pos]

/-- An integer is infinite from half a step below the power of two that is out of range. -/
theorem ofInt_eq_infinite_iff (fraction : 0 < f.fractionBits) (n : Int) {top half : Nat}
    (range : f.fractionBits + 1 + f.topScale = top + f.unitBits)
    (step : f.topScale = half + 1 + f.unitBits) (negative : Bool) :
    ofInt f n = .infinite negative ↔
      2 ^ top - 2 ^ half ≤ if negative then -n else n := by
  have apart : 2 ^ half < 2 ^ top := Nat.pow_lt_pow_right (by decide) (by omega)
  have large : (2 ^ top - 2 ^ half : Int) = ((2 ^ top : Nat) : Int) - (2 ^ half : Nat) := by
    rw [Int.natCast_pow, Int.natCast_pow]
    rfl
  have bound := isInfinite_ofInt_iff fraction n range step
  rw [large]
  generalize 2 ^ top = range_, 2 ^ half = step_ at apart bound ⊢
  constructor
  · intro infinite
    have sign : negative = decide (n < 0) := by
      rcases ofInt_cases (f := f) n with ⟨m, s, canonical, finite⟩ | infinite'
      · exact nomatch infinite.symm.trans finite
      · exact Binary.infinite.inj (infinite.symm.trans infinite')
    have far := bound.mp (sign ▸ infinite)
    by_cases below : n < 0 <;> simp [sign, below] <;> omega
  · intro far
    have sign : negative = decide (n < 0) := by
      cases negative <;> simp at far ⊢ <;> omega
    rw [sign]
    refine bound.mpr ?_
    cases negative <;> simp at far <;> omega

end Binary

end Polish
