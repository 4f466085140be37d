import Polish.Proofs.Binary.Integer
import Polish.Tensor.Evaluation

set_option autoImplicit false

namespace Polish

/-- An integer that words hold, and single precision without rounding. -/
def Small (n : Int) : Prop := n.natAbs ≤ 2 ^ (24 : Nat)

namespace Small

variable {m n : Int}

theorem fits (small : Small n) : -2 ^ (31 : Nat) ≤ n ∧ n < 2 ^ (31 : Nat) := by
  unfold Small at small
  omega

theorem bmod_word (small : Small n) : n.bmod (2 ^ (32 : Nat)) = n := by
  have fits := small.fits
  exact Int.bmod_eq_of_le_mul_two (by omega) (by omega)

theorem min (left : Small m) (right : Small n) : Small (min m n) := by
  unfold Small at left right ⊢
  omega

theorem max (left : Small m) (right : Small n) : Small (max m n) := by
  unfold Small at left right ⊢
  omega

theorem significand_double (small : Small n) :
    n.natAbs ≤ 2 ^ (Format.double.fractionBits + 1) :=
  Nat.le_trans small (by decide)

theorem significand_single (small : Small n) :
    n.natAbs ≤ 2 ^ (Format.single.fractionBits + 1) :=
  small

end Small

namespace Tensor

variable {s t u : Tensor} {m n k : Int}

/-- The array has no axes, and its entry is the integer. -/
inductive IsInteger : Tensor → Int → Prop where
  | word {w : Int32} {n : Int} (whole : w.toInt = n) : IsInteger (.words (.scalar w)) n
  | single {x : Single} {n : Int} (whole : x.IsInteger n) : IsInteger (.singles (.scalar x)) n

theorem IsInteger.toSingles (whole : t.IsInteger n) (small : Small n) :
    ∃ x, t.toSingles = .scalar x ∧ x.IsInteger n := by
  cases whole with
  | @word w _ whole =>
      refine ⟨singleOfWord w, rfl, ?_⟩
      rw [singleOfWord, whole]
      exact Binary.isInteger_ofInt Format.wide_single small.significand_single
  | single whole => exact ⟨_, rfl, whole⟩

/-- An operation that is exact on words and in single precision is exact on arrays. -/
theorem IsInteger.combine {onWords : Int32 → Int32 → Int32} {onSingles : Single → Single → Single}
    (left : s.IsInteger m) (right : t.IsInteger n) (smallLeft : Small m) (smallRight : Small n)
    (words : ∀ v w : Int32, v.toInt = m → w.toInt = n → (onWords v w).toInt = k)
    (singles : ∀ x y : Single, x.IsInteger m → y.IsInteger n → (onSingles x y).IsInteger k) :
    ∃ u, Tensor.combine onWords onSingles s t = .ok u ∧ u.IsInteger k := by
  obtain ⟨x, single, whole⟩ := left.toSingles smallLeft
  obtain ⟨y, single', whole'⟩ := right.toSingles smallRight
  have rounded := singles x y whole whole'
  cases left with
  | word v =>
      cases right with
      | word w => exact ⟨_, rfl, .word (words _ _ v w)⟩
      | single w =>
          refine ⟨.singles (.scalar (onSingles x y)), ?_, .single rounded⟩
          simp only [Tensor.combine, single, single']
          rfl
  | single v =>
      refine ⟨.singles (.scalar (onSingles x y)), ?_, .single rounded⟩
      simp only [Tensor.combine, single, single']
      rfl

theorem IsInteger.add (left : s.IsInteger m) (right : t.IsInteger n) (smallLeft : Small m)
    (smallRight : Small n) (small : Small (m + n)) :
    ∃ u, Tensor.add s t = .ok u ∧ u.IsInteger (m + n) := by
  refine left.combine right smallLeft smallRight ?_ ?_
  · rintro v w rfl rfl
    rw [Int32.toInt_add, small.bmod_word]
  · intro x y whole whole'
    exact whole.add Format.wide_single whole' small.significand_single

theorem IsInteger.subtract (left : s.IsInteger m) (right : t.IsInteger n) (smallLeft : Small m)
    (smallRight : Small n) (small : Small (m - n)) :
    ∃ u, Tensor.subtract s t = .ok u ∧ u.IsInteger (m - n) := by
  refine left.combine right smallLeft smallRight ?_ ?_
  · rintro v w rfl rfl
    rw [Int32.toInt_sub, small.bmod_word]
  · intro x y whole whole'
    exact whole.sub Format.wide_single whole' small.significand_single

theorem IsInteger.multiply (left : s.IsInteger m) (right : t.IsInteger n) (smallLeft : Small m)
    (smallRight : Small n) (small : Small (m * n)) :
    ∃ u, Tensor.multiply s t = .ok u ∧ u.IsInteger (m * n) := by
  refine left.combine right smallLeft smallRight ?_ ?_
  · rintro v w rfl rfl
    rw [Int32.toInt_mul, small.bmod_word]
  · intro x y whole whole'
    exact whole.mul Format.wide_single whole' small.significand_single

theorem IsInteger.negate (whole : t.IsInteger n) (small : Small (-n)) :
    (Tensor.negate t).IsInteger (-n) := by
  cases whole with
  | @word w _ whole =>
      refine .word ?_
      rw [Int32.toInt_neg, whole, small.bmod_word]
  | single whole => exact .single whole.negate

theorem toInt_wordMinimum (v w : Int32) : (wordMinimum v w).toInt = min v.toInt w.toInt := by
  unfold wordMinimum
  split <;> rename_i less <;> rw [Int32.lt_iff_toInt_lt] at less <;> omega

theorem toInt_wordMaximum (v w : Int32) : (wordMaximum v w).toInt = max v.toInt w.toInt := by
  unfold wordMaximum
  split <;> rename_i less <;> rw [Int32.lt_iff_toInt_lt] at less <;> omega

/-- Whichever of two equal ones is taken, it is their minimum. -/
theorem isInteger_singleMinimum {x y : Single} (left : x.IsInteger m) (right : y.IsInteger n) :
    (singleMinimum x y).IsInteger (min m n) := by
  rw [singleMinimum, left.isNaN, right.isNaN, right.lt left, left.lt right]
  by_cases less : n < m
  · simpa [less, Int.min_eq_right (Int.le_of_lt less)] using right
  by_cases less' : m < n
  · simpa [less, less', Int.min_eq_left (Int.le_of_lt less')] using left
  have equal : m = n := by omega
  subst equal
  rw [Int.min_self]
  cases y.isNegative <;> simpa

theorem isInteger_singleMaximum {x y : Single} (left : x.IsInteger m) (right : y.IsInteger n) :
    (singleMaximum x y).IsInteger (max m n) := by
  rw [singleMaximum, left.isNaN, right.isNaN, right.lt left, left.lt right]
  by_cases less : m < n
  · simpa [less, Int.max_eq_right (Int.le_of_lt less)] using right
  by_cases less' : n < m
  · simpa [less, less', Int.max_eq_left (Int.le_of_lt less')] using left
  have equal : m = n := by omega
  subst equal
  rw [Int.max_self]
  cases x.isNegative <;> simpa

theorem IsInteger.minimum (left : s.IsInteger m) (right : t.IsInteger n) (smallLeft : Small m)
    (smallRight : Small n) : ∃ u, Tensor.minimum s t = .ok u ∧ u.IsInteger (min m n) := by
  refine left.combine right smallLeft smallRight ?_ fun x y => isInteger_singleMinimum
  rintro v w rfl rfl
  exact toInt_wordMinimum v w

theorem IsInteger.maximum (left : s.IsInteger m) (right : t.IsInteger n) (smallLeft : Small m)
    (smallRight : Small n) : ∃ u, Tensor.maximum s t = .ok u ∧ u.IsInteger (max m n) := by
  refine left.combine right smallLeft smallRight ?_ fun x y => isInteger_singleMaximum
  rintro v w rfl rfl
  exact toInt_wordMaximum v w

theorem IsInteger.median (first : s.IsInteger m) (second : t.IsInteger n) (third : u.IsInteger k)
    (smallFirst : Small m) (smallSecond : Small n) (smallThird : Small k) :
    ∃ v, Tensor.median s t u = .ok v ∧
      v.IsInteger (max (min m k) (max (min m n) (min n k))) := by
  obtain ⟨outer, outerOk, outerInteger⟩ := first.minimum third smallFirst smallThird
  obtain ⟨left, leftOk, leftInteger⟩ := first.minimum second smallFirst smallSecond
  obtain ⟨right, rightOk, rightInteger⟩ := second.minimum third smallSecond smallThird
  have smallLeft := smallFirst.min smallSecond
  have smallRight := smallSecond.min smallThird
  obtain ⟨inner, innerOk, innerInteger⟩ := leftInteger.maximum rightInteger smallLeft smallRight
  obtain ⟨v, ok, whole⟩ := outerInteger.maximum innerInteger (smallFirst.min smallThird)
    (smallLeft.max smallRight)
  refine ⟨v, ?_, whole⟩
  simp only [Tensor.median, outerOk, leftOk, rightOk, innerOk, bind, Except.bind, ok]

end Tensor

end Polish
