import Mathlib.Data.Int.ModEq
import Polish.Tensor.Evaluation

set_option autoImplicit false

namespace Polish.Tensor

/-- Exactly one word is congruent to an integer. -/
theorem modEq_iff_eq_ofInt {w : Int32} {n : Int} :
    w.toInt ≡ n [ZMOD 2 ^ (32 : Nat)] ↔ w = Int32.ofInt n := by
  constructor
  · intro congruent
    have same : w.toInt.bmod Int32.size = n.bmod Int32.size := by
      rw [← Int.emod_bmod w.toInt, ← Int.emod_bmod n]
      exact congrArg (Int.bmod · Int32.size) congruent
    rw [← Int32.toInt_inj, Int32.toInt_ofInt, ← same, ← Int32.toInt_ofInt, Int32.ofInt_toInt]
  · rintro rfl
    rw [Int32.toInt_ofInt]
    exact Int.bmod_emod

/-- The word congruent to an integer, as an array without axes. -/
def residue (n : Int) : Tensor := .words (.scalar (Int32.ofInt n))

theorem residue_toInt (w : Int32) : residue w.toInt = .words (.scalar w) := by
  rw [residue, Int32.ofInt_toInt]

theorem add_residue (m n : Int) : add (residue m) (residue n) = .ok (residue (m + n)) := by
  rw [residue.eq_def (m + n), Int32.ofInt_add]
  rfl

theorem subtract_residue (m n : Int) :
    subtract (residue m) (residue n) = .ok (residue (m - n)) := by
  rw [residue.eq_def (m - n), Int32.ofInt_sub]
  rfl

theorem multiply_residue (m n : Int) :
    multiply (residue m) (residue n) = .ok (residue (m * n)) := by
  rw [residue.eq_def (m * n), Int32.ofInt_mul]
  rfl

theorem negate_residue (n : Int) : negate (residue n) = residue (-n) := by
  rw [residue.eq_def (-n), Int32.ofInt_neg]
  rfl

theorem foldl_mul_ofInt (words : List Int32) (n : Int) :
    words.foldl (· * ·) (Int32.ofInt n) = Int32.ofInt (n * (words.map Int32.toInt).prod) := by
  induction words generalizing n with
  | nil => rw [List.foldl_nil, List.map_nil, List.prod_nil, Int.mul_one]
  | cons w words ih =>
      have first : Int32.ofInt n * w = Int32.ofInt (n * w.toInt) := by
        rw [Int32.ofInt_mul, Int32.ofInt_toInt]
      rw [List.foldl_cons, first, ih, List.map_cons, List.prod_cons, Int.mul_assoc]

/-- However often it has wrapped round, a product of words is congruent to the exact one. -/
theorem foldl_mul_modEq (words : List Int32) :
    (words.foldl (· * ·) 1).toInt ≡ (words.map Int32.toInt).prod [ZMOD 2 ^ (32 : Nat)] := by
  rw [modEq_iff_eq_ofInt, ← Int.one_mul (words.map Int32.toInt).prod]
  exact foldl_mul_ofInt words 1

/-- The size of a word is the distance of the word from zero, but the least word keeps its sign. -/
theorem toInt_wordMagnitude (w : Int32) :
    (wordMagnitude w).toInt =
      if w.toInt = -2 ^ (31 : Nat) then -2 ^ (31 : Nat) else |w.toInt| := by
  have below := Int32.le_toInt w
  have above := Int32.toInt_lt w
  rw [wordMagnitude]
  by_cases negative : w < 0
  · rw [if_pos negative, Int32.toInt_neg]
    rw [Int32.lt_iff_toInt_lt, Int32.toInt_zero] at negative
    split
    · rename_i least
      rw [least]
      rfl
    · rw [abs_of_neg negative]
      exact Int.bmod_eq_of_le_mul_two (by omega) (by omega)
  · rw [if_neg negative]
    rw [Int32.lt_iff_toInt_lt, Int32.toInt_zero, Int.not_lt] at negative
    rw [if_neg (by omega), abs_of_nonneg negative]

/-- The size of a word that is congruent to two to the 31, and of no other, is negative. -/
theorem wordMagnitude_nonneg_iff {w : Int32} {n : Int}
    (congruent : w.toInt ≡ n [ZMOD 2 ^ (32 : Nat)]) :
    0 ≤ (wordMagnitude w).toInt ↔ ¬ n ≡ 2 ^ (31 : Nat) [ZMOD 2 ^ (32 : Nat)] := by
  have least : n ≡ 2 ^ (31 : Nat) [ZMOD 2 ^ (32 : Nat)] ↔ w.toInt = -2 ^ (31 : Nat) := by
    have word : (Int32.ofInt (2 ^ (31 : Nat))).toInt = -2 ^ (31 : Nat) := rfl
    rw [← word, Int32.toInt_inj, ← modEq_iff_eq_ofInt]
    exact ⟨congruent.trans, congruent.symm.trans⟩
  rw [toInt_wordMagnitude, least]
  split <;> rename_i alike
  · exact iff_of_false (by decide) (not_not_intro alike)
  · exact iff_of_true (abs_nonneg _) alike

end Polish.Tensor
