import Polish.Proofs.Binary.Nearest
import Polish.Proofs.Expr.Raising

set_option autoImplicit false

namespace Polish

/-- From half a step below the power of two that is out of range an integer is infinite. -/
theorem toDouble_eq_infinite_iff (n : Int) (negative : Bool) :
    (Number.integer n).toDouble = .infinite negative ↔
      2 ^ (1024 : Nat) - 2 ^ (970 : Nat) ≤ if negative then -n else n :=
  Binary.ofInt_eq_infinite_iff (by decide) n (by decide) (by decide) negative

/-- The unguarded conversion raises just where the nearest double is infinite. -/
theorem Raising.ofInteger_eq_error_iff (n : Int) :
    Raising.ofInteger n = .error .overflow ↔
      ∃ negative, (Number.integer n).toDouble = .infinite negative := by
  rw [Raising.ofInteger, Number.toDouble]
  rcases Binary.ofInt_cases (f := .double) n with ⟨m, s, canonical, finite⟩ | infinite
  · rw [finite]
    refine iff_of_false ?_ ?_
    · intro raised
      cases raised
    · rintro ⟨_, infinite⟩
      cases infinite
  · rw [infinite]
    exact iff_of_true rfl ⟨_, rfl⟩

/-- An integer of any size is converted to the nearest double, without an error. The nearest double
is infinite just where the unguarded conversion raises. -/
theorem toDouble_integer_nearest (n : Int) :
    Raising.saturated n = .ok (Number.integer n).toDouble ∧
    (∀ d : Double, d.IsNearest (n * (2 ^ Format.double.unitBits : Nat)) 1 ↔
      d.same (Number.integer n).toDouble = true) ∧
    ((Number.integer n).toDouble = .infinite false ↔
      2 ^ (1024 : Nat) - 2 ^ (970 : Nat) ≤ n) ∧
    ((Number.integer n).toDouble = .infinite true ↔
      n ≤ -(2 ^ (1024 : Nat) - 2 ^ (970 : Nat))) ∧
    (Raising.ofInteger n = .error .overflow ↔
      ∃ negative, (Number.integer n).toDouble = .infinite negative) ∧
    (n.natAbs ≤ 2 ^ (53 : Nat) → (Number.integer n).toDouble.IsInteger n) ∧
    (∀ m : Int, m ≤ n → ∃ p q, (Number.integer m).toDouble.place? = some p ∧
      (Number.integer n).toDouble.place? = some q ∧ p ≤ q) ∧
    (Number.integer (-n)).toDouble.same (-(Number.integer n).toDouble) = true ∧
    (n ≠ 0 → (Number.integer (-n)).toDouble = -(Number.integer n).toDouble) := by
  have fraction : 0 < Format.double.fractionBits := by decide
  have nearest (k : Int) := Binary.isNearest_ofInt fraction k
  have opposite : n ≠ 0 → Binary.ofInt .double (-n) = -Binary.ofInt .double n := Binary.ofInt_neg
  refine ⟨Raising.saturated_eq n, fun d => (nearest n).iff_same Nat.one_pos,
    toDouble_eq_infinite_iff n false, ?below, Raising.ofInteger_eq_error_iff n,
    fun small => Binary.isInteger_ofInt Format.wide_double small, ?order, ?turned, opposite⟩
  case below =>
    rw [toDouble_eq_infinite_iff n true, if_pos rfl]
    exact ⟨Int.le_neg_of_le_neg, Int.le_neg_of_le_neg⟩
  case order =>
    intro m most
    obtain ⟨p, here⟩ := Binary.exists_place (nearest m).number
    obtain ⟨q, there⟩ := Binary.exists_place (nearest n).number
    refine ⟨p, q, here, there, ?_⟩
    rcases Int.lt_or_eq_of_le most with less | rfl
    · have scaled := Int.mul_lt_mul_of_pos_right less (Binary.units_pos .double)
      exact (nearest m).place_le Nat.one_pos (nearest n) scaled here there
    · exact Int.le_of_eq (Option.some.inj (here.symm.trans there))
  case turned =>
    by_cases zero : n = 0
    · rw [zero]
      decide +kernel
    · rw [Number.toDouble, Number.toDouble, opposite zero, ← opposite zero]
      exact Binary.same_self (Binary.ofInt_ne_nan _)

/-- Half-way between two doubles the even one is taken, below and above. -/
example : (Number.integer (2 ^ (53 : Nat) + 1)).toDouble =
      (Number.integer (2 ^ (53 : Nat))).toDouble ∧
    (Number.integer (2 ^ (53 : Nat) + 3)).toDouble =
      (Number.integer (2 ^ (53 : Nat) + 4)).toDouble := by
  decide +kernel

end Polish
