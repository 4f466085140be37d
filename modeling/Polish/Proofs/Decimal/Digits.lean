import Polish.Decimal.Reading

set_option autoImplicit false

namespace Polish.Decimal

theorem digitChar_of_isDigit {c : Char} (digit : c.isDigit = true) :
    c.toNat - '0'.toNat < 10 ∧ Nat.digitChar (c.toNat - '0'.toNat) = c := by
  simp only [Char.isDigit, Bool.and_eq_true, decide_eq_true_eq] at digit
  have low : '0'.toNat ≤ c.toNat := digit.1
  have high : c.toNat ≤ '9'.toNat := digit.2
  have nine : '9'.toNat = '0'.toNat + 9 := rfl
  have zero : '0'.toNat = 48 := rfl
  have small : c.toNat - '0'.toNat < 10 := by omega
  refine ⟨small, Char.toNat_inj.mp ?_⟩
  rw [Nat.toNat_digitChar_of_lt_ten small]
  omega

theorem digits_lt {digits : List Char} (decimal : ∀ c ∈ digits, c.isDigit = true)
    {n k : Nat} (below : n < 10 ^ k) :
    digits.foldl (fun n c => 10 * n + (c.toNat - '0'.toNat)) n < 10 ^ (k + digits.length) := by
  induction digits generalizing n k with
  | nil => exact below
  | cons c rest ih =>
      have digit := (digitChar_of_isDigit (decimal c (by simp))).1
      have next : 10 * n + (c.toNat - '0'.toNat) < 10 ^ (k + 1) := by
        rw [Nat.pow_succ]
        omega
      have all := ih (fun c member => decimal c (List.mem_cons_of_mem _ member)) next
      rw [List.foldl_cons, List.length_cons, Nat.add_comm rest.length, ← Nat.add_assoc]
      exact all

theorem ofDigits_lt {digits : List Char} (decimal : ∀ c ∈ digits, c.isDigit = true) :
    ofDigits digits < 10 ^ digits.length := by
  simpa [ofDigits] using digits_lt decimal (n := 0) (k := 0) (by simp)

/-- The digits without the zeros in front; zero keeps its digit. -/
def significant (digits : List Char) : List Char :=
  match digits.dropWhile (· == '0') with
  | [] => ['0']
  | kept => kept

def normal (negative : Bool) (digits : List Char) : List Char :=
  if negative ∧ significant digits ≠ ['0'] then '-' :: significant digits else significant digits

/-- Digits behind those of a number that is not zero go on with it. -/
theorem toDigits_foldl {digits : List Char} (decimal : ∀ c ∈ digits, c.isDigit = true) {n : Nat}
    (positive : 0 < n) :
    Nat.toDigits 10 n ++ digits =
      Nat.toDigits 10 (digits.foldl (fun n c => 10 * n + (c.toNat - '0'.toNat)) n) := by
  induction digits generalizing n with
  | nil => rw [List.append_nil, List.foldl_nil]
  | cons c digits ih =>
      obtain ⟨small, same⟩ := digitChar_of_isDigit (decimal c (by simp))
      have next := Nat.toDigits_append_toDigits (b := 10) (by decide) positive small
      rw [Nat.toDigits_of_lt_base small, same] at next
      have positive' : 0 < 10 * n + (c.toNat - '0'.toNat) := by omega
      have later := ih (fun d member => decimal d (List.mem_cons_of_mem c member)) positive'
      calc
        Nat.toDigits 10 n ++ c :: digits = (Nat.toDigits 10 n ++ [c]) ++ digits := by simp
        _ = Nat.toDigits 10 (10 * n + (c.toNat - '0'.toNat)) ++ digits := by rw [next]
        _ = _ := later

theorem ofDigits_dropWhile (digits : List Char) :
    ofDigits (digits.dropWhile (· == '0')) = ofDigits digits := by
  induction digits with
  | nil => rfl
  | cons c digits ih =>
      by_cases zero : c = '0'
      · subst zero
        rw [List.dropWhile_cons_of_pos (by decide), ih]
        rfl
      · rw [List.dropWhile_cons_of_neg (by simpa using zero)]

theorem toDigits_ofDigits_cons {c : Char} {rest : List Char}
    (decimal : ∀ d ∈ c :: rest, d.isDigit = true) (notZero : c ≠ '0') :
    Nat.toDigits 10 (ofDigits (c :: rest)) = c :: rest := by
  obtain ⟨small, same⟩ := digitChar_of_isDigit (decimal c (by simp))
  have positive : 0 < c.toNat - '0'.toNat := by
    apply Nat.pos_of_ne_zero
    intro nothing
    rw [nothing] at same
    exact notZero same.symm
  have all := toDigits_foldl (fun d member => decimal d (List.mem_cons_of_mem c member)) positive
  rw [Nat.toDigits_of_lt_base small, same] at all
  rw [ofDigits, List.foldl_cons, Nat.mul_zero, Nat.zero_add, ← all]
  rfl

theorem toDigits_ofDigits {digits : List Char} (decimal : ∀ c ∈ digits, c.isDigit = true) :
    Nat.toDigits 10 (ofDigits digits) = significant digits := by
  have inside : ∀ c ∈ digits.dropWhile (· == '0'), c.isDigit = true :=
    fun c member => decimal c ((List.dropWhile_suffix _).subset member)
  have head := List.head?_dropWhile_not (· == '0') digits
  rw [significant, ← ofDigits_dropWhile digits]
  cases kept : digits.dropWhile (· == '0') with
  | nil => exact Nat.toDigits_zero 10
  | cons c rest =>
      rw [kept] at inside head
      have notZero : c ≠ '0' := by simpa using head
      exact toDigits_ofDigits_cons inside notZero

/-- Only zero has no other digits. -/
theorem significant_eq_zero_iff {digits : List Char} (decimal : ∀ c ∈ digits, c.isDigit = true) :
    significant digits = ['0'] ↔ ofDigits digits = 0 := by
  rw [← toDigits_ofDigits decimal]
  constructor
  · intro zero
    have back := Nat.ofDigitChars_ten_toDigits (n := ofDigits digits)
    rw [zero] at back
    exact back.symm
  · intro zero
    rw [zero, Nat.toDigits_zero]

end Polish.Decimal
