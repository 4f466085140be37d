import Mathlib.Data.List.Permutation
import Polish.Expr.Evaluation
import Polish.Proofs.Tensor.Integer

set_option autoImplicit false

namespace Polish

def middleOf (m n k : Int) : Int := max (min m k) (max (min m n) (min n k))

theorem middleOf_swap (m n k : Int) : middleOf n m k = middleOf m n k := by
  unfold middleOf
  omega

theorem middleOf_swap_behind (m n k : Int) : middleOf m k n = middleOf m n k := by
  unfold middleOf
  omega

theorem middleOf_eq_of_perm {m n k m' n' k' : Int} (perm : [m', n', k'].Perm [m, n, k]) :
    middleOf m' n' k' = middleOf m n k := by
  have listed := List.mem_permutations'.mpr perm
  simp only [List.permutations', List.permutations'Aux, List.flatMap_cons, List.flatMap_nil,
    List.map_cons, List.map_nil, List.append_nil, List.cons_append, List.nil_append,
    List.mem_cons, List.cons.injEq, List.not_mem_nil, or_false, and_true] at listed
  -- Two kinds of swaps lead to each of the six orders.
  rcases listed with ⟨rfl, rfl, rfl⟩ | ⟨rfl, rfl, rfl⟩ | ⟨rfl, rfl, rfl⟩ | ⟨rfl, rfl, rfl⟩ |
    ⟨rfl, rfl, rfl⟩ | ⟨rfl, rfl, rfl⟩
  · rfl
  · rw [middleOf_swap n' m' k']
  · rw [middleOf_swap m' k' n', middleOf_swap_behind m' n' k']
  · rw [middleOf_swap_behind m' n' k']
  · rw [middleOf_swap_behind n' m' k', middleOf_swap m' n' k']
  · rw [middleOf_swap n' k' m', middleOf_swap_behind n' m' k', middleOf_swap m' n' k']

theorem middleOf_of_sorted {p q r : Int} (low : p ≤ q) (high : q ≤ r) : middleOf p q r = q := by
  unfold middleOf
  omega

/-- The three values are `p`, `q` and `r`, and neither is less than the one before it. -/
structure Sorts {α : Type} (less : α → α → Bool) (values : List α) (p q r : α) : Prop where
  perm : [p, q, r].Perm values
  low : less q p = false
  high : less r q = false

/-- The value is one of the three, which can be sorted, and equals the one that is then in the
middle. -/
structure IsMedian {α : Type} (less same : α → α → Bool) (values : List α) (m : α) : Prop where
  member : m ∈ values
  sortable : ∃ p q r, Sorts less values p q r
  middle : ∀ p q r, Sorts less values p q r → same m q = true

/-- The formula of the median, over the greater and the lesser of two. -/
def medianWith {α : Type} (greater lesser : α → α → α) (a b c : α) : α :=
  greater (lesser a c) (greater (lesser a b) (lesser b c))

/-- Values compare as their ranks do, and the greater and the lesser of two are picked by rank.
Of two values with one rank either may be picked. -/
structure Ranks {α : Type} (rank : α → Option Int) (less same : α → α → Bool)
    (greater lesser : α → α → α) : Prop where
  less : ∀ {a b m n}, rank a = some m → rank b = some n → less a b = decide (m < n)
  same : ∀ {a b m n}, rank a = some m → rank b = some n → same a b = decide (m = n)
  greater : ∀ {a b m n}, rank a = some m → rank b = some n →
    (greater a b = a ∨ greater a b = b) ∧ rank (greater a b) = some (max m n)
  lesser : ∀ {a b m n}, rank a = some m → rank b = some n →
    (lesser a b = a ∨ lesser a b = b) ∧ rank (lesser a b) = some (min m n)

namespace Ranks

variable {α : Type} {rank : α → Option Int} {less same : α → α → Bool}
  {greater lesser : α → α → α} {a b c a' b' c' : α} {m n k : Int}

theorem rank_median (ranks : Ranks rank less same greater lesser) (first : rank a = some m)
    (second : rank b = some n) (third : rank c = some k) :
    rank (medianWith greater lesser a b c) = some (middleOf m n k) :=
  (ranks.greater (ranks.lesser first third).2
    (ranks.greater (ranks.lesser first second).2 (ranks.lesser second third).2).2).2

theorem median_mem (ranks : Ranks rank less same greater lesser) (first : rank a = some m)
    (second : rank b = some n) (third : rank c = some k) :
    medianWith greater lesser a b c ∈ [a, b, c] := by
  obtain ⟨outer, outerRank⟩ := ranks.lesser first third
  obtain ⟨left, leftRank⟩ := ranks.lesser first second
  obtain ⟨right, rightRank⟩ := ranks.lesser second third
  obtain ⟨inner, innerRank⟩ := ranks.greater leftRank rightRank
  obtain ⟨picked, _⟩ := ranks.greater outerRank innerRank
  simp only [medianWith, List.mem_cons, List.not_mem_nil, or_false]
  rcases picked with picked | picked <;> rw [picked]
  · exact outer.imp_right Or.inr
  · rcases inner with inner | inner <;> rw [inner]
    · exact left.imp_right Or.inl
    · exact Or.inr right

/-- Values in another order have ranks in that order. -/
theorem exists_of_perm (first : rank a = some m) (second : rank b = some n)
    (third : rank c = some k) (perm : [a', b', c'].Perm [a, b, c]) :
    ∃ m' n' k', rank a' = some m' ∧ rank b' = some n' ∧ rank c' = some k' ∧
      [m', n', k'].Perm [m, n, k] := by
  have each : ∀ d ∈ [a, b, c], ∃ i, rank d = some i := by
    simp [first, second, third]
  obtain ⟨m', first'⟩ := each a' (perm.subset (by simp))
  obtain ⟨n', second'⟩ := each b' (perm.subset (by simp))
  obtain ⟨k', third'⟩ := each c' (perm.subset (by simp))
  refine ⟨m', n', k', first', second', third', ?_⟩
  simpa [first, second, third, first', second', third'] using perm.filterMap rank

theorem exists_sorts (ranks : Ranks rank less same greater lesser) (first : rank a = some m)
    (second : rank b = some n) (third : rank c = some k) : ∃ p q r, Sorts less [a, b, c] p q r := by
  have apart : ∀ {d e i j}, rank d = some i → rank e = some j → i ≤ j → less e d = false := by
    intro d e i j left right most
    rw [ranks.less right left]
    exact decide_eq_false (Int.not_lt.mpr most)
  have swapped : [b, a, c].Perm [a, b, c] := List.Perm.swap a b [c]
  have swapped' : [a, c, b].Perm [a, b, c] := (List.Perm.swap b c []).cons a
  rcases Int.le_total m n with ab | ba
  · rcases Int.le_total n k with bc | cb
    · exact ⟨a, b, c, .refl _, apart first second ab, apart second third bc⟩
    · rcases Int.le_total m k with ac | ca
      · exact ⟨a, c, b, swapped', apart first third ac, apart third second cb⟩
      · exact ⟨c, a, b, (List.Perm.swap a c [b]).trans swapped', apart third first ca,
          apart first second ab⟩
  · rcases Int.le_total m k with ac | ca
    · exact ⟨b, a, c, swapped, apart second first ba, apart first third ac⟩
    · rcases Int.le_total n k with bc | cb
      · exact ⟨b, c, a, ((List.Perm.swap a c []).cons b).trans swapped, apart second third bc,
          apart third first ca⟩
      · exact ⟨c, b, a, ((List.Perm.swap b c [a]).trans ((List.Perm.swap a c []).cons b)).trans
          swapped, apart third second cb, apart second first ba⟩

theorem isMedian (ranks : Ranks rank less same greater lesser) (first : rank a = some m)
    (second : rank b = some n) (third : rank c = some k) :
    IsMedian less same [a, b, c] (medianWith greater lesser a b c) := by
  refine ⟨ranks.median_mem first second third, ranks.exists_sorts first second third, ?_⟩
  rintro p q r ⟨perm, low, high⟩
  obtain ⟨i, j, l, rankP, rankQ, rankR, order⟩ := exists_of_perm first second third perm
  rw [ranks.less rankQ rankP, decide_eq_false_iff_not, Int.not_lt] at low
  rw [ranks.less rankR rankQ, decide_eq_false_iff_not, Int.not_lt] at high
  rw [ranks.same (ranks.rank_median first second third) rankQ, ← middleOf_eq_of_perm order,
    middleOf_of_sorted low high]
  exact decide_eq_true rfl

theorem same_median_of_perm (ranks : Ranks rank less same greater lesser)
    (first : rank a = some m) (second : rank b = some n) (third : rank c = some k)
    (perm : [a', b', c'].Perm [a, b, c]) :
    same (medianWith greater lesser a b c) (medianWith greater lesser a' b' c') = true := by
  obtain ⟨m', n', k', first', second', third', order⟩ := exists_of_perm first second third perm
  rw [ranks.same (ranks.rank_median first second third)
    (ranks.rank_median first' second' third'), middleOf_eq_of_perm order]
  exact decide_eq_true rfl

end Ranks

/-- Numbers without a NaN are ranked by their places. -/
theorem ranks_binary {f : Format} :
    Ranks (Binary.place? (f := f)) Binary.lt Binary.same Binary.greater Binary.lesser where
  less left right := by rw [Binary.lt, left, right]
  same left right := by
    rw [Binary.same, left, right]
    rfl
  greater := by
    intro a b m n left right
    have less : b.lt a = decide (n < m) := by rw [Binary.lt, left, right]
    rw [Binary.greater, less]
    by_cases below : n < m
    · rw [if_pos (decide_eq_true below), Int.max_eq_left (Int.le_of_lt below)]
      exact ⟨Or.inl rfl, left⟩
    · rw [if_neg (by simpa using below), Int.max_eq_right (Int.not_lt.mp below)]
      exact ⟨Or.inr rfl, right⟩
  lesser := by
    intro a b m n left right
    have less : a.lt b = decide (m < n) := by rw [Binary.lt, left, right]
    rw [Binary.lesser, less]
    by_cases below : m < n
    · rw [if_pos (decide_eq_true below), Int.min_eq_left (Int.le_of_lt below)]
      exact ⟨Or.inl rfl, left⟩
    · rw [if_neg (by simpa using below), Int.min_eq_right (Int.not_lt.mp below)]
      exact ⟨Or.inr rfl, right⟩

/-- Words are ranked by the integers they stand for. -/
theorem ranks_words :
    Ranks (fun w : Int32 => some w.toInt) (fun v w => decide (v < w)) (· == ·)
      Tensor.wordMaximum Tensor.wordMinimum where
  less := by
    intro v w m n left right
    cases left
    cases right
    simp only [Int32.lt_iff_toInt_lt]
  same := by
    intro v w m n left right
    cases left
    cases right
    simp only [Int32.toInt_inj, beq_eq_decide]
  greater := by
    intro v w m n left right
    cases left
    cases right
    refine ⟨?_, congrArg some (Tensor.toInt_wordMaximum v w)⟩
    unfold Tensor.wordMaximum
    split
    · exact Or.inr rfl
    · exact Or.inl rfl
  lesser := by
    intro v w m n left right
    cases left
    cases right
    refine ⟨?_, congrArg some (Tensor.toInt_wordMinimum v w)⟩
    unfold Tensor.wordMinimum
    split
    · exact Or.inr rfl
    · exact Or.inl rfl

/-- A number is at most one integer. -/
theorem Binary.IsInteger.unique {f : Format} {d : Binary f} {m n : Int} (whole : d.IsInteger m)
    (whole' : d.IsInteger n) : m = n := by
  have units := Option.some.inj (whole.symm.trans whole')
  exact Int.eq_of_mul_eq_mul_right (Int.ne_of_gt (Binary.units_pos f)) units

/-- Every word is a double. -/
theorem isInteger_ofInt_word (w : Int32) : (Binary.ofInt .double w.toInt).IsInteger w.toInt := by
  have below := Int32.le_toInt w
  have above := Int32.toInt_lt w
  have size : w.toInt.natAbs ≤ 2 ^ (31 : Nat) := by omega
  exact Binary.isInteger_ofInt Format.wide_double (Nat.le_trans size (by decide))

/-- The median of doubles that are integers is one of them, and their median. -/
theorem Binary.IsInteger.median {a b c : Double} {m n k : Int} (first : a.IsInteger m)
    (second : b.IsInteger n) (third : c.IsInteger k) :
    Kernel.median a b c ∈ [a, b, c] ∧ (Kernel.median a b c).IsInteger (middleOf m n k) :=
  ⟨ranks_binary.median_mem (place?_of_units? first) (place?_of_units? second)
    (place?_of_units? third),
    (first.lesser third).greater ((first.lesser second).greater (second.lesser third))⟩

/-- The median of words as doubles is their median as a double. -/
theorem median_ofInt (a b c : Int32) :
    Kernel.median (.ofInt .double a.toInt) (.ofInt .double b.toInt) (.ofInt .double c.toInt) =
      .ofInt .double (medianWith Tensor.wordMaximum Tensor.wordMinimum a b c).toInt := by
  have rank : (medianWith Tensor.wordMaximum Tensor.wordMinimum a b c).toInt =
      middleOf a.toInt b.toInt c.toInt :=
    Option.some.inj (ranks_words.rank_median (a := a) (b := b) (c := c) rfl rfl rfl)
  obtain ⟨member, whole⟩ := (isInteger_ofInt_word a).median (isInteger_ofInt_word b)
    (isInteger_ofInt_word c)
  -- The median is one of the three doubles, and no other double is the same integer.
  have only : ∀ w : Int32, Kernel.median (.ofInt .double a.toInt) (.ofInt .double b.toInt)
      (.ofInt .double c.toInt) = .ofInt .double w.toInt →
      w.toInt = middleOf a.toInt b.toInt c.toInt := by
    intro w picked
    rw [picked] at whole
    exact (isInteger_ofInt_word w).unique whole
  rw [rank]
  simp only [List.mem_cons, List.not_mem_nil, or_false] at member
  rcases member with picked | picked | picked
  · rw [← only a picked]
    exact picked
  · rw [← only b picked]
    exact picked
  · rw [← only c picked]
    exact picked

/-- The operator gives the median of three doubles without a NaN, and of three words, whatever
their order; and it gives the same integer on words and on the doubles they are. -/
theorem median_in_the_middle :
    (∀ a b c : Double, a ≠ .nan → b ≠ .nan → c ≠ .nan →
      ∃ m, Kernel.medianOfThree.onDoubles [a, b, c] = .ok m ∧
        IsMedian Binary.lt Binary.same [a, b, c] m ∧
        ∀ a' b' c', [a', b', c'].Perm [a, b, c] →
          ∃ m', Kernel.medianOfThree.onDoubles [a', b', c'] = .ok m' ∧ m.same m' = true) ∧
    ∀ a b c : Int32, ∃ m,
      Tensor.ofKernel .medianOfThree
        [.words (.scalar a), .words (.scalar b), .words (.scalar c)] =
          .ok (.words (.scalar m)) ∧
      IsMedian (fun v w => decide (v < w)) (· == ·) [a, b, c] m ∧
      (∀ a' b' c', [a', b', c'].Perm [a, b, c] →
        Tensor.ofKernel .medianOfThree
          [.words (.scalar a'), .words (.scalar b'), .words (.scalar c')] =
            .ok (.words (.scalar m))) ∧
      Kernel.medianOfThree.onDoubles
        [.ofInt .double a.toInt, .ofInt .double b.toInt, .ofInt .double c.toInt] =
          .ok (.ofInt .double m.toInt) := by
  constructor
  · intro a b c numberA numberB numberC
    obtain ⟨m, first⟩ := Binary.exists_place numberA
    obtain ⟨n, second⟩ := Binary.exists_place numberB
    obtain ⟨k, third⟩ := Binary.exists_place numberC
    refine ⟨_, rfl, ranks_binary.isMedian first second third, ?_⟩
    intro a' b' c' perm
    exact ⟨_, rfl, ranks_binary.same_median_of_perm first second third perm⟩
  · intro a b c
    refine ⟨medianWith Tensor.wordMaximum Tensor.wordMinimum a b c, rfl,
      ranks_words.isMedian rfl rfl rfl, ?_, congrArg Except.ok (median_ofInt a b c)⟩
    intro a' b' c' perm
    have same := ranks_words.same_median_of_perm rfl rfl rfl perm
    rw [beq_iff_eq] at same
    rw [same]
    rfl

/-- Of zeros with both signs and an infinity the median is a zero, and the least and the greatest
word stand on either side of the others. -/
theorem median_in_the_middle_zeros :
    (∃ m, Kernel.medianOfThree.onDoubles [.zero false, .zero true, .infinite false] = .ok m ∧
      m.same (.zero true) = true) ∧
    Tensor.ofKernel .medianOfThree [.words (.scalar Int32.maxValue),
      .words (.scalar (-1)), .words (.scalar Int32.minValue)] = .ok (.words (.scalar (-1))) := by
  constructor
  · obtain ⟨m, computed, median, _⟩ := median_in_the_middle.1 (.zero false) (.zero true)
      (.infinite false) nofun nofun nofun
    exact ⟨m, computed, median.middle (.zero false) (.zero true) (.infinite false)
      ⟨.refl _, by decide, by decide +kernel⟩⟩
  · obtain ⟨m, computed, median, _⟩ :=
      median_in_the_middle.2 Int32.maxValue (-1) Int32.minValue
    have middle := median.middle Int32.minValue (-1) Int32.maxValue
      ⟨by decide, by decide, by decide⟩
    rw [beq_iff_eq] at middle
    rw [computed, middle]

end Polish
