import Polish.Proofs.Expr.Equality

set_option autoImplicit false

namespace Polish

def Kernel.arity : Kernel → Arity
  | .add | .subtract | .multiply | .divide => .exactly 2
  | .negate => .exactly 1
  | .meanOfFive => .exactly 5
  | .medianOfThree => .exactly 3
  | .arithmeticMean | .geometricMean | .harmonicMean | .custom _ => .variadic

theorem Kernel.exists_onDoubles {kernel : Kernel} (known : kernel.isCustom = false)
    {values : List Double} (accepted : kernel.arity.accepts values.length = true) :
    ∃ d, kernel.onDoubles values = .ok d := by
  cases kernel with
  | add | subtract | multiply | divide =>
      obtain ⟨a, b, rfl⟩ := List.length_eq_two.mp (Int.ofNat.inj (eq_of_beq accepted))
      exact ⟨_, rfl⟩
  | negate =>
      obtain ⟨a, rfl⟩ := List.length_eq_one_iff.mp (Int.ofNat.inj (eq_of_beq accepted))
      exact ⟨_, rfl⟩
  | medianOfThree =>
      obtain ⟨a, b, c, rfl⟩ := List.length_eq_three.mp (Int.ofNat.inj (eq_of_beq accepted))
      exact ⟨_, rfl⟩
  | meanOfFive =>
      have five : values.length = 5 := Int.ofNat.inj (eq_of_beq accepted)
      match values, five with
      | [a, b, c, d, e], _ => exact ⟨_, rfl⟩
  | arithmeticMean | harmonicMean => exact ⟨_, rfl⟩
  | geometricMean =>
      cases values with
      | nil => cases accepted
      | cons value values => exact ⟨_, rfl⟩
  | custom function => cases known

theorem Operator.arity_of_known {op : Operator} (known : Operator.ofSymbol? op.symbol = some op) :
    op.arity = op.kernel.arity := by
  have agree : ∀ op ∈ registered, op.arity = op.kernel.arity := by decide
  exact agree op (List.mem_of_find?_eq_some known)

/-- A registered operator has a value for every number of arguments that it takes. -/
theorem Operator.exists_onDoubles {op : Operator}
    (known : Operator.ofSymbol? op.symbol = some op) {values : List Double}
    (accepted : op.arity.accepts values.length = true) :
    ∃ d, op.kernel.onDoubles values = .ok d := by
  rw [arity_of_known known] at accepted
  exact Kernel.exists_onDoubles (isCustom_of_known known) accepted

namespace Expr

theorem WellFormed.exists_evaluate {e : Expr} (formed : e.WellFormed) (p : Point Number) :
    ∃ d, e.evaluate p = .ok d := by
  induction formed with
  | const value => exact ⟨_, rfl⟩
  | var v => exact ⟨_, rfl⟩
  | apply op args known accepted children ih =>
      obtain ⟨values, operands⟩ := exists_evaluateListWith ih
      rw [← length_of_evaluateListWith operands] at accepted
      obtain ⟨d, computed⟩ := Operator.exists_onDoubles known accepted
      exact ⟨d, (evaluateWith_apply_of_ok operands).trans computed⟩

/-- Negative zeros stand at the same places. -/
def SameZeros (a b : Expr) : Prop :=
  a.Beside (fun x y => x = .double (.zero true) ↔ y = .double (.zero true)) b

theorem sameZeros_iff {a b : Expr} (same : a.same b = true) :
    a.SameZeros b ↔ a.Beside (·.toDouble = ·.toDouble) b :=
  forall₂_congr fun x y => forall_congr' fun member =>
    (Number.toDouble_eq_iff_of_same (beside_of_same same x y member)).symm

theorem evaluate_of_same {a b : Expr} (formedA : a.WellFormed) (formedB : b.WellFormed)
    (same : a.same b = true) (doubles : a.Beside (·.toDouble = ·.toDouble) b)
    (p : Point Number) : a.evaluate p = b.evaluate p := by
  rw [← formedA.registered.evaluateIn_ofPoint p, ← formedB.registered.evaluateIn_ofPoint p]
  refine evaluateWith_of_beside (fun _ _ => (Interpretation.ofPoint p).meaning_of_symbol)
    formedA.registered.supported.2 same fun x y member => ?_
  exact congrArg (fun d => (Interpretation.ofPoint p).constant (.double d)) (doubles x y member)

/-- Equal expressions of registered operators have values at every point, the same one if their
negative zeros stand at the same places. Just then their constants are the same doubles, place by
place. -/
theorem same_value_of_same {a b : Expr} (formedA : a.WellFormed) (formedB : b.WellFormed)
    (same : a.same b = true) :
    (∀ p, ∃ d e, a.evaluate p = .ok d ∧ b.evaluate p = .ok e ∧ (a.SameZeros b → d = e)) ∧
      (a.SameZeros b ↔ a.Beside (·.toDouble = ·.toDouble) b) := by
  refine ⟨?_, sameZeros_iff same⟩
  intro p
  obtain ⟨d, left⟩ := formedA.exists_evaluate p
  obtain ⟨e, right⟩ := formedB.exists_evaluate p
  refine ⟨d, e, left, right, fun zeros => ?_⟩
  have value := evaluate_of_same formedA formedB same ((sameZeros_iff same).mp zeros) p
  rw [left, right] at value
  cases value
  rfl

/-- An integer and a double that are equal divide alike. -/
theorem same_value_of_same_quotient : ∃ d,
    (apply ⟨"/", .exactly 2, .divide⟩ [.var .x, .const (.integer 2)]).evaluate
      ⟨.integer 3, .integer 0, .integer 0⟩ = .ok d ∧
    (apply ⟨"/", .exactly 2, .divide⟩ [.var .x, .const (.double (.ofInt .double 2))]).evaluate
      ⟨.integer 3, .integer 0, .integer 0⟩ = .ok d := by
  have formed : ∀ value,
      (apply ⟨"/", .exactly 2, .divide⟩ [.var .x, .const value]).WellFormed := by
    intro value
    refine .apply _ _ rfl rfl ?_
    simp [WellFormed.var, WellFormed.const]
  have two : (.double (.ofInt .double 2) : Number) ≠ .double (.zero true) := by decide +kernel
  obtain ⟨d, e, left, right, alike⟩ := (same_value_of_same (formed (.integer 2))
    (formed (.double (.ofInt .double 2))) (by decide +kernel)).1 ⟨.integer 3, .integer 0, .integer 0⟩
  have zeros := alike (by simp [SameZeros, Beside, labels, labelsList, two])
  exact ⟨d, left, zeros ▸ right⟩

/-- One divided by the two zeros: the trees are equal, and their values are opposite infinities. -/
theorem same_not_interchangeable :
    ¬ ∀ a b : Expr, a.WellFormed → b.WellFormed → a.HasNoNaN → b.HasNoNaN → a.same b = true →
      ∀ p, ∃ d, a.evaluate p = .ok d ∧ b.evaluate p = .ok d := by
  intro always
  have formed : ∀ zero, (apply ⟨"/", .exactly 2, .divide⟩
      [.const (.integer 1), .const (.double (.zero zero))]).WellFormed := by
    intro zero
    refine .apply _ _ rfl rfl ?_
    simp [WellFormed.const]
  have apart : ∀ zero, (apply ⟨"/", .exactly 2, .divide⟩
      [.const (.integer 1), .const (.double (.zero zero))]).HasNoNaN := by
    simp [HasNoNaN, labels, labelsList, Binary.zero]
  have values : ∀ zero, (apply ⟨"/", .exactly 2, .divide⟩
      [.const (.integer 1), .const (.double (.zero zero))]).evaluate
      ⟨.integer 0, .integer 0, .integer 0⟩ = .ok (Binary.ofInt .double 1 / .zero zero) :=
    fun zero => rfl
  have above : Binary.ofInt .double 1 / .zero false = .infinite false := by decide +kernel
  have below : Binary.ofInt .double 1 / .zero true = .infinite true := by decide +kernel
  obtain ⟨d, positive, negative⟩ := always _ _ (formed false) (formed true) (apart false)
    (apart true) (by decide) ⟨.integer 0, .integer 0, .integer 0⟩
  rw [values, above] at positive
  rw [values, below, ← positive] at negative
  cases negative

end Expr

end Polish
