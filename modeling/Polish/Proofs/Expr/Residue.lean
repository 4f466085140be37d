import Polish.Proofs.Expr.Agreement
import Polish.Proofs.Graph.Typing
import Polish.Proofs.Tensor.Residue

set_option autoImplicit false

namespace Polish

/-- Any integers stand for the words congruent to them. Which of two words is less is another
matter, so the median is left out. -/
theorem Kernel.onResidues_of_onIntegers {kernel : Kernel} {values : List Int} {n : Int}
    (exact_ : kernel.onIntegers values = some n) (unordered : kernel ≠ .medianOfThree) :
    Tensor.ofKernel kernel (values.map Tensor.residue) = .ok (Tensor.residue n) := by
  unfold onIntegers at exact_
  split at exact_ <;> cases exact_
  · exact Tensor.add_residue _ _
  · exact Tensor.subtract_residue _ _
  · exact Tensor.multiply_residue _ _
  · exact congrArg Except.ok (Tensor.negate_residue _)
  · exact absurd rfl unordered

/-- A call may convert arguments that no node asks for, if that succeeds. -/
theorem Graph.callStrict_of_converted {given : Point Argument} {tensors : Point Tensor}
    (converted : ∀ v, (given.get v).tensor = .ok (tensors.get v)) (g : Graph) :
    g.callStrict given.toList = g.call given.toList := by
  have first : given.x.tensor = .ok tensors.x := converted .x
  have second : given.y.tensor = .ok tensors.y := converted .y
  have third : given.z.tensor = .ok tensors.z := converted .z
  have all : given.toList.mapM (fun a => Tensor.lift a.tensor) = .ok tensors.toList := by
    simp only [Point.toList, List.mapM_cons, List.mapM_nil, first, second, third, Tensor.lift]
    rfl
  rw [callStrict, callTensors, all]
  simp only [bind, Except.bind]
  cases g.call given.toList <;> rfl

namespace Expr

/-- The expression is made of variables, sums, differences, products and negatives. -/
def Polynomial (e : Expr) : Prop :=
  (∀ value, .constant value ∉ e.labels) ∧
    ∀ symbol count, .operation symbol count ∈ e.labels → symbol ∈ ["+", "-", "*", "negate"]

variable {e : Expr} {args : List Expr} {n : Int} {given : Point Argument} {p : Point Int32}

theorem Polynomial.arguments {op : Operator} (polynomial : (apply op args).Polynomial) :
    ∀ e ∈ args, e.Polynomial := by
  intro e member
  constructor
  · intro value inside
    exact polynomial.1 value (mem_labels_of_argument member inside)
  · intro symbol count inside
    exact polynomial.2 symbol count (mem_labels_of_argument member inside)

theorem Polynomial.integral (polynomial : e.Polynomial) : e.Integral := by
  refine ⟨fun value member => absurd member (polynomial.1 value), fun symbol count member => ?_⟩
  exact List.mem_append_left ["med3"] (polynomial.2 symbol count member)

theorem Polynomial.short (polynomial : e.Polynomial) : e.Short :=
  fun _ member => absurd member (polynomial.1 _)

theorem unordered_of_symbol {op : Operator} (known : Operator.ofSymbol? op.symbol = some op)
    (polynomial : op.symbol ∈ ["+", "-", "*", "negate"]) : op.kernel ≠ .medianOfThree := by
  have each : ∀ op ∈ Operator.registered,
      op.symbol ∈ ["+", "-", "*", "negate"] → op.kernel ≠ .medianOfThree := by
    simp [Operator.registered]
  exact each op (List.mem_of_find?_eq_some known) polynomial

/-- The expression has an exact value at the words, and on arrays the word congruent to it. -/
structure Wraps (given : Point Argument) (p : Point Int32) (e : Expr) (n : Int) : Prop where
  exact_ : e.integerValue? (p.map Int32.toInt) = some n
  tensor : e.evaluateIn (Tensor.onArguments Graph.argumentNames given.toList) =
    .ok (Tensor.residue n)

structure WrapAll (given : Point Argument) (p : Point Int32) (args : List Expr)
    (values : List Int) : Prop where
  exact_ : integerValues? (p.map Int32.toInt) args = some values
  length : values.length = args.length
  tensor : evaluateListWith (Tensor.onArguments Graph.argumentNames given.toList).meaning args =
    .ok (values.map Tensor.residue)

theorem exists_wrapAll (each : ∀ e ∈ args, ∃ n, e.Wraps given p n) :
    ∃ values, WrapAll given p args values := by
  induction args with
  | nil => exact ⟨[], rfl, rfl, rfl⟩
  | cons e es ih =>
      obtain ⟨n, value, tensor⟩ := each e (by simp)
      obtain ⟨values, value', length, tensors⟩ :=
        ih fun e member => each e (List.mem_cons_of_mem _ member)
      refine ⟨n :: values, ?_, congrArg (· + 1) length, ?_⟩
      · simp only [integerValues?, value, value', bind, Option.bind, pure]
      · exact evaluateListWith_eq_ok_iff.mpr
          (.cons tensor (evaluateListWith_eq_ok_iff.mp tensors))

theorem wraps_var (converted : ∀ v, (given.get v).tensor = .ok (.words (.scalar (p.get v))))
    (v : Variable) : (var v).Wraps given p (p.get v).toInt := by
  constructor
  · rw [integerValue?, Point.get_map]
  · rw [evaluateIn, evaluateWith, Interpretation.meaning_slot]
    simp only [Tensor.onArguments, Tensor.interpretation, Point.bound?_toList, Option.bind_some,
      Variable.ofName?_name, Option.map_some, converted, Tensor.lift, Tensor.residue_toInt]

theorem wraps_apply {op : Operator} {values : List Int}
    (known : Operator.ofSymbol? op.symbol = some op) (unordered : op.kernel ≠ .medianOfThree)
    (all : WrapAll given p args values) (exact_ : op.kernel.onIntegers values = some n) :
    (apply op args).Wraps given p n := by
  obtain ⟨value, _, tensors⟩ := all
  constructor
  · simp only [integerValue?, value, bind, Option.bind, exact_]
  · rw [evaluateIn, evaluateWith_apply_of_ok tensors, Interpretation.meaning_operator]
    simp only [Tensor.onArguments, Tensor.interpretation, known, bind, Except.bind,
      Kernel.onResidues_of_onIntegers exact_ unordered, Tensor.lift]

/-- By induction on the expression: a subtree may have wrapped round before its kernel is applied,
but its word is still that of its exact value. -/
theorem exists_wraps (formed : e.WellFormed) (polynomial : e.Polynomial)
    (converted : ∀ v, (given.get v).tensor = .ok (.words (.scalar (p.get v)))) :
    ∃ n, e.Wraps given p n := by
  induction formed with
  | const value => exact absurd (List.mem_singleton_self _) (polynomial.1 value)
  | var v => exact ⟨_, wraps_var converted v⟩
  | apply op args known accepted children ih =>
      obtain ⟨values, all⟩ := exists_wrapAll fun e member =>
        ih e member (polynomial.arguments e member)
      have symbol := polynomial.2 op.symbol args.length (by simp [labels])
      have symbol' := polynomial.integral.2 op.symbol args.length (by simp [labels])
      rw [← all.length, Operator.arity_of_known known] at accepted
      obtain ⟨n, exact_⟩ := (isIntegral_of_symbol known symbol').exists_onIntegers accepted
      exact ⟨n, wraps_apply known (unordered_of_symbol known symbol) all exact_⟩

/-- An expression of variables, sums, differences, products and negatives has an exact value at any
three words. Its graph, called with these words or with integers that they hold, gives the one
word that is congruent to this value modulo two to the 32, with shared nodes or without, and also
where all arguments are converted first. -/
theorem call_is_exact_modulo_words (e : Expr) (formed : e.WellFormed) (polynomial : e.Polynomial)
    (given : Point Argument) (p : Point Int32)
    (converted : ∀ v, (given.get v).tensor = .ok (.words (.scalar (p.get v)))) (sharing : Bool) :
    ∃ n g w, e.integerValue? (p.map Int32.toInt) = some n ∧ e.lowerWritten sharing = .ok g ∧
      g.call given.toList = .ok (.words (.scalar w)) ∧
      g.callStrict given.toList = .ok (.words (.scalar w)) ∧
      ∀ v : Int32, v.toInt ≡ n [ZMOD 2 ^ (32 : Nat)] ↔ v = w := by
  obtain ⟨n, value, tensor⟩ := exists_wraps formed polynomial converted
  obtain ⟨g, lowered, call⟩ :=
    polynomial.integral.exists_call formed polynomial.short given.toList rfl sharing
  have result := call.trans tensor
  have words : ∀ v, (given.get v).tensor =
      .ok ((p.map fun w => Tensor.words (.scalar w)).get v) := by
    intro v
    rw [converted, Point.get_map]
  have strict := Graph.callStrict_of_converted words g
  exact ⟨n, g, Int32.ofInt n, value, lowered, result, strict.trans result,
    fun v => Tensor.modEq_iff_eq_ofInt⟩

/-- The square of 65537 is beyond words, and so is its negative, which is a shared node. -/
theorem call_is_exact_modulo_words_square :
    ∃ g w, (apply ⟨"negate", .exactly 1, .negate⟩
        [.apply ⟨"*", .exactly 2, .multiply⟩ [.var .x, .var .x]]).lowerWritten true = .ok g ∧
      g.call [.number (.integer 65537), .number (.integer 0), .array (.words (.scalar 0))] =
        .ok (.words (.scalar w)) ∧
      ∀ v : Int32, v.toInt ≡ -4295098369 [ZMOD 2 ^ (32 : Nat)] ↔ v = w := by
  have inner : (apply ⟨"*", .exactly 2, .multiply⟩ [.var .x, .var .x]).WellFormed :=
    .apply _ _ rfl rfl (by simp [WellFormed.var])
  have formed : (apply ⟨"negate", .exactly 1, .negate⟩
      [.apply ⟨"*", .exactly 2, .multiply⟩ [.var .x, .var .x]]).WellFormed :=
    .apply _ _ rfl rfl (by simp [inner])
  have polynomial : (apply ⟨"negate", .exactly 1, .negate⟩
      [.apply ⟨"*", .exactly 2, .multiply⟩ [.var .x, .var .x]]).Polynomial := by
    refine ⟨by simp [labels, labelsList], ?_⟩
    simp only [labels, labelsList, List.append_nil, List.mem_cons, List.cons_append,
      List.nil_append, List.not_mem_nil, or_false]
    rintro symbol count (same | same | same | same) <;> cases same <;> decide
  obtain ⟨n, g, w, value, lowered, result, _, congruent⟩ := call_is_exact_modulo_words _ formed
    polynomial ⟨.number (.integer 65537), .number (.integer 0), .array (.words (.scalar 0))⟩
    ⟨65537, 0, 0⟩ (fun v => by cases v <;> rfl) true
  cases value
  exact ⟨g, w, lowered, result, congruent⟩

end Expr

end Polish
