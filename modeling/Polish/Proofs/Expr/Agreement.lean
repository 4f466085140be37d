import Polish.Proofs.Expr.Interchange
import Polish.Proofs.Expr.Rereading
import Polish.Proofs.Expr.Subtrees
import Polish.Proofs.Tensor.Integer

set_option autoImplicit false

namespace Polish

namespace Kernel

/-- What an operator computes on integers; the others leave them. -/
def onIntegers : Kernel → List Int → Option Int
  | .add, [a, b] => some (a + b)
  | .subtract, [a, b] => some (a - b)
  | .multiply, [a, b] => some (a * b)
  | .negate, [a] => some (-a)
  | .medianOfThree, [a, b, c] => some (max (min a b) (min (max a b) c))
  | _, _ => none

def IsIntegral : Kernel → Prop
  | .add | .subtract | .multiply | .negate | .medianOfThree => True
  | _ => False

instance (kernel : Kernel) : Decidable kernel.IsIntegral := by
  cases kernel <;> unfold IsIntegral <;> infer_instance

variable {kernel : Kernel} {values : List Int} {n : Int}

theorem IsIntegral.exists_onIntegers (integral : kernel.IsIntegral)
    (accepted : kernel.arity.accepts values.length = true) :
    ∃ n, kernel.onIntegers values = some n := by
  cases kernel with
  | add | subtract | multiply =>
      obtain ⟨a, b, rfl⟩ := List.length_eq_two.mp (Int.ofNat.inj (eq_of_beq accepted))
      exact ⟨_, rfl⟩
  | negate =>
      obtain ⟨a, rfl⟩ := List.length_eq_one_iff.mp (Int.ofNat.inj (eq_of_beq accepted))
      exact ⟨_, rfl⟩
  | medianOfThree =>
      obtain ⟨a, b, c, rfl⟩ := List.length_eq_three.mp (Int.ofNat.inj (eq_of_beq accepted))
      exact ⟨_, rfl⟩
  | _ => exact integral.elim

/-- The median as it is computed, from minima of pairs. -/
theorem median_eq (a b c : Int) :
    max (min a b) (min (max a b) c) = max (min a c) (max (min a b) (min b c)) := by
  omega

/-- On doubles that are integers the operator computes what it does on integers. -/
theorem onDoubles_of_onIntegers (exact_ : kernel.onIntegers values = some n) (small : Small n)
    {doubles : List Double} (each : List.Forall₂ Binary.IsInteger doubles values) :
    ∃ d, kernel.onDoubles doubles = .ok d ∧ d.IsInteger n := by
  unfold onIntegers at exact_
  split at exact_ <;> cases exact_
  · obtain _ | ⟨left, _ | ⟨right, _ | _⟩⟩ := each
    exact ⟨_, rfl, left.add Format.wide_double right small.significand_double⟩
  · obtain _ | ⟨left, _ | ⟨right, _ | _⟩⟩ := each
    exact ⟨_, rfl, left.sub Format.wide_double right small.significand_double⟩
  · obtain _ | ⟨left, _ | ⟨right, _ | _⟩⟩ := each
    exact ⟨_, rfl, left.mul Format.wide_double right small.significand_double⟩
  · obtain _ | ⟨whole, _ | _⟩ := each
    exact ⟨_, rfl, whole.negate⟩
  · obtain _ | ⟨first, _ | ⟨second, _ | ⟨third, _ | _⟩⟩⟩ := each
    rw [median_eq]
    exact ⟨_, rfl, (first.lesser third).greater
      ((first.lesser second).greater (second.lesser third))⟩

/-- On arrays that hold integers the operator computes what it does on integers. -/
theorem onTensors_of_onIntegers (exact_ : kernel.onIntegers values = some n) (small : Small n)
    (smalls : ∀ value ∈ values, Small value) {tensors : List Tensor}
    (each : List.Forall₂ Tensor.IsInteger tensors values) :
    ∃ t, Tensor.ofKernel kernel tensors = .ok t ∧ t.IsInteger n := by
  unfold onIntegers at exact_
  split at exact_ <;> cases exact_ <;>
    simp only [List.forall_mem_cons, List.not_mem_nil, false_imp_iff, implies_true,
      and_true] at smalls
  · obtain _ | ⟨left, _ | ⟨right, _ | _⟩⟩ := each
    exact left.add right smalls.1 smalls.2 small
  · obtain _ | ⟨left, _ | ⟨right, _ | _⟩⟩ := each
    exact left.subtract right smalls.1 smalls.2 small
  · obtain _ | ⟨left, _ | ⟨right, _ | _⟩⟩ := each
    exact left.multiply right smalls.1 smalls.2 small
  · obtain _ | ⟨whole, _ | _⟩ := each
    exact ⟨_, rfl, whole.negate small⟩
  · obtain _ | ⟨first, _ | ⟨second, _ | ⟨third, _ | _⟩⟩⟩ := each
    rw [median_eq]
    exact first.median second third smalls.1 smalls.2.1 smalls.2.2

end Kernel

def Point.numbers (p : Point Int) : Point Number := ⟨.integer p.x, .integer p.y, .integer p.z⟩

def Point.arguments (p : Point Int) : List Argument :=
  [.number (.integer p.x), .number (.integer p.y), .number (.integer p.z)]

namespace Expr

mutual

/-- The exact value at integers; none if a constant or an operator leaves them. -/
def integerValue? (p : Point Int) : Expr → Option Int
  | .const value => value.integer?
  | .var v => some (p.get v)
  | .apply op args => do op.kernel.onIntegers (← integerValues? p args)
  | .foreign _ => none

def integerValues? (p : Point Int) : List Expr → Option (List Int)
  | [] => some []
  | e :: es => do
      let value ← integerValue? p e
      let values ← integerValues? p es
      return value :: values

end

/-- All constants are integers, and all operators give integers for integers. -/
def Integral (e : Expr) : Prop :=
  (∀ value, .constant value ∈ e.labels → ∃ n, value.integer? = some n) ∧
    ∀ symbol count, .operation symbol count ∈ e.labels →
      symbol ∈ ["+", "-", "*", "negate", "med3"]

variable {p : Point Int} {e : Expr} {args : List Expr} {n : Int}

theorem Integral.arguments {op : Operator} (integral : (apply op args).Integral) :
    ∀ e ∈ args, e.Integral := by
  intro e member
  constructor
  · intro value inside
    exact integral.1 value (mem_labels_of_argument member inside)
  · intro symbol count inside
    exact integral.2 symbol count (mem_labels_of_argument member inside)

/-- The expression has the value as an integer, as a double and on arrays. -/
structure Agrees (p : Point Int) (e : Expr) (n : Int) : Prop where
  exact_ : e.integerValue? p = some n
  small : Small n
  double : ∃ d, e.evaluate p.numbers = .ok d ∧ d.IsInteger n
  tensor : ∃ t, e.evaluateIn (Tensor.onArguments Graph.argumentNames p.arguments) = .ok t ∧
    t.IsInteger n

structure AgreeAll (p : Point Int) (args : List Expr) (values : List Int) : Prop where
  exact_ : integerValues? p args = some values
  length : values.length = args.length
  small : ∀ value ∈ values, Small value
  double : ∃ doubles, evaluateListWith (.doubles p.numbers) args = .ok doubles ∧
    List.Forall₂ Binary.IsInteger doubles values
  tensor : ∃ tensors,
    evaluateListWith (Tensor.onArguments Graph.argumentNames p.arguments).meaning args =
        .ok tensors ∧
      List.Forall₂ Tensor.IsInteger tensors values

theorem exists_agreeAll (each : ∀ e ∈ args, ∃ n, e.Agrees p n) :
    ∃ values, AgreeAll p args values := by
  induction args with
  | nil => exact ⟨[], rfl, rfl, by simp, ⟨[], rfl, .nil⟩, ⟨[], rfl, .nil⟩⟩
  | cons e es ih =>
      obtain ⟨n, value, small, ⟨d, double, whole⟩, t, tensor, whole'⟩ := each e (by simp)
      obtain ⟨values, value', length, small', ⟨ds, doubles, wholes⟩, ts, tensors, wholes'⟩ :=
        ih fun e member => each e (List.mem_cons_of_mem _ member)
      refine ⟨n :: values, ?_, congrArg (· + 1) length, List.forall_mem_cons.mpr ⟨small, small'⟩,
        ⟨d :: ds, ?_, .cons whole wholes⟩, ⟨t :: ts, ?_, .cons whole' wholes'⟩⟩
      · simp only [integerValues?, value, value', bind, Option.bind, pure]
      · exact evaluateListWith_eq_ok_iff.mpr
          (.cons double (evaluateListWith_eq_ok_iff.mp doubles))
      · exact evaluateListWith_eq_ok_iff.mpr
          (.cons tensor (evaluateListWith_eq_ok_iff.mp tensors))

theorem agrees_const {value : Number} (whole : value.integer? = some n) (small : Small n) :
    (const value).Agrees p n := by
  have double : value.toDouble.IsInteger n := by
    rw [Number.toDouble_of_integer? whole]
    exact Binary.isInteger_ofInt Format.wide_double small.significand_double
  refine ⟨whole, small, ⟨_, rfl, double⟩, _, rfl, .single ?_⟩
  exact double.convert Format.wide_single small.significand_single

/-- A variable holds a word. -/
theorem agrees_var {v : Variable} (small : Small (p.get v)) : (var v).Agrees p (p.get v) := by
  have fits := small.fits
  have word : Tensor.ofScalar (.integer (p.get v)) =
      .ok (.words (.scalar (Int32.ofInt (p.get v)))) := by
    simp only [Tensor.ofScalar, Tensor.wordOf, Tensor.word?, if_pos fits,
      Except.map]
  refine ⟨rfl, small, ⟨_, rfl, ?_⟩, .words (.scalar (Int32.ofInt (p.get v))), ?_, .word ?_⟩
  · have same : p.numbers.get v = .integer (p.get v) := by cases v <;> rfl
    rw [same]
    exact Binary.isInteger_ofInt Format.wide_double small.significand_double
  · have bound : Tensor.bound? Graph.argumentNames p.arguments (some v.name) =
        some (.number (.integer (p.get v))) := by cases v <;> rfl
    rw [evaluateIn, evaluateWith, Interpretation.meaning_slot]
    simp only [Tensor.onArguments, Tensor.interpretation, bound, Option.map_some, Argument.tensor,
      word, Tensor.lift]
  · exact Int32.toInt_ofInt_of_le fits.1 fits.2

theorem agrees_apply {op : Operator} {values : List Int}
    (known : Operator.ofSymbol? op.symbol = some op) (all : AgreeAll p args values)
    (exact_ : op.kernel.onIntegers values = some n) (small : Small n) :
    (apply op args).Agrees p n := by
  obtain ⟨value, _, smalls, ⟨ds, doubles, wholes⟩, ts, tensors, wholes'⟩ := all
  obtain ⟨d, double, whole⟩ := Kernel.onDoubles_of_onIntegers exact_ small wholes
  obtain ⟨t, tensor, whole'⟩ := Kernel.onTensors_of_onIntegers exact_ small smalls wholes'
  refine ⟨?_, small, ⟨d, ?_, whole⟩, t, ?_, whole'⟩
  · simp only [integerValue?, value, bind, Option.bind, exact_]
  · exact (evaluateWith_apply_of_ok doubles).trans double
  · rw [evaluateIn, evaluateWith_apply_of_ok tensors, Interpretation.meaning_operator]
    simp only [Tensor.onArguments, Tensor.interpretation, known, bind, Except.bind, tensor,
      Tensor.lift]

/-- The operators that integral expressions are made of stay among the integers. -/
theorem isIntegral_of_symbol {op : Operator} (known : Operator.ofSymbol? op.symbol = some op)
    (integral : op.symbol ∈ ["+", "-", "*", "negate", "med3"]) : op.kernel.IsIntegral := by
  have each : ∀ op ∈ Operator.registered,
      op.symbol ∈ ["+", "-", "*", "negate", "med3"] → op.kernel.IsIntegral := by decide
  exact each op (List.mem_of_find?_eq_some known) integral

/-- By induction on the expression: a subtree is small before its kernel is applied. -/
theorem exists_agrees (formed : e.WellFormed) (integral : e.Integral)
    (small : ∀ inner ∈ e.subtrees, ∀ n, inner.integerValue? p = some n → Small n) :
    ∃ n, e.Agrees p n := by
  induction formed with
  | const value =>
      obtain ⟨n, whole⟩ := integral.1 value (by simp [labels])
      exact ⟨n, agrees_const whole (small _ (self_mem_subtrees _) n whole)⟩
  | var v => exact ⟨p.get v, agrees_var (small _ (self_mem_subtrees _) _ rfl)⟩
  | apply op args known accepted children ih =>
      obtain ⟨values, all⟩ := exists_agreeAll fun e member =>
        ih e member (integral.arguments e member) fun inner inside n =>
          small inner (List.mem_cons_of_mem _ (mem_subtreesList.mpr ⟨e, member, inside⟩)) n
      have symbol := integral.2 op.symbol args.length (by simp [labels])
      rw [← all.length, Operator.arity_of_known known] at accepted
      obtain ⟨n, exact_⟩ := (isIntegral_of_symbol known symbol).exists_onIntegers accepted
      have value : (apply op args).integerValue? p = some n := by
        simp only [integerValue?, all.exact_, bind, Option.bind, exact_]
      exact ⟨n, agrees_apply known all exact_ (small _ (self_mem_subtrees _) n value)⟩

/-- Small integers are written out with few digits. -/
theorem short_of_small (small : ∀ inner ∈ e.subtrees, ∀ n, inner.integerValue? p = some n → Small n) :
    e.Short := by
  intro n member
  have bound : n.natAbs ≤ 2 ^ (24 : Nat) := small _ (const_mem_subtrees member) n rfl
  have below : n.natAbs < 2 ^ (25 : Nat) := by omega
  exact Number.length_toDigits_of_lt below (by decide)

/-- An expression of integers has a graph, and a call of it computes the expression. -/
theorem Integral.exists_call (integral : e.Integral) (formed : e.WellFormed) (short : e.Short)
    (arguments : List Argument) (three : arguments.length = Graph.argumentNames.length)
    (sharing : Bool) :
    ∃ g, e.lowerWritten sharing = .ok g ∧
      g.call arguments = e.evaluateIn (Tensor.onArguments Graph.argumentNames arguments) := by
  have agree : Agree fun value => .constant value ∈ e.labels := by
    intro a b left right same
    obtain ⟨m, whole⟩ := integral.1 a left
    obtain ⟨n, whole'⟩ := integral.1 b right
    rw [Number.same_of_integer? whole whole', beq_iff_eq] at same
    rw [Number.toDouble_of_integer? whole, Number.toDouble_of_integer? whole', same]
  obtain ⟨g, lowered, value⟩ := lower_of_over (Tensor.onArguments Graph.argumentNames arguments)
    agree sharing formed.registered.supported.covered
  refine ⟨g, ?_, ?_⟩
  · rw [lowerWritten, lowered]
    simp only [isWritable_of_short short, ↓reduceIte]
  · rw [Graph.call, Graph.evaluateOn, if_pos three, value]

/-- The graph of the expression gives its value on arrays. -/
theorem Agrees.call (agrees : e.Agrees p n) (formed : e.WellFormed) (integral : e.Integral)
    (short : e.Short) (sharing : Bool) :
    ∃ g t, e.lowerWritten sharing = .ok g ∧ g.call p.arguments = .ok t ∧ t.IsInteger n := by
  obtain ⟨g, lowered, value⟩ := integral.exists_call formed short p.arguments rfl sharing
  obtain ⟨t, tensor, whole⟩ := agrees.tensor
  exact ⟨g, t, lowered, value.trans tensor, whole⟩

/-- An expression of integers, variables, sums, differences, products, negatives and medians of
three has an exact value at integers. If that of no subtree is beyond two to the 24, the value in
doubles is equal to it, and so is that of its graph called with the integers, which is a word or a
number in single precision, with shared nodes or without. -/
theorem exact_on_small_integers (e : Expr) (formed : e.WellFormed) (integral : e.Integral)
    (p : Point Int)
    (small : ∀ inner ∈ e.subtrees, ∀ n, inner.integerValue? p = some n →
      n.natAbs ≤ 2 ^ (24 : Nat)) :
    ∃ n, e.integerValue? p = some n ∧
      (∃ d, e.evaluate p.numbers = .ok d ∧ (Number.double d).same (.integer n) = true) ∧
      ∀ sharing, ∃ g t, e.lowerWritten sharing = .ok g ∧ g.call p.arguments = .ok t ∧
        t.IsInteger n := by
  obtain ⟨n, agrees⟩ := exists_agrees formed integral small
  obtain ⟨d, double, whole⟩ := agrees.double
  have equal : (Number.double d).same (.integer n) = true := by
    rw [(Number.same_double_of_integer? d rfl).1, beq_iff_eq]
    exact whole
  exact ⟨n, agrees.exact_, ⟨d, double, equal⟩,
    agrees.call formed integral (short_of_small small)⟩

/-- A word times a zero in single precision is a negative zero, which equals the product. An
argument that no node asks for may be any integer. -/
theorem exact_on_small_integers_product :
    (∃ d, (apply ⟨"*", .exactly 2, .multiply⟩ [.var .x, .const (.integer 0)]).evaluate
        (Point.numbers ⟨-2, 2 ^ (40 : Nat), 0⟩) = .ok d ∧
      (Number.double d).same (.integer 0) = true) ∧
    ∃ g t, (apply ⟨"*", .exactly 2, .multiply⟩ [.var .x, .const (.integer 0)]).lowerWritten true =
        .ok g ∧ g.call (Point.arguments ⟨-2, 2 ^ (40 : Nat), 0⟩) = .ok t ∧ t.IsInteger 0 := by
  have formed : (apply ⟨"*", .exactly 2, .multiply⟩ [.var .x, .const (.integer 0)]).WellFormed := by
    refine .apply _ _ rfl rfl ?_
    simp [WellFormed.var, WellFormed.const]
  have integral : (apply ⟨"*", .exactly 2, .multiply⟩ [.var .x, .const (.integer 0)]).Integral := by
    simp [Integral, labels, labelsList, Number.integer?]
  obtain ⟨n, value, double, arrays⟩ := exact_on_small_integers _ formed integral
    ⟨-2, 2 ^ (40 : Nat), 0⟩ (by
      simp [subtrees, subtreesList, integerValue?, integerValues?, Kernel.onIntegers, Point.get,
        Number.integer?])
  cases value
  exact ⟨double, arrays true⟩

end Expr

end Polish
