import Polish.Proofs.Tensor.Signatures

set_option autoImplicit false

namespace Polish

namespace Point

variable {α β : Type}

def map (f : α → β) (p : Point α) : Point β := ⟨f p.x, f p.y, f p.z⟩

theorem get_map (f : α → β) (p : Point α) (v : Variable) : (p.map f).get v = f (p.get v) := by
  cases v <;> rfl

def toList (p : Point α) : List α := [p.x, p.y, p.z]

theorem bound?_toList (p : Point α) (name : Option String) :
    Tensor.bound? Graph.argumentNames p.toList name =
      (name.bind Variable.ofName?).map p.get := by
  cases name with
  | none => rfl
  | some name =>
      rw [Option.bind_some]
      cases found : Variable.ofName? name with
      | some v =>
          rw [← Variable.name_of_ofName? found]
          cases v <;> rfl
      | none =>
          rw [Variable.ofName?, List.find?_eq_none] at found
          have unnamed : ∀ v : Variable, (name != v.name) = true := by
            intro v
            rw [bne_iff_ne]
            rintro rfl
            exact found v (by cases v <;> simp [Variable.all]) (beq_self_eq_true _)
          exact List.lookup_eq_none_iff.mpr fun entry member => by
            simp only [Graph.argumentNames, Variable.all, toList, List.map_cons, List.map_nil,
              List.zip_cons_cons, List.zip_nil_left, List.reverse_cons, List.reverse_nil,
              List.nil_append, List.cons_append, List.mem_cons, List.not_mem_nil, or_false] at member
            rcases member with rfl | rfl | rfl
            · exact unnamed .z
            · exact unnamed .y
            · exact unnamed .x

end Point

variable {arguments : Point Signature}

namespace Signature

def interpretation (arguments : Point Signature) : Interpretation Unit Signature where
  constant n := outline Graph.typeOf (Tensor.ofScalar n)
  argument name :=
    match name.bind Variable.ofName? with
    | some v => .ok (arguments.get v)
    | none => .error ()
  kernel symbol :=
    match Operator.ofSymbol? symbol with
    | some op => .ok op.kernel.signature
    | none => .error ()
  dangling := ()

theorem outline_lift (outcome : Except TensorError Tensor) :
    outline Graph.typeOf (Tensor.lift outcome) = outline Graph.typeOf outcome := by
  cases outcome <;> rfl

/-- Evaluating on signatures tells those of evaluating on arrays. -/
theorem outlines {given : Point Argument} {tensors : Point Tensor}
    (converted : ∀ v, (given.get v).tensor = .ok (tensors.get v)) :
    (Tensor.onArguments Graph.argumentNames given.toList).Outlines Graph.typeOf
      (interpretation (tensors.map Graph.typeOf)) := by
  refine ⟨fun n => outline_lift _, fun name => ?_, fun symbol => ?_⟩
  · simp only [Tensor.onArguments, Tensor.interpretation, interpretation, Point.bound?_toList]
    cases name.bind Variable.ofName? with
    | none => rfl
    | some v => simp only [Option.map_some, converted, Tensor.lift, outline, Point.get_map]
  · simp only [Tensor.onArguments, Tensor.interpretation, interpretation]
    cases Operator.ofSymbol? symbol with
    | none => trivial
    | some op =>
        exact fun operands =>
          (outline_lift _).trans (Tensor.outline_ofKernel op.kernel operands)

end Signature

namespace Expr

variable {e : Expr} {args : List Expr} {op : Operator} {w : Shape}

/-- The variables that occur, as often as they do. -/
def occurring (e : Expr) : List Variable :=
  e.labels.filterMap fun
    | .variable v => some v
    | _ => none

theorem mem_occurring {v : Variable} : v ∈ e.occurring ↔ .variable v ∈ e.labels := by
  rw [occurring, List.mem_filterMap]
  constructor
  · rintro ⟨label, member, named⟩
    cases label <;> cases named
    exact member
  · exact fun member => ⟨_, member, rfl⟩

def Label.KeepsWords (arguments : Point Signature) : Label → Prop
  | .operation symbol _ => symbol ∈ ["+", "-", "*", "negate", "med3"]
  | .variable v => (arguments.get v).1 = .int32
  | .constant _ => False
  | .foreign _ => False

/-- There is no constant, every operator computes words from words, and every variable that occurs
holds words. -/
def KeepsWords (arguments : Point Signature) (e : Expr) : Prop :=
  ∀ label ∈ e.labels, label.KeepsWords arguments

def FitsIn (arguments : Point Signature) (e : Expr) (w : Shape) : Prop :=
  ∀ v ∈ e.occurring, (arguments.get v).2.StretchesTo w

theorem keepsWords_apply : (apply op args).KeepsWords arguments ↔
    op.symbol ∈ ["+", "-", "*", "negate", "med3"] ∧ ∀ e ∈ args, e.KeepsWords arguments := by
  constructor
  · intro keeps
    refine ⟨keeps (.operation op.symbol args.length) (by simp [labels]), ?_⟩
    intro e member label inside
    exact keeps label (mem_labels_of_argument member inside)
  · rintro ⟨own, inside⟩ label member
    rcases (mem_labels_apply _ _ _).mp member with rfl | ⟨e, there, member⟩
    · exact own
    · exact inside e there label member

theorem fitsIn_apply :
    (apply op args).FitsIn arguments w ↔ ∀ e ∈ args, e.FitsIn arguments w := by
  constructor
  · intro fits e member v occurs
    rw [mem_occurring] at occurs
    exact fits v (mem_occurring.mpr (mem_labels_of_argument member occurs))
  · intro inside v occurs
    rw [mem_occurring, mem_labels_apply] at occurs
    rcases occurs with impossible | ⟨e, member, occurs⟩
    · cases impossible
    · exact inside e member v (mem_occurring.mpr occurs)

/-- The signature of the expression is there exactly if some shape takes up all variables, and then
it has the least such shape. -/
structure Typed (arguments : Point Signature) (e : Expr) : Prop where
  typed : ∀ s, e.evaluateIn (Signature.interpretation arguments) = .ok s →
    (s.1 = .int32 ↔ e.KeepsWords arguments) ∧ ∀ w, s.2.StretchesTo w ↔ e.FitsIn arguments w
  total : ∀ w, e.FitsIn arguments w →
    ∃ s, e.evaluateIn (Signature.interpretation arguments) = .ok s

structure AllTyped (arguments : Point Signature) (args : List Expr) : Prop where
  typed : ∀ inputs, evaluateListWith (Signature.interpretation arguments).meaning args = .ok inputs →
    ((∀ input ∈ inputs, input.1 = .int32) ↔ ∀ e ∈ args, e.KeepsWords arguments) ∧
      ∀ w, (∀ input ∈ inputs, input.2.StretchesTo w) ↔ ∀ e ∈ args, e.FitsIn arguments w
  total : ∀ w, (∀ e ∈ args, e.FitsIn arguments w) →
    ∃ inputs, evaluateListWith (Signature.interpretation arguments).meaning args = .ok inputs

theorem allTyped (each : ∀ e ∈ args, e.Typed arguments) : AllTyped arguments args := by
  constructor
  · intro inputs value
    rw [evaluateListWith_eq_ok_iff] at value
    induction value with
    | nil => simp
    | @cons e s es rest here _ ih =>
        obtain ⟨type, shape⟩ := (each e (by simp)).typed s here
        obtain ⟨types, shapes⟩ := ih fun e member => each e (List.mem_cons_of_mem _ member)
        refine ⟨?_, fun w => ?_⟩
        · rw [List.forall_mem_cons, List.forall_mem_cons, type, types]
        · rw [List.forall_mem_cons, List.forall_mem_cons, shape, shapes]
  · intro w fits
    exact exists_evaluateListWith fun e member => (each e member).total w (fits e member)

/-- The operators that compute words from words, by their symbols. -/
theorem isIntegral_iff (known : Operator.ofSymbol? op.symbol = some op) :
    op.kernel.IsIntegral ↔ op.symbol ∈ ["+", "-", "*", "negate", "med3"] := by
  have each : ∀ op ∈ Operator.registered,
      op.kernel.IsIntegral ↔ op.symbol ∈ ["+", "-", "*", "negate", "med3"] := by decide
  exact each op (List.mem_of_find?_eq_some known)

theorem typed_const (value : Number) : (const value).Typed arguments := by
  refine ⟨fun s same => ?_, fun _ _ => ⟨_, rfl⟩⟩
  cases same
  refine ⟨iff_of_false (by rintro ⟨⟩) fun keeps => keeps (.constant value) (by simp [labels]),
    fun w => ?_⟩
  exact iff_of_true (Shape.stretchesTo_nil w) (by simp [FitsIn, occurring, labels])

theorem evaluateIn_var (v : Variable) :
    (var v).evaluateIn (Signature.interpretation arguments) = .ok (arguments.get v) := by
  rw [evaluateIn, evaluateWith, Interpretation.meaning_slot]
  simp only [Signature.interpretation, Option.bind_some, Variable.ofName?_name]

theorem typed_var (v : Variable) : (var v).Typed arguments := by
  refine ⟨fun s same => ?_, fun _ _ => ⟨_, evaluateIn_var v⟩⟩
  rw [evaluateIn_var] at same
  cases same
  simp [KeepsWords, Label.KeepsWords, FitsIn, occurring, labels]

/-- The kernel has the arguments it takes, so only their shapes can be in its way. -/
theorem typed_apply (known : Operator.ofSymbol? op.symbol = some op)
    (accepted : op.arity.accepts args.length = true) (all : AllTyped arguments args) :
    (apply op args).Typed arguments := by
  have value : ∀ inputs,
      evaluateListWith (Signature.interpretation arguments).meaning args = .ok inputs →
      (apply op args).evaluateIn (Signature.interpretation arguments) =
        op.kernel.signature inputs := by
    intro inputs operands
    rw [evaluateIn, evaluateWith_apply_of_ok operands, Interpretation.meaning_operator]
    simp only [Signature.interpretation, known]
    rfl
  constructor
  · intro s same
    cases operands : evaluateListWith (Signature.interpretation arguments).meaning args with
    | error error =>
        rw [evaluateIn, evaluateWith, operands] at same
        cases same
    | ok inputs =>
        obtain ⟨types, shapes⟩ := all.typed inputs operands
        rw [value inputs operands] at same
        obtain ⟨type, shape⟩ := Kernel.signature_spec same
        refine ⟨?_, fun w => ?_⟩
        · rw [type, types, keepsWords_apply, isIntegral_iff known]
        · rw [shape, shapes, fitsIn_apply]
  · intro w fits
    rw [fitsIn_apply] at fits
    obtain ⟨inputs, operands⟩ := all.total w fits
    obtain ⟨_, shapes⟩ := all.typed inputs operands
    rw [value inputs operands]
    rw [← length_of_evaluateListWith operands, Operator.arity_of_known known] at accepted
    exact Kernel.exists_signature (Operator.isCustom_of_known known) accepted
      ((shapes w).mpr fits)

theorem WellFormed.typed (formed : e.WellFormed) : e.Typed arguments := by
  induction formed with
  | const value => exact typed_const value
  | var v => exact typed_var v
  | apply op args known accepted children ih => exact typed_apply known accepted (allTyped ih)

theorem Typed.exists_iff (typed : e.Typed arguments) :
    (∃ s, e.evaluateIn (Signature.interpretation arguments) = .ok s) ↔
      ∃ w, e.FitsIn arguments w := by
  constructor
  · rintro ⟨s, value⟩
    exact ⟨s.2, ((typed.typed s value).2 s.2).mp (.refl _)⟩
  · rintro ⟨w, fits⟩
    exact typed.total w fits

theorem keepsWords_iff : e.KeepsWords arguments ↔ (∀ value, .constant value ∉ e.labels) ∧
    (∀ symbol count, .operation symbol count ∈ e.labels →
      symbol ∈ ["+", "-", "*", "negate", "med3"]) ∧
    (∀ v ∈ e.occurring, (arguments.get v).1 = .int32) ∧ ∀ value, .foreign value ∉ e.labels := by
  constructor
  · intro keeps
    refine ⟨fun value member => keeps _ member, fun symbol count member => keeps _ member, ?_,
      fun value member => keeps _ member⟩
    exact fun v occurs => keeps _ (mem_occurring.mp occurs)
  · rintro ⟨constants, operations, occurs, foreigns⟩ label member
    match label, member with
    | .operation symbol count, member => exact operations symbol count member
    | .variable v, member => exact occurs v (mem_occurring.mpr member)
    | .constant value, member => exact constants value member
    | .foreign value, member => exact foreigns value member

/-- Called with arrays or numbers that are converted to the given arrays, the graph of an expression
of registered operators, each with as many arguments as it takes, has a value exactly if the shapes
of the variables that occur match two by two, with shared nodes or without. The value has the common
shape of these. It holds words if there is no constant, every operator computes words from words,
and every variable that occurs holds words; else it is in single precision. The graph is that of the
compiled expression, which is there exactly if no integer is too long to be written. -/
theorem call_has_signature (e : Expr) (formed : e.WellFormed) (given : Point Argument)
    (tensors : Point Tensor) (converted : ∀ v, (given.get v).tensor = .ok (tensors.get v))
    (sharing : Bool) :
    ∃ g, e.lower sharing = .ok g ∧
      e.lowerWritten sharing = (if e.isWritable then .ok g else .error .unwritable) ∧
      ((∃ t, g.call given.toList = .ok t) ↔ ∀ v ∈ e.occurring, ∀ w ∈ e.occurring,
        (tensors.get v).shape.Matches (tensors.get w).shape) ∧
      ∀ t, g.call given.toList = .ok t →
        Shape.IsBroadcast (e.occurring.map fun v => (tensors.get v).shape) t.shape ∧
        (t.elementType = .int32 ↔ (∀ value, .constant value ∉ e.labels) ∧
          (∀ symbol count, .operation symbol count ∈ e.labels →
            symbol ∈ ["+", "-", "*", "negate", "med3"]) ∧
          ∀ v ∈ e.occurring, (tensors.get v).elementType = .int32) := by
  have agree : AgreeIn (Signature.interpretation (tensors.map Graph.typeOf))
      fun value => .constant value ∈ e.labels := fun _ _ _ _ _ => rfl
  obtain ⟨g, lowered, value⟩ := lower_of_agreeIn agree sharing formed.registered.supported.covered
  have typed : e.Typed (tensors.map Graph.typeOf) := formed.typed
  have call : outline Graph.typeOf (g.call given.toList) =
      e.evaluateIn (Signature.interpretation (tensors.map Graph.typeOf)) := by
    have three : given.toList.length = Graph.argumentNames.length := rfl
    rw [Graph.call, Graph.evaluateOn, if_pos three, Graph.outline_evaluate
      (Signature.outlines converted), value]
  have fits : ∀ w, e.FitsIn (tensors.map Graph.typeOf) w ↔
      ∀ s ∈ e.occurring.map fun v => (tensors.get v).shape, s.StretchesTo w := by
    intro w
    rw [FitsIn, List.forall_mem_map]
    simp only [Point.get_map, Graph.typeOf]
  refine ⟨g, lowered, by rw [lowerWritten, lowered], ?_, fun t result => ?_⟩
  · rw [← exists_outline_iff Graph.typeOf, call, typed.exists_iff, exists_congr fits,
      Shape.exists_bound_iff]
    simp only [List.forall_mem_map]
  · rw [result] at call
    obtain ⟨type, shape⟩ := typed.typed _ call.symm
    refine ⟨Shape.isBroadcast_of_stretchesTo_iff fun w => (shape w).trans (fits w), ?_⟩
    rw [keepsWords_iff, and_iff_left formed.registered.supported.2] at type
    simpa only [Point.get_map, Graph.typeOf] using type

/-- A column and a row of words make a table of words. The third array does not match the row, and
does not occur. -/
theorem call_has_signature_table :
    ∃ g t, (apply ⟨"*", .exactly 2, .multiply⟩ [.var .x,
        .apply ⟨"negate", .exactly 1, .negate⟩ [.var .y]]).lowerWritten true = .ok g ∧
      g.call [.array (.words ⟨[2, 1], [3, 5], rfl⟩), .array (.words ⟨[3], [1, 2, 4], rfl⟩),
        .array (.singles (.full [7] (.zero false)))] = .ok t ∧
      Shape.IsBroadcast [[2, 1], [3]] t.shape ∧ t.elementType = .int32 := by
  have inner : (apply ⟨"negate", .exactly 1, .negate⟩ [.var .y]).WellFormed :=
    .apply _ _ rfl rfl (by simp [WellFormed.var])
  have formed : (apply ⟨"*", .exactly 2, .multiply⟩ [.var .x,
      .apply ⟨"negate", .exactly 1, .negate⟩ [.var .y]]).WellFormed :=
    .apply _ _ rfl rfl (by simp [WellFormed.var, inner])
  obtain ⟨g, _, written, succeeds, signature⟩ := call_has_signature _ formed
    ⟨.array (.words ⟨[2, 1], [3, 5], rfl⟩), .array (.words ⟨[3], [1, 2, 4], rfl⟩),
      .array (.singles (.full [7] (.zero false)))⟩
    ⟨.words ⟨[2, 1], [3, 5], rfl⟩, .words ⟨[3], [1, 2, 4], rfl⟩,
      .singles (.full [7] (.zero false))⟩
    (fun v => by cases v <;> rfl) true
  have matching : ∀ i, Shape.axis [2, 1] i = 1 ∨ Shape.axis [3] i = 1 := by
    intro i
    cases i with
    | zero => exact Or.inl rfl
    | succ i => exact Or.inr rfl
  obtain ⟨t, value⟩ := succeeds.mpr (by
    simp only [occurring, labels, labelsList, List.cons_append, List.nil_append, List.append_nil,
      List.filterMap_cons, List.filterMap_nil, List.forall_mem_cons, List.not_mem_nil]
    exact ⟨⟨fun _ => Or.inl rfl, fun i => Or.inr (matching i), by simp⟩,
      ⟨fun i => Or.inr (matching i).symm, fun _ => Or.inl rfl, by simp⟩, by simp⟩)
  obtain ⟨shape, type⟩ := signature t value
  refine ⟨g, t, written, value, shape, type.mpr ⟨?_, ?_, ?_⟩⟩
  · simp [labels, labelsList]
  · simp only [labels, labelsList, List.mem_cons, List.cons_append, List.nil_append]
    rintro symbol count (same | same | same | same | same) <;> cases same <;> decide
  · simp [occurring, labels, labelsList, Point.get, Tensor.elementType]

end Expr

end Polish
