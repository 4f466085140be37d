import Polish.Proofs.Expr.Agreement
import Polish.Proofs.Graph.Outline
import Polish.Proofs.Tensor.Broadcast

set_option autoImplicit false

namespace Polish

namespace NDArray

variable {α β γ : Type} [Inhabited α] [Inhabited β]

theorem shape_zipWith? (f : α → β → γ) (a : NDArray α) (b : NDArray β) :
    (a.zipWith? f b).map (·.shape) = a.shape.join b.shape := by
  rw [zipWith?]
  cases a.shape.join b.shape <;> rfl

theorem shape_fold (f : β → α → β) (start : β) (shape : Shape) (arrays : List (NDArray α)) :
    (fold f start shape arrays).shape = shape := by
  rw [fold]
  generalize same : full shape start = accumulator
  have here : accumulator.shape = shape := by
    rw [← same]
    rfl
  clear same
  induction arrays generalizing accumulator with
  | nil => exact here
  | cons a arrays ih => exact ih _ rfl

/-- Folding aligned arrays gives one of their common shape. -/
theorem shape_fold_align? (f : β → α → β) (start : β) (arrays : List (NDArray α)) :
    ((align? arrays).map fun (shape, aligned) => (fold f start shape aligned).shape) =
      Shape.joinAll (arrays.map (·.shape)) := by
  rw [align?]
  cases Shape.joinAll (arrays.map (·.shape)) with
  | none => rfl
  | some shape => exact congrArg some (shape_fold ..)

end NDArray

namespace Tensor

theorem shape_toSingles (t : Tensor) : t.toSingles.shape = t.shape := by
  cases t <;> rfl

def AllWords (tensors : List Tensor) : Prop := ∀ t ∈ tensors, t.elementType = .int32

def AllStretchTo (tensors : List Tensor) (w : Shape) : Prop := ∀ t ∈ tensors, t.shape.StretchesTo w

@[simp] theorem allWords_nil : AllWords [] := nofun

@[simp] theorem allWords_cons {t : Tensor} {tensors : List Tensor} :
    AllWords (t :: tensors) ↔ t.elementType = .int32 ∧ AllWords tensors := List.forall_mem_cons

@[simp] theorem allStretchTo_nil (w : Shape) : AllStretchTo [] w := nofun

@[simp] theorem allStretchTo_cons {t : Tensor} {tensors : List Tensor} {w : Shape} :
    AllStretchTo (t :: tensors) w ↔ t.shape.StretchesTo w ∧ AllStretchTo tensors w :=
  List.forall_mem_cons

/-- Where there is a value, it holds words exactly in one case, and its shape is the least that meets
the bounds. There is one if some shape meets them. -/
structure Yields (words : Prop) (bounds : Shape → Prop) (outcome : Except TensorError Tensor) :
    Prop where
  typed : ∀ t, outcome = .ok t →
    (t.elementType = .int32 ↔ words) ∧ ∀ w, t.shape.StretchesTo w ↔ bounds w
  total : ∀ w, bounds w → ∃ t, outcome = .ok t

variable {words words' : Prop} {bounds bounds' : Shape → Prop} {outcome : Except TensorError Tensor}
  {a b c : Tensor} {tensors : List Tensor}

theorem Yields.congr (yields : Yields words bounds outcome) (type : words ↔ words')
    (shape : ∀ w, bounds w ↔ bounds' w) : Yields words' bounds' outcome := by
  refine ⟨fun t value => ?_, fun w meets => yields.total w ((shape w).mpr meets)⟩
  obtain ⟨own, least⟩ := yields.typed t value
  exact ⟨own.trans type, fun w => (least w).trans (shape w)⟩

theorem yields_ok (t : Tensor) : Yields (t.elementType = .int32) t.shape.StretchesTo (.ok t) := by
  refine ⟨fun other same => ?_, fun _ _ => ⟨t, rfl⟩⟩
  cases same
  exact ⟨Iff.rfl, fun _ => Iff.rfl⟩

/-- What follows a value knows its type and its shape. -/
theorem Yields.bind {next : Tensor → Except TensorError Tensor}
    (first : Yields words bounds outcome)
    (rest : ∀ t, (t.elementType = .int32 ↔ words) → (∀ w, t.shape.StretchesTo w ↔ bounds w) →
      Yields words' bounds' (next t))
    (narrower : ∀ w, bounds' w → bounds w) : Yields words' bounds' (outcome >>= next) := by
  cases outcome with
  | error error =>
      refine ⟨nofun, fun w meets => ?_⟩
      obtain ⟨t, impossible⟩ := first.total w (narrower w meets)
      cases impossible
  | ok t =>
      obtain ⟨type, shape⟩ := first.typed t rfl
      exact rest t type shape

/-- A value is there exactly if the shapes are joined, and it has the joined shape. -/
theorem yields_of_shape (result : Option Tensor) {joined : Option Shape}
    (same : ∀ t, outcome = .ok t ↔ result = some t) (shape : result.map Tensor.shape = joined)
    (least : ∀ u, joined = some u → ∀ w, u.StretchesTo w ↔ bounds w)
    (joins : ∀ w, bounds w → ∃ u, joined = some u)
    (type : ∀ t, result = some t → (t.elementType = .int32 ↔ words)) :
    Yields words bounds outcome := by
  refine ⟨fun t value => ?_, fun w meets => ?_⟩
  · rw [same] at value
    refine ⟨type t value, least t.shape ?_⟩
    rw [← shape, value, Option.map_some]
  · obtain ⟨u, there⟩ := joins w meets
    rw [← shape, Option.map_eq_some_iff] at there
    obtain ⟨t, value, _⟩ := there
    exact ⟨t, (same t).mpr value⟩

theorem yields_of_join (result : Option Tensor)
    (same : ∀ t, outcome = .ok t ↔ result = some t)
    (shape : result.map Tensor.shape = a.shape.join b.shape)
    (type : ∀ t, result = some t → (t.elementType = .int32 ↔ words)) :
    Yields words (fun w => a.shape.StretchesTo w ∧ b.shape.StretchesTo w) outcome :=
  yields_of_shape result same shape (fun _ joined => Shape.stretchesTo_join_iff joined)
    (fun _ both => (both.1.matches both.2).exists_join) type

theorem elementType_of_map_words {result : Option (NDArray Int32)} {t : Tensor}
    (value : result.map Tensor.words = some t) : t.elementType = .int32 := by
  obtain ⟨x, _, rfl⟩ := Option.map_eq_some_iff.mp value
  rfl

theorem elementType_of_map_singles {result : Option (NDArray Single)} {t : Tensor}
    (value : result.map Tensor.singles = some t) : t.elementType = .float32 := by
  obtain ⟨x, _, rfl⟩ := Option.map_eq_some_iff.mp value
  rfl

theorem shape_map_words (result : Option (NDArray Int32)) :
    (result.map Tensor.words).map Tensor.shape = result.map (·.shape) := by
  cases result <;> rfl

theorem shape_map_singles (result : Option (NDArray Single)) :
    (result.map Tensor.singles).map Tensor.shape = result.map (·.shape) := by
  cases result <;> rfl

theorem yields_singles (onSingles : Single → Single → Single)
    (same : ∀ t, outcome = .ok t ↔
      (a.toSingles.zipWith? onSingles b.toSingles).map Tensor.singles = some t) :
    Yields False (fun w => a.shape.StretchesTo w ∧ b.shape.StretchesTo w) outcome := by
  refine yields_of_join _ same ?_ fun t value => ?_
  · rw [shape_map_singles, NDArray.shape_zipWith?, shape_toSingles, shape_toSingles]
  · rw [elementType_of_map_singles value]
    simp

/-- Words combine to words, and everything else to single precision. -/
theorem yields_combine (onWords : Int32 → Int32 → Int32)
    (onSingles : Single → Single → Single) (a b : Tensor) :
    Yields (a.elementType = .int32 ∧ b.elementType = .int32)
      (fun w => a.shape.StretchesTo w ∧ b.shape.StretchesTo w)
      (combine onWords onSingles a b) := by
  have mixed : ¬ (a.elementType = .int32 ∧ b.elementType = .int32) →
      Yields (a.elementType = .int32 ∧ b.elementType = .int32)
        (fun w => a.shape.StretchesTo w ∧ b.shape.StretchesTo w)
        (combine onWords onSingles a b) := by
    intro other
    refine (yields_singles onSingles fun t => ?_).congr
      (iff_of_false not_false other) fun _ => Iff.rfl
    unfold combine
    cases a <;> cases b
    · exact absurd ⟨rfl, rfl⟩ other
    all_goals
      dsimp only
      split <;> rename_i found <;> simp [found]
  cases a with
  | singles x => exact mixed (by simp [elementType])
  | words x =>
      cases b with
      | singles y => exact mixed (by simp [elementType])
      | words y =>
          refine yields_of_join ((x.zipWith? onWords y).map Tensor.words) (fun t => ?_) ?_
            fun t value => iff_of_true (elementType_of_map_words value) ⟨rfl, rfl⟩
          · rw [combine]
            cases x.zipWith? onWords y <;> simp
          · rw [shape_map_words, NDArray.shape_zipWith?]
            rfl

theorem yields_divide (a b : Tensor) :
    Yields False (fun w => a.shape.StretchesTo w ∧ b.shape.StretchesTo w) (divide a b) := by
  refine yields_singles (· / ·) fun t => ?_
  rw [divide]
  cases a.toSingles.zipWith? (· / ·) b.toSingles <;> simp

theorem allWords?_eq_some_iff {arrays : List (NDArray Int32)} :
    allWords? tensors = some arrays ↔ tensors = arrays.map .words := by
  induction tensors generalizing arrays with
  | nil => cases arrays <;> simp [allWords?]
  | cons t tensors ih =>
      rw [allWords?, List.mapM_cons, ← allWords?]
      cases t with
      | singles x => cases arrays <;> simp
      | words x =>
          cases arrays with
          | nil => cases allWords? tensors <;> simp
          | cons y arrays =>
              rw [List.map_cons, List.cons.injEq, ← ih]
              cases allWords? tensors <;> simp

/-- The arrays are words together, or none is taken for words. -/
theorem allWords?_cases (tensors : List Tensor) :
    (∃ arrays, allWords? tensors = some arrays ∧ tensors = arrays.map .words) ∨
      (allWords? tensors = none ∧ ∃ t ∈ tensors, t.elementType ≠ .int32) := by
  cases found : allWords? tensors with
  | some arrays => exact Or.inl ⟨arrays, rfl, allWords?_eq_some_iff.mp found⟩
  | none =>
      refine Or.inr ⟨rfl, ?_⟩
      induction tensors with
      | nil => simp [allWords?] at found
      | cons t tensors ih =>
          cases t with
          | singles x => exact ⟨.singles x, by simp, by simp [elementType]⟩
          | words x =>
              rw [allWords?, List.mapM_cons, ← allWords?] at found
              have rest : allWords? tensors = none := by
                cases others : allWords? tensors with
                | none => rfl
                | some arrays =>
                    rw [others] at found
                    cases found
              obtain ⟨t, member, other⟩ := ih rest
              exact ⟨t, List.mem_cons_of_mem _ member, other⟩

theorem stretchesTo_all_iff {u : Shape} (joined : Shape.joinAll (tensors.map Tensor.shape) = some u)
    (w : Shape) : u.StretchesTo w ↔ AllStretchTo tensors w := by
  rw [Shape.stretchesTo_joinAll_iff joined, List.forall_mem_map, AllStretchTo]

theorem exists_joinAll_shapes {w : Shape} (bound : AllStretchTo tensors w) :
    ∃ u, Shape.joinAll (tensors.map Tensor.shape) = some u :=
  Shape.exists_joinAll (List.forall_mem_map.mpr bound)

/-- Arrays are brought together in their common shape. -/
theorem yields_reduce (onWords : Int32 → Int32 → Int32) (firstWord : Int32)
    (onSingles : Single → Single → Single) (firstSingle : Single) (given : tensors ≠ []) :
    Yields (AllWords tensors) (AllStretchTo tensors)
      (reduce onWords firstWord onSingles firstSingle tensors) := by
  have some_ : tensors.isEmpty = false := by simpa using given
  rcases allWords?_cases tensors with ⟨arrays, found, all⟩ | ⟨found, mixed⟩
  · refine yields_of_shape ((NDArray.align? arrays).map fun (shape, aligned) =>
        Tensor.words (NDArray.fold onWords firstWord shape aligned)) (fun t => ?_) ?_
      (fun _ => stretchesTo_all_iff) (fun _ => exists_joinAll_shapes) fun t value => ?_
    · simp only [reduce, some_, Bool.false_eq_true, ↓reduceIte, found]
      cases NDArray.align? arrays <;> simp
    · rw [all, List.map_map, Option.map_map]
      exact NDArray.shape_fold_align? onWords firstWord arrays
    · obtain ⟨_, _, rfl⟩ := Option.map_eq_some_iff.mp value
      exact iff_of_true rfl (by simp [all, AllWords, elementType])
  · refine yields_of_shape ((NDArray.align? (tensors.map toSingles)).map
        fun (shape, aligned) => Tensor.singles (NDArray.fold onSingles firstSingle shape aligned))
      (fun t => ?_) ?_ (fun _ => stretchesTo_all_iff) (fun _ => exists_joinAll_shapes)
      fun t value => ?_
    · simp only [reduce, some_, Bool.false_eq_true, ↓reduceIte, found]
      cases NDArray.align? (tensors.map toSingles) <;> simp
    · have shapes : tensors.map Tensor.shape = (tensors.map toSingles).map (·.shape) := by
        rw [List.map_map]
        exact List.map_congr_left fun t _ => (shape_toSingles t).symm
      rw [shapes, Option.map_map]
      exact NDArray.shape_fold_align? onSingles firstSingle (tensors.map toSingles)
    · obtain ⟨_, _, rfl⟩ := Option.map_eq_some_iff.mp value
      refine iff_of_false (by simp [elementType]) fun all => ?_
      obtain ⟨t, member, other⟩ := mixed
      exact other (all t member)

/-- An array without axes leaves the shape of the other operand. -/
theorem yields_divide_constant (t : Tensor) (x : Single) :
    Yields False t.shape.StretchesTo (divide t (constant x)) :=
  (yields_divide t (constant x)).congr Iff.rfl fun w => and_iff_left (Shape.stretchesTo_nil w)

theorem yields_constant_divide (x : Single) (t : Tensor) :
    Yields False t.shape.StretchesTo (divide (constant x) t) :=
  (yields_divide (constant x) t).congr Iff.rfl fun w => and_iff_right (Shape.stretchesTo_nil w)

theorem yields_median (a b c : Tensor) :
    Yields (AllWords [a, b, c]) (AllStretchTo [a, b, c]) (median a b c) := by
  unfold median
  refine (yields_combine _ _ a c).bind (fun outer type₁ shape₁ => ?_) (by simp +contextual)
  refine (yields_combine _ _ a b).bind (fun first type₂ shape₂ => ?_) (by simp +contextual)
  refine (yields_combine _ _ b c).bind (fun second type₃ shape₃ => ?_) (by simp +contextual)
  refine (yields_combine _ _ first second).bind (fun inner type₄ shape₄ => ?_)
    (by simp +contextual [shape₂, shape₃])
  refine (yields_combine _ _ outer inner).congr ?_ fun w => ?_
  · simp only [type₁, type₂, type₃, type₄, allWords_cons, allWords_nil]
    grind
  · simp only [shape₁, shape₂, shape₃, shape₄, allStretchTo_cons, allStretchTo_nil]
    grind

theorem yields_arithmeticMean (given : tensors ≠ []) :
    Yields False (AllStretchTo tensors) (arithmeticMean tensors) := by
  refine (yields_reduce _ _ _ _ given).bind (fun total _ shape => ?_) fun _ => id
  exact (yields_divide_constant total _).congr Iff.rfl shape

theorem shape_magnitude (t : Tensor) : t.magnitude.shape = t.shape := by
  cases t <;> rfl

theorem yields_geometricMean (given : tensors ≠ []) :
    Yields False (AllStretchTo tensors) (geometricMean tensors) := by
  refine (yields_reduce _ _ _ _ given).bind (fun size _ shape => ?_) fun _ => id
  refine (yields_ok _).congr (by simp [elementType]) fun w => ?_
  rw [← shape, Tensor.shape, NDArray.shape_map, shape_toSingles, shape_magnitude]

theorem shape_reciprocal (t : Tensor) : t.reciprocal.shape = t.shape := shape_toSingles t

theorem allStretchTo_reciprocals (w : Shape) :
    AllStretchTo (tensors.map reciprocal) w ↔ AllStretchTo tensors w := by
  simp only [AllStretchTo, List.forall_mem_map, shape_reciprocal]

theorem yields_harmonicMean (given : tensors ≠ []) :
    Yields False (AllStretchTo tensors) (harmonicMean tensors) := by
  have inverses : tensors.map reciprocal ≠ [] := by simpa using given
  refine (yields_reduce _ _ _ _ inverses).bind (fun total _ shape => ?_) fun w =>
    (allStretchTo_reciprocals w).mpr
  exact (yields_constant_divide _ total).congr Iff.rfl fun w =>
    (shape w).trans (allStretchTo_reciprocals w)

theorem yields_meanOfFive (a b c d e : Tensor) :
    Yields False (AllStretchTo [a, b, c, d, e]) (meanOfFive a b c d e) := by
  unfold meanOfFive
  refine (yields_combine _ _ a b).bind (fun two _ shape₂ => ?_) (by simp +contextual)
  refine (yields_combine _ _ two c).bind (fun three _ shape₃ => ?_) (by simp +contextual [shape₂])
  refine (yields_combine _ _ three d).bind (fun four _ shape₄ => ?_)
    (by simp +contextual [shape₂, shape₃])
  refine (yields_combine _ _ four e).bind (fun five _ shape₅ => ?_)
    (by simp +contextual [shape₂, shape₃, shape₄])
  refine (yields_divide_constant five _).congr Iff.rfl fun w => ?_
  simp only [shape₂, shape₃, shape₄, shape₅, allStretchTo_cons, allStretchTo_nil, and_assoc,
    and_true]

theorem yields_negate (t : Tensor) :
    Yields (AllWords [t]) (AllStretchTo [t]) (.ok (negate t)) := by
  refine (yields_ok _).congr ?_ fun w => ?_ <;>
    cases t <;> simp [negate, elementType, shape, NDArray.map]

/-- What a kernel computes from as many arrays as it takes. -/
theorem yields_ofKernel {kernel : Kernel} (computes : kernel.isCustom = false)
    (accepted : kernel.arity.accepts tensors.length = true) :
    Yields (kernel.IsIntegral ∧ AllWords tensors) (AllStretchTo tensors)
      (ofKernel kernel tensors) := by
  cases kernel with
  | add | subtract | multiply =>
      obtain ⟨a, b, rfl⟩ := List.length_eq_two.mp (Int.ofNat.inj (eq_of_beq accepted))
      exact (yields_combine _ _ a b).congr (by simp [Kernel.IsIntegral]) (by simp)
  | divide =>
      obtain ⟨a, b, rfl⟩ := List.length_eq_two.mp (Int.ofNat.inj (eq_of_beq accepted))
      exact (yields_divide a b).congr (by simp [Kernel.IsIntegral]) (by simp)
  | negate =>
      obtain ⟨a, rfl⟩ := List.length_eq_one_iff.mp (Int.ofNat.inj (eq_of_beq accepted))
      exact (yields_negate a).congr (by simp [Kernel.IsIntegral]) (by simp)
  | medianOfThree =>
      obtain ⟨a, b, c, rfl⟩ := List.length_eq_three.mp (Int.ofNat.inj (eq_of_beq accepted))
      exact (yields_median a b c).congr (by simp [Kernel.IsIntegral]) (by simp)
  | meanOfFive =>
      have five : tensors.length = 5 := Int.ofNat.inj (eq_of_beq accepted)
      match tensors, five with
      | [a, b, c, d, e], _ =>
          exact (yields_meanOfFive a b c d e).congr (by simp [Kernel.IsIntegral]) (by simp)
  | custom function => cases computes
  | arithmeticMean =>
      have given : tensors ≠ [] := by rintro rfl; cases accepted
      exact (yields_arithmeticMean given).congr (by simp [Kernel.IsIntegral]) fun _ => Iff.rfl
  | geometricMean =>
      have given : tensors ≠ [] := by rintro rfl; cases accepted
      exact (yields_geometricMean given).congr (by simp [Kernel.IsIntegral]) fun _ => Iff.rfl
  | harmonicMean =>
      have given : tensors ≠ [] := by rintro rfl; cases accepted
      exact (yields_harmonicMean given).congr (by simp [Kernel.IsIntegral]) fun _ => Iff.rfl

/-- No kernel computes anything from another number of arrays. -/
theorem exists_ofKernel_error {kernel : Kernel}
    (other : ¬ (kernel.isCustom = false ∧ kernel.arity.accepts tensors.length = true)) :
    ∃ error, ofKernel kernel tensors = .error error := by
  cases kernel with
  | add | subtract | multiply | divide =>
      match tensors with
      | [a, b] => exact absurd ⟨rfl, rfl⟩ other
      | [] | [_] | _ :: _ :: _ :: _ => exact ⟨_, rfl⟩
  | negate =>
      match tensors with
      | [a] => exact absurd ⟨rfl, rfl⟩ other
      | [] | _ :: _ :: _ => exact ⟨_, rfl⟩
  | medianOfThree =>
      match tensors with
      | [a, b, c] => exact absurd ⟨rfl, rfl⟩ other
      | [] | [_] | [_, _] | _ :: _ :: _ :: _ :: _ => exact ⟨_, rfl⟩
  | meanOfFive =>
      match tensors with
      | [a, b, c, d, e] => exact absurd ⟨rfl, rfl⟩ other
      | [] | [_] | [_, _] | [_, _, _] | [_, _, _, _] | _ :: _ :: _ :: _ :: _ :: _ :: _ =>
          exact ⟨_, rfl⟩
  | arithmeticMean | geometricMean | harmonicMean =>
      cases tensors with
      | nil => exact ⟨_, rfl⟩
      | cons t tensors => exact absurd ⟨rfl, decide_eq_true (by grind)⟩ other
  | custom function => exact ⟨_, rfl⟩

end Tensor

abbrev Signature := ElementType × Shape

/-- The signature of what a kernel computes from arrays with the given ones. -/
def Kernel.signature (kernel : Kernel) (inputs : List Signature) : Except Unit Signature :=
  if kernel.isCustom = false ∧ kernel.arity.accepts inputs.length = true then
    match Shape.joinAll (inputs.map (·.2)) with
    | some shape =>
        .ok (if kernel.IsIntegral ∧ ∀ input ∈ inputs, input.1 = .int32 then .int32 else .float32,
          shape)
    | none => .error ()
  else .error ()

namespace Kernel

variable {kernel : Kernel} {inputs : List Signature}

/-- A signature has the least shape that all inputs stretch to. -/
theorem signature_spec {s : Signature} (value : kernel.signature inputs = .ok s) :
    (s.1 = .int32 ↔ kernel.IsIntegral ∧ ∀ input ∈ inputs, input.1 = .int32) ∧
      ∀ w, s.2.StretchesTo w ↔ ∀ input ∈ inputs, input.2.StretchesTo w := by
  rw [signature] at value
  split at value
  · cases joined : Shape.joinAll (inputs.map (·.2)) with
    | none =>
        rw [joined] at value
        cases value
    | some shape =>
        rw [joined] at value
        cases value
        refine ⟨by simp, fun w => ?_⟩
        rw [Shape.stretchesTo_joinAll_iff joined, List.forall_mem_map]
  · cases value

theorem exists_signature (computes : kernel.isCustom = false)
    (accepted : kernel.arity.accepts inputs.length = true) {w : Shape}
    (bound : ∀ input ∈ inputs, input.2.StretchesTo w) : ∃ s, kernel.signature inputs = .ok s := by
  obtain ⟨shape, joined⟩ := Shape.exists_joinAll (List.forall_mem_map.mpr bound)
  exact ⟨(_, shape), by rw [signature, if_pos ⟨computes, accepted⟩, joined]⟩

end Kernel

namespace Tensor

theorem elementType_eq_ite {type : ElementType} {words : Prop} [Decidable words]
    (same : type = .int32 ↔ words) : type = if words then .int32 else .float32 := by
  split
  · rename_i yes
    exact same.mpr yes
  · rename_i no
    cases type with
    | int32 => exact absurd (same.mp rfl) no
    | float32 => rfl

/-- The signature of the result follows from those of the operands. -/
theorem outline_ofKernel (kernel : Kernel) (tensors : List Tensor) :
    outline Graph.typeOf (ofKernel kernel tensors) =
      kernel.signature (tensors.map Graph.typeOf) := by
  rw [Kernel.signature, List.length_map, List.map_map]
  by_cases taken : kernel.isCustom = false ∧ kernel.arity.accepts tensors.length = true
  · have yields := yields_ofKernel taken.1 taken.2
    rw [if_pos taken]
    have shapes : (Prod.snd ∘ Graph.typeOf) = Tensor.shape := rfl
    rw [shapes]
    cases joined : Shape.joinAll (tensors.map Tensor.shape) with
    | none =>
        cases computed : ofKernel kernel tensors with
        | error error => rfl
        | ok t =>
            have above := ((yields.typed t computed).2 t.shape).mp (.refl _)
            obtain ⟨u, impossible⟩ := exists_joinAll_shapes above
            rw [joined] at impossible
            cases impossible
    | some u =>
        obtain ⟨t, computed⟩ := yields.total u ((stretchesTo_all_iff joined u).mp (.refl u))
        obtain ⟨type, shape⟩ := yields.typed t computed
        have same : t.shape = u := Shape.eq_of_stretchesTo_iff fun w =>
          (shape w).trans (stretchesTo_all_iff joined w).symm
        have words : t.elementType = .int32 ↔
            kernel.IsIntegral ∧ ∀ input ∈ tensors.map Graph.typeOf, input.1 = .int32 := by
          rw [type, List.forall_mem_map]
          rfl
        rw [computed, outline, Graph.typeOf, same, elementType_eq_ite words]
  · obtain ⟨error, computed⟩ := exists_ofKernel_error taken
    rw [if_neg taken, computed]
    rfl

end Tensor

end Polish
