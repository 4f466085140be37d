import Polish.Proofs.Binary.Bounds
import Polish.Proofs.Tensor.Residue
import Polish.Proofs.Tensor.Signatures

set_option autoImplicit false

namespace Polish

namespace NDArray

variable {α β γ : Type} [Inhabited α] [Inhabited β]

def HoldAt (place : Nat) (arrays : List (NDArray α)) (values : List α) : Prop :=
  List.Forall₂ (fun a value => a.entries[place]? = some value) arrays values

theorem shape_of_align? {arrays aligned : List (NDArray α)} {shape : Shape}
    (fit : align? arrays = some (shape, aligned)) : ∀ a ∈ aligned, a.shape = shape := by
  obtain ⟨_, _, same⟩ := Option.bind_eq_some_iff.mp fit
  cases same
  exact List.forall_mem_map.mpr fun a _ => shape_stretch shape a

theorem getElem?_zipIn {f : α → β → γ} {shape : Shape} {a : NDArray α} {b : NDArray β}
    (left : a.shape = shape) (right : b.shape = shape) {place : Nat} {x : α} {y : β}
    (first : a.entries[place]? = some x) (second : b.entries[place]? = some y) :
    (zipIn shape f a b).entries[place]? = some (f x y) := by
  have entries : (zipIn shape f a b).entries = List.zipWith f a.entries b.entries := by
    simp only [zipIn, stretch_of_shape left, stretch_of_shape right]
  rw [entries, List.getElem?_zipWith, first, second]

/-- Each array carries the accumulator on, place by place. -/
theorem getElem?_foldl_zipIn {f : β → α → β} {shape : Shape} {place : Nat}
    {arrays : List (NDArray α)} {values : List α} (hold : HoldAt place arrays values)
    (shapes : ∀ a ∈ arrays, a.shape = shape) {accumulator : NDArray β}
    (shape_ : accumulator.shape = shape) {start : β}
    (here : accumulator.entries[place]? = some start) :
    (arrays.foldl (zipIn shape f) accumulator).entries[place]? = some (values.foldl f start) := by
  induction hold generalizing accumulator start with
  | nil => exact here
  | @cons a value arrays values first _ ih =>
      rw [List.forall_mem_cons] at shapes
      exact ih shapes.2 rfl (getElem?_zipIn shape_ shapes.1 here first)

theorem getElem?_fold {f : β → α → β} {start : β} {shape : Shape} {place : Nat}
    {arrays : List (NDArray α)} {values : List α} (inside : place < shape.count)
    (shapes : ∀ a ∈ arrays, a.shape = shape) (hold : HoldAt place arrays values) :
    (fold f start shape arrays).entries[place]? = some (values.foldl f start) :=
  getElem?_foldl_zipIn hold shapes rfl (List.getElem?_replicate_of_lt inside)

omit [Inhabited α] in
/-- All arrays of a shape hold something at each place in it. -/
theorem exists_holdAt {shape : Shape} {place : Nat} (inside : place < shape.count)
    {arrays : List (NDArray α)} (shapes : ∀ a ∈ arrays, a.shape = shape) :
    ∃ values, HoldAt place arrays values := by
  induction arrays with
  | nil => exact ⟨[], .nil⟩
  | cons a arrays ih =>
      rw [List.forall_mem_cons] at shapes
      obtain ⟨values, hold⟩ := ih shapes.2
      have within : place < a.entries.length := by rwa [a.complete, shapes.1]
      exact ⟨_, .cons (List.getElem?_eq_getElem within) hold⟩

end NDArray

namespace Tensor

/-- The geometric mean, given how powers are computed. -/
def geometricMeanWith (power : Single → Single → Single) (tensors : List Tensor) :
    Except TensorError Tensor := do
  let size := (← product tensors).magnitude
  return .singles (size.toSingles.map (power · (rootExponent tensors.length)))

theorem geometricMeanWith_powerSingle (tensors : List Tensor) :
    geometricMeanWith Binary.powerSingle tensors = ofKernel .geometricMean tensors := rfl

/-- Powers of nonnegative numbers to exponents between zero and one are nonnegative numbers. -/
def Rooted (power : Single → Single → Single) : Prop :=
  ∀ base exponent : Single, base.isNaN = false → base.isNegative = false →
    exponent.InUnitInterval → (power base exponent).isNaN = false ∧
      (power base exponent).isNegative = false

theorem rootExponent_inUnitInterval {count : Nat} (positive : 0 < count) :
    (rootExponent count).InUnitInterval :=
  (Binary.inUnitInterval_reciprocal Format.wide_double positive).convert Format.wide_single

/-- Roots of nonnegative words are nonnegative numbers. -/
theorem Rooted.root {power : Single → Single → Single} (rooted : Rooted power) {w : Int32}
    (nonneg : 0 ≤ w.toInt) {count : Nat} (positive : 0 < count) :
    (power (singleOfWord w) (rootExponent count)).isNaN = false ∧
      (power (singleOfWord w) (rootExponent count)).isNegative = false := by
  have sign : decide (w.toInt < 0) = false := decide_eq_false (Int.not_lt.mpr nonneg)
  have base : (singleOfWord w).isNaN = false ∧ (singleOfWord w).isNegative = false := by
    rw [singleOfWord]
    rcases Binary.ofInt_cases w.toInt with ⟨m, s, canonical, finite⟩ | infinite
    · rw [finite, sign]
      exact ⟨rfl, rfl⟩
    · rw [infinite, sign]
      exact ⟨rfl, rfl⟩
  exact rooted _ _ base.1 base.2 (rootExponent_inUnitInterval positive)

variable {arrays aligned : List (NDArray Int32)} {shape : Shape}

theorem product_words (given : arrays ≠ []) (fit : NDArray.align? arrays = some (shape, aligned)) :
    product (arrays.map .words) = .ok (.words (NDArray.fold (· * ·) 1 shape aligned)) := by
  have some_ : (arrays.map Tensor.words).isEmpty = false := by
    cases arrays with
    | nil => exact absurd rfl given
    | cons a arrays => rfl
  rw [product, reduce, some_, allWords?_eq_some_iff.mpr rfl]
  simp only [Bool.false_eq_true, ↓reduceIte, fit, Option.map_some]

/-- The geometric mean of words, entry by entry from their wrapped product. -/
theorem geometricMeanWith_words (power : Single → Single → Single) (given : arrays ≠ [])
    (fit : NDArray.align? arrays = some (shape, aligned)) :
    geometricMeanWith power (arrays.map .words) =
      .ok (.singles ((NDArray.fold (· * ·) 1 shape aligned).map fun w =>
        power (singleOfWord (wordMagnitude w)) (rootExponent arrays.length))) := by
  rw [geometricMeanWith, product_words given fit, List.length_map]
  simp only [bind, Except.bind, pure, Except.pure, magnitude, toSingles, NDArray.map, List.map_map,
    Function.comp_def]

/-- Arrays of words, at least one, that have a common shape have a geometric mean. It is the power,
to one over their number, of the size of a word that is congruent to the exact product of what they
hold at the same place, and it has no other entries. This size is nonnegative exactly if the exact
product is not congruent to two to the 31, and then the mean is neither negative nor a NaN, if that
holds of all powers of nonnegative numbers to exponents between zero and one. -/
theorem root_of_nonnegative_but_for_one_residue (power : Single → Single → Single)
    (arrays aligned : List (NDArray Int32)) (shape : Shape) (given : arrays ≠ [])
    (fit : NDArray.align? arrays = some (shape, aligned)) :
    (∀ tensors, geometricMeanWith Binary.powerSingle tensors = ofKernel .geometricMean tensors) ∧
      ∃ products means, product (arrays.map .words) = .ok (.words products) ∧
        geometricMeanWith power (arrays.map .words) = .ok (.singles means) ∧
        products.shape = shape ∧ means.shape = shape ∧
        (∀ place r, means.entries[place]? = some r → place < shape.count ∧
          ∃ words, NDArray.HoldAt place aligned words) ∧
        ∀ place words, place < shape.count → NDArray.HoldAt place aligned words →
          ∃ w r, products.entries[place]? = some w ∧ means.entries[place]? = some r ∧
            w.toInt ≡ (words.map Int32.toInt).prod [ZMOD 2 ^ (32 : Nat)] ∧
            r = power (singleOfWord (wordMagnitude w)) (rootExponent arrays.length) ∧
            (0 ≤ (wordMagnitude w).toInt ↔
              ¬ (words.map Int32.toInt).prod ≡ 2 ^ (31 : Nat) [ZMOD 2 ^ (32 : Nat)]) ∧
            (Rooted power →
              ¬ (words.map Int32.toInt).prod ≡ 2 ^ (31 : Nat) [ZMOD 2 ^ (32 : Nat)] →
              r.isNaN = false ∧ r.isNegative = false) := by
  refine ⟨geometricMeanWith_powerSingle, _, _, product_words given fit,
    geometricMeanWith_words power given fit, NDArray.shape_fold ..,
    (NDArray.shape_map _ _).trans (NDArray.shape_fold ..), ?_, ?_⟩
  · intro place r there
    have inside := (List.getElem?_eq_some_iff.mp there).1
    rw [NDArray.complete, NDArray.shape_map, NDArray.shape_fold] at inside
    exact ⟨inside, NDArray.exists_holdAt inside (NDArray.shape_of_align? fit)⟩
  · intro place words inside hold
    have entry : (NDArray.fold (· * ·) 1 shape aligned).entries[place]? =
        some (words.foldl (· * ·) 1) := NDArray.getElem?_fold inside (NDArray.shape_of_align? fit) hold
    have congruent := foldl_mul_modEq words
    have nonneg := wordMagnitude_nonneg_iff congruent
    refine ⟨_, _, entry, ?_, congruent, rfl, nonneg, fun rooted other => ?_⟩
    · rw [NDArray.map, List.getElem?_map, entry, Option.map_some]
    · exact rooted.root (nonneg.mpr other) (List.length_pos_iff.mpr given)

/-- The product of these two wraps round to one, and every root of one is one. -/
theorem root_of_nonnegative_but_for_one_residue_unit :
    ∃ means r, geometricMeanWith (fun base _ => base)
        [.words (.scalar 3), .words (.scalar (-1431655765))] = .ok (.singles means) ∧
      means.entries[0]? = some r ∧ r.isNaN = false ∧ r.isNegative = false := by
  obtain ⟨_, products, means, _, value, _, _, _, each⟩ := root_of_nonnegative_but_for_one_residue
    (fun base _ => base) [.scalar 3, .scalar (-1431655765)] [.scalar 3, .scalar (-1431655765)] []
    (List.cons_ne_nil _ _) rfl
  obtain ⟨w, r, _, entry, _, _, _, number⟩ := each 0 [3, -1431655765] (by decide)
    (.cons rfl (.cons rfl .nil))
  exact ⟨means, r, value, entry, number (fun _ _ number nonneg _ => ⟨number, nonneg⟩) (by decide)⟩

/-- Two to the 16 times two to the 15 is the least word, which stays negative when its size is
taken, and a square root of it is asked for. -/
theorem root_of_negative :
    ∃ w, product [.words (.scalar 65536), .words (.scalar 32768)] = .ok (.words (.scalar w)) ∧
      (wordMagnitude w).toInt = -2 ^ (31 : Nat) ∧
      ofKernel .geometricMean [.words (.scalar 65536), .words (.scalar 32768)] =
        .ok (.singles (.scalar (Binary.powerSingle (.ofInt .single (-2 ^ (31 : Nat)))
          (rootExponent 2)))) :=
  ⟨Int32.ofInt (-2 ^ (31 : Nat)), rfl, rfl, rfl⟩

end Tensor

end Polish
