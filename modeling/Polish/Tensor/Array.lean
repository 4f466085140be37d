import Polish.Tensor.Shape

set_option autoImplicit false

namespace Polish

/-- A shape and one entry for each position in it, in row-major order. -/
structure NDArray (α : Type) where
  shape : Shape
  entries : List α
  complete : entries.length = shape.count
deriving DecidableEq

namespace NDArray

variable {ε α β γ : Type}

def scalar (value : α) : NDArray α := ⟨[], [value], rfl⟩

def full (shape : Shape) (value : α) : NDArray α :=
  ⟨shape, List.replicate shape.count value, List.length_replicate⟩

def ofEntries? (shape : Shape) (entries : List α) : Option (NDArray α) :=
  if complete : entries.length = shape.count then some ⟨shape, entries, complete⟩ else none

def ofPositions (shape : Shape) (f : List Nat → α) : NDArray α :=
  ⟨shape, shape.positions.map f, by rw [List.length_map, shape.length_positions]⟩

def map (f : α → β) (a : NDArray α) : NDArray β :=
  ⟨a.shape, a.entries.map f, by rw [List.length_map, a.complete]⟩

def get [Inhabited α] (a : NDArray α) (position : List Nat) : α :=
  a.entries.getD (a.shape.offset position) default

def stretch [Inhabited α] (target : Shape) (a : NDArray α) : NDArray α :=
  if a.shape = target then a
  else ofPositions target fun position => a.get (a.shape.shrink position)

theorem shape_map (f : α → β) (a : NDArray α) : (a.map f).shape = a.shape := rfl

theorem shape_stretch [Inhabited α] (target : Shape) (a : NDArray α) :
    (a.stretch target).shape = target := by
  unfold stretch
  split
  · assumption
  · rfl

theorem stretch_of_shape [Inhabited α] {target : Shape} {a : NDArray α} (same : a.shape = target) :
    a.stretch target = a := if_pos same

theorem length_stretch [Inhabited α] (target : Shape) (a : NDArray α) :
    (a.stretch target).entries.length = target.count := by
  rw [complete, shape_stretch]

/-- Combines two arrays entry by entry in a common shape. -/
def zipIn [Inhabited α] [Inhabited β] (shape : Shape) (f : α → β → γ) (a : NDArray α)
    (b : NDArray β) : NDArray γ where
  shape := shape
  entries := List.zipWith f (a.stretch shape).entries (b.stretch shape).entries
  complete := by rw [List.length_zipWith, length_stretch, length_stretch, Nat.min_self]

/-- Combines two arrays, if they have a common shape. -/
def zipWith? [Inhabited α] [Inhabited β] (f : α → β → γ) (a : NDArray α) (b : NDArray β) :
    Option (NDArray γ) :=
  (a.shape.join b.shape).map fun shape => zipIn shape f a b

def align? [Inhabited α] (arrays : List (NDArray α)) : Option (Shape × List (NDArray α)) := do
  let shape ← Shape.joinAll (arrays.map (·.shape))
  return (shape, arrays.map (stretch shape))

def fold [Inhabited α] [Inhabited β] (f : β → α → β) (start : β) (shape : Shape)
    (arrays : List (NDArray α)) : NDArray β :=
  arrays.foldl (zipIn shape f) (full shape start)

def slice [Inhabited α] (a : NDArray α) (axis index : Nat) : NDArray α :=
  ofPositions (a.shape.eraseIdx axis) fun position => a.get (position.insertIdx axis index)

/-- Joins arrays of one shape along a new axis. -/
def stack [Inhabited α] (shape : Shape) (axis : Nat) (arrays : List (NDArray α)) : NDArray α :=
  ofPositions (shape.insertIdx axis arrays.length) fun position =>
    match position[axis]?.bind (arrays[·]?) with
    | some a => a.get (position.eraseIdx axis)
    | none => default

end NDArray

end Polish
