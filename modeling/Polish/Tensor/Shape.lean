/-!
Shapes of arrays, and how arrays of different shapes are brought to a common one: axes are matched
from the last, an axis of size one stretches, and missing axes count as size one.
-/

set_option autoImplicit false

namespace Polish

abbrev Shape := List Nat

namespace Shape

def count (s : Shape) : Nat := s.foldr (· * ·) 1

def joinAxis (m n : Nat) : Option Nat :=
  if m = n then some m else if m = 1 then some n else if n = 1 then some m else none

/-- The common shape of two shapes given from the last axis. -/
def joinReversed : Shape → Shape → Option Shape
  | [], t => some t
  | s, [] => some s
  | m :: s, n :: t => do
      let axis ← joinAxis m n
      let others ← joinReversed s t
      return axis :: others

def join (s t : Shape) : Option Shape := (joinReversed s.reverse t.reverse).map List.reverse

def joinAll (shapes : List Shape) : Option Shape := shapes.foldlM join []

def positions : Shape → List (List Nat)
  | [] => [[]]
  | m :: s => (List.range m).flatMap fun i => (positions s).map (i :: ·)

/-- The place of a position among all of them. -/
def offset (s : Shape) (position : List Nat) : Nat :=
  (s.zip position).foldl (fun place (size, i) => place * size + i) 0

/-- The position in a smaller shape that a position in the common shape stretches from. -/
def shrink (s : Shape) (position : List Nat) : List Nat :=
  (s.zip (position.drop (position.length - s.length))).map fun (size, i) =>
    if size = 1 then 0 else i

/-- The axis that an index means; negative indices count from behind. -/
def axis? (rank : Nat) (index : Int) : Option Nat :=
  let i := if index < 0 then index + rank else index
  if 0 ≤ i ∧ i < rank then some i.toNat else none

theorem length_positions (s : Shape) : s.positions.length = s.count := by
  induction s with
  | nil => rfl
  | cons m s ih =>
      rw [positions, List.length_flatMap]
      simp only [List.length_map, ih, List.map_const', List.length_range, List.sum_replicate_nat]
      rfl

theorem joinAxis_comm (m n : Nat) : joinAxis m n = joinAxis n m := by
  unfold joinAxis
  grind

end Shape

end Polish
