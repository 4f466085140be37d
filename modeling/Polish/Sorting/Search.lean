/-!
How far the elements at an end of a sorted run belong before a key.

The place is found by doubling steps and then by halving what is left. A test that is not monotone,
as with numbers that compare with nothing, still gives one place; which one depends on the elements
that are looked at, so these are fixed here.
-/

set_option autoImplicit false

namespace Polish.Sorting

/-- The end of a run from which elements are counted and taken. -/
inductive Direction where
  | front
  | back
deriving DecidableEq, Repr

namespace Direction

/-- The middle of `[low, high)`. From the back an even stretch has its other middle. -/
def middle (d : Direction) (low high : Nat) : Nat :=
  match d with
  | .front => low + (high - low) / 2
  | .back => high - 1 - (high - low) / 2

theorem middle_bounds (d : Direction) (low high : Nat) (nonempty : low < high) :
    low ≤ d.middle low high ∧ d.middle low high < high := by
  cases d <;> simp only [middle] <;> omega

end Direction

/-- The place in `[low, high]` up to which places pass a test, found by halving. -/
def halve (d : Direction) (passes : Nat → Bool) (low high : Nat) : Nat :=
  if nonempty : low < high then
    if passes (d.middle low high) then halve d passes (d.middle low high + 1) high
    else halve d passes low (d.middle low high)
  else low
termination_by high - low
decreasing_by
  all_goals
    have bounds := d.middle_bounds low high nonempty
    omega

/-- Doubles the step while places pass a test: the last that is known to pass, and the bound. -/
def stride (passes : Nat → Bool) (count last next : Nat) : Nat × Nat :=
  if next < count ∧ last < next then
    if passes next then stride passes count next (2 * next + 1) else (last, next)
  else (last, min next count)
termination_by count - last

/-- How many elements at the front of a list, counted from an end of a run, pass a test. -/
def leading {α : Type} (d : Direction) (passes : α → Bool) (items : List α) : Nat :=
  let passesAt (i : Nat) := items[i]?.any passes
  if passesAt 0 then
    let (last, bound) := stride passesAt items.length 0 1
    halve d passesAt (last + 1) bound
  else 0

end Polish.Sorting
