import Polish.Sorting.Search

set_option autoImplicit false

namespace Polish.Sorting

variable {α : Type}

/-- How many elements a search has to find for another search to follow. -/
def longSearch : Nat := 7

/-- What is left of two runs, what is merged, the latest first, and the patience. Runs that are
merged from the back are turned round, and then so is what is merged. -/
structure Merging (α : Type) where
  first : List α
  second : List α
  merged : List α
  patience : Nat

namespace Merging

def takeFirst (m : Merging α) (count : Nat) : Merging α :=
  { m with
    first := m.first.drop count
    merged := (m.first.take count).reverse ++ m.merged }

def takeSecond (m : Merging α) (count : Nat) : Merging α :=
  { m with
    second := m.second.drop count
    merged := (m.second.take count).reverse ++ m.merged }

/-- What follows, once nothing is left to compare: one run is used up, or of the run whose outer
end was trimmed the last element is left, which goes behind everything. -/
def rest? (d : Direction) (m : Merging α) : Option (List α) :=
  match d, m.first, m.second with
  | _, [], second => some second
  | _, first, [] => some first
  | .front, [x], second => some (second ++ [x])
  | .back, first, [y] => some (first ++ [y])
  | _, _, _ => none

end Merging

inductive Mode where
  /-- Compares two elements; the runs have won so often in a row. -/
  | compare (firstWins secondWins : Nat)
  | searchFirst
  /-- Searches the second run after a search that found so many in the first. -/
  | searchSecond (found : Nat)

/-- Whether the element of the second run goes before that of the first. -/
def Direction.takesSecond (d : Direction) (lt : α → α → Bool) (first second : α) : Bool :=
  match d with
  | .front => lt second first
  | .back => !lt second first

/-- Takes one element, or all that a search finds and the one element that ended it. Gives also
the next mode, and the patience for it. -/
def step (d : Direction) (lt : α → α → Bool) (m : Merging α) : Mode → Merging α × Mode × Nat
  | .compare firstWins secondWins =>
      match m.first, m.second with
      | x :: _, y :: _ =>
          if d.takesSecond lt x y then
            let wins := secondWins + 1
            (m.takeSecond 1, if m.patience ≤ wins then .searchFirst else .compare 0 wins, m.patience)
          else
            let wins := firstWins + 1
            (m.takeFirst 1, if m.patience ≤ wins then .searchFirst else .compare wins 0, m.patience)
      | _, _ => (m, .compare 0 0, m.patience)
  | .searchFirst =>
      match m.second with
      | [] => (m, .compare 0 0, m.patience)
      | y :: _ =>
          let found := leading d (fun x => !d.takesSecond lt x y) m.first
          ((m.takeFirst found).takeSecond 1, .searchSecond found, m.patience)
  | .searchSecond before =>
      match m.first with
      | [] => (m, .compare 0 0, m.patience)
      | x :: _ =>
          let found := leading d (d.takesSecond lt x) m.second
          let next := (m.takeSecond found).takeFirst 1
          if longSearch ≤ before ∨ longSearch ≤ found then
            (next, .searchFirst, max 1 (m.patience - 1))
          else (next, .compare 0 0, m.patience + 1)

/-- Takes steps until nothing is left to compare; every step takes an element. -/
def takeSteps (d : Direction) (lt : α → α → Bool) (m : Merging α) (mode : Mode) :
    Nat → List α × Nat
  | 0 => (m.merged.reverse ++ m.first ++ m.second, m.patience)
  | steps + 1 =>
      match m.rest? d with
      | some rest => (m.merged.reverse ++ rest, m.patience)
      | none =>
          let (next, mode, patience) := step d lt m mode
          match next.rest? d with
          | some rest => (next.merged.reverse ++ rest, next.patience)
          | none => takeSteps d lt { next with patience := patience } mode steps

/-- Merges trimmed runs from one end, where the element of the other run is known to come first. -/
def mergeFrom (d : Direction) (lt : α → α → Bool) (patience : Nat) (first second : List α) :
    List α × Nat :=
  let start : Merging α := ⟨first, second, [], patience⟩
  let start :=
    match d with
    | .front => start.takeSecond 1
    | .back => start.takeFirst 1
  takeSteps d lt start (.compare 0 0) (first.length + second.length)

/-- Merges two runs. What is in its place at the outer ends is left there, and the shorter of the
rests says from which end they are merged. -/
def merge (lt : α → α → Bool) (patience : Nat) (first second : List α) : List α × Nat :=
  match second with
  | [] => (first, patience)
  | y :: _ =>
      let placed := leading .front (fun x => !lt y x) first
      let low := first.drop placed
      match low.getLast? with
      | none => (first ++ second, patience)
      | some x =>
          let count := second.length - leading .back (fun y => !lt y x) second.reverse
          let high := second.take count
          if high.isEmpty then (first ++ second, patience)
          else
            let (merged, patience) :=
              if low.length ≤ high.length then mergeFrom .front lt patience low high
              else
                let (merged, patience) := mergeFrom .back lt patience low.reverse high.reverse
                (merged.reverse, patience)
            (first.take placed ++ merged ++ second.drop count, patience)

end Polish.Sorting
