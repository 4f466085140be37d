import Polish.Sorting.Merge

/-!
Sorting by the runs that a list already has.

Runs are found from the front, short ones are made longer by insertion, and neighbours are merged
by the place of their border in the whole list, so that runs of like lengths meet. Elements that
are equal keep their order.
-/

set_option autoImplicit false

namespace Polish.Sorting

variable {α : Type}

def fallingRun (lt : α → α → Bool) : List α → Nat
  | a :: b :: rest => if lt b a then 1 + fallingRun lt (b :: rest) else 1
  | [_] => 1
  | [] => 0

/-- The length of the run at the front that never falls. -/
def risingRun (lt : α → α → Bool) : List α → Nat
  | a :: b :: rest => if lt b a then 1 else 1 + risingRun lt (b :: rest)
  | [_] => 1
  | [] => 0

def insert (lt : α → α → Bool) (run : List α) (x : α) : List α :=
  let place := halve .front (fun i => run[i]?.any fun y => !lt x y) 0 run.length
  run.insertIdx place x

/-- The run at the front and what follows it. A falling run is turned round, and a run that is
shorter than `least` takes in elements behind it. -/
def takeRun (lt : α → α → Bool) (least : Nat) (items : List α) : List α × List α :=
  let falling := fallingRun lt items
  let natural := if 2 ≤ falling then falling else risingRun lt items
  let run := items.take natural
  let run := if 2 ≤ falling then run.reverse else run
  let length := max natural (min least items.length)
  (((items.take length).drop natural).foldl (insert lt) run, items.drop length)

/-- The least length of runs: the leading six bits of the whole length, rounded up. -/
def leastRun (length : Nat) : Nat :=
  let rec halved (length : Nat) (odd : Bool) : Nat :=
    if 64 ≤ length then halved (length / 2) (odd || length % 2 = 1)
    else length + if odd then 1 else 0
  halved length false

/-- The first binary place at which two positions in a whole of length `total` differ. -/
def differingPlace (total : Nat) (a b : Nat) : Nat → Nat
  | 0 => 0
  | places + 1 =>
      if total ≤ a then 1 + differingPlace total (2 * (a - total)) (2 * (b - total)) places
      else if total ≤ b then 1
      else 1 + differingPlace total (2 * a) (2 * b) places

/-- The rank of the border between two neighbouring runs: that of their middles. Borders of high
rank are merged away first. -/
def borderRank (total start firstLength secondLength : Nat) : Nat :=
  let middle := 2 * start + firstLength
  differingPlace total middle (middle + firstLength + secondLength) total

/-- A run in the whole list, and the rank of its border with the next one. -/
structure Run (α : Type) where
  start : Nat
  items : List α
  rank : Nat

def Run.join (lt : α → α → Bool) (patience : Nat) (left right : Run α) : Run α × Nat :=
  let (items, patience) := merge lt patience left.items right.items
  ({ left with items := items }, patience)

/-- Merges runs, the last first, as long as the border before the last one outranks `rank`. -/
def settle (lt : α → α → Bool) (rank patience : Nat) : List (Run α) → List (Run α) × Nat
  | right :: left :: runs =>
      if rank < left.rank then
        let (joined, patience) := left.join lt patience right
        settle lt rank patience (joined :: runs)
      else (right :: left :: runs, patience)
  | runs => (runs, patience)
termination_by runs => runs.length

/-- Adds a run behind the others, once those that belong together are merged. -/
def addRun (lt : α → α → Bool) (total start : Nat) (items : List α) (runs : List (Run α))
    (patience : Nat) : List (Run α) × Nat :=
  match runs with
  | [] => ([⟨start, items, 0⟩], patience)
  | last :: _ =>
      let rank := borderRank total last.start last.items.length items.length
      match settle lt rank patience runs with
      | (last :: earlier, patience) =>
          (⟨start, items, 0⟩ :: { last with rank := rank } :: earlier, patience)
      | ([], patience) => ([⟨start, items, 0⟩], patience)

/-- Cuts the rest of a list of length `total` into runs and adds them. -/
def addRuns (lt : α → α → Bool) (total : Nat) (runs : List (Run α)) (patience : Nat)
    (rest : List α) : Nat → List (Run α) × Nat
  | 0 => (runs, patience)
  | count + 1 =>
      if rest.isEmpty then (runs, patience)
      else
        let (items, left) := takeRun lt (leastRun total) rest
        let (runs, patience) := addRun lt total (total - rest.length) items runs patience
        addRuns lt total runs patience left count

/-- Merges all runs, the last first: the last two, or those before the last when the first of
them is the shorter neighbour. -/
def joinAll (lt : α → α → Bool) (patience : Nat) : List (Run α) → List α
  | third :: second :: first :: runs =>
      if first.items.length < third.items.length then
        let (joined, patience) := first.join lt patience second
        joinAll lt patience (third :: joined :: runs)
      else
        let (joined, patience) := second.join lt patience third
        joinAll lt patience (joined :: first :: runs)
  | [right, left] => (left.join lt patience right).1.items
  | [run] => run.items
  | [] => []
termination_by runs => runs.length

def sort (lt : α → α → Bool) (items : List α) : List α :=
  let (runs, patience) := addRuns lt items.length [] longSearch items items.length
  joinAll lt patience runs

end Polish.Sorting
