set_option autoImplicit false

namespace Polish

/-- Entries in the order of their last use, the latest first, and counts of the look-ups. -/
structure Recent (κ α : Type) where
  capacity : Nat
  entries : List (κ × α)
  hits : Nat
  misses : Nat

namespace Recent

variable {κ α : Type} [DecidableEq κ]

def empty (capacity : Nat) : Recent κ α := ⟨capacity, [], 0, 0⟩

def find? (t : Recent κ α) (key : κ) : Option α := t.entries.lookup key

def use (t : Recent κ α) (key : κ) (value : α) : Recent κ α :=
  { t with
    entries := (key, value) :: t.entries.filter (·.1 ≠ key)
    hits := t.hits + 1 }

def miss (t : Recent κ α) : Recent κ α := { t with misses := t.misses + 1 }

/-- Adds an entry as the latest; beyond the capacity the oldest is dropped. -/
def store (t : Recent κ α) (key : κ) (value : α) : Recent κ α :=
  { t with entries := ((key, value) :: t.entries).take t.capacity }

end Recent

end Polish
