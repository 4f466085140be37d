import Polish.Number

set_option autoImplicit false

namespace Polish

/-- Which axis of each argument is mapped over; a list has one entry for each argument. -/
inductive Axes where
  | unmapped
  | axis (index : Int)
  | each (entries : List Axes)

namespace Axes

mutual

/-- The characters of the text; one entry in brackets is a list by the comma behind it. -/
def characters : Axes → List Char
  | .unmapped => "None".toList
  | .axis index => (Number.integer index).text.toList
  | .each [] => ['(', ')']
  | .each [entry] => '(' :: characters entry ++ [',', ')']
  | .each (entry :: next :: rest) =>
      '(' :: characters entry ++ following (next :: rest) ++ [')']

def following : List Axes → List Char
  | [] => []
  | entry :: rest => ',' :: ' ' :: characters entry ++ following rest

end

def text (axes : Axes) : String := .ofList axes.characters

mutual

def isWritable : Axes → Bool
  | .unmapped => true
  | .axis index => (Number.integer index).isWritable
  | .each entries => areWritable entries

def areWritable : List Axes → Bool
  | [] => true
  | entry :: rest => isWritable entry && areWritable rest

end

def single? : Axes → Option (Option Int)
  | .unmapped => some none
  | .axis index => some (some index)
  | .each _ => none

/-- The axis of each of `count` arguments. -/
def spread? (count : Nat) : Axes → Option (List (Option Int))
  | .each entries => if entries.length = count then entries.mapM single? else none
  | axes => axes.single?.map (List.replicate count)

end Axes

/-- The arguments to differentiate by; a list of one differs from that one alone. -/
inductive Selection where
  | one (index : Int)
  | several (indices : List Int)
deriving DecidableEq, Repr

end Polish
