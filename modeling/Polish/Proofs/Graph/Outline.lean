import Polish.Graph.Basic

set_option autoImplicit false

namespace Polish

variable {ε α β : Type}

/-- What a function keeps of a value; all errors are one. -/
def outline (keep : α → β) : Except ε α → Except Unit β
  | .ok value => .ok (keep value)
  | .error _ => .error ()

theorem exists_outline_iff (keep : α → β) (outcome : Except ε α) :
    (∃ kept, outline keep outcome = .ok kept) ↔ ∃ value, outcome = .ok value := by
  cases outcome with
  | ok value => exact iff_of_true ⟨_, rfl⟩ ⟨_, rfl⟩
  | error error => exact iff_of_false nofun nofun

/-- The kernel computes from what is kept of the operands what is kept of the result. -/
def OutlinesKernel (keep : α → β) :
    Except ε (List α → Except ε α) → Except Unit (List β → Except Unit β) → Prop
  | .ok apply, .ok apply' => ∀ operands, outline keep (apply operands) = apply' (operands.map keep)
  | .error _, .error _ => True
  | _, _ => False

/-- The second interpretation computes what is kept of the values of the first. -/
structure Interpretation.Outlines (keep : α → β) (I : Interpretation ε α)
    (J : Interpretation Unit β) : Prop where
  constant : ∀ n, outline keep (I.constant n) = J.constant n
  argument : ∀ name, outline keep (I.argument name) = J.argument name
  kernel : ∀ symbol, OutlinesKernel keep (I.kernel symbol) (J.kernel symbol)

namespace Graph

variable {keep : α → β} {I : Interpretation ε α} {J : Interpretation Unit β}

theorem outline_gather (keep : α → β) (dangling : ε) (values : List α) (ids : List Nat) :
    outline (List.map keep) (gather dangling values ids) = gather () (values.map keep) ids := by
  induction ids with
  | nil => rfl
  | cons i is ih =>
      rw [gather, gather, List.getElem?_map]
      cases values[i]? with
      | none => rfl
      | some value =>
          rw [Option.map_some]
          dsimp only
          rw [← ih]
          cases gather dangling values is <;> rfl

theorem outline_execute (outlines : I.Outlines keep J) (values : List α)
    (instruction : Instruction) :
    outline keep (execute I values instruction) = execute J (values.map keep) instruction := by
  cases instruction with
  | constant n => exact outlines.constant n
  | argument name => exact outlines.argument name
  | kernel symbol inputs =>
      have same := outlines.kernel symbol
      have operands := outline_gather keep I.dangling values inputs
      rw [execute, execute]
      cases first : I.kernel symbol with
      | error error =>
          cases second : J.kernel symbol with
          | error error' => rfl
          | ok apply' =>
              rw [first, second] at same
              exact same.elim
      | ok apply =>
          cases second : J.kernel symbol with
          | error error' =>
              rw [first, second] at same
              exact same.elim
          | ok apply' =>
              rw [first, second] at same
              cases gathered : gather I.dangling values inputs with
              | error error =>
                  rw [gathered] at operands
                  simp only [bind, Except.bind, ← operands, outline]
              | ok given =>
                  rw [gathered] at operands
                  simp only [bind, Except.bind, ← operands, outline]
                  exact same given

/-- Node by node the value kept is computed from those kept before. -/
theorem outline_run (outlines : I.Outlines keep J) (values : List α) (nodes : List Node) :
    outline (List.map keep) (run I values nodes) = run J (values.map keep) nodes := by
  induction nodes generalizing values with
  | nil => rfl
  | cons node nodes ih =>
      have step := outline_execute outlines values node.instruction
      rw [run, run, ← step]
      cases execute I values node.instruction with
      | error error => rfl
      | ok value =>
          have rest := ih (values ++ [value])
          rw [List.map_append, List.map_singleton] at rest
          exact rest

/-- What is kept of the value of a graph is its value in the other interpretation. -/
theorem outline_evaluate (outlines : I.Outlines keep J) (g : Graph) :
    outline keep (g.evaluate I) = g.evaluate J := by
  have ran := outline_run outlines [] g.nodes
  rw [List.map_nil] at ran
  rw [evaluate, evaluate, ← ran]
  cases run I [] g.nodes with
  | error error => rfl
  | ok values =>
      simp only [bind, Except.bind, outline, List.getElem?_map]
      cases values[g.output]? <;> rfl

end Graph

end Polish
