import Polish.Graph.Basic

set_option autoImplicit false

namespace Polish

namespace Graph

variable {ε α : Type} {I : Interpretation ε α} {nodes more : List Node} {id : Nat}

theorem run_append (I : Interpretation ε α) (first second : List Node) (values : List α) :
    run I values (first ++ second) =
      (run I values first).bind fun values => run I values second := by
  induction first generalizing values with
  | nil => rfl
  | cons node first ih =>
      simp only [List.cons_append, run]
      cases execute I values node.instruction with
      | error e => rfl
      | ok value => exact ih (values ++ [value])

/-- Each node adds one value behind those there are. -/
theorem run_grows {values final : List α} (ran : run I values nodes = .ok final) :
    values <+: final ∧ final.length = values.length + nodes.length := by
  induction nodes generalizing values with
  | nil =>
      cases ran
      exact ⟨List.prefix_rfl, rfl⟩
  | cons node nodes ih =>
      rw [run] at ran
      cases executed : execute I values node.instruction with
      | error e =>
          rw [executed] at ran
          cases ran
      | ok value =>
          rw [executed] at ran
          obtain ⟨longer, length⟩ := ih ran
          refine ⟨(List.prefix_append values [value]).trans longer, ?_⟩
          rw [length, List.length_append, List.length_singleton, List.length_cons]
          omega

def Runs (I : Interpretation ε α) (nodes : List Node) : Prop :=
  ∃ values, run I [] nodes = .ok values

/-- The value stands at `id` once all nodes have values; an error stops them. -/
def Gives (I : Interpretation ε α) (nodes : List Node) (id : Nat) : Except ε α → Prop
  | .ok value => ∃ values, run I [] nodes = .ok values ∧ values[id]? = some value
  | .error e => run I [] nodes = .error e

def GivesAll (I : Interpretation ε α) (nodes : List Node) (ids : List Nat) :
    Except ε (List α) → Prop
  | .ok operands => ∃ values, run I [] nodes = .ok values ∧
      gather I.dangling values ids = .ok operands
  | .error e => run I [] nodes = .error e

theorem run_of_longer {values : List α} (longer : nodes <+: more)
    (ran : run I [] more = .ok values) :
    ∃ first, run I [] nodes = .ok first ∧ first <+: values := by
  obtain ⟨added, rfl⟩ := longer
  rw [run_append] at ran
  cases first : run I [] nodes with
  | error e =>
      rw [first] at ran
      cases ran
  | ok before =>
      rw [first] at ran
      exact ⟨before, rfl, (run_grows ran).1⟩

theorem run_error_of_longer {e : ε} (longer : nodes <+: more)
    (stopped : run I [] nodes = .error e) : run I [] more = .error e := by
  obtain ⟨added, rfl⟩ := longer
  rw [run_append, stopped]
  rfl

theorem Runs.of_longer (longer : nodes <+: more) (runs : Runs I more) : Runs I nodes := by
  obtain ⟨values, ran⟩ := runs
  obtain ⟨first, before, _⟩ := run_of_longer longer ran
  exact ⟨first, before⟩

theorem getElem?_of_longer {first values : List α} {value : α} (longer : first <+: values)
    (found : first[id]? = some value) : values[id]? = some value := by
  obtain ⟨inside, rfl⟩ := List.getElem?_eq_some_iff.mp found
  exact List.prefix_iff_getElem?.mp longer id inside

/-- Nodes behind the others change no value. -/
theorem Gives.grow {result : Except ε α} (longer : nodes <+: more) (runs : Runs I more)
    (gives : Gives I nodes id result) : Gives I more id result := by
  obtain ⟨values, ran⟩ := runs
  cases result with
  | error e =>
      rw [run_error_of_longer longer gives] at ran
      cases ran
  | ok value =>
      obtain ⟨first, before, found⟩ := gives
      obtain ⟨first', before', kept⟩ := run_of_longer longer ran
      rw [before] at before'
      cases before'
      exact ⟨values, ran, getElem?_of_longer kept found⟩

theorem gives_added {values : List α} (instruction : Instruction)
    (ran : run I [] nodes = .ok values) :
    Gives I (nodes ++ [⟨nodes.length, instruction⟩]) nodes.length
      (execute I values instruction) := by
  have length := (run_grows ran).2
  rw [List.length_nil, Nat.zero_add] at length
  cases executed : execute I values instruction with
  | error e =>
      rw [Gives, run_append, ran]
      simp [Except.bind, run, executed, bind]
  | ok value =>
      refine ⟨values ++ [value], ?_, ?_⟩
      · rw [run_append, ran]
        simp [Except.bind, run, executed, bind]
      · rw [← length, List.getElem?_concat_length]

theorem evaluate_of_gives {result : Except ε α} (gives : Gives I nodes id result) :
    evaluate I ⟨nodes, id⟩ = result := by
  cases result with
  | error e =>
      rw [Gives] at gives
      simp [evaluate, gives, bind, Except.bind]
  | ok value =>
      obtain ⟨values, ran, found⟩ := gives
      simp [evaluate, ran, found, bind, Except.bind, pure, Except.pure]

end Graph

end Polish
