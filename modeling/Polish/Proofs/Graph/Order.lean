import Polish.Proofs.Graph.Origins
import Polish.Tensor.Evaluation

set_option autoImplicit false

namespace Polish

open Relation

namespace Instruction

/-- The instruction fails for a reason of its own: no operand of it is missing. -/
def Fails {ε α : Type} (I : Interpretation ε α) (error : ε) : Instruction → Prop
  | .constant value => I.constant value = .error error
  | .argument name => I.argument name = .error error
  | .kernel symbol inputs => I.kernel symbol = .error error ∨
      ∃ apply operands, I.kernel symbol = .ok apply ∧ operands.length = inputs.length ∧
        apply operands = .error error

end Instruction

namespace Graph

/-- Each node has the number of its place, and uses earlier nodes only. -/
def IsOrdered (g : Graph) : Prop :=
  ∀ (id : Nat) (node : Node), g.nodes[id]? = some node →
    node.id = id ∧ ∀ input ∈ node.instruction.inputs, input < id

/-- The output is the last node, and every node is used on the way to it. -/
def IsAlive (g : Graph) : Prop :=
  g.output + 1 = g.nodes.length ∧
    ∀ node ∈ g.nodes, ReflTransGen (Uses g.nodes) g.output node.id

/-- Each node is made for its origin, which is one of the subtrees; the output is made for the
whole expression. -/
structure Represents (sharing : Bool) (g : Graph) (e : Expr) (origins : List Expr) : Prop where
  length : origins.length = g.nodes.length
  inside : ∀ origin ∈ origins, origin ∈ e.subtrees
  output : origins[g.output]? = some e
  made : ∀ (id : Nat) (node : Node), g.nodes[id]? = some node → ∃ origin, origins[id]? = some origin ∧
    MadeFor sharing origins id node.instruction origin

variable {ε α : Type} {I : Interpretation ε α} {error : ε} {nodes : List Node} {values : List α}

theorem exists_gather (dangling : ε) {inputs : List Nat}
    (inside : ∀ input ∈ inputs, input < values.length) :
    ∃ operands, gather dangling values inputs = .ok operands ∧
      operands.length = inputs.length := by
  induction inputs with
  | nil => exact ⟨[], rfl, rfl⟩
  | cons input inputs ih =>
      have here := inside input (by simp)
      obtain ⟨operands, gathered, length⟩ :=
        ih fun other member => inside other (List.mem_cons_of_mem input member)
      refine ⟨values[input] :: operands, ?_, congrArg (· + 1) length⟩
      rw [gather, List.getElem?_eq_getElem here]
      simp only [gathered, bind, Except.bind, pure, Except.pure]

theorem fails_of_execute {instruction : Instruction}
    (inside : ∀ input ∈ instruction.inputs, input < values.length)
    (failed : execute I values instruction = .error error) : instruction.Fails I error := by
  cases instruction with
  | constant value => exact failed
  | argument name => exact failed
  | kernel symbol inputs =>
      obtain ⟨operands, gathered, length⟩ :
          ∃ operands, gather I.dangling values inputs = .ok operands ∧
            operands.length = inputs.length := exists_gather I.dangling inside
      rw [execute, gathered] at failed
      cases applied : I.kernel symbol with
      | error reason =>
          rw [applied] at failed
          cases failed
          exact Or.inl applied
      | ok apply =>
          rw [applied] at failed
          exact Or.inr ⟨apply, operands, applied, length, failed⟩

/-- Behind some values, nodes that use earlier ones only fail for their own reasons. -/
theorem fails_of_run
    (ordered : ∀ i node, nodes[i]? = some node →
      ∀ input ∈ node.instruction.inputs, input < values.length + i)
    (failed : run I values nodes = .error error) :
    ∃ node ∈ nodes, node.instruction.Fails I error := by
  induction nodes generalizing values with
  | nil => cases failed
  | cons node nodes ih =>
      rw [run] at failed
      cases executed : execute I values node.instruction with
      | error reason =>
          rw [executed] at failed
          cases failed
          exact ⟨node, by simp, fails_of_execute (ordered 0 node rfl) executed⟩
      | ok value =>
          rw [executed] at failed
          have later : ∀ i other, nodes[i]? = some other →
              ∀ input ∈ other.instruction.inputs, input < (values ++ [value]).length + i := by
            intro i other there input member
            have below := ordered (i + 1) other there input member
            rw [List.length_append, List.length_singleton]
            omega
          obtain ⟨other, member, fails⟩ := ih later failed
          exact ⟨other, List.mem_cons_of_mem node member, fails⟩

/-- A graph in order has a value for its output unless a node fails. -/
theorem fails_of_evaluate {g : Graph} (ordered : g.IsOrdered) (inside : g.output < g.nodes.length)
    (failed : g.evaluate I = .error error) : ∃ node ∈ g.nodes, node.instruction.Fails I error := by
  rw [evaluate] at failed
  cases ran : run I [] g.nodes with
  | error reason =>
      rw [ran] at failed
      cases failed
      refine fails_of_run (fun i node there input member => ?_) ran
      have below := (ordered i node there).2 input member
      rw [List.length_nil]
      omega
  | ok values =>
      have length := (run_grows ran).2
      rw [List.length_nil, Nat.zero_add] at length
      have there : g.output < values.length := by omega
      rw [ran] at failed
      simp only [bind, Except.bind, List.getElem?_eq_getElem there] at failed
      cases failed

end Graph

namespace Builder

open Polish.Graph

variable {sharing : Bool} {b : Builder} {origins : List Expr}

theorem Traced.isOrdered (traced : Traced sharing b origins) (output : Nat) :
    (Graph.mk b.nodes output).IsOrdered := by
  intro id node there
  obtain ⟨number, origin, _, made⟩ := traced.made id node there
  refine ⟨number, fun input member => ?_⟩
  cases instruction : node.instruction with
  | kernel symbol inputs =>
      rw [instruction] at made member
      obtain ⟨op, args, _, _, _, each⟩ := made.of_kernel
      obtain ⟨arg, _, earlier, _⟩ := exists_of_mem_forall₂ each member
      exact earlier
  | _ =>
      rw [instruction] at member
      cases member

/-- A kernel has an input for each argument of its origin. -/
theorem Traced.origin_of_kernel (traced : Traced sharing b origins) {id : Nat} {symbol : String}
    {inputs : List Nat} (there : b.nodes[id]? = some ⟨id, .kernel symbol inputs⟩) :
    Expr.hasKernel symbol = true ∧ ∃ op args, origins[id]? = some (.apply op args) ∧
      op.symbol = symbol ∧ inputs.length = args.length := by
  obtain ⟨_, origin, found, made⟩ := traced.made id _ there
  obtain ⟨op, args, rfl, same, computed, each⟩ := made.of_kernel
  exact ⟨computed, op, args, found, same.symm, each.length_eq.symm⟩

theorem Traced.origin_of_named (traced : Traced sharing b origins) {id : Nat}
    {name : Option String} (there : b.nodes[id]? = some ⟨id, .argument name⟩) :
    ∃ v : Variable, name = some v.name ∧ origins[id]? = some (.var v) := by
  obtain ⟨_, origin, found, made⟩ := traced.made id _ there
  obtain ⟨v, rfl, same⟩ := made.of_argument
  exact ⟨v, same, found⟩

/-- A name has one node, that of the table. -/
theorem Traced.argument_unique (traced : Traced sharing b origins) {i j : Nat}
    {name : Option String} (first : b.nodes[i]? = some ⟨i, .argument name⟩)
    (second : b.nodes[j]? = some ⟨j, .argument name⟩) : i = j := by
  obtain ⟨v, rfl, _⟩ := traced.origin_of_named first
  have found := (traced.arguments v i).mpr first
  rw [(traced.arguments v j).mpr second] at found
  exact (Option.some.inj found).symm

/-- By induction on the number of the node: a variable inside an expression is inside an argument
of it, which has an earlier node, or it is the expression. -/
theorem Traced.exists_argument (traced : Traced sharing b origins) (v : Variable) (id : Nat) :
    ∀ origin, origins[id]? = some origin → .variable v ∈ origin.labels →
      ∃ place : Nat, b.nodes[place]? = some ⟨place, .argument (some v.name)⟩ := by
  induction id using Nat.strongRecOn with
  | ind id ih =>
      intro origin there member
      obtain ⟨instruction, node, made⟩ := traced.exists_node there
      cases instruction with
      | constant value =>
          obtain ⟨original, rfl, _⟩ := made.of_constant
          simp [Expr.labels] at member
      | argument name =>
          obtain ⟨w, rfl, rfl⟩ := made.of_argument
          have same : v = w := by simpa [Expr.labels] using member
          rw [← same] at node
          exact ⟨id, node⟩
      | kernel symbol inputs =>
          obtain ⟨op, args, rfl, _, _, each⟩ := made.of_kernel
          rcases (Expr.mem_labels_apply _ _ _).mp member with here | ⟨arg, argument, deeper⟩
          · cases here
          · obtain ⟨input, _, earlier, origin, there, alike⟩ :=
              exists_of_mem_forall₂ each.flip argument
            refine ih input earlier origin there ?_
            rcases alike with rfl | ⟨_, same⟩
            · exact deeper
            · exact (Expr.variable_mem_labels_of_same same).mp deeper

end Builder

namespace Expr

open Polish.Builder Polish.Graph

variable {sharing : Bool} {b : Builder} {origins : List Expr} {e : Expr} {id : Nat} {g : Graph}

/-- The first node that an expression makes is the last one there is. -/
theorem succ_eq_length_of_makes (made : Makes sharing .empty e id b) :
    id + 1 = b.nodes.length := by
  cases made with
  | constant value => rfl
  | argument v => rfl
  | kernel op args inputs b₁ computed lowered =>
      simp only [Builder.add, List.length_append, List.length_singleton]

/-- The nodes of an expression are those of a trace that ends in the expression. -/
theorem exists_traced_of_lower {nodes : List Node} {output : Nat}
    (lowered : e.lower sharing = .ok ⟨nodes, output⟩) :
    ∃ b origins, b.nodes = nodes ∧ Traced sharing b origins ∧
      (∀ origin ∈ origins, origin ∈ e.subtrees) ∧ origins[output]? = some e ∧
      output + 1 = nodes.length ∧ ∀ i, i < nodes.length → ReflTransGen (Uses nodes) output i := by
  obtain ⟨b, into, rfl⟩ := lowerInto_of_lower lowered
  rcases lowerInto_cases into with ⟨found, _⟩ | ⟨_, b₁, made, rfl⟩
  · rw [seen?_empty] at found
    cases found
  · have each : ∀ op args, e = .apply op args → ∀ a ∈ args, a.Traces sharing :=
      fun _ _ _ a _ => traces sharing a
    obtain ⟨origins, extends_, origin⟩ := extends_of_makes each traced_empty made
    obtain ⟨traced, _, ⟨more, split, inside⟩, used⟩ := extends_.remember origin
    have last := succ_eq_length_of_makes made
    rw [List.nil_append] at split
    subst split
    refine ⟨_, _, rfl, traced, inside, origin, last, ?_⟩
    intro i below
    obtain ⟨id, member, path⟩ := used i (Nat.zero_le i) below
    rw [List.mem_singleton.mp member] at path
    exact path

theorem exists_tensor_of_lift {β : Type} {result : Except TensorError β} {error : RunError}
    (failed : Tensor.lift result = .error error) : ∃ reason, error = .tensor reason := by
  cases result with
  | ok value => cases failed
  | error reason =>
      cases failed
      exact ⟨reason, rfl⟩

/-- With three arguments, a node that is made for an expression fails only in an array operation:
its argument is bound, and it has a kernel. -/
theorem exists_tensor_of_fails {arguments : List Argument} (three : arguments.length = 3)
    {instruction : Instruction} {origin : Expr} (made : MadeFor sharing origins id instruction origin)
    {error : RunError}
    (fails : instruction.Fails (Tensor.onArguments argumentNames arguments) error) :
    ∃ reason, error = .tensor reason := by
  cases instruction with
  | constant value => exact exists_tensor_of_lift fails
  | argument name =>
      obtain ⟨v, _, rfl⟩ := made.of_argument
      obtain ⟨x, y, z, rfl⟩ := List.length_eq_three.mp three
      obtain ⟨value, bound⟩ :
          ∃ value, Tensor.bound? argumentNames [x, y, z] (some v.name) = some value := by
        cases v <;> exact ⟨_, rfl⟩
      simp only [Instruction.Fails, Tensor.onArguments, Tensor.interpretation, bound,
        Option.map_some] at fails
      exact exists_tensor_of_lift fails
  | kernel symbol inputs =>
      obtain ⟨op, args, _, _, computed, _⟩ := made.of_kernel
      obtain ⟨op', known⟩ := Option.isSome_iff_exists.mp computed
      simp only [Instruction.Fails, Tensor.onArguments, Tensor.interpretation, known,
        reduceCtorEq, false_or, Except.ok.injEq] at fails
      obtain ⟨apply, operands, rfl, _, failed⟩ := fails
      exact exists_tensor_of_lift failed

/-- The nodes of the graph of an expression are in order, and all of them are used. Each is made
for a subtree, a kernel with an input for each argument; the arguments are the variables of the
expression, each once. A run of the graph fails in a node for a reason of its own only, and a call
with three arguments only where an array operation does. -/
theorem lowered_graph_in_order (lowered : e.lower sharing = .ok g) :
    g.IsOrdered ∧ g.IsAlive ∧
      (∃ origins, g.Represents sharing e origins ∧
        ∀ (id : Nat) symbol inputs, g.nodes[id]? = some ⟨id, .kernel symbol inputs⟩ →
          hasKernel symbol = true ∧ ∃ op args, origins[id]? = some (.apply op args) ∧
            op.symbol = symbol ∧ inputs.length = args.length) ∧
      (∀ (i j : Nat) name, g.nodes[i]? = some ⟨i, .argument name⟩ →
        g.nodes[j]? = some ⟨j, .argument name⟩ → i = j) ∧
      (∀ name, (∃ id : Nat, g.nodes[id]? = some ⟨id, .argument name⟩) ↔
        ∃ v : Variable, name = some v.name ∧ .variable v ∈ e.labels) ∧
      (∀ (ε α : Type) (I : Interpretation ε α) (error : ε), g.evaluate I = .error error →
        ∃ node ∈ g.nodes, node.instruction.Fails I error) ∧
      ∀ arguments error, arguments.length = 3 → g.call arguments = .error error →
        ∃ reason, error = .tensor reason := by
  obtain ⟨nodes, output⟩ := g
  obtain ⟨b, origins, rfl, traced, inside, origin, last, used⟩ := exists_traced_of_lower lowered
  have ordered := traced.isOrdered output
  have fails : ∀ (ε α : Type) (I : Interpretation ε α) (error : ε),
      (Graph.mk b.nodes output).evaluate I = .error error →
        ∃ node ∈ b.nodes, node.instruction.Fails I error :=
    fun ε α I error => fails_of_evaluate ordered (Nat.lt_of_succ_le (Nat.le_of_eq last))
  refine ⟨ordered, ⟨last, ?_⟩, ⟨origins, ⟨traced.length, inside, origin, ?_⟩, ?_⟩, ?_, ?_, fails, ?_⟩
  · intro node member
    obtain ⟨i, below, rfl⟩ := List.mem_iff_getElem.mp member
    rw [(ordered i _ (List.getElem?_eq_getElem below)).1]
    exact used i below
  · exact fun id node there => (traced.made id node there).2
  · exact fun id symbol inputs => traced.origin_of_kernel
  · exact fun i j name => traced.argument_unique
  · intro name
    constructor
    · rintro ⟨id, there⟩
      obtain ⟨v, rfl, found⟩ := traced.origin_of_named there
      have subtree := inside _ (List.mem_of_getElem? found)
      exact ⟨v, rfl, labels_of_mem_subtrees subtree (by simp [labels])⟩
    · rintro ⟨v, rfl, member⟩
      exact traced.exists_argument v output e origin member
  · intro arguments error three failed
    have counted : arguments.length = argumentNames.length := three
    rw [Graph.call, Graph.evaluateOn, if_pos counted] at failed
    obtain ⟨node, member, fails⟩ := fails _ _ _ error failed
    obtain ⟨i, there⟩ := List.mem_iff_getElem?.mp member
    obtain ⟨_, origin, _, made⟩ := traced.made i node there
    exact exists_tensor_of_fails three made fails

/-- Two equal sums share their node, and the constants 2 and 2.0 share theirs. -/
theorem lowered_graph_in_order_shared :
    ∃ g, (Expr.apply ⟨"*", .exactly 2, .multiply⟩
        [.apply ⟨"+", .exactly 2, .add⟩ [.var .x, .const (.integer 2)],
          .apply ⟨"+", .exactly 2, .add⟩ [.var .x, .const (.double (.ofInt .double 2))]]).lower true =
        .ok g ∧ g.nodes.length = 4 ∧ g.output = 3 ∧ g.IsOrdered ∧ g.IsAlive := by
  refine ⟨⟨[⟨0, .argument (some "x")⟩, ⟨1, .constant (.double (.ofInt .double 2))⟩,
    ⟨2, .kernel "+" [0, 1]⟩, ⟨3, .kernel "*" [2, 2]⟩], 3⟩, ?_⟩
  have lowered : (Expr.apply ⟨"*", .exactly 2, .multiply⟩
      [.apply ⟨"+", .exactly 2, .add⟩ [.var .x, .const (.integer 2)],
        .apply ⟨"+", .exactly 2, .add⟩ [.var .x, .const (.double (.ofInt .double 2))]]).lower true =
      .ok ⟨[⟨0, .argument (some "x")⟩, ⟨1, .constant (.double (.ofInt .double 2))⟩,
        ⟨2, .kernel "+" [0, 1]⟩, ⟨3, .kernel "*" [2, 2]⟩], 3⟩ := by decide +kernel
  obtain ⟨ordered, alive, _⟩ := lowered_graph_in_order lowered
  exact ⟨lowered, rfl, rfl, ordered, alive⟩

end Expr

end Polish
