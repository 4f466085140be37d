import Mathlib.Logic.Relation
import Polish.Proofs.Expr.Sameness
import Polish.Proofs.Expr.Subtrees
import Polish.Proofs.Graph.Execution
import Polish.Proofs.Graph.Steps

/-!
Where the nodes of a graph come from. Every node is made for one expression, its origin, from the
nodes of the arguments; a shared node may be that of an equal expression. Nodes are added behind
the others while an expression is lowered, each for a subtree of it, and all of them are used on
the way to its node.
-/

set_option autoImplicit false

namespace Polish

open Relation

theorem Variable.eq_of_name {v w : Variable} (same : v.name = w.name) : v = w := by
  have found := ofName?_name v
  rw [same, ofName?_name] at found
  exact (Option.some.inj found).symm

/-- The first node computes its value from that of the second. -/
def Uses (nodes : List Node) (user used : Nat) : Prop :=
  ∃ node, nodes[user]? = some node ∧ used ∈ node.instruction.inputs

/-- The node of an origin is that of an expression: they are the same, or equal and shared. -/
def HasNode (sharing : Bool) (origins : List Expr) (e : Expr) (id : Nat) : Prop :=
  ∃ origin, origins[id]? = some origin ∧ (e = origin ∨ sharing = true ∧ e.same origin = true)

/-- The instruction of a node computes its origin, which has an earlier node for each argument. -/
def MadeFor (sharing : Bool) (origins : List Expr) (id : Nat) : Instruction → Expr → Prop
  | .constant value, .const original => value = .double original.toDouble
  | .argument name, .var v => name = some v.name
  | .kernel symbol inputs, .apply op args =>
      symbol = op.symbol ∧ Expr.hasKernel symbol = true ∧
        List.Forall₂ (fun arg input => input < id ∧ HasNode sharing origins arg input) args inputs
  | _, _ => False

section Growth

variable {sharing : Bool} {origins more : List Expr} {nodes others : List Node}

theorem Uses.mono (longer : nodes <+: others) {user used : Nat} (uses : Uses nodes user used) :
    Uses others user used := by
  obtain ⟨node, there, inside⟩ := uses
  exact ⟨node, Graph.getElem?_of_longer longer there, inside⟩

theorem Uses.path_mono (longer : nodes <+: others) {user used : Nat}
    (path : ReflTransGen (Uses nodes) user used) : ReflTransGen (Uses others) user used :=
  ReflTransGen.mono (fun _ _ => Uses.mono longer) _ _ path

theorem HasNode.mono (longer : origins <+: more) {e : Expr} {id : Nat}
    (has : HasNode sharing origins e id) : HasNode sharing more e id := by
  obtain ⟨origin, there, alike⟩ := has
  exact ⟨origin, Graph.getElem?_of_longer longer there, alike⟩

theorem HasNode.lt {e : Expr} {id : Nat} (has : HasNode sharing origins e id) :
    id < origins.length := by
  obtain ⟨origin, there, _⟩ := has
  exact (List.getElem?_eq_some_iff.mp there).1

theorem MadeFor.mono (longer : origins <+: more) {id : Nat} {instruction : Instruction}
    {origin : Expr} (made : MadeFor sharing origins id instruction origin) :
    MadeFor sharing more id instruction origin := by
  cases instruction <;> cases origin <;> try exact made
  obtain ⟨symbol, computed, inputs⟩ := made
  exact ⟨symbol, computed, inputs.imp fun arg input both => ⟨both.1, both.2.mono longer⟩⟩

theorem MadeFor.of_constant {id : Nat} {value : Scalar} {origin : Expr}
    (made : MadeFor sharing origins id (.constant value) origin) :
    ∃ original, origin = .const original ∧ value = .double original.toDouble := by
  cases origin with
  | const original => exact ⟨original, rfl, made⟩
  | _ => exact made.elim

theorem MadeFor.of_argument {id : Nat} {name : Option String} {origin : Expr}
    (made : MadeFor sharing origins id (.argument name) origin) :
    ∃ v, origin = .var v ∧ name = some v.name := by
  cases origin with
  | var v => exact ⟨v, rfl, made⟩
  | _ => exact made.elim

theorem MadeFor.of_kernel {id : Nat} {symbol : String} {inputs : List Nat} {origin : Expr}
    (made : MadeFor sharing origins id (.kernel symbol inputs) origin) :
    ∃ op args, origin = .apply op args ∧ symbol = op.symbol ∧ Expr.hasKernel symbol = true ∧
      List.Forall₂ (fun arg input => input < id ∧ HasNode sharing origins arg input) args
        inputs := by
  cases origin with
  | apply op args => exact ⟨op, args, rfl, made⟩
  | _ => exact made.elim

end Growth

namespace Builder

variable {sharing : Bool} {b b' : Builder} {origins origins' : List Expr}

/-- Each node has an origin, and the tables say which nodes there are. -/
structure Traced (sharing : Bool) (b : Builder) (origins : List Expr) : Prop where
  length : origins.length = b.nodes.length
  made : ∀ id node, b.nodes[id]? = some node → node.id = id ∧
    ∃ origin, origins[id]? = some origin ∧ MadeFor sharing origins id node.instruction origin
  arguments : ∀ v id, b.arguments.lookup v = some id ↔
    b.nodes[id]? = some ⟨id, .argument (some v.name)⟩
  known : ∀ entry ∈ b.known, origins[entry.2]? = some entry.1

theorem traced_empty : Traced sharing empty [] := by
  refine ⟨rfl, ?_, ?_, ?_⟩ <;> simp [empty]

theorem getElem?_add (b : Builder) (instruction : Instruction) (id : Nat) (node : Node) :
    (b.add instruction).2.nodes[id]? = some node ↔
      b.nodes[id]? = some node ∨ (id = b.nodes.length ∧ node = ⟨b.nodes.length, instruction⟩) := by
  have nodes : (b.add instruction).2.nodes = b.nodes ++ [⟨b.nodes.length, instruction⟩] := rfl
  rw [nodes]
  by_cases inside : id < b.nodes.length
  · have other : id ≠ b.nodes.length := by omega
    rw [List.getElem?_append_left inside]
    simp [other]
  · have none_ : b.nodes[id]? = none := List.getElem?_eq_none (by omega)
    by_cases last : id = b.nodes.length
    · rw [last, List.getElem?_concat_length, ← last, none_]
      simp [last, eq_comm]
    · have beyond : (b.nodes ++ [⟨b.nodes.length, instruction⟩])[id]? = none :=
        List.getElem?_eq_none (by rw [List.length_append, List.length_singleton]; omega)
      rw [beyond, none_]
      simp [last]

/-- A node is added for an origin. -/
theorem Traced.add (traced : Traced sharing b origins) {instruction : Instruction} {origin : Expr}
    (made : MadeFor sharing origins b.nodes.length instruction origin)
    {table : List (Variable × Nat)}
    (named : ∀ v id, table.lookup v = some id ↔
      (b.add instruction).2.nodes[id]? = some ⟨id, .argument (some v.name)⟩) :
    Traced sharing { (b.add instruction).2 with arguments := table } (origins ++ [origin]) := by
  have longer : origins <+: origins ++ [origin] := List.prefix_append _ _
  refine ⟨?_, ?_, named, ?_⟩
  · simp [Builder.add, traced.length]
  · intro id node there
    rcases (getElem?_add b instruction id node).mp there with old | ⟨rfl, rfl⟩
    · obtain ⟨number, origin', there', made'⟩ := traced.made id node old
      exact ⟨number, origin', Graph.getElem?_of_longer longer there', made'.mono longer⟩
    · refine ⟨rfl, origin, ?_, made.mono longer⟩
      rw [← traced.length, List.getElem?_concat_length]
  · intro entry member
    exact Graph.getElem?_of_longer longer (traced.known entry member)

/-- A node that is no argument leaves the table of arguments right. -/
theorem Traced.add_other (traced : Traced sharing b origins) {instruction : Instruction}
    {origin : Expr} (made : MadeFor sharing origins b.nodes.length instruction origin)
    (other : ∀ name, instruction ≠ .argument name) :
    Traced sharing (b.add instruction).2 (origins ++ [origin]) := by
  have named : ∀ v id, b.arguments.lookup v = some id ↔
      (b.add instruction).2.nodes[id]? = some ⟨id, .argument (some v.name)⟩ := by
    intro v id
    rw [getElem?_add, traced.arguments]
    constructor
    · exact Or.inl
    · rintro (old | ⟨_, same⟩)
      · exact old
      · cases same
        exact absurd rfl (other _)
  exact traced.add made named

theorem Traced.add_argument (traced : Traced sharing b origins) {v : Variable}
    (unnamed : b.arguments.lookup v = none) :
    Traced sharing
      { (b.add (.argument (some v.name))).2 with
        arguments := (v, b.nodes.length) :: b.arguments } (origins ++ [.var v]) := by
  have made : MadeFor sharing origins b.nodes.length (.argument (some v.name)) (.var v) := rfl
  refine traced.add made fun w id => ?_
  rw [getElem?_add, ← traced.arguments]
  by_cases same : w = v
  · subst same
    rw [List.lookup_cons_self, unnamed]
    simp [eq_comm]
  · have name : w.name ≠ v.name := fun equal => same (Variable.eq_of_name equal)
    have apart : (w == v) = false := by simpa using same
    rw [List.lookup_cons, apart]
    simp [name]

/-- Each origin has the node that is made for it. -/
theorem Traced.exists_node (traced : Traced sharing b origins) {id : Nat} {origin : Expr}
    (there : origins[id]? = some origin) :
    ∃ instruction, b.nodes[id]? = some ⟨id, instruction⟩ ∧
      MadeFor sharing origins id instruction origin := by
  have inside : id < b.nodes.length := by
    rw [← traced.length]
    exact (List.getElem?_eq_some_iff.mp there).1
  obtain ⟨node, found⟩ : ∃ node, b.nodes[id]? = some node := ⟨_, List.getElem?_eq_getElem inside⟩
  obtain ⟨rfl, origin', there', made⟩ := traced.made id node found
  rw [there] at there'
  cases there'
  exact ⟨node.instruction, found, made⟩

/-- The argument node of a variable is made for the variable. -/
theorem Traced.origin_of_argument (traced : Traced sharing b origins) {v : Variable} {id : Nat}
    (named : b.arguments.lookup v = some id) : origins[id]? = some (.var v) := by
  have there := (traced.arguments v id).mp named
  obtain ⟨_, origin, origin_, made⟩ := traced.made id _ there
  obtain ⟨w, rfl, same⟩ := made.of_argument
  rw [origin_, Variable.eq_of_name (Option.some.inj same)]

theorem Traced.remember (traced : Traced sharing b origins) {e : Expr} {id : Nat}
    (origin : origins[id]? = some e) : Traced sharing (b.remember e id) origins :=
  ⟨traced.length, traced.made, traced.arguments,
    List.forall_mem_cons.mpr ⟨origin, traced.known⟩⟩

/-- An expression that shares a node has the node of its equal. -/
theorem Traced.hasNode_of_seen (traced : Traced sharing b origins) {e : Expr} {id : Nat}
    (found : b.seen? sharing e = some id) : HasNode sharing origins e id := by
  obtain ⟨wanted, entry, member, same, rfl⟩ := exists_known_of_seen found
  exact ⟨entry.1, traced.known entry member, Or.inr ⟨wanted, same⟩⟩

/-- The nodes behind those of `b` are made for some of the expressions inside, and all of them are
used on the way to those with the given numbers. -/
structure Extends (sharing : Bool) (b : Builder) (origins inside : List Expr) (ids : List Nat)
    (b' : Builder) (origins' : List Expr) : Prop where
  traced : Traced sharing b' origins'
  longer : b.nodes <+: b'.nodes
  origins : ∃ more, origins' = origins ++ more ∧ ∀ origin ∈ more, origin ∈ inside
  used : ∀ i, b.nodes.length ≤ i → i < b'.nodes.length →
    ∃ id ∈ ids, ReflTransGen (Uses b'.nodes) id i

theorem Extends.prefix_origins {inside : List Expr} {ids : List Nat}
    (extends_ : Extends sharing b origins inside ids b' origins') : origins <+: origins' := by
  obtain ⟨more, split, _⟩ := extends_.origins
  rw [split]
  exact List.prefix_append _ _

theorem Traced.extends_self (traced : Traced sharing b origins) (inside : List Expr)
    (ids : List Nat) : Extends sharing b origins inside ids b origins := by
  refine ⟨traced, List.prefix_rfl, ⟨[], by simp, by simp⟩, ?_⟩
  intro i above below
  omega

/-- First some nodes are added, then others. -/
theorem Extends.trans {first second : List Expr} {id : Nat} {ids : List Nat} {b'' : Builder}
    {origins'' : List Expr} (here : Extends sharing b origins first [id] b' origins')
    (there : Extends sharing b' origins' second ids b'' origins'') :
    Extends sharing b origins (first ++ second) (id :: ids) b'' origins'' := by
  obtain ⟨more, split, inside⟩ := here.origins
  obtain ⟨more', split', inside'⟩ := there.origins
  refine ⟨there.traced, here.longer.trans there.longer, ⟨more ++ more', ?_, ?_⟩, ?_⟩
  · rw [split', split, List.append_assoc]
  · intro origin member
    rw [List.mem_append] at member ⊢
    exact member.imp (inside origin) (inside' origin)
  · intro i above below
    by_cases early : i < b'.nodes.length
    · obtain ⟨id', member, path⟩ := here.used i above early
      rw [List.mem_singleton.mp member] at path
      exact ⟨id, by simp, Uses.path_mono there.longer path⟩
    · obtain ⟨id', member, path⟩ := there.used i (by omega) below
      exact ⟨id', List.mem_cons_of_mem id member, path⟩

theorem Extends.remember {inside : List Expr} {ids : List Nat}
    (extends_ : Extends sharing b origins inside ids b' origins') {e : Expr} {id : Nat}
    (origin : origins'[id]? = some e) :
    Extends sharing b origins inside ids (b'.remember e id) origins' :=
  ⟨extends_.traced.remember origin, extends_.longer, extends_.origins, extends_.used⟩

/-- One node is added. -/
theorem Extends.of_add {instruction : Instruction} {origin : Expr} {table : List (Variable × Nat)}
    {inside : List Expr} (member : origin ∈ inside)
    (traced : Traced sharing { (b.add instruction).2 with arguments := table }
      (origins ++ [origin])) :
    Extends sharing b origins inside [b.nodes.length]
      { (b.add instruction).2 with arguments := table } (origins ++ [origin]) := by
  refine ⟨traced, List.prefix_append _ _, ⟨[origin], rfl, by simpa using member⟩, ?_⟩
  intro i above below
  have last : i = b.nodes.length := by
    simp only [Builder.add, List.length_append, List.length_singleton] at below
    omega
  exact ⟨b.nodes.length, by simp, by rw [last]⟩

/-- Behind the nodes of the arguments, that of the application is added, which uses them all. -/
theorem Extends.add_kernel {op : Operator} {args : List Expr} {inputs : List Nat}
    (computed : Expr.hasKernel op.symbol = true)
    (before : Extends sharing b origins (Expr.subtreesList args) inputs b' origins')
    (has : List.Forall₂ (HasNode sharing origins') args inputs) :
    Extends sharing b origins (Expr.subtrees (.apply op args)) [b'.nodes.length]
      (b'.add (.kernel op.symbol inputs)).2 (origins' ++ [.apply op args]) := by
  have earlier : List.Forall₂ (fun arg input => input < b'.nodes.length ∧
      HasNode sharing origins' arg input) args inputs := by
    refine has.imp fun arg input one => ⟨?_, one⟩
    rw [← before.traced.length]
    exact one.lt
  have made : MadeFor sharing origins' b'.nodes.length (.kernel op.symbol inputs)
      (.apply op args) := ⟨rfl, computed, earlier⟩
  have longer : b'.nodes <+: (b'.add (.kernel op.symbol inputs)).2.nodes := List.prefix_append _ _
  obtain ⟨more, split, inside⟩ := before.origins
  refine ⟨before.traced.add_other made nofun, before.longer.trans longer,
    ⟨more ++ [.apply op args], ?_, ?_⟩, ?_⟩
  · rw [split, List.append_assoc]
  · intro origin member
    rw [Expr.subtrees, List.mem_cons]
    rcases List.mem_append.mp member with below | own
    · exact Or.inr (inside origin below)
    · exact Or.inl (List.mem_singleton.mp own)
  · intro i above below
    refine ⟨b'.nodes.length, by simp, ?_⟩
    have new : (b'.add (.kernel op.symbol inputs)).2.nodes[b'.nodes.length]? =
        some ⟨b'.nodes.length, .kernel op.symbol inputs⟩ :=
      (getElem?_add _ _ _ _).mpr (Or.inr ⟨rfl, rfl⟩)
    by_cases early : i < b'.nodes.length
    · obtain ⟨id, member, path⟩ := before.used i above early
      exact .head ⟨_, new, member⟩ (Uses.path_mono longer path)
    · have last : i = b'.nodes.length := by
        simp only [Builder.add, List.length_append, List.length_singleton] at below
        omega
      rw [last]

end Builder

namespace Expr

open Polish.Builder

variable {sharing : Bool} {b b' : Builder} {origins : List Expr} {e : Expr} {args : List Expr}
  {id : Nat} {ids : List Nat}

/-- Wherever the expression is lowered, its nodes have origins inside it. -/
def Traces (sharing : Bool) (e : Expr) : Prop :=
  ∀ b origins id b', Traced sharing b origins → lowerInto sharing b e = .ok (id, b') →
    ∃ origins', Extends sharing b origins e.subtrees [id] b' origins' ∧
      HasNode sharing origins' e id

theorem extends_args (each : ∀ e ∈ args, e.Traces sharing) (traced : Traced sharing b origins)
    (lowered : lowerListInto sharing b args = .ok (ids, b')) :
    ∃ origins', Extends sharing b origins (subtreesList args) ids b' origins' ∧
      List.Forall₂ (HasNode sharing origins') args ids := by
  induction args generalizing b origins ids with
  | nil =>
      cases lowered
      exact ⟨origins, traced.extends_self _ _, .nil⟩
  | cons e es ih =>
      obtain ⟨id, b₁, others, first, rest, rfl⟩ := lowerListInto_cons lowered
      obtain ⟨origins₁, here, has⟩ := each e (by simp) b origins id b₁ traced first
      obtain ⟨origins₂, there, hasAll⟩ :=
        ih (fun e member => each e (List.mem_cons_of_mem _ member)) here.traced rest
      refine ⟨origins₂, here.trans there, .cons (has.mono there.prefix_origins) hasAll⟩

/-- An expression that is not shared gets a node that is made for itself. -/
theorem extends_of_makes (each : ∀ op args, e = .apply op args → ∀ a ∈ args, a.Traces sharing)
    (traced : Traced sharing b origins) (made : Makes sharing b e id b') :
    ∃ origins', Extends sharing b origins e.subtrees [id] b' origins' ∧
      origins'[id]? = some e := by
  have here := self_mem_subtrees e
  cases made with
  | constant value =>
      have computes : MadeFor sharing origins b.nodes.length
          (.constant (.double value.toDouble)) (.const value) := rfl
      refine ⟨origins ++ [.const value], .of_add here (traced.add_other computes nofun), ?_⟩
      rw [← traced.length, List.getElem?_concat_length]
  | argument v =>
      rcases argument_cases b v with ⟨id, there, same⟩ | ⟨unnamed, same⟩
      · rw [same]
        exact ⟨origins, traced.extends_self _ _, traced.origin_of_argument there⟩
      · rw [same]
        refine ⟨origins ++ [.var v], .of_add here (traced.add_argument unnamed), ?_⟩
        rw [← traced.length, List.getElem?_concat_length]
  | kernel op args inputs b₁ computed lowered =>
      obtain ⟨origins₁, before, has⟩ := extends_args (each op args rfl) traced lowered
      refine ⟨origins₁ ++ [.apply op args], before.add_kernel computed has, ?_⟩
      rw [← before.traced.length, List.getElem?_concat_length]

theorem traces_of_each (each : ∀ op args, e = .apply op args → ∀ a ∈ args, a.Traces sharing) :
    e.Traces sharing := by
  intro b origins id b' traced lowered
  rcases lowerInto_cases lowered with ⟨found, rfl⟩ | ⟨_, b₁, made, rfl⟩
  · exact ⟨origins, traced.extends_self _ _, traced.hasNode_of_seen found⟩
  · obtain ⟨origins₁, extends_, origin⟩ := extends_of_makes each traced made
    exact ⟨origins₁, extends_.remember origin, e, origin, Or.inl rfl⟩

theorem traces (sharing : Bool) (e : Expr) : e.Traces sharing := by
  induction e with
  | apply op args ih =>
      refine traces_of_each fun op' args' same => ?_
      cases same
      exact ih
  | _ => exact traces_of_each nofun

end Expr

end Polish
