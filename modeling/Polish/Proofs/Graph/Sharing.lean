import Polish.Proofs.Graph.Quotient

set_option autoImplicit false

namespace Polish

def Instruction.rename (number : Nat → Nat) : Instruction → Instruction
  | .kernel symbol inputs => .kernel symbol (inputs.map number)
  | instruction => instruction

def Instruction.Agrees : Instruction → Instruction → Prop
  | .constant a, .constant b => a.number.same b.number = true
  | first, second => first = second

/-- The second graph is the first one renumbered, with nodes that get one number merged. -/
structure Graph.MapsOnto (rename : Nat → Nat) (g h : Graph) : Prop where
  output : rename g.output = h.output
  onto : ∀ id < h.nodes.length, ∃ i < g.nodes.length, rename i = id
  node : ∀ (i : Nat) (instruction : Instruction), g.nodes[i]? = some ⟨i, instruction⟩ →
    ∃ image, h.nodes[rename i]? = some ⟨rename i, image⟩ ∧
      (instruction.rename rename).Agrees image

namespace Number

theorem toDouble_ne_nan {a : Number} (apart : a ≠ .double .nan) : a.toDouble ≠ .nan := by
  cases a with
  | double d => exact fun undefined => apart (congrArg double undefined)
  | integer n => exact Binary.ofInt_ne_nan n
  | truth t => exact Binary.ofInt_ne_nan _

theorem toDouble_of_positiveZeros {a : Number} (zero : a ∈ positiveZeros) :
    a.toDouble = .zero false := by
  simp only [positiveZeros, List.mem_cons, List.not_mem_nil, or_false] at zero
  rcases zero with rfl | rfl | rfl
  · rw [toDouble_of_integer? (n := 0) rfl, Binary.ofInt_zero]
  · rw [toDouble_of_integer? (n := 0) rfl, Binary.ofInt_zero]
  · rfl

/-- Equal numbers are equal as doubles. -/
theorem same_toDouble {a b : Number} (apart : a ≠ .double .nan) (same : a.same b = true) :
    (double a.toDouble).same (.double b.toDouble) = true := by
  have zeros : (Binary.zero true : Double).same (.zero false) = true :=
    (same_positiveZeros (a := .double (.zero false)) (by simp [positiveZeros])).1
  rcases toDouble_of_same same with exact_ | ⟨rfl, zero⟩ | ⟨rfl, zero⟩
  · rw [← exact_]
    exact Binary.same_self (toDouble_ne_nan apart)
  · rw [toDouble_of_positiveZeros zero]
    exact zeros
  · rw [toDouble_of_positiveZeros zero]
    rw [Binary.same_comm] at zeros
    exact zeros

end Number

open Occurrence

namespace Expr

variable {sharing : Bool} {e root : Expr} {o a b : Occurrence} {path path' : List Nat}
  {index index' : Nat}

theorem Registered.of_mem_subtrees {inner : Expr} (registered : e.Registered)
    (inside : inner ∈ e.subtrees) : inner.Registered := by
  refine subtree_induction (motive := fun e => e.Registered → inner.Registered) id ?_ inside
    registered
  intro op args a there deeper whole
  cases whole with
  | apply _ _ known children => exact deeper (children a there)

/-- A registered operator is known by its symbol. -/
theorem Registered.same_operator {op op' : Operator} {args args' : List Expr}
    (first : (Expr.apply op args).Registered) (second : (Expr.apply op' args').Registered)
    (symbol : op.symbol = op'.symbol) : op = op' := by
  cases first with
  | apply _ _ known _ =>
      cases second with
      | apply _ _ known' _ =>
          rw [symbol, known'] at known
          exact (Option.some.inj known).symm

theorem Registered.naNFree (registered : e.Registered) (apart : e.HasNoNaN) : e.NaNFree := by
  intro label member
  have covered := registered.supported.covered label member
  cases label with
  | constant value => exact apart value member
  | _ => exact covered

theorem eq_var_of_same {v : Variable} (same : (var v).same e = true) : e = .var v := by
  cases e with
  | var w =>
      rw [Expr.same, beq_iff_eq] at same
      rw [same]
  | _ => cases same

theorem argument_mem {op : Operator} {args : List Expr} (member : o ∈ e.occurrences path)
    (application : o.expr = .apply op args) :
    ∀ a ∈ Occurrence.arguments o.path 0 args, a ∈ e.occurrences path := by
  intro a argument
  refine mem_occurrences_trans member ?_
  rw [application, occurrences, List.mem_append]
  exact Or.inl (argument_mem_occurrencesList argument)

theorem exists_of_node {i : Nat} {instruction : Instruction}
    (there : ⟨i, instruction⟩ ∈ (root.quotient sharing).nodes) :
    ∃ first ∈ root.occurrences [], root.classOf sharing first = i ∧
      instruction = first.instruction (root.classOf sharing) := by
  rw [quotient, List.mem_map] at there
  obtain ⟨first, kept, node⟩ := there
  cases node
  exact ⟨first, mem_of_mem_eraseDupsBy kept, rfl, rfl⟩

section Classes

variable (free : root.NaNFree)

include free

theorem classOf_eq_iff (memberA : a ∈ root.occurrences []) (memberB : b ∈ root.occurrences []) :
    root.classOf sharing a = root.classOf sharing b ↔ a.merges sharing b = true :=
  (groups_merges sharing).classNumber_eq_iff (fun _ => naNFree_of_mem free) memberA memberB

/-- The node of a class is that of its first member. -/
theorem exists_first_node (sharing : Bool) (member : o ∈ root.occurrences []) :
    ∃ first ∈ root.occurrences [], o.merges sharing first = true ∧
      root.classOf sharing first = root.classOf sharing o ∧
      (root.quotient sharing).nodes[root.classOf sharing o]? =
        some ⟨root.classOf sharing o, first.instruction (root.classOf sharing)⟩ := by
  obtain ⟨first, there, together⟩ := (groups_merges sharing).exists_getElem_classNumber
    (fun _ => naNFree_of_mem free) member
  have inside := mem_of_mem_eraseDupsBy (List.mem_of_getElem? there)
  have number := ((classOf_eq_iff free member inside).mpr together).symm
  refine ⟨first, inside, together, number, ?_⟩
  rw [quotient, List.getElem?_map, classOf, there, Option.map_some, classNode, number]
  rfl

theorem classOf_lt (member : o ∈ root.occurrences []) :
    root.classOf sharing o < (root.quotient sharing).nodes.length := by
  rw [quotient, List.length_map]
  exact (groups_merges sharing).classNumber_lt (fun _ => naNFree_of_mem free) List.prefix_rfl member

/-- Arguments that are equal one by one have the same nodes, and the other way round. -/
theorem classes_eq_iff_sameList {as bs : List Expr}
    (memberA : ∀ a ∈ Occurrence.arguments path index as, a ∈ root.occurrences [])
    (memberB : ∀ b ∈ Occurrence.arguments path' index' bs, b ∈ root.occurrences []) :
    (Occurrence.arguments path index as).map (root.classOf true) =
      (Occurrence.arguments path' index' bs).map (root.classOf true) ↔ sameList as bs = true := by
  induction as generalizing bs index index' with
  | nil => cases bs <;> simp [Occurrence.arguments, sameList]
  | cons e es ih =>
      cases bs with
      | nil => simp [Occurrence.arguments, sameList]
      | cons f fs =>
          rw [Occurrence.arguments, List.forall_mem_cons] at memberA memberB
          rw [Occurrence.arguments, Occurrence.arguments, List.map_cons, List.map_cons,
            List.cons.injEq, classOf_eq_iff free memberA.1 memberB.1, merges_true,
            ih memberA.2 memberB.2, sameList, Bool.and_eq_true]

/-- Equal occurrences have the same instruction, up to equality of constants. -/
theorem agrees_of_same (memberA : a ∈ root.occurrences []) (memberB : b ∈ root.occurrences [])
    (same : a.expr.same b.expr = true) :
    (a.instruction (root.classOf true)).Agrees (b.instruction (root.classOf true)) := by
  have freeA := naNFree_of_mem free memberA
  rw [Occurrence.instruction, Occurrence.instruction]
  cases left : a.expr with
  | const value =>
      cases right : b.expr with
      | const other =>
          rw [left, right, Expr.same] at same
          rw [left] at freeA
          exact Number.same_toDouble (over_const (C := (· ≠ .double .nan)) freeA) same
      | _ =>
          rw [left, right] at same
          cases same
  | var v =>
      rw [left] at same
      rw [eq_var_of_same same]
      rfl
  | apply op args =>
      cases right : b.expr with
      | apply other others =>
          rw [left, right, Expr.same, Bool.and_eq_true, Operator.same, Bool.and_eq_true,
            beq_iff_eq] at same
          have inputs := (classes_eq_iff_sameList free (argument_mem memberA left)
            (argument_mem memberB right)).mpr same.2
          simp only [same.1.1, inputs]
          rfl
      | _ =>
          rw [left, right] at same
          cases same
  | foreign value =>
      rw [left] at freeA
      exact absurd freeA not_over_foreign

/-- Renumbers the nodes of the classes without sharing as those of the classes with it. -/
def merged (root : Expr) (i : Nat) : Nat :=
  match ((root.occurrences []).eraseDupsBy (Occurrence.merges false))[i]? with
  | some first => root.classOf true first
  | none => 0

theorem merged_classOf (member : o ∈ root.occurrences []) :
    root.merged (root.classOf false o) = root.classOf true o := by
  obtain ⟨first, there, together⟩ := (groups_merges false).exists_getElem_classNumber
    (fun _ => naNFree_of_mem free) member
  have inside := mem_of_mem_eraseDupsBy (List.mem_of_getElem? there)
  have same : o.merges true first = true := same_of_merges free member inside together
  rw [merged, classOf, there]
  exact ((classOf_eq_iff free member inside).mpr same).symm

theorem rename_instruction (member : o ∈ root.occurrences []) :
    (o.instruction (root.classOf false)).rename root.merged =
      o.instruction (root.classOf true) := by
  rw [Occurrence.instruction, Occurrence.instruction]
  cases shape : o.expr with
  | apply op args =>
      have each : ∀ a ∈ Occurrence.arguments o.path 0 args,
          (root.merged ∘ root.classOf false) a = root.classOf true a := fun a argument =>
        merged_classOf free (argument_mem member shape a argument)
      simp only [Instruction.rename, List.map_map, List.map_congr_left each]
  | _ => rfl

/-- The graph with sharing is the other one with equal nodes merged. -/
theorem mapsOnto_merged :
    Graph.MapsOnto root.merged (root.quotient false) (root.quotient true) := by
  refine ⟨merged_classOf free (self_mem_occurrences [] root), ?_, ?_⟩
  · intro id below
    obtain ⟨first, kept⟩ : ∃ first,
        ((root.occurrences []).eraseDupsBy (Occurrence.merges true))[id]? = some first := by
      rw [quotient, List.length_map] at below
      exact ⟨_, List.getElem?_eq_getElem below⟩
    have member := mem_of_mem_eraseDupsBy (List.mem_of_getElem? kept)
    have number : root.classOf true first = id :=
      (groups_merges true).classNumber_getElem (fun _ => naNFree_of_mem free) kept
    exact ⟨root.classOf false first, classOf_lt free member,
      (merged_classOf free member).trans number⟩
  · intro i instruction there
    obtain ⟨o, member, rfl, rfl⟩ := exists_of_node (List.mem_of_getElem? there)
    obtain ⟨first, inside, together, _, node⟩ := exists_first_node free true member
    rw [merged_classOf free member, rename_instruction free member]
    have same : o.expr.same first.expr = true := together
    exact ⟨_, node, agrees_of_same free member inside same⟩

/-- Applications of one symbol to the same nodes are equal. -/
theorem same_of_inputs (registered : root.Registered) {op op' : Operator} {args args' : List Expr}
    (memberA : a ∈ root.occurrences []) (memberB : b ∈ root.occurrences [])
    (left : a.expr = .apply op args) (right : b.expr = .apply op' args')
    (symbol : op.symbol = op'.symbol)
    (inputs : (Occurrence.arguments a.path 0 args).map (root.classOf true) =
      (Occurrence.arguments b.path 0 args').map (root.classOf true)) :
    (apply op args).same (.apply op' args') = true := by
  have registeredA := registered.of_mem_subtrees (expr_mem_subtrees memberA)
  have registeredB := registered.of_mem_subtrees (expr_mem_subtrees memberB)
  rw [left] at registeredA
  rw [right] at registeredB
  have equal := registeredA.same_operator registeredB symbol
  have arguments := (classes_eq_iff_sameList free (argument_mem memberA left)
    (argument_mem memberB right)).mp inputs
  rw [Expr.same, equal, Operator.same_refl, arguments]
  rfl

/-- Occurrences with the same instruction are equal, or constants that round to the same double. -/
theorem same_or_constants (registered : root.Registered) (memberA : a ∈ root.occurrences [])
    (memberB : b ∈ root.occurrences [])
    (alike : a.instruction (root.classOf true) = b.instruction (root.classOf true)) :
    a.expr.same b.expr = true ∨ ∃ x y, a.expr = .const x ∧ b.expr = .const y ∧
      x.same y = false ∧ x.toDouble = y.toDouble := by
  rw [Occurrence.instruction, Occurrence.instruction] at alike
  cases left : a.expr with
  | foreign value => exact absurd (left ▸ naNFree_of_mem free memberA) not_over_foreign
  | const x =>
      cases right : b.expr with
      | const y =>
          rw [left, right] at alike
          simp only [Instruction.constant.injEq, Scalar.double.injEq] at alike
          rw [Expr.same]
          cases equal : x.same y with
          | true => exact Or.inl rfl
          | false => exact Or.inr ⟨x, y, rfl, rfl, equal, alike⟩
      | _ =>
          rw [left, right] at alike
          cases alike
  | var v =>
      cases right : b.expr with
      | var w =>
          rw [left, right] at alike
          simp only [Instruction.argument.injEq, Option.some.injEq] at alike
          rw [Variable.eq_of_name alike, Expr.same, beq_self_eq_true]
          exact Or.inl rfl
      | _ =>
          rw [left, right] at alike
          cases alike
  | apply op args =>
      cases right : b.expr with
      | apply other others =>
          rw [left, right] at alike
          simp only [Instruction.kernel.injEq] at alike
          exact Or.inl (same_of_inputs free registered memberA memberB left right alike.1 alike.2)
      | _ =>
          rw [left, right] at alike
          cases alike

/-- Each node has its place as its number, and the numbers are those of the classes as they turn
up. -/
theorem ids_quotient :
    (root.quotient sharing).nodes.map (·.id) = List.range (root.quotient sharing).nodes.length ∧
      ((root.occurrences []).map (root.classOf sharing)).eraseDups =
        (root.quotient sharing).nodes.map (·.id) := by
  have fine : ∀ o ∈ root.occurrences [], o.expr.NaNFree := fun _ => naNFree_of_mem free
  have order := (groups_merges sharing).eraseDups_map_classNumber fine List.prefix_rfl
  have ids : (root.quotient sharing).nodes.map (·.id) =
      List.range (root.quotient sharing).nodes.length := by
    refine List.ext_getElem? fun i => ?_
    rw [quotient, List.map_map, List.length_map, List.getElem?_map]
    cases there : ((root.occurrences []).eraseDupsBy (Occurrence.merges sharing))[i]? with
    | none =>
        rw [List.getElem?_eq_none_iff] at there
        rw [List.getElem?_eq_none (by simpa using there)]
        rfl
    | some first =>
        obtain ⟨below, _⟩ := List.getElem?_eq_some_iff.mp there
        rw [List.getElem?_range below]
        exact congrArg some ((groups_merges sharing).classNumber_getElem fine there)
  refine ⟨ids, ?_⟩
  rw [ids, quotient, List.length_map]
  exact order

end Classes

/-- An expression of registered operators without a NaN has the graph of its classes of
occurrences. With sharing a class holds what is equal, without it one occurrence or all those of
one variable; the nodes are in the order in which a walk from the left completes the first members.
With sharing no two nodes have the same instruction, except those of constants that are not equal
and are the same double. That graph is the other one renumbered, up to equality of constants. -/
theorem sharing_is_exact {e : Expr} (registered : e.Registered) (apart : e.HasNoNaN) :
    (∀ sharing, e.lower sharing = .ok (e.quotient sharing)) ∧
    (∀ a ∈ e.occurrences [], ∀ b ∈ e.occurrences [],
      (e.classOf true a = e.classOf true b ↔ a.expr.same b.expr = true) ∧
      (e.classOf false a = e.classOf false b ↔
        a = b ∨ ∃ v, a.expr = .var v ∧ b.expr = .var v)) ∧
    (∀ sharing,
      (e.quotient sharing).nodes.map (·.id) = List.range (e.quotient sharing).nodes.length ∧
      ((e.occurrences []).map (e.classOf sharing)).eraseDups =
        (e.quotient sharing).nodes.map (·.id)) ∧
    (∀ (i j : Nat) (instruction : Instruction),
      ⟨i, instruction⟩ ∈ (e.quotient true).nodes → ⟨j, instruction⟩ ∈ (e.quotient true).nodes →
      i = j ∨ ∃ x y, (∃ a ∈ e.occurrences [], a.expr = .const x ∧ e.classOf true a = i) ∧
        (∃ b ∈ e.occurrences [], b.expr = .const y ∧ e.classOf true b = j) ∧
        x.same y = false ∧ x.toDouble = y.toDouble ∧
        instruction = .constant (.double x.toDouble)) ∧
    ∃ rename, Graph.MapsOnto rename (e.quotient false) (e.quotient true) := by
  have free := registered.naNFree apart
  refine ⟨fun sharing => lower_eq_quotient sharing free, ?_, fun _ => ids_quotient free, ?_,
    e.merged, mapsOnto_merged free⟩
  · intro a memberA b memberB
    exact ⟨classOf_eq_iff free memberA memberB,
      (classOf_eq_iff free memberA memberB).trans (merges_false_iff memberA memberB)⟩
  · intro i j instruction first second
    obtain ⟨a, memberA, rfl, rfl⟩ := exists_of_node first
    obtain ⟨b, memberB, rfl, alike⟩ := exists_of_node second
    rcases same_or_constants free registered memberA memberB alike with same | ⟨x, y, left, right,
      differ, double⟩
    · exact Or.inl ((classOf_eq_iff free memberA memberB).mpr same)
    · refine Or.inr ⟨x, y, ⟨a, memberA, left, rfl⟩, ⟨b, memberB, right, rfl⟩, differ, double, ?_⟩
      rw [Occurrence.instruction, left]

/-- A sum with an integer and one with the double that equals it share their node. -/
theorem sharing_is_exact_sums :
    ∃ g h, (apply ⟨"*", .exactly 2, .multiply⟩
        [.apply ⟨"+", .exactly 2, .add⟩ [.var .x, .const (.integer 2)],
          .apply ⟨"+", .exactly 2, .add⟩ [.var .x, .const (.double (.ofInt .double 2))]]).lower
            true = .ok g ∧
      (apply ⟨"*", .exactly 2, .multiply⟩
        [.apply ⟨"+", .exactly 2, .add⟩ [.var .x, .const (.integer 2)],
          .apply ⟨"+", .exactly 2, .add⟩ [.var .x, .const (.double (.ofInt .double 2))]]).lower
            false = .ok h ∧
      g.nodes.length = 4 ∧ h.nodes.length = 6 ∧ ∃ rename, Graph.MapsOnto rename h g := by
  have sum : ∀ value,
      (apply ⟨"+", .exactly 2, .add⟩ [.var .x, .const value]).Registered := fun value =>
    .apply _ _ rfl (by simp [Registered.var, Registered.const])
  have product : (apply ⟨"*", .exactly 2, .multiply⟩
      [.apply ⟨"+", .exactly 2, .add⟩ [.var .x, .const (.integer 2)],
        .apply ⟨"+", .exactly 2, .add⟩
          [.var .x, .const (.double (.ofInt .double 2))]]).Registered :=
    .apply _ _ rfl (by simp [sum])
  have two : Binary.ofInt .double 2 ≠ .nan := Binary.ofInt_ne_nan 2
  obtain ⟨lowered, _, _, _, image⟩ := sharing_is_exact product
    (by simp [HasNoNaN, labels, labelsList, two])
  exact ⟨_, _, lowered true, lowered false, by decide +kernel, by decide +kernel, image⟩

end Expr

end Polish
