import Polish.Proofs.Graph.Order
import Polish.Proofs.Graph.Refusal
import Polish.Proofs.Graph.Typing

set_option autoImplicit false

namespace Polish

namespace Point

variable {α : Type} {p q : Point α} {v w : Variable}

/-- The values are the same but for the slot of one variable. -/
def AgreeBut (v : Variable) (p q : Point α) : Prop :=
  ∀ slot, slot ≠ v.slot → p.toList[slot]? = q.toList[slot]?

theorem getElem?_slot (p : Point α) (v : Variable) : p.toList[v.slot]? = some (p.get v) := by
  cases v <;> rfl

theorem agreeBut_iff : AgreeBut v p q ↔ ∀ w, w ≠ v → p.get w = q.get w := by
  constructor
  · intro agree w other
    have slots : w.slot ≠ v.slot := by
      cases v <;> cases w <;> first | exact absurd rfl other | decide
    have same := agree w.slot slots
    rw [getElem?_slot, getElem?_slot] at same
    exact Option.some.inj same
  · intro alike slot other
    rcases slot with _ | _ | _ | beyond
    · exact congrArg some (alike .x fun same => other (congrArg Variable.slot same))
    · exact congrArg some (alike .y fun same => other (congrArg Variable.slot same))
    · exact congrArg some (alike .z fun same => other (congrArg Variable.slot same))
    · rfl

end Point

/-- The arguments are the values of a point, converted where a node asks for them. -/
def Interpretation.at {ε α β : Type} (I : Interpretation ε β) (convert : α → Except ε β)
    (p : Point α) : Interpretation ε β :=
  { I with
    argument := fun name =>
      match name.bind Variable.ofName? with
      | some v => convert (p.get v)
      | none => I.argument name }

theorem Tensor.interpretation_eq_at {α : Type} (convert : α → Except TensorError Tensor)
    (p : Point α) :
    (interpretation fun name => (bound? Graph.argumentNames p.toList name).map convert) =
      (interpretation fun _ => none).at (fun a => lift (convert a)) p := by
  simp only [interpretation, Interpretation.at, Point.bound?_toList, Interpretation.mk.injEq,
    true_and, and_true]
  funext name
  cases name.bind Variable.ofName? <;> rfl

namespace Graph

variable {ε α : Type} {I : Interpretation ε α} {argument : Option String → Except ε α}

/-- An instruction takes no notice of what other names mean than the one that it asks for. -/
theorem execute_congr {instruction : Instruction}
    (alike : ∀ name, instruction = .argument name → argument name = I.argument name)
    (values : List α) :
    execute { I with argument := argument } values instruction = execute I values instruction := by
  cases instruction with
  | constant value => rfl
  | argument name => exact alike name rfl
  | kernel symbol inputs => rfl

theorem run_congr {nodes : List Node} (values : List α)
    (alike : ∀ node ∈ nodes, ∀ name, node.instruction = .argument name →
      argument name = I.argument name) :
    run { I with argument := argument } values nodes = run I values nodes := by
  induction nodes generalizing values with
  | nil => rfl
  | cons node nodes ih =>
      rw [run, run, execute_congr (alike node (by simp)) values]
      cases execute I values node.instruction with
      | error error => rfl
      | ok value =>
          exact ih (values ++ [value]) fun other member =>
            alike other (List.mem_cons_of_mem node member)

theorem evaluate_congr {g : Graph}
    (alike : ∀ node ∈ g.nodes, ∀ name, node.instruction = .argument name →
      argument name = I.argument name) :
    g.evaluate { I with argument := argument } = g.evaluate I := by
  rw [evaluate, evaluate, run_congr [] alike]

end Graph

namespace Expr

variable {e : Expr} {g : Graph} {sharing : Bool} {v : Variable}

/-- The argument nodes of a lowered graph are those of variables that occur. -/
theorem exists_variable_of_argument (lowered : e.lower sharing = .ok g) {node : Node}
    (member : node ∈ g.nodes) {name : Option String} (named : node.instruction = .argument name) :
    ∃ v : Variable, name = some v.name ∧ .variable v ∈ e.labels := by
  obtain ⟨nodes, output⟩ := g
  obtain ⟨b, origins, rfl, traced, inside, _⟩ := exists_traced_of_lower lowered
  obtain ⟨id, there⟩ := List.mem_iff_getElem?.mp member
  obtain ⟨_, origin, found, made⟩ := traced.made id node there
  rw [named] at made
  obtain ⟨v, rfl, same⟩ := made.of_argument
  have subtree := inside _ (List.mem_of_getElem? found)
  exact ⟨v, same, labels_of_mem_subtrees subtree (by simp [labels])⟩

/-- Whatever values there are, the graph depends on those of variables that occur alone. -/
theorem evaluate_eq_of_agreeBut (lowered : e.lower sharing = .ok g)
    (absent : .variable v ∉ e.labels) {ε α β : Type} (I : Interpretation ε β)
    (convert : α → Except ε β) {p q : Point α} (agree : p.AgreeBut v q) :
    g.evaluate (I.at convert p) = g.evaluate (I.at convert q) := by
  refine Graph.evaluate_congr (I := I.at convert q) ?_
  intro node member name named
  obtain ⟨w, rfl, occurs⟩ := exists_variable_of_argument lowered member named
  have other : w ≠ v := by
    rintro rfl
    exact absent occurs
  simp only [Interpretation.at, Option.bind_some, Variable.ofName?_name,
    Point.agreeBut_iff.mp agree w other]

theorem evaluateWith_eq_of_agreeBut (absent : .variable v ∉ e.labels) {ε α β : Type}
    (M : Meaning ε β) (convert : α → Except ε β) {p q : Point α} (agree : p.AgreeBut v q) :
    e.evaluateWith (M.at convert p) = e.evaluateWith (M.at convert q) := by
  refine evaluateWith_congr rfl rfl rfl fun w occurs => ?_
  refine congrArg convert (Point.agreeBut_iff.mp agree w ?_)
  rintro rfl
  exact absent occurs

theorem Supported.exists_lower (supported : e.Supported) (sharing : Bool) :
    ∃ g, e.lower sharing = .ok g := by
  refine exists_lower_of_accepted sharing ?_ (refusal?_eq_none_iff.mpr ?_)
  · rw [unhashable?_of_over supported.covered, ite_self]
  · intro label member
    have lowerable := supported.covered label member
    cases label <;> first | exact lowerable | trivial

/-- Let a variable not occur in an expression whose operators all have kernels. Then two calls of
its graph, whose arguments differ in the slot of that variable only, have the same value or the
same error, with shared nodes or without, whatever the arguments are and however they are converted.
So have two evaluations of the expression. In both cases the values may be any at all, and constants
and operators may mean anything among them. -/
theorem absent_argument_not_looked_at (e : Expr) (supported : e.Supported) (v : Variable)
    (absent : .variable v ∉ e.labels) :
    (∀ sharing, ∃ g, e.lower sharing = .ok g ∧
      (∀ p q : Point Argument, p.AgreeBut v q → g.call p.toList = g.call q.toList) ∧
      (∀ (α : Type) (convert : α → Except TensorError Tensor) (p q : Point α), p.AgreeBut v q →
        g.evaluate (Tensor.interpretation fun name =>
            (Tensor.bound? Graph.argumentNames p.toList name).map convert) =
          g.evaluate (Tensor.interpretation fun name =>
            (Tensor.bound? Graph.argumentNames q.toList name).map convert)) ∧
      ∀ (ε α β : Type) (I : Interpretation ε β) (convert : α → Except ε β) (p q : Point α),
        p.AgreeBut v q → g.evaluate (I.at convert p) = g.evaluate (I.at convert q)) ∧
    (∀ p q : Point Number, p.AgreeBut v q → e.evaluate p = e.evaluate q) ∧
    ∀ (ε α β : Type) (M : Meaning ε β) (convert : α → Except ε β) (p q : Point α),
      p.AgreeBut v q → e.evaluateWith (M.at convert p) = e.evaluateWith (M.at convert q) := by
  refine ⟨fun sharing => ?_, fun p q => ?_,
    fun ε α β M convert p q => evaluateWith_eq_of_agreeBut absent M convert⟩
  · obtain ⟨g, lowered⟩ := supported.exists_lower sharing
    have converted : ∀ (α : Type) (convert : α → Except TensorError Tensor) (p q : Point α),
        p.AgreeBut v q →
        g.evaluate (Tensor.interpretation fun name =>
            (Tensor.bound? Graph.argumentNames p.toList name).map convert) =
          g.evaluate (Tensor.interpretation fun name =>
            (Tensor.bound? Graph.argumentNames q.toList name).map convert) := by
      intro α convert p q agree
      rw [Tensor.interpretation_eq_at, Tensor.interpretation_eq_at]
      exact evaluate_eq_of_agreeBut lowered absent _ _ agree
    refine ⟨g, lowered, fun p q agree => ?_, converted, fun ε α β I convert p q =>
      evaluate_eq_of_agreeBut lowered absent I convert⟩
    have three : ∀ p : Point Argument, p.toList.length = Graph.argumentNames.length := fun _ => rfl
    rw [Graph.call, Graph.call, Graph.evaluateOn, Graph.evaluateOn, if_pos (three p),
      if_pos (three q)]
    exact converted Argument Argument.tensor p q agree
  · exact evaluateWith_eq_of_agreeBut absent (.doubles p) fun n : Number => .ok n.toDouble

/-- Doubles, and nothing at all, on which every operator fails. -/
def optionalDoubles : Meaning EvaluationError (Option Double) where
  constant value := .ok (some value.toDouble)
  slot _ := .ok none
  operator op values :=
    match values.mapM id with
    | some doubles => (op.kernel.onDoubles doubles).map some
    | none => .error (.custom "TypeError")
  foreign value := .notAnExpression value.kindName

/-- Neither an integer that no word holds nor an array that does not match is noticed, and
evaluation does not notice that there is nothing. -/
theorem absent_argument_not_looked_at_sum :
    (∃ g, (apply ⟨"+", .exactly 2, .add⟩ [.var .x, .var .z]).lower true = .ok g ∧
      g.call [.array (.words ⟨[2], [3, 5], rfl⟩), .number (.integer (2 ^ (40 : Nat))),
          .number (.integer 1)] =
        g.call [.array (.words ⟨[2], [3, 5], rfl⟩), .array (.singles (.full [7] (.zero false))),
          .number (.integer 1)]) ∧
    (apply ⟨"+", .exactly 2, .add⟩ [.var .x, .var .z]).evaluateWith (optionalDoubles.at .ok
        ⟨some (.zero true), some (.infinite false), some .nan⟩) =
      (apply ⟨"+", .exactly 2, .add⟩ [.var .x, .var .z]).evaluateWith (optionalDoubles.at .ok
        ⟨some (.zero true), none, some .nan⟩) := by
  have supported : (apply ⟨"+", .exactly 2, .add⟩ [.var .x, .var .z]).Supported := by
    have known : hasKernel "+" = true := by decide
    simp [Supported, labels, labelsList, known]
  obtain ⟨each, _, any⟩ := absent_argument_not_looked_at _ supported .y
    (by simp [labels, labelsList])
  obtain ⟨g, lowered, calls, _⟩ := each true
  refine ⟨⟨g, lowered, calls
    ⟨.array (.words ⟨[2], [3, 5], rfl⟩), .number (.integer (2 ^ (40 : Nat))), .number (.integer 1)⟩
    ⟨.array (.words ⟨[2], [3, 5], rfl⟩), .array (.singles (.full [7] (.zero false))),
      .number (.integer 1)⟩ (Point.agreeBut_iff.mpr fun w other => ?_)⟩,
    any _ _ _ optionalDoubles .ok ⟨_, _, _⟩ ⟨_, _, _⟩ (Point.agreeBut_iff.mpr fun w other => ?_)⟩
  · cases w <;> first | rfl | exact absurd rfl other
  · cases w <;> first | rfl | exact absurd rfl other

end Expr

end Polish
