import Polish.Expr.Evaluation
import Polish.Graph.Lowering
import Polish.Proofs.Expr.Sameness
import Polish.Proofs.Expr.Subtrees
import Polish.Proofs.Graph.Execution
import Polish.Proofs.Graph.Steps
import Polish.Proofs.Number
import Polish.Proofs.Parsing.Acceptance

/-!
A lowered graph computes what its expression does, with and without sharing. The invariant says of
every node that a table points to that it has the value of the table's key, once all nodes before
it have values. Nodes are only added behind the others, so the tables stay right.
-/

set_option autoImplicit false

namespace Polish

namespace Expr

/-- The label can be lowered, and a constant in it is one of `C`. -/
def Label.Lowerable (C : Number → Prop) : Label → Prop
  | .operation symbol _ => hasKernel symbol = true
  | .variable _ => True
  | .constant value => C value
  | .foreign _ => False

def Over (C : Number → Prop) (e : Expr) : Prop := ∀ label ∈ e.labels, label.Lowerable C

variable {C : Number → Prop}

theorem over_const {value : Number} (covered : (const value).Over C) : C value :=
  covered (.constant value) (by simp [labels])

theorem over_apply {op : Operator} {args : List Expr} (covered : (apply op args).Over C) :
    hasKernel op.symbol = true ∧ ∀ e ∈ args, e.Over C := by
  constructor
  · exact covered (.operation op.symbol args.length) (by simp [labels])
  · intro e member label inside
    exact covered label (mem_labels_of_argument member inside)

theorem not_over_foreign {value : Datum} : ¬ (foreign value).Over C := fun covered =>
  covered (.foreign value) (by simp [labels])

theorem unhashable?_of_over {e : Expr} (covered : e.Over C) : e.unhashable? = none := by
  rw [unhashable?, List.findSome?_eq_none_iff]
  intro label member
  cases label with
  | foreign value => exact (covered _ member).elim
  | _ => rfl

def Agree (C : Number → Prop) : Prop :=
  ∀ a b, C a → C b → a.same b = true → a.toDouble = b.toDouble

variable {ε α : Type} (I : Interpretation ε α)

/-- Constants that are equal have the same meaning. -/
def AgreeIn (C : Number → Prop) : Prop := ∀ a b, C a → C b → a.same b = true →
  I.constant (.double a.toDouble) = I.constant (.double b.toDouble)

theorem Agree.agreeIn (agree : Agree C) : AgreeIn I C := by
  intro a b left right same
  rw [agree a b left right same]

/-- Equal expressions have equal values, so either may stand for the other. -/
theorem evaluateWith_of_same (agree : AgreeIn I C) {a b : Expr} (coveredA : a.Over C)
    (coveredB : b.Over C) (same : a.same b = true) :
    a.evaluateWith I.meaning = b.evaluateWith I.meaning := by
  refine evaluateWith_of_beside (fun _ _ => I.meaning_of_symbol)
    (fun _ member => coveredA _ member) same fun x y member => ?_
  obtain ⟨left, right⟩ := List.of_mem_zip member
  exact agree x y (coveredA _ left) (coveredB _ right) (beside_of_same same x y member)

end Expr

namespace Builder

open Polish.Graph

variable {ε α : Type} {I : Interpretation ε α} {C : Number → Prop} {b : Builder}

/-- The tables point to nodes with the values of their keys. -/
structure Sound (I : Interpretation ε α) (C : Number → Prop) (b : Builder) : Prop where
  arguments : ∀ entry ∈ b.arguments, Runs I b.nodes →
    Gives I b.nodes entry.2 (I.argument (some entry.1.name))
  known : ∀ entry ∈ b.known, Runs I b.nodes →
    Gives I b.nodes entry.2 (entry.1.evaluateWith I.meaning)
  covered : ∀ entry ∈ b.known, entry.1.Over C

theorem sound_empty : Sound I C empty := ⟨by simp [empty], by simp [empty], by simp [empty]⟩

theorem Sound.add (sound : Sound I C b) (instruction : Instruction) :
    Sound I C (b.add instruction).2 := by
  have longer : b.nodes <+: b.nodes ++ [⟨b.nodes.length, instruction⟩] := List.prefix_append _ _
  refine ⟨?_, ?_, sound.covered⟩
  · intro entry member runs
    exact (sound.arguments entry member (runs.of_longer longer)).grow longer runs
  · intro entry member runs
    exact (sound.known entry member (runs.of_longer longer)).grow longer runs

theorem Sound.remember (sound : Sound I C b) {e : Expr} {id : Nat} (covered : e.Over C)
    (gives : Runs I b.nodes → Gives I b.nodes id (e.evaluateWith I.meaning)) :
    Sound I C (b.remember e id) :=
  ⟨sound.arguments, List.forall_mem_cons.mpr ⟨gives, sound.known⟩,
    List.forall_mem_cons.mpr ⟨covered, sound.covered⟩⟩

theorem Sound.note (sound : Sound I C b) {v : Variable} {id : Nat}
    (gives : Runs I b.nodes → Gives I b.nodes id (I.argument (some v.name))) :
    Sound I C { b with arguments := (v, id) :: b.arguments } :=
  ⟨List.forall_mem_cons.mpr ⟨gives, sound.arguments⟩, sound.known, sound.covered⟩

/-- From `b` on, the nodes of `b'` reach the result. -/
structure Reaches (I : Interpretation ε α) (C : Number → Prop) (b b' : Builder) (result : Prop) :
    Prop where
  longer : b.nodes <+: b'.nodes
  sound : Sound I C b'
  result : Runs I b.nodes → result

/-- A node that is shared has the value of the expression it is found for. -/
theorem Sound.seen (sound : Sound I C b) (agree : Expr.AgreeIn I C) {sharing : Bool} {e : Expr}
    {id : Nat} (covered : e.Over C) (found : b.seen? sharing e = some id) :
    Reaches I C b b (Gives I b.nodes id (e.evaluateWith I.meaning)) := by
  refine ⟨List.prefix_rfl, sound, ?_⟩
  intro runs
  obtain ⟨_, entry, member, same, rfl⟩ := exists_known_of_seen found
  rw [Expr.evaluateWith_of_same I agree covered (sound.covered entry member) same]
  exact sound.known entry member runs

/-- A node is added with the value of its instruction. -/
theorem Sound.add_gives (sound : Sound I C b) (instruction : Instruction) {result : Except ε α}
    (meaning : ∀ values, run I [] b.nodes = .ok values →
      execute I values instruction = result) :
    Reaches I C b (b.add instruction).2
      (Gives I (b.add instruction).2.nodes (b.add instruction).1 result) := by
  refine ⟨List.prefix_append _ _, sound.add instruction, ?_⟩
  rintro ⟨values, ran⟩
  rw [← meaning values ran]
  exact gives_added instruction ran

theorem Sound.argument_gives (sound : Sound I C b) (v : Variable) :
    Reaches I C b (b.argument v).2
      (Gives I (b.argument v).2.nodes (b.argument v).1 (I.argument (some v.name))) := by
  rcases argument_cases b v with ⟨id, there, same⟩ | ⟨_, same⟩
  · obtain ⟨before, after, split, _⟩ := List.lookup_eq_some_iff.mp there
    have member : (v, id) ∈ b.arguments := by simp [split]
    rw [same]
    exact ⟨List.prefix_rfl, sound, sound.arguments (v, id) member⟩
  · obtain ⟨longer, added, gives⟩ := sound.add_gives (.argument (some v.name))
      (fun _ _ => rfl)
    rw [same]
    exact ⟨longer, added.note fun runs => gives (runs.of_longer longer), gives⟩

/-- Noting the node of an expression adds no node. -/
theorem Reaches.remember {b' : Builder} {id : Nat} {e : Expr} (covered : e.Over C)
    (reached : Reaches I C b b' (Gives I b'.nodes id (e.evaluateWith I.meaning))) :
    Reaches I C b (b'.remember e id)
      (Gives I (b'.remember e id).nodes id (e.evaluateWith I.meaning)) :=
  ⟨reached.longer,
    reached.sound.remember covered fun runs => reached.result (runs.of_longer reached.longer),
    reached.result⟩

end Builder

namespace Expr

open Polish.Builder Polish.Graph

variable {ε α : Type} {I : Interpretation ε α} {C : Number → Prop} {b : Builder}

/-- An expression is lowered behind nodes that are there. -/
def Lowers (I : Interpretation ε α) (C : Number → Prop) (sharing : Bool) (e : Expr) : Prop :=
  ∀ b, Sound I C b → ∃ id b', lowerInto sharing b e = .ok (id, b') ∧
    Reaches I C b b' (Gives I b'.nodes id (e.evaluateWith I.meaning))

theorem lowers_args {sharing : Bool} {args : List Expr}
    (each : ∀ e ∈ args, e.Lowers I C sharing) (sound : Sound I C b) :
    ∃ ids b', lowerListInto sharing b args = .ok (ids, b') ∧
      Reaches I C b b' (GivesAll I b'.nodes ids (evaluateListWith I.meaning args)) := by
  induction args generalizing b with
  | nil =>
      refine ⟨[], b, rfl, List.prefix_rfl, sound, ?_⟩
      rintro ⟨values, ran⟩
      exact ⟨values, ran, rfl⟩
  | cons e es ih =>
      obtain ⟨id, b₁, first, here⟩ := each e (by simp) b sound
      obtain ⟨ids, b₂, others, there⟩ :=
        ih (fun e member => each e (List.mem_cons_of_mem _ member)) here.sound
      refine ⟨id :: ids, b₂, ?_, here.longer.trans there.longer, there.sound, ?_⟩
      · rw [lowerListInto, first]
        simp only [bind, Except.bind, others, pure, Except.pure]
      · intro runs
        have one := here.result runs
        rw [evaluateListWith]
        cases value : e.evaluateWith I.meaning with
        | error reason =>
            -- The run has stopped, and what the other arguments add does not start it again.
            rw [value] at one
            exact run_error_of_longer there.longer one
        | ok a =>
            rw [value] at one
            obtain ⟨values, ran, found⟩ := one
            have more := there.result ⟨values, ran⟩
            cases rest : evaluateListWith I.meaning es with
            | error reason =>
                rw [rest] at more
                exact more
            | ok operands =>
                rw [rest] at more
                obtain ⟨final, finished, gathered⟩ := more
                obtain ⟨first', before, kept⟩ := run_of_longer there.longer finished
                rw [ran] at before
                cases before
                refine ⟨final, finished, ?_⟩
                rw [gather, getElem?_of_longer kept found]
                simp only [gathered, bind, Except.bind, pure, Except.pure]

/-- A kernel is applied behind its arguments. -/
theorem reaches_kernel {b' : Builder} {ids : List Nat} {args : List Expr}
    (op : Operator)
    (reached : Reaches I C b b' (GivesAll I b'.nodes ids (evaluateListWith I.meaning args))) :
    Reaches I C b (b'.add (.kernel op.symbol ids)).2
      (Gives I (b'.add (.kernel op.symbol ids)).2.nodes (b'.add (.kernel op.symbol ids)).1
        ((apply op args).evaluateWith I.meaning)) := by
  have longer : b'.nodes <+: (b'.add (.kernel op.symbol ids)).2.nodes := List.prefix_append _ _
  refine ⟨reached.longer.trans longer, reached.sound.add _, ?_⟩
  intro runs
  have all := reached.result runs
  rw [evaluateWith]
  cases operands : evaluateListWith I.meaning args with
  | error reason =>
      rw [operands] at all
      exact run_error_of_longer longer all
  | ok values =>
      rw [operands] at all
      obtain ⟨before, ran, gathered⟩ := all
      have added := gives_added (.kernel op.symbol ids) ran
      rw [execute, gathered] at added
      exact added

/-- An expression that is not shared is lowered in its own way. -/
theorem lowers_of_unseen (agree : AgreeIn I C) {sharing : Bool} {e : Expr} (covered : e.Over C)
    (seen : ∀ b id, b.seen? sharing e = some id → lowerInto sharing b e = .ok (id, b))
    (unseen : ∀ b, Sound I C b → b.seen? sharing e = none →
      ∃ id b', lowerInto sharing b e = .ok (id, b'.remember e id) ∧
        Reaches I C b b' (Gives I b'.nodes id (e.evaluateWith I.meaning))) : e.Lowers I C sharing := by
  intro b sound
  cases found : b.seen? sharing e with
  | some id => exact ⟨id, b, seen b id found, sound.seen agree covered found⟩
  | none =>
      obtain ⟨id, b', lowered, reached⟩ := unseen b sound found
      exact ⟨id, b'.remember e id, lowered, reached.remember covered⟩

/-- Every expression is lowered to a node with its value. -/
theorem lowers_of_over (agree : AgreeIn I C) (sharing : Bool) (e : Expr) (covered : e.Over C) :
    e.Lowers I C sharing := by
  induction e with
  | const value =>
      refine lowers_of_unseen agree covered (fun b id found => by simp only [lowerInto, found]) ?_
      intro b sound fresh
      refine ⟨_, _, by rw [lowerInto, fresh], sound.add_gives _ ?_⟩
      intro values ran
      rw [execute, evaluateWith, Interpretation.meaning_constant]
  | var v =>
      refine lowers_of_unseen agree covered (fun b id found => by simp only [lowerInto, found]) ?_
      intro b sound fresh
      refine ⟨_, _, by rw [lowerInto, fresh], ?_⟩
      rw [evaluateWith]
      exact sound.argument_gives v
  | apply op args ih =>
      obtain ⟨computed, inside⟩ := over_apply covered
      refine lowers_of_unseen agree covered (fun b id found => by simp only [lowerInto, found]) ?_
      intro b sound fresh
      obtain ⟨ids, b', lowered, reached⟩ :=
        lowers_args (fun e member => ih e member (inside e member)) sound
      refine ⟨(b'.add (.kernel op.symbol ids)).1, (b'.add (.kernel op.symbol ids)).2, ?_,
        reaches_kernel op reached⟩
      simp only [lowerInto, fresh, computed, ↓reduceIte, lowered, bind, Except.bind, pure,
        Except.pure]
  | foreign value => exact absurd covered not_over_foreign

theorem lower_of_agreeIn (agree : AgreeIn I C) (sharing : Bool) {e : Expr}
    (covered : e.Over C) : ∃ g, e.lower sharing = .ok g ∧ g.evaluate I = e.evaluateIn I := by
  obtain ⟨id, b, lowered, reached⟩ := lowers_of_over agree sharing e covered empty sound_empty
  refine ⟨⟨b.nodes, id⟩, ?_, evaluate_of_gives (reached.result ⟨[], rfl⟩)⟩
  have hashable : (if sharing then e.unhashable? else none) = none := by
    rw [unhashable?_of_over covered, ite_self]
  simp only [lower, hashable, lowered, bind, Except.bind, pure, Except.pure]

theorem lower_of_over (I : Interpretation ε α) (agree : Agree C) (sharing : Bool) {e : Expr}
    (covered : e.Over C) : ∃ g, e.lower sharing = .ok g ∧ g.evaluate I = e.evaluateIn I :=
  lower_of_agreeIn (agree.agreeIn I) sharing covered

/-- Every operator has a kernel, and no plain value stands for an expression. -/
def Supported (e : Expr) : Prop :=
  (∀ symbol count, .operation symbol count ∈ e.labels → hasKernel symbol = true) ∧
    ∀ value, .foreign value ∉ e.labels

/-- A negative zero is a constant of the expression, and so is a zero without a sign. -/
def MixesZeros (e : Expr) : Prop :=
  .constant (.double (.zero true)) ∈ e.labels ∧
    ∃ zero ∈ Number.positiveZeros, .constant zero ∈ e.labels

theorem Supported.covered {e : Expr} (supported : e.Supported) :
    e.Over fun value => .constant value ∈ e.labels := by
  intro label member
  cases label with
  | operation symbol count => exact supported.1 symbol count member
  | constant value => exact member
  | foreign value => exact supported.2 value member
  | _ => trivial

theorem agree_iff_not_mixesZeros (e : Expr) :
    Agree (fun value => .constant value ∈ e.labels) ↔ ¬ e.MixesZeros := by
  constructor
  · rintro agree ⟨negative, zero, positive, member⟩
    obtain ⟨same, differ⟩ := Number.same_positiveZeros positive
    exact differ (agree _ _ negative member same)
  · intro apart a b left right same
    rcases Number.toDouble_of_same same with exact_ | ⟨rfl, zero⟩ | ⟨rfl, zero⟩
    · exact exact_
    · exact absurd ⟨left, b, zero, right⟩ apart
    · exact absurd ⟨right, a, zero, left⟩ apart

/-- Every application is of a registered operator, to any number of arguments. -/
inductive Registered : Expr → Prop where
  | const (value : Number) : Registered (.const value)
  | var (v : Variable) : Registered (.var v)
  | apply (op : Operator) (args : List Expr) (known : Operator.ofSymbol? op.symbol = some op)
      (children : ∀ e ∈ args, Registered e) : Registered (.apply op args)

theorem WellFormed.registered {e : Expr} (formed : e.WellFormed) : e.Registered := by
  induction formed with
  | const value => exact .const value
  | var v => exact .var v
  | apply op args known accepted children ih => exact .apply op args known ih

theorem Registered.supported {e : Expr} (registered : e.Registered) : e.Supported := by
  induction registered with
  | const value => exact ⟨by simp [labels], by simp [labels]⟩
  | var v => exact ⟨by simp [labels], by simp [labels]⟩
  | apply op args known children ih =>
      constructor
      · intro symbol count member
        rcases (mem_labels_apply _ _ _).mp member with here | ⟨e, inside, member⟩
        · cases here
          rw [hasKernel, known]
          rfl
        · exact (ih e inside).1 symbol count member
      · intro value member
        rcases (mem_labels_apply _ _ _).mp member with here | ⟨e, inside, member⟩
        · cases here
        · exact (ih e inside).2 value member

/-- The constants that are read from a text are integers. -/
theorem integer_of_spells {words : List String} {e : Expr} (spelled : Spells words e)
    {value : Number} (member : .constant value ∈ e.labels) : ∃ n, value = .integer n := by
  induction spelled with
  | integer shape short =>
      simp only [labels, List.mem_singleton, Label.constant.injEq] at member
      exact ⟨_, member⟩
  | named v => simp [labels] at member
  | application op parts known accepted spelled ih =>
      rcases (mem_labels_apply _ _ _).mp member with here | ⟨e, inside, member⟩
      · cases here
      · obtain ⟨part, there, rfl⟩ := List.mem_map.mp inside
        exact ih part there member

theorem not_mixesZeros_of_parse {text : String} {e : Expr} (accepted : Parser.parse text = .ok e) :
    ¬ e.MixesZeros := by
  rintro ⟨negative, _⟩
  obtain ⟨n, impossible⟩ := integer_of_spells ((Parser.parse_eq_ok_iff text e).mp accepted) negative
  cases impossible

end Expr

/-- The operators' own kernels at a point. The errors are those of names that nothing is
registered under. -/
def Interpretation.ofPoint (p : Point Number) : Interpretation EvaluationError Double where
  constant value := .ok value.number.toDouble
  argument name :=
    match name.bind Variable.ofName? with
    | some v => .ok (p.get v).toDouble
    | none => .error (.notAnExpression "argument")
  kernel symbol :=
    match Operator.ofSymbol? symbol with
    | some op => .ok op.kernel.onDoubles
    | none => .error (.notAnExpression symbol)
  dangling := .notAnExpression "node"

namespace Expr

theorem Registered.evaluateIn_ofPoint {e : Expr} (registered : e.Registered) (p : Point Number) :
    e.evaluateIn (.ofPoint p) = e.evaluate p := by
  rw [evaluateIn, evaluate]
  induction registered with
  | const value => rfl
  | var v =>
      rw [evaluateWith, evaluateWith, Interpretation.meaning_slot]
      simp only [Interpretation.ofPoint, Option.bind_some, Variable.ofName?_name]
      rfl
  | apply op args known children ih =>
      rw [evaluateWith, evaluateWith, evaluateListWith_congr (List.forall₂_same.mpr ih)]
      simp only [Interpretation.meaning_operator, Interpretation.ofPoint, known]
      rfl

/-- The graph of an expression computes what the expression does, with any meaning of constants,
arguments and kernels, shared or not, as long as equal constants are the same double. Only a
negative zero beside another zero breaks that, which no text can spell. With the operators' own
kernels the graph computes the value of the expression at a point. -/
theorem lowered_graph_evaluates_expression :
    (∀ (ε α : Type) (I : Interpretation ε α) (sharing : Bool) (e : Expr), e.Supported →
      (∀ a b, .constant a ∈ e.labels → .constant b ∈ e.labels → a.same b = true →
        a.toDouble = b.toDouble) →
      ∃ g, e.lower sharing = .ok g ∧ g.evaluate I = e.evaluateIn I) ∧
    (∀ e : Expr, (∀ a b, .constant a ∈ e.labels → .constant b ∈ e.labels → a.same b = true →
      a.toDouble = b.toDouble) ↔ ¬ e.MixesZeros) ∧
    (∀ (ε α : Type) (I : Interpretation ε α) (sharing : Bool) (text : String) (e : Expr),
      Parser.parse text = .ok e → ∃ g, e.lower sharing = .ok g ∧ g.evaluate I = e.evaluateIn I) ∧
    ∀ (p : Point Number) (sharing : Bool) (e : Expr), e.Registered → ¬ e.MixesZeros →
      ∃ g, e.lower sharing = .ok g ∧ g.evaluate (.ofPoint p) = e.evaluate p := by
  refine ⟨?_, agree_iff_not_mixesZeros, ?_, ?_⟩
  · intro ε α I sharing e supported agree
    exact lower_of_over I agree sharing supported.covered
  · intro ε α I sharing text e accepted
    have formed := ((Parser.parse_eq_ok_iff text e).mp accepted).wellFormed
    have agree := (agree_iff_not_mixesZeros e).mpr (not_mixesZeros_of_parse accepted)
    exact lower_of_over I agree sharing formed.registered.supported.covered
  · intro p sharing e registered apart
    have agree := (agree_iff_not_mixesZeros e).mpr apart
    rw [← registered.evaluateIn_ofPoint p]
    exact lower_of_over _ agree sharing registered.supported.covered

/-- Two equal arguments share their node, and the graph still computes the expression. -/
theorem lowered_graph_evaluates_expression_shared :
    ∃ g, (Expr.apply ⟨"+", .exactly 2, .add⟩
        [.apply ⟨"negate", .exactly 1, .negate⟩ [.var .x],
          .apply ⟨"negate", .exactly 1, .negate⟩ [.var .x]]).lower true = .ok g ∧
      g.nodes.length = 3 ∧
      ∀ p, g.evaluate (.ofPoint p) = .ok (-p.x.toDouble + -p.x.toDouble) := by
  have inner : (Expr.apply ⟨"negate", .exactly 1, .negate⟩ [.var .x]).Registered :=
    .apply _ _ rfl (by simp [Registered.var])
  have outer : (Expr.apply ⟨"+", .exactly 2, .add⟩
      [.apply ⟨"negate", .exactly 1, .negate⟩ [.var .x],
        .apply ⟨"negate", .exactly 1, .negate⟩ [.var .x]]).Registered :=
    .apply _ _ rfl (by simp [inner])
  refine ⟨⟨[⟨0, .argument (some "x")⟩, ⟨1, .kernel "negate" [0]⟩, ⟨2, .kernel "+" [1, 1]⟩], 2⟩,
    by rfl, rfl, ?_⟩
  intro p
  obtain ⟨g, lowered, value⟩ := lowered_graph_evaluates_expression.2.2.2 p true _ outer
    (by simp [MixesZeros, labels, labelsList])
  cases lowered
  exact value

end Expr

end Polish
