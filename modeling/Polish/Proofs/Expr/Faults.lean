import Polish.Expr.Building
import Polish.Proofs.Expr.Occurrences
import Polish.Proofs.Expr.Raising

set_option autoImplicit false

namespace Polish

def Operator.fault? (op : Operator) (count : Nat) : Option EvaluationError :=
  match op.arity with
  | .exactly wanted => if (count : Int) = wanted then none else some .wrongCount
  | .variadic => if op.symbol = "geom-mean" ∧ count = 0 then some .rootOfNothing else none

def Expr.fault? : Expr → Option EvaluationError
  | .apply op args => op.fault? args.length
  | _ => none

/-- What becomes of an evaluation: the fault is its error, without one it has a value. -/
def Settles {α : Type} (fault : Option EvaluationError) (outcome : Except EvaluationError α) :
    Prop :=
  match fault with
  | some error => outcome = .error error
  | none => ∃ value, outcome = .ok value

theorem Settles.error_iff {α : Type} {fault : Option EvaluationError}
    {outcome : Except EvaluationError α} (settles : Settles fault outcome)
    (error : EvaluationError) : outcome = .error error ↔ fault = some error := by
  cases fault with
  | none =>
      obtain ⟨value, rfl⟩ := settles
      exact iff_of_false nofun nofun
  | some other =>
      rw [Settles] at settles
      rw [settles, Except.error.injEq, Option.some.injEq]

theorem Settles.ok_iff {α : Type} {fault : Option EvaluationError}
    {outcome : Except EvaluationError α} (settles : Settles fault outcome) :
    (∃ value, outcome = .ok value) ↔ fault = none := by
  cases fault with
  | none => exact iff_of_true settles rfl
  | some error =>
      rw [Settles] at settles
      rw [settles]
      exact iff_of_false nofun nofun

variable {values : List Double}

/-- A kernel of fixed arity takes no other number of values. -/
theorem Kernel.onDoubles_of_count {kernel : Kernel} {wanted : Int}
    (fixed : kernel.arity = .exactly wanted) (wrong : (values.length : Int) ≠ wanted) :
    kernel.onDoubles values = .error .wrongCount := by
  cases kernel with
  | add | subtract | multiply | divide =>
      cases fixed
      match values with
      | [a, b] => exact absurd rfl wrong
      | [] | [_] | _ :: _ :: _ :: _ => rfl
  | negate =>
      cases fixed
      match values with
      | [a] => exact absurd rfl wrong
      | [] | _ :: _ :: _ => rfl
  | meanOfFive =>
      cases fixed
      match values with
      | [a, b, c, d, e] => exact absurd rfl wrong
      | [] | [_] | [_, _] | [_, _, _] | [_, _, _, _] | _ :: _ :: _ :: _ :: _ :: _ :: _ => rfl
  | medianOfThree =>
      cases fixed
      match values with
      | [a, b, c] => exact absurd rfl wrong
      | [] | [_] | [_, _] | _ :: _ :: _ :: _ :: _ => rfl
  | _ => cases fixed

/-- Of the variadic kernels only the geometric mean needs a value. -/
theorem Kernel.settles_variadic {kernel : Kernel} (variadic : kernel.arity = .variadic)
    (known : kernel.isCustom = false) {symbol : String}
    (named : symbol = "geom-mean" ↔ kernel = .geometricMean) :
    Settles (if symbol = "geom-mean" ∧ values.length = 0 then some .rootOfNothing else none)
      (kernel.onDoubles values) := by
  cases kernel with
  | arithmeticMean | harmonicMean =>
      rw [if_neg fun both => Kernel.noConfusion (named.mp both.1)]
      exact ⟨_, rfl⟩
  | geometricMean =>
      cases values with
      | nil =>
          rw [if_pos ⟨named.mpr rfl, rfl⟩]
          rfl
      | cons value values =>
          rw [if_neg fun both => Nat.succ_ne_zero _ both.2]
          exact ⟨_, rfl⟩
  | custom function => cases known
  | _ => cases variadic

theorem Operator.settles {op : Operator} (known : Operator.ofSymbol? op.symbol = some op)
    (values : List Double) :
    Settles (op.fault? values.length) (op.kernel.onDoubles values) := by
  have named : ∀ op ∈ registered, (op.symbol = "geom-mean" ↔ op.kernel = .geometricMean) := by
    simp [registered]
  have arity := arity_of_known known
  cases shape : op.kernel.arity with
  | exactly wanted =>
      by_cases right : (values.length : Int) = wanted
      · simp only [fault?, arity, shape, right, ↓reduceIte]
        refine Kernel.exists_onDoubles (isCustom_of_known known) ?_
        rw [shape, Arity.accepts, right, beq_self_eq_true]
      · simp only [fault?, arity, shape, right, ↓reduceIte]
        exact Kernel.onDoubles_of_count shape right
  | variadic =>
      simp only [fault?, arity, shape]
      exact Kernel.settles_variadic shape (isCustom_of_known known)
        (named op (List.mem_of_find?_eq_some known))

namespace Expr

variable {p : Point Number} {args : List Expr}

/-- The fault that is met first in a walk from the left. -/
def firstFault? (path : List Nat) (e : Expr) : Option EvaluationError :=
  (e.occurrences path).findSome? (·.expr.fault?)

theorem settles_args (each : ∀ e ∈ args, ∀ path,
      Settles (e.firstFault? path) (e.evaluateWith (.doubles p)))
    (path : List Nat) (index : Nat) :
    Settles ((occurrencesList path index args).findSome? (·.expr.fault?))
      (evaluateListWith (.doubles p) args) := by
  induction args generalizing index with
  | nil => exact ⟨[], rfl⟩
  | cons e es ih =>
      have first := each e (by simp) (path ++ [index])
      have others := ih (fun e member => each e (List.mem_cons_of_mem _ member)) (index + 1)
      rw [occurrencesList, List.findSome?_append, evaluateListWith]
      rw [firstFault?] at first
      cases here : (e.occurrences (path ++ [index])).findSome? (·.expr.fault?) with
      | some error =>
          rw [here] at first
          rw [first]
          rfl
      | none =>
          rw [here] at first
          obtain ⟨d, value⟩ := first
          rw [value, Option.none_or]
          cases there : (occurrencesList path (index + 1) es).findSome? (·.expr.fault?) with
          | some error =>
              rw [there] at others
              rw [others]
              rfl
          | none =>
              rw [there] at others
              obtain ⟨ds, values⟩ := others
              rw [values]
              exact ⟨d :: ds, rfl⟩

/-- By induction on the expression: the arguments are evaluated before the operator is applied, so
its own fault is met last. -/
theorem Registered.settles {e : Expr} (registered : e.Registered) (p : Point Number)
    (path : List Nat) : Settles (e.firstFault? path) (e.evaluate p) := by
  rw [evaluate]
  induction registered generalizing path with
  | const value => exact ⟨_, rfl⟩
  | var v => exact ⟨_, rfl⟩
  | apply op args known children ih =>
      have inside := settles_args ih path 0
      rw [firstFault?, occurrences, List.findSome?_append, evaluateWith]
      cases first : (occurrencesList path 0 args).findSome? (·.expr.fault?) with
      | some error =>
          rw [first] at inside
          rw [inside]
          rfl
      | none =>
          rw [first] at inside
          obtain ⟨values, operands⟩ := inside
          have own := op.settles known values
          rw [length_of_evaluateListWith operands] at own
          rw [operands, Option.none_or, List.findSome?_singleton, fault?]
          exact own

/-- Made by the parser, or from constants and named variables by calls of registered operators. -/
inductive Built : Expr → Prop where
  | const (value : Number) : Built (.const value)
  | named {name : String} {e : Expr} (made : named name = .ok e) : Built e
  | parsed {text : String} {e : Expr} (accepted : Parser.parse text = .ok e) : Built e
  | call {symbol : String} {args : List Expr} {e : Expr} (children : ∀ a ∈ args, Built a)
      (made : callSymbol symbol args = .ok e) : Built e

theorem exists_of_callSymbol {symbol : String} {e : Expr}
    (made : callSymbol symbol args = .ok e) :
    ∃ op, e = .apply op args ∧ Operator.ofSymbol? op.symbol = some op ∧
      op.arity.accepts args.length = true := by
  rw [callSymbol, registered] at made
  cases found : Operator.ofSymbol? symbol with
  | none =>
      rw [found] at made
      cases made
  | some op =>
      rw [found] at made
      simp only [bind, Except.bind, call] at made
      split at made
      · rename_i accepted
        cases made
        exact ⟨op, rfl, by rw [Operator.symbol_of_ofSymbol? found, found], accepted⟩
      · cases made

theorem Built.wellFormed {e : Expr} (built : e.Built) : e.WellFormed := by
  induction built with
  | const value => exact .const value
  | @named name e made =>
      rw [Expr.named] at made
      split at made
      · cases made
        exact .var _
      · cases made
  | @parsed text e accepted => exact ((Parser.parse_eq_ok_iff text e).mp accepted).wellFormed
  | call children made ih =>
      obtain ⟨op, rfl, known, accepted⟩ := exists_of_callSymbol made
      exact .apply op _ known accepted ih

/-- Evaluating an expression of registered operators fails exactly if some node of it is at fault,
and the error is that of the first such node in the order in which a walk from the left completes
them; without one there is a value. Over arithmetic that raises it is the same, if only roots of
nonnegative numbers do not raise. What the parser or calls of operators make has a value at every
point. -/
theorem evaluation_raises_only_for_counts {power : Double → Double → Except Raised Double}
    (mild : Raising.Mild power) (p : Point Number) :
    (∀ e : Expr, e.Registered →
      (∀ error, e.evaluate p = .error error ↔ ∃ before o after,
        e.occurrences [] = before ++ o :: after ∧ o.expr.fault? = some error ∧
          ∀ earlier ∈ before, earlier.expr.fault? = none) ∧
      ((∃ d, e.evaluate p = .ok d) ↔ ∀ o ∈ e.occurrences [], o.expr.fault? = none) ∧
      e.evaluateRaising power p = (e.evaluate p).mapError EvaluationError.raised) ∧
    ∀ e : Expr, e.Built → ∃ d, e.evaluate p = .ok d ∧ e.evaluateRaising power p = .ok d := by
  constructor
  · intro e registered
    have settles := registered.settles p []
    refine ⟨fun error => ?_, ?_, evaluateRaising_eq mild p e⟩
    · rw [settles.error_iff, firstFault?, List.findSome?_eq_some_iff]
    · rw [settles.ok_iff, firstFault?, List.findSome?_eq_none_iff]
  · intro e built
    obtain ⟨d, value⟩ := built.wellFormed.exists_evaluate p
    refine ⟨d, value, ?_⟩
    rw [evaluateRaising_eq mild, value]
    rfl

/-- Two nodes are at fault. The mean is complete before the sum with three arguments is. -/
theorem evaluation_raises_only_for_counts_mean :
    (apply ⟨"+", .exactly 2, .add⟩ [.var .x, .apply ⟨"geom-mean", .variadic, .geometricMean⟩ [],
      .const (.integer 1)]).evaluateRaising
        (fun base exponent => .ok (Binary.power base exponent))
        ⟨.integer 0, .truth true, .double .nan⟩ = .error .zeroDivision := by
  have mean : (apply ⟨"geom-mean", .variadic, .geometricMean⟩ []).Registered :=
    .apply _ _ rfl (by simp)
  have sum : (apply ⟨"+", .exactly 2, .add⟩ [.var .x,
      .apply ⟨"geom-mean", .variadic, .geometricMean⟩ [],
      .const (.integer 1)]).Registered :=
    .apply _ _ rfl (by simp [mean, Registered.var, Registered.const])
  have mild : Raising.Mild fun base exponent => .ok (Binary.power base exponent) :=
    fun _ _ _ _ => rfl
  obtain ⟨fails, _, raises⟩ := (evaluation_raises_only_for_counts mild
    ⟨.integer 0, .truth true, .double .nan⟩).1 _ sum
  have first := (fails .rootOfNothing).mpr
    ⟨[⟨[0], .var .x⟩], ⟨[1], .apply ⟨"geom-mean", .variadic, .geometricMean⟩ []⟩, _, rfl, rfl,
      by simp [fault?]⟩
  rw [raises, first]
  rfl

end Expr

end Polish
