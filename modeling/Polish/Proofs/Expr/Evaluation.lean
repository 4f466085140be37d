import Mathlib.Data.List.Forall2
import Polish.Expr.Evaluation
import Polish.Proofs.Expr.Labels

set_option autoImplicit false

namespace Polish

variable {ε δ α β : Type}

namespace Expr

variable {M N : Meaning ε α} {e : Expr} {args : List Expr} {values : List α}

/-- Arguments have values exactly if each of them has its own. -/
theorem evaluateListWith_eq_ok_iff : evaluateListWith M args = .ok values ↔
    List.Forall₂ (fun e value => e.evaluateWith M = .ok value) args values := by
  induction args generalizing values with
  | nil =>
      constructor
      · rintro ⟨⟩
        exact .nil
      · rintro ⟨⟩
        rfl
  | cons e es ih =>
      rw [evaluateListWith]
      constructor
      · intro computed
        cases first : e.evaluateWith M with
        | error error =>
            rw [first] at computed
            cases computed
        | ok value =>
            cases others : evaluateListWith M es with
            | error error =>
                rw [first, others] at computed
                cases computed
            | ok rest =>
                rw [first, others] at computed
                cases computed
                exact .cons first (ih.mp others)
      · rintro (_ | ⟨first, others⟩)
        rw [first, ih.mpr others]
        rfl

theorem exists_evaluateListWith (each : ∀ e ∈ args, ∃ value, e.evaluateWith M = .ok value) :
    ∃ values, evaluateListWith M args = .ok values := by
  induction args with
  | nil => exact ⟨[], rfl⟩
  | cons e es ih =>
      obtain ⟨value, first⟩ := each e (by simp)
      obtain ⟨values, others⟩ := ih fun e member => each e (List.mem_cons_of_mem _ member)
      rw [evaluateListWith_eq_ok_iff] at others
      exact ⟨value :: values, evaluateListWith_eq_ok_iff.mpr (.cons first others)⟩

theorem length_of_evaluateListWith (computed : evaluateListWith M args = .ok values) :
    values.length = args.length :=
  (evaluateListWith_eq_ok_iff.mp computed).length_eq.symm

theorem evaluateWith_apply_of_ok {op : Operator} (operands : evaluateListWith M args = .ok values) :
    (apply op args).evaluateWith M = M.operator op values := by
  rw [evaluateWith, operands]
  rfl

theorem evaluateListWith_congr {as bs : List Expr}
    (alike : List.Forall₂ (fun a b => a.evaluateWith M = b.evaluateWith N) as bs) :
    evaluateListWith M as = evaluateListWith N bs := by
  induction alike with
  | nil => rfl
  | cons first _ ih => rw [evaluateListWith, evaluateListWith, first, ih]

/-- Only what the labels of an expression mean matters. -/
theorem evaluateWith_congr (constants : M.constant = N.constant)
    (operators : M.operator = N.operator) (foreigns : M.foreign = N.foreign)
    (slots : ∀ v, .variable v ∈ e.labels → M.slot v = N.slot v) :
    e.evaluateWith M = e.evaluateWith N := by
  induction e with
  | const value => exact congrFun constants value
  | var v => exact slots v (by simp [labels])
  | apply op args ih =>
      have each : List.Forall₂ (fun a b => a.evaluateWith M = b.evaluateWith N) args args :=
        List.forall₂_same.mpr fun e member => ih e member fun v inside =>
          slots v (mem_labels_of_argument member inside)
      rw [evaluateWith, evaluateWith, evaluateListWith_congr each, operators]
  | foreign value => exact congrArg Except.error (congrFun foreigns value)

end Expr

/-- An outcome with its value and its error carried over. -/
def carry (error : ε → δ) (value : α → β) : Except ε α → Except δ β
  | .ok a => .ok (value a)
  | .error e => .error (error e)

/-- What the second meaning computes is what the first one does, carried over. -/
structure Meaning.Carries (error : ε → δ) (value : α → β) (M : Meaning ε α) (N : Meaning δ β) :
    Prop where
  constant : ∀ n, N.constant n = carry error value (M.constant n)
  slot : ∀ v, N.slot v = carry error value (M.slot v)
  operator : ∀ op values,
    N.operator op (values.map value) = carry error value (M.operator op values)
  foreign : ∀ datum, N.foreign datum = error (M.foreign datum)

namespace Expr

variable {error : ε → δ} {value : α → β} {M : Meaning ε α} {N : Meaning δ β} {args : List Expr}

theorem evaluateListWith_carry
    (each : ∀ e ∈ args, e.evaluateWith N = carry error value (e.evaluateWith M)) :
    evaluateListWith N args = carry error (List.map value) (evaluateListWith M args) := by
  induction args with
  | nil => rfl
  | cons e es ih =>
      rw [evaluateListWith, evaluateListWith, each e (by simp),
        ih fun e member => each e (List.mem_cons_of_mem _ member)]
      cases e.evaluateWith M with
      | error error => rfl
      | ok a => cases evaluateListWith M es <;> rfl

theorem evaluateWith_carry (carries : M.Carries error value N) (e : Expr) :
    e.evaluateWith N = carry error value (e.evaluateWith M) := by
  induction e with
  | const n => exact carries.constant n
  | var v => exact carries.slot v
  | apply op args ih =>
      rw [evaluateWith, evaluateWith, evaluateListWith_carry ih]
      cases evaluateListWith M args with
      | error error => rfl
      | ok values => exact carries.operator op values
  | foreign datum => exact congrArg Except.error (carries.foreign datum)

end Expr

end Polish
