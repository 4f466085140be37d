import Polish.Expr.Basic

set_option autoImplicit false

namespace Polish.Expr

mutual

@[elab_as_elim, induction_eliminator]
theorem induct {motive : Expr → Prop} (const : ∀ value, motive (.const value))
    (var : ∀ v, motive (.var v))
    (apply : ∀ op args, (∀ e ∈ args, motive e) → motive (.apply op args))
    (foreign : ∀ value, motive (.foreign value)) : ∀ e, motive e
  | .const value => const value
  | .var v => var v
  | .apply op args => apply op args (induct_args const var apply foreign args)
  | .foreign value => foreign value

theorem induct_args {motive : Expr → Prop} (const : ∀ value, motive (.const value))
    (var : ∀ v, motive (.var v))
    (apply : ∀ op args, (∀ e ∈ args, motive e) → motive (.apply op args))
    (foreign : ∀ value, motive (.foreign value)) : ∀ args : List Expr, ∀ e ∈ args, motive e
  | [] => nofun
  | e :: es =>
      List.forall_mem_cons.mpr
        ⟨induct const var apply foreign e, induct_args const var apply foreign es⟩

end

theorem mem_labelsList (label : Label) (args : List Expr) :
    label ∈ labelsList args ↔ ∃ e ∈ args, label ∈ e.labels := by
  induction args with
  | nil => simp [labelsList]
  | cons e es ih => simp [labelsList, ih]

theorem mem_labels_apply (label : Label) (op : Operator) (args : List Expr) :
    label ∈ (apply op args).labels ↔
      label = .operation op.symbol args.length ∨ ∃ e ∈ args, label ∈ e.labels := by
  rw [labels, List.mem_cons, mem_labelsList]

/-- The labels of an argument are among those of the application. -/
theorem mem_labels_of_argument {op : Operator} {args : List Expr} {e : Expr} {label : Label}
    (member : e ∈ args) (inside : label ∈ e.labels) : label ∈ (apply op args).labels :=
  (mem_labels_apply label op args).mpr (Or.inr ⟨e, member, inside⟩)

end Polish.Expr
