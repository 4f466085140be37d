import Polish.Proofs.Expr.Labels

set_option autoImplicit false

namespace Polish.Expr

mutual

def subtrees : Expr → List Expr
  | .apply op args => .apply op args :: subtreesList args
  | e => [e]

def subtreesList : List Expr → List Expr
  | [] => []
  | e :: es => subtrees e ++ subtreesList es

end

theorem mem_subtreesList {inner : Expr} {args : List Expr} :
    inner ∈ subtreesList args ↔ ∃ e ∈ args, inner ∈ e.subtrees := by
  induction args with
  | nil => simp [subtreesList]
  | cons e es ih => simp [subtreesList, ih]

theorem self_mem_subtrees (e : Expr) : e ∈ e.subtrees := by
  cases e <;> simp [subtrees]

theorem const_mem_subtrees {e : Expr} {value : Number} (member : .constant value ∈ e.labels) :
    .const value ∈ e.subtrees := by
  induction e with
  | const other =>
      rw [labels, List.mem_singleton] at member
      cases member
      exact self_mem_subtrees _
  | var v => simp [labels] at member
  | apply op args ih =>
      rcases (mem_labels_apply _ _ _).mp member with here | ⟨e, inside, member⟩
      · cases here
      · rw [subtrees]
        exact List.mem_cons_of_mem _ (mem_subtreesList.mpr ⟨e, inside, ih e inside member⟩)
  | foreign other => simp [labels] at member

/-- What holds of a subtree, and of an application if of one of its arguments, holds of the tree. -/
theorem subtree_induction {motive : Expr → Prop} {e inner : Expr} (self : motive inner)
    (argument : ∀ op args, ∀ a ∈ args, motive a → motive (.apply op args))
    (inside : inner ∈ e.subtrees) : motive e := by
  induction e with
  | apply op args ih =>
      rw [subtrees, List.mem_cons] at inside
      rcases inside with rfl | deeper
      · exact self
      · obtain ⟨a, there, inside⟩ := mem_subtreesList.mp deeper
        exact argument op args a there (ih a there inside)
  | _ =>
      rw [subtrees, List.mem_singleton] at inside
      · exact inside ▸ self
      · simp

/-- What is inside a subtree is inside the tree. -/
theorem labels_of_mem_subtrees {e inner : Expr} (inside : inner ∈ e.subtrees) {label : Label}
    (member : label ∈ inner.labels) : label ∈ e.labels := by
  refine subtree_induction (motive := fun e => label ∈ e.labels) member ?_ inside
  intro op args a there deeper
  exact mem_labels_of_argument there deeper

end Polish.Expr
