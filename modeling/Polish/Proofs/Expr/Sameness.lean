import Polish.Proofs.Expr.Evaluation
import Polish.Proofs.Expr.Labels

set_option autoImplicit false

namespace Polish

/-- Of two lists related one by one, a member of the second is related to one of the first. -/
theorem exists_of_mem_forall₂ {β γ : Type} {R : β → γ → Prop} {as : List β} {bs : List γ} {b : γ}
    (related : List.Forall₂ R as bs) (member : b ∈ bs) : ∃ a ∈ as, R a b := by
  induction related with
  | nil => cases member
  | @cons a first as bs here _ ih =>
      rcases List.mem_cons.mp member with rfl | later
      · exact ⟨a, by simp, here⟩
      · obtain ⟨other, inside, there⟩ := ih later
        exact ⟨other, List.mem_cons_of_mem a inside, there⟩

namespace Expr

/-- The labels are the same, but for constants, which are equal. -/
def Label.Alike : Label → Label → Prop
  | .operation symbol count, .operation other others => symbol = other ∧ count = others
  | .variable v, .variable w => v = w
  | .constant value, .constant other => value.same other = true
  | .foreign _, .foreign _ => True
  | _, _ => False

/-- Lists of equal expressions, one by one. -/
theorem forall₂_of_sameList {as bs : List Expr} (same : sameList as bs = true) :
    List.Forall₂ (·.same · = true) as bs := by
  induction as generalizing bs with
  | nil =>
      cases bs with
      | nil => exact .nil
      | cons b bs => simp [sameList] at same
  | cons a as ih =>
      cases bs with
      | nil => simp [sameList] at same
      | cons b bs =>
          rw [sameList, Bool.and_eq_true] at same
          exact .cons same.1 (ih same.2)

theorem labelsList_of_same {as bs : List Expr} (same : List.Forall₂ (·.same · = true) as bs)
    (each : ∀ a ∈ as, ∀ b, a.same b = true → List.Forall₂ Label.Alike a.labels b.labels) :
    List.Forall₂ Label.Alike (labelsList as) (labelsList bs) := by
  induction same with
  | nil => exact .nil
  | @cons a b as bs here _ ih =>
      exact List.rel_append (each a (by simp) b here)
        (ih fun a member => each a (List.mem_cons_of_mem _ member))

/-- Equal expressions have the same labels place by place, but for constants. -/
theorem labels_of_same {a b : Expr} (same : a.same b = true) :
    List.Forall₂ Label.Alike a.labels b.labels := by
  induction a generalizing b with
  | const value =>
      cases b with
      | const other =>
          rw [Expr.same] at same
          exact .cons same .nil
      | _ => simp [Expr.same] at same
  | var v =>
      cases b with
      | var w =>
          rw [Expr.same, beq_iff_eq] at same
          exact .cons same .nil
      | _ => simp [Expr.same] at same
  | apply op args ih =>
      cases b with
      | apply other others =>
          rw [Expr.same, Bool.and_eq_true, Operator.same, Bool.and_eq_true, beq_iff_eq] at same
          obtain ⟨⟨symbol, _⟩, arguments⟩ := same
          have beside := forall₂_of_sameList arguments
          exact .cons ⟨symbol, beside.length_eq⟩
            (labelsList_of_same beside fun a member b => ih a member)
      | _ => simp [Expr.same] at same
  | foreign value =>
      cases b with
      | foreign other => exact .cons trivial .nil
      | _ => simp [Expr.same] at same

theorem length_labels_of_same {a b : Expr} (same : a.same b = true) :
    a.labels.length = b.labels.length := (labels_of_same same).length_eq

/-- Equal expressions have the same variables. -/
theorem variable_mem_labels_of_same {a b : Expr} {v : Variable} (same : a.same b = true) :
    .variable v ∈ a.labels ↔ .variable v ∈ b.labels := by
  have alike := labels_of_same same
  constructor
  · intro member
    obtain ⟨label, inside, here⟩ := exists_of_mem_forall₂ alike.flip member
    cases label <;> cases here
    exact inside
  · intro member
    obtain ⟨label, inside, here⟩ := exists_of_mem_forall₂ alike member
    cases label <;> cases here
    exact inside

/-- The constants at the same places of two expressions are so related. -/
def Beside (R : Number → Number → Prop) (a b : Expr) : Prop :=
  ∀ x y, (Label.constant x, Label.constant y) ∈ a.labels.zip b.labels → R x y

def BesideList (R : Number → Number → Prop) (as bs : List Expr) : Prop :=
  ∀ x y, (Label.constant x, Label.constant y) ∈ (labelsList as).zip (labelsList bs) → R x y

variable {R : Number → Number → Prop}

theorem beside_const (x y : Number) : (const x).Beside R (const y) ↔ R x y := by
  simp [Beside, labels]

theorem beside_apply (op other : Operator) (as bs : List Expr) :
    (apply op as).Beside R (apply other bs) ↔ BesideList R as bs := by
  simp [Beside, BesideList, labels]

/-- Equal expressions have as many labels, so those behind them are still beside each other. -/
theorem besideList_cons {a b : Expr} (same : a.same b = true) (as bs : List Expr) :
    BesideList R (a :: as) (b :: bs) ↔ a.Beside R b ∧ BesideList R as bs := by
  have split : (labelsList (a :: as)).zip (labelsList (b :: bs)) =
      a.labels.zip b.labels ++ (labelsList as).zip (labelsList bs) :=
    List.zip_append (length_labels_of_same same)
  simp only [BesideList, Beside, split, List.mem_append, or_imp, forall_and]

/-- The constants of equal expressions are equal place by place. -/
theorem beside_of_same {a b : Expr} (same : a.same b = true) : a.Beside (·.same · = true) b :=
  fun _ _ member => (List.forall₂_iff_zip.mp (labels_of_same same)).2 member

variable {ε α : Type} {M : Meaning ε α}

theorem evaluateListWith_of_beside {as bs : List Expr}
    (same : List.Forall₂ (·.same · = true) as bs)
    (each : ∀ a ∈ as, ∀ b, a.same b = true → a.Beside (M.constant · = M.constant ·) b →
      a.evaluateWith M = b.evaluateWith M)
    (constants : BesideList (M.constant · = M.constant ·) as bs) :
    evaluateListWith M as = evaluateListWith M bs := by
  refine evaluateListWith_congr ?_
  induction same with
  | nil => exact .nil
  | @cons a b as bs here _ ih =>
      rw [besideList_cons here] at constants
      exact .cons (each a (by simp) b here constants.1)
        (ih (fun a member => each a (List.mem_cons_of_mem _ member)) constants.2)

/-- Equal expressions have equal values, if their constants mean the same place by place and
operators with one symbol mean the same. -/
theorem evaluateWith_of_beside {a b : Expr}
    (operators : ∀ op other, op.symbol = other.symbol → M.operator op = M.operator other)
    (plain : ∀ datum, .foreign datum ∉ a.labels) (same : a.same b = true)
    (constants : a.Beside (M.constant · = M.constant ·) b) :
    a.evaluateWith M = b.evaluateWith M := by
  induction a generalizing b with
  | const value =>
      cases b with
      | const other => exact (beside_const value other).mp constants
      | _ => simp [Expr.same] at same
  | var v =>
      cases b with
      | var w =>
          rw [Expr.same, beq_iff_eq] at same
          rw [same]
      | _ => simp [Expr.same] at same
  | apply op args ih =>
      cases b with
      | apply other others =>
          rw [Expr.same, Bool.and_eq_true, Operator.same, Bool.and_eq_true, beq_iff_eq] at same
          obtain ⟨⟨symbol, _⟩, arguments⟩ := same
          have inside : ∀ e ∈ args, ∀ datum, .foreign datum ∉ e.labels :=
            fun e member datum within => plain datum (mem_labels_of_argument member within)
          rw [beside_apply] at constants
          rw [evaluateWith, evaluateWith, operators op other symbol, evaluateListWith_of_beside
            (forall₂_of_sameList arguments) (fun a member b => ih a member (inside a member))
            constants]
      | _ => simp [Expr.same] at same
  | foreign value => exact absurd (List.mem_singleton_self _) (plain value)

end Expr

end Polish
