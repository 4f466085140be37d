import Polish.Expr.Rendering
import Polish.Proofs.Graph.Lowering

set_option autoImplicit false

namespace Polish

def Operator.canonical (op : Operator) : Operator := { op with kernel := .add }

theorem Operator.same_iff_canonical (a b : Operator) :
    a.same b = true ↔ a.canonical = b.canonical := by
  simp [same, canonical]

namespace Expr

mutual

/-- The normal form for equality. -/
def canonical : Expr → Expr
  | .const value => .const value.canonical
  | .var v => .var v
  | .apply op args => .apply op.canonical (canonicalList args)
  | .foreign value => .foreign value

def canonicalList : List Expr → List Expr
  | [] => []
  | e :: es => canonical e :: canonicalList es

end

theorem canonicalList_eq_map (es : List Expr) : canonicalList es = es.map canonical := by
  induction es with
  | nil => rfl
  | cons e es ih => rw [canonicalList, ih, List.map_cons]

theorem canonical_apply (op : Operator) (args : List Expr) :
    (apply op args).canonical = .apply op.canonical (args.map canonical) := by
  rw [canonical, canonicalList_eq_map]

def HasNoNaN (e : Expr) : Prop := ∀ value, .constant value ∈ e.labels → value ≠ .double .nan

/-- No constant is a NaN, and every operator has a kernel. -/
abbrev NaNFree (e : Expr) : Prop := e.Over (· ≠ .double .nan)

theorem sameList_iff_canonical {as bs : List Expr}
    (each : ∀ a ∈ as, ∀ b, b.NaNFree → (a.same b = true ↔ a.canonical = b.canonical))
    (ordinary : ∀ b ∈ bs, b.NaNFree) :
    sameList as bs = true ↔ as.map canonical = bs.map canonical := by
  induction as generalizing bs with
  | nil => cases bs <;> simp [sameList]
  | cons a as ih =>
      cases bs with
      | nil => simp [sameList]
      | cons b bs =>
          rw [sameList, Bool.and_eq_true, each a (by simp) b (ordinary b (by simp)),
            ih (fun a member => each a (List.mem_cons_of_mem _ member))
              (fun b member => ordinary b (List.mem_cons_of_mem _ member)),
            List.map_cons, List.map_cons, List.cons.injEq]

/-- Expressions are equal when their normal forms are, as long as one holds no NaN. -/
theorem same_iff_canonical {a b : Expr} (ordinary : b.NaNFree) :
    a.same b = true ↔ a.canonical = b.canonical := by
  induction a generalizing b with
  | const value =>
      cases b with
      | const other =>
          have apart : other ≠ .double .nan := over_const (C := (· ≠ .double .nan)) ordinary
          rw [same, canonical, canonical, const.injEq, Number.same_iff_canonical apart]
      | _ => simp [same, canonical]
  | var v => cases b <;> simp [same, canonical]
  | apply op args ih =>
      cases b with
      | apply other others =>
          rw [same, Bool.and_eq_true, Operator.same_iff_canonical,
            sameList_iff_canonical (fun a member b => ih a member) (over_apply ordinary).2,
            canonical_apply, canonical_apply, apply.injEq]
      | _ => simp [same, canonical]
  | foreign value =>
      cases b with
      | foreign other => exact absurd ordinary not_over_foreign
      | _ => simp [same, canonical]

theorem canonical_canonical (e : Expr) : e.canonical.canonical = e.canonical := by
  induction e with
  | const value => rw [canonical, canonical, Number.canonical_canonical]
  | var v => rfl
  | apply op args ih =>
      rw [canonical_apply, canonical_apply, List.map_map]
      have each : ∀ e ∈ args, (canonical ∘ canonical) e = e.canonical := ih
      rw [List.map_congr_left each]
      rfl
  | foreign value => rfl

def Label.canonical : Label → Label
  | .constant value => .constant value.canonical
  | label => label

theorem labelsList_map_canonical {args : List Expr}
    (each : ∀ e ∈ args, e.canonical.labels = e.labels.map Label.canonical) :
    labelsList (args.map canonical) = (labelsList args).map Label.canonical := by
  induction args with
  | nil => rfl
  | cons e es ih =>
      rw [List.map_cons, labelsList, labelsList, List.map_append, each e (by simp),
        ih fun e member => each e (List.mem_cons_of_mem _ member)]

theorem labels_canonical (e : Expr) : e.canonical.labels = e.labels.map Label.canonical := by
  induction e with
  | apply op args ih =>
      rw [canonical_apply, labels, labels, labelsList_map_canonical ih, List.length_map]
      rfl
  | _ => rfl

/-- The normal form has no NaN exactly if the expression has none. -/
theorem naNFree_canonical (e : Expr) : e.canonical.NaNFree ↔ e.NaNFree := by
  unfold NaNFree Over
  rw [labels_canonical, List.forall_mem_map]
  refine forall₂_congr fun label _ => ?_
  cases label with
  | constant value => exact not_congr (Number.canonical_eq_nan_iff value)
  | _ => rfl

/-- The normal forms are equal exactly if the expressions are. -/
theorem same_canonical (a : Expr) {b : Expr} (ordinary : b.NaNFree) :
    a.canonical.same b.canonical = a.same b := by
  rw [Bool.eq_iff_iff, same_iff_canonical ordinary,
    same_iff_canonical ((naNFree_canonical b).mpr ordinary), canonical_canonical,
    canonical_canonical]

theorem isWritable_canonical (e : Expr) : e.canonical.isWritable = e.isWritable := by
  rw [isWritable, isWritable, labels_canonical, List.all_map]
  congr 1
  funext label
  cases label with
  | constant value => exact Number.isWritable_canonical value
  | _ => rfl

end Expr

end Polish
