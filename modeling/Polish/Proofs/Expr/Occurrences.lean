import Mathlib.Data.List.Nodup
import Polish.Proofs.Expr.Equality
import Polish.Proofs.Expr.Interchange
import Polish.Proofs.Expr.Subtrees
import Polish.Proofs.Graph.Firsts

set_option autoImplicit false

namespace Polish

/-- An expression inside another one, and the arguments to go down to it from the root. -/
structure Occurrence where
  path : List Nat
  expr : Expr

def Occurrence.arguments (path : List Nat) (index : Nat) : List Expr → List Occurrence
  | [] => []
  | e :: es => ⟨path ++ [index], e⟩ :: arguments path (index + 1) es

namespace Expr

mutual

/-- The expression at a path and all those inside it, each behind those inside it. -/
def occurrences (path : List Nat) : Expr → List Occurrence
  | .apply op args => occurrencesList path 0 args ++ [⟨path, .apply op args⟩]
  | e => [⟨path, e⟩]

def occurrencesList (path : List Nat) (index : Nat) : List Expr → List Occurrence
  | [] => []
  | e :: es => occurrences (path ++ [index]) e ++ occurrencesList path (index + 1) es

end

variable {path : List Nat} {index : Nat} {e : Expr} {args : List Expr} {o inner : Occurrence}

theorem self_mem_occurrences (path : List Nat) (e : Expr) : ⟨path, e⟩ ∈ e.occurrences path := by
  cases e <;> simp [occurrences]

theorem mem_occurrencesList : o ∈ occurrencesList path index args ↔
    ∃ a ∈ Occurrence.arguments path index args, o ∈ a.expr.occurrences a.path := by
  induction args generalizing index with
  | nil => simp [occurrencesList, Occurrence.arguments]
  | cons e es ih => simp [occurrencesList, Occurrence.arguments, ih]

theorem mem_of_mem_arguments (member : o ∈ Occurrence.arguments path index args) :
    o.expr ∈ args ∧ ∃ later, index ≤ later ∧ o.path = path ++ [later] := by
  induction args generalizing index with
  | nil => cases member
  | cons e es ih =>
      rcases List.mem_cons.mp member with rfl | member
      · exact ⟨by simp, index, Nat.le_refl index, rfl⟩
      · obtain ⟨inside, later, behind, place⟩ := ih member
        exact ⟨List.mem_cons_of_mem e inside, later, Nat.le_of_succ_le behind, place⟩

theorem argument_mem_occurrencesList (member : o ∈ Occurrence.arguments path index args) :
    o ∈ occurrencesList path index args :=
  mem_occurrencesList.mpr ⟨o, member, self_mem_occurrences o.path o.expr⟩

/-- What holds of an occurrence, and of an application if of one of its arguments, holds of the
expression it occurs in. -/
theorem occurrence_induction {motive : List Nat → Expr → Prop} (self : motive o.path o.expr)
    (argument : ∀ path op args, ∀ a ∈ Occurrence.arguments path 0 args,
      motive a.path a.expr → motive path (.apply op args))
    (member : o ∈ e.occurrences path) : motive path e := by
  induction e generalizing path with
  | apply op args ih =>
      rw [occurrences, List.mem_append, List.mem_singleton] at member
      rcases member with inside | rfl
      · obtain ⟨a, there, deeper⟩ := mem_occurrencesList.mp inside
        exact argument path op args a there (ih a.expr (mem_of_mem_arguments there).1 deeper)
      · exact self
  | _ =>
      rw [occurrences, List.mem_singleton] at member
      · subst member
        exact self
      · simp

/-- What is inside an occurrence occurs. -/
theorem mem_occurrences_trans (member : o ∈ e.occurrences path)
    (deeper : inner ∈ o.expr.occurrences o.path) : inner ∈ e.occurrences path := by
  refine occurrence_induction (motive := fun path e => inner ∈ e.occurrences path) deeper ?_ member
  intro path op args a there inside
  rw [occurrences, List.mem_append]
  exact Or.inl (mem_occurrencesList.mpr ⟨a, there, inside⟩)

theorem expr_mem_subtrees (member : o ∈ e.occurrences path) : o.expr ∈ e.subtrees := by
  refine occurrence_induction (motive := fun _ e => o.expr ∈ e.subtrees) (self_mem_subtrees _) ?_
    member
  intro path op args a there inside
  rw [subtrees, List.mem_cons]
  exact Or.inr (mem_subtreesList.mpr ⟨a.expr, (mem_of_mem_arguments there).1, inside⟩)

theorem over_of_mem_occurrences {C : Number → Prop} (covered : e.Over C)
    (member : o ∈ e.occurrences path) : o.expr.Over C := fun label inside =>
  covered label (labels_of_mem_subtrees (expr_mem_subtrees member) inside)

theorem prefix_of_mem_occurrences (member : o ∈ e.occurrences path) : path <+: o.path := by
  refine occurrence_induction (motive := fun path _ => path <+: o.path) List.prefix_rfl ?_ member
  intro path op args a there deeper
  obtain ⟨_, later, _, place⟩ := mem_of_mem_arguments there
  rw [place] at deeper
  exact (List.prefix_append path [later]).trans deeper

theorem prefix_of_mem_occurrencesList (member : o ∈ occurrencesList path index args) :
    ∃ later, index ≤ later ∧ path ++ [later] <+: o.path := by
  obtain ⟨a, argument, inside⟩ := mem_occurrencesList.mp member
  obtain ⟨_, later, behind, place⟩ := mem_of_mem_arguments argument
  exact ⟨later, behind, place ▸ prefix_of_mem_occurrences inside⟩

/-- The places inside an argument are not those inside a later one. -/
theorem nodup_paths_list (each : ∀ e ∈ args, ∀ path, ((e.occurrences path).map (·.path)).Nodup) :
    ((occurrencesList path index args).map (·.path)).Nodup := by
  induction args generalizing index with
  | nil => exact List.nodup_nil
  | cons e es ih =>
      rw [occurrencesList, List.map_append, List.nodup_append]
      refine ⟨each e (by simp) _, ih fun e member => each e (List.mem_cons_of_mem _ member), ?_⟩
      intro place here place' there same
      obtain ⟨o, member, rfl⟩ := List.mem_map.mp here
      obtain ⟨o', member', rfl⟩ := List.mem_map.mp there
      obtain ⟨later, behind, second⟩ := prefix_of_mem_occurrencesList member'
      have first := prefix_of_mem_occurrences member
      rw [same] at first
      have equal : path ++ [index] = path ++ [later] :=
        (List.prefix_of_prefix_length_le first second (by simp)).eq_of_length (by simp)
      have alike : index = later := by simpa using equal
      omega

/-- Different occurrences stand at different places. -/
theorem nodup_paths (path : List Nat) (e : Expr) : ((e.occurrences path).map (·.path)).Nodup := by
  induction e generalizing path with
  | apply op args ih =>
      rw [occurrences, List.map_append, List.nodup_append]
      refine ⟨nodup_paths_list ih, by simp, ?_⟩
      intro place here place' there same
      obtain ⟨o, member, rfl⟩ := List.mem_map.mp here
      obtain ⟨later, _, deeper⟩ := prefix_of_mem_occurrencesList member
      have own : place' = path := by simpa using there
      have short := deeper.length_le
      rw [same, own, List.length_append, List.length_singleton] at short
      omega
  | _ =>
      rw [occurrences]
      · simp
      · simp

theorem length_labels_le_list (member : e ∈ args) :
    e.labels.length ≤ (labelsList args).length := by
  induction args with
  | nil => cases member
  | cons first others ih =>
      rw [labelsList, List.length_append]
      rcases List.mem_cons.mp member with rfl | later
      · omega
      · have below := ih later
        omega

theorem length_labels_le_of_mem {deeper : Expr} (inside : deeper ∈ e.subtrees) :
    deeper.labels.length ≤ e.labels.length := by
  refine subtree_induction (motive := fun e => deeper.labels.length ≤ e.labels.length)
    (Nat.le_refl _) ?_ inside
  intro op args a there shorter
  have part := length_labels_le_list there
  rw [labels, List.length_cons]
  omega

/-- What is inside an application is smaller than it, so it is not equal to it. -/
theorem not_same_of_mem_occurrencesList {op : Operator}
    (member : o ∈ occurrencesList path index args) : (apply op args).same o.expr = false := by
  rw [Bool.eq_false_iff]
  intro same
  obtain ⟨a, argument, inside⟩ := mem_occurrencesList.mp member
  have below := length_labels_le_of_mem (expr_mem_subtrees inside)
  have part := length_labels_le_list (mem_of_mem_arguments argument).1
  have equal := length_labels_of_same same
  rw [labels, List.length_cons] at equal
  omega

theorem occurrencesList_of_same {as bs : List Expr} {path' : List Nat}
    (same : List.Forall₂ (·.same · = true) as bs)
    (each : ∀ a ∈ as, ∀ b path path', a.same b = true →
      List.Forall₂ (·.expr.same ·.expr = true) (a.occurrences path) (b.occurrences path')) :
    List.Forall₂ (·.expr.same ·.expr = true) (occurrencesList path index as)
      (occurrencesList path' index bs) := by
  induction same generalizing index with
  | nil => exact .nil
  | @cons a b as bs here _ ih =>
      rw [occurrencesList, occurrencesList]
      exact List.rel_append (each a (by simp) b _ _ here)
        (ih fun a member => each a (List.mem_cons_of_mem _ member))

/-- In equal expressions, equal ones stand in the same order. -/
theorem occurrences_of_same {a b : Expr} (same : a.same b = true) (path path' : List Nat) :
    List.Forall₂ (·.expr.same ·.expr = true) (a.occurrences path) (b.occurrences path') := by
  induction a generalizing b path path' with
  | apply op args ih =>
      cases b with
      | apply other others =>
          have whole := same
          rw [Expr.same, Bool.and_eq_true] at same
          rw [occurrences, occurrences]
          exact List.rel_append (occurrencesList_of_same (forall₂_of_sameList same.2)
            fun a member b path path' alike => ih a member alike path path') (.cons whole .nil)
      | _ => simp [Expr.same] at same
  | _ =>
      cases b with
      | apply other others => simp [Expr.same] at same
      | _ =>
          rw [occurrences, occurrences]
          · exact .cons same .nil
          · simp
          · simp

end Expr

namespace Occurrence

/-- What keeps occurrences apart without sharing: their places, but for a variable its name. -/
def identity (o : Occurrence) : List Nat ⊕ Variable :=
  match o.expr with
  | .var v => .inr v
  | _ => .inl o.path

theorem identity_of_var {o : Occurrence} {v : Variable} (named : o.expr = .var v) :
    o.identity = .inr v := by
  rw [identity, named]

theorem identity_of_other {o : Occurrence} (other : ∀ v, o.expr ≠ .var v) :
    o.identity = .inl o.path := by
  rw [identity]
  split
  · rename_i v named
    exact absurd named (other v)
  · rfl

/-- Whether two occurrences have one node together. -/
def merges (sharing : Bool) (a b : Occurrence) : Bool :=
  if sharing then a.expr.same b.expr else a.identity = b.identity

theorem merges_true (a b : Occurrence) : merges true a b = a.expr.same b.expr := rfl

theorem merges_false (a b : Occurrence) : merges false a b = true ↔ a.identity = b.identity := by
  rw [merges, if_neg Bool.false_ne_true, decide_eq_true_eq]

theorem groups_merges (sharing : Bool) : Groups (·.expr.NaNFree) (merges sharing) := by
  cases sharing with
  | true =>
      refine ⟨fun a free => (Expr.same_iff_canonical free).mpr rfl, ?_, ?_⟩
      · intro a b freeA freeB same
        rw [merges_true, Expr.same_iff_canonical freeB] at same
        rw [merges_true, Expr.same_iff_canonical freeA, same]
      · intro a b c _ freeB freeC first second
        rw [merges_true, Expr.same_iff_canonical freeB] at first
        rw [merges_true, Expr.same_iff_canonical freeC] at second
        rw [merges_true, Expr.same_iff_canonical freeC, first, second]
  | false =>
      refine ⟨fun a _ => (merges_false a a).mpr rfl, ?_, ?_⟩
      · intro a b _ _ same
        exact (merges_false b a).mpr ((merges_false a b).mp same).symm
      · intro a b c _ _ _ first second
        exact (merges_false a c).mpr (((merges_false a b).mp first).trans
          ((merges_false b c).mp second))

/-- Occurrences of one expression are the same, or of one variable, if they have one node without
sharing. -/
theorem merges_false_iff {path : List Nat} {e : Expr} {a b : Occurrence}
    (memberA : a ∈ e.occurrences path) (memberB : b ∈ e.occurrences path) :
    merges false a b = true ↔ a = b ∨ ∃ v, a.expr = .var v ∧ b.expr = .var v := by
  have unique : a.path = b.path → a = b :=
    List.inj_on_of_nodup_map (Expr.nodup_paths path e) memberA memberB
  rw [merges_false, identity, identity]
  constructor
  · intro same
    cases left : a.expr <;> cases right : b.expr <;> simp_all
  · rintro (rfl | ⟨v, left, right⟩)
    · rfl
    · rw [left, right]

end Occurrence

end Polish
