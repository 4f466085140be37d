import Polish.Proofs.Expr.Equality
import Polish.Proofs.Graph.Lowering
import Polish.Session.Basic

set_option autoImplicit false

namespace Polish

/-- Neither a NaN nor the negative zero. -/
def Number.Ordinary (a : Number) : Prop := a ≠ .double .nan ∧ a ≠ .double (.zero true)

/-- No constant is a NaN or the negative zero, and every operator has a kernel. -/
abbrev Expr.Ordinary (e : Expr) : Prop := e.Over Number.Ordinary

theorem Expr.Over.mono {C D : Number → Prop} {e : Expr} (covered : e.Over C)
    (wider : ∀ value, C value → D value) : e.Over D := by
  intro label member
  have one := covered label member
  cases label with
  | constant value => exact wider value one
  | _ => exact one

theorem Expr.Over.naNFree {e : Expr} (ordinary : e.Ordinary) : e.NaNFree :=
  ordinary.mono fun _ both => both.1

theorem Expr.ordinary_canonical {e : Expr} (free : e.NaNFree) : e.canonical.Ordinary := by
  intro label member
  have apart := (naNFree_canonical e).mpr free label member
  rw [labels_canonical] at member
  obtain ⟨original, inside, rfl⟩ := List.mem_map.mp member
  cases original with
  | constant value => exact ⟨apart, Number.canonical_ne_negative_zero value⟩
  | _ => exact apart

namespace Builder

variable {b : Builder}

def NaNFree (b : Builder) : Prop := ∀ entry ∈ b.known, entry.1.NaNFree

/-- The nodes of the known expressions, known by the normal forms. -/
def canonical (b : Builder) : Builder :=
  { b with known := b.known.map fun entry => (entry.1.canonical, entry.2) }

theorem NaNFree.remember (free : b.NaNFree) {e : Expr} {id : Nat} (ordinary : e.Ordinary) :
    (b.remember e id).NaNFree :=
  List.forall_mem_cons.mpr ⟨ordinary.naNFree, free⟩

/-- Looking up a normal form among normal forms finds the same entry. -/
theorem find?_map_canonical {known : List (Expr × Nat)}
    (free : ∀ entry ∈ known, entry.1.NaNFree) (e : Expr) :
    (known.map fun entry => (entry.1.canonical, entry.2)).find?
        (fun entry => e.canonical.same entry.1) =
      (known.find? fun entry => e.same entry.1).map
        fun entry => (entry.1.canonical, entry.2) := by
  induction known with
  | nil => rfl
  | cons entry known ih =>
      rw [List.map_cons, List.find?_cons, List.find?_cons,
        Expr.same_canonical e (free entry (by simp))]
      cases e.same entry.1 with
      | true => rfl
      | false => exact ih fun entry member => free entry (List.mem_cons_of_mem _ member)

theorem seen?_canonical (free : b.NaNFree) (sharing : Bool) (e : Expr) :
    b.canonical.seen? sharing e.canonical = b.seen? sharing e := by
  rw [seen?, seen?, find?, find?, canonical, find?_map_canonical free, Option.map_map]
  rfl

theorem argument_canonical (v : Variable) :
    b.canonical.argument v = ((b.argument v).1, (b.argument v).2.canonical) := by
  unfold argument canonical
  cases b.arguments.lookup v <;> rfl

theorem known_argument (v : Variable) : (b.argument v).2.known = b.known := by
  unfold argument
  cases b.arguments.lookup v <;> rfl

end Builder

namespace Expr

variable {sharing : Bool} {b : Builder}

/-- Lowering the normal form behind the same nodes goes as lowering the expression. -/
def LowersAlike (sharing : Bool) (e : Expr) : Prop :=
  ∀ b : Builder, b.NaNFree → ∃ id b', lowerInto sharing b e = .ok (id, b') ∧ b'.NaNFree ∧
    lowerInto sharing b.canonical e.canonical = .ok (id, b'.canonical)

theorem lowersAlike_args {args : List Expr} (each : ∀ e ∈ args, e.LowersAlike sharing)
    (free : b.NaNFree) :
    ∃ ids b', lowerListInto sharing b args = .ok (ids, b') ∧ b'.NaNFree ∧
      lowerListInto sharing b.canonical (args.map canonical) = .ok (ids, b'.canonical) := by
  induction args generalizing b with
  | nil => exact ⟨[], b, rfl, free, rfl⟩
  | cons e es ih =>
      obtain ⟨id, b₁, first, free₁, first'⟩ := each e (by simp) b free
      obtain ⟨ids, b₂, others, free₂, others'⟩ :=
        ih (fun e member => each e (List.mem_cons_of_mem _ member)) free₁
      refine ⟨id :: ids, b₂, ?_, free₂, ?_⟩
      · rw [lowerListInto, first]
        simp only [bind, Except.bind, others, pure, Except.pure]
      · rw [List.map_cons, lowerListInto, first']
        simp only [bind, Except.bind, others', pure, Except.pure]

theorem lowerInto_of_seen {C : Number → Prop} {e : Expr} (covered : e.Over C) {id : Nat}
    (found : b.seen? sharing e = some id) : lowerInto sharing b e = .ok (id, b) := by
  cases e with
  | foreign value => exact absurd covered not_over_foreign
  | _ => simp only [lowerInto, found]

/-- A known expression is known by its normal form too, so only a new one has to be looked at. -/
theorem lowersAlike_of_unseen {e : Expr} (ordinary : e.Ordinary)
    (unseen : ∀ b : Builder, b.NaNFree → b.seen? sharing e = none →
      b.canonical.seen? sharing e.canonical = none → ∃ (id : Nat) (b' : Builder),
        lowerInto sharing b e = .ok (id, b'.remember e id) ∧ b'.NaNFree ∧
        lowerInto sharing b.canonical e.canonical =
          .ok (id, b'.canonical.remember e.canonical id)) : e.LowersAlike sharing := by
  intro b free
  have alike := Builder.seen?_canonical free sharing e
  cases found : b.seen? sharing e with
  | some id =>
      rw [found] at alike
      exact ⟨id, b, lowerInto_of_seen ordinary found, free,
        lowerInto_of_seen (ordinary_canonical ordinary.naNFree) alike⟩
  | none =>
      rw [found] at alike
      obtain ⟨id, b', lowered, free', lowered'⟩ := unseen b free found alike
      exact ⟨id, b'.remember e id, lowered, free'.remember ordinary, lowered'⟩

theorem lowersAlike (sharing : Bool) {e : Expr} (ordinary : e.Ordinary) :
    e.LowersAlike sharing := by
  induction e with
  | const value =>
      refine lowersAlike_of_unseen ordinary fun b free new new' => ?_
      have apart := (over_const ordinary).2
      rw [canonical] at new' ⊢
      refine ⟨b.nodes.length, (b.add (.constant (.double value.toDouble))).2, ?_, free, ?_⟩
      · rw [lowerInto, new]
        rfl
      · rw [lowerInto, new', Number.toDouble_canonical apart]
        rfl
  | var v =>
      refine lowersAlike_of_unseen ordinary fun b free new new' => ?_
      rw [canonical] at new' ⊢
      refine ⟨_, _, by rw [lowerInto, new], ?_, ?_⟩
      · rw [Builder.NaNFree, Builder.known_argument]
        exact free
      · rw [lowerInto, new', Builder.argument_canonical]
  | apply op args ih =>
      obtain ⟨computed, inside⟩ := over_apply ordinary
      refine lowersAlike_of_unseen ordinary fun b free new new' => ?_
      obtain ⟨ids, b', lowered, free', lowered'⟩ :=
        lowersAlike_args (fun e member => ih e member (inside e member)) free
      have computed' : hasKernel op.canonical.symbol = true := computed
      rw [canonical_apply] at new' ⊢
      refine ⟨(b'.add (.kernel op.symbol ids)).1, (b'.add (.kernel op.symbol ids)).2, ?_, free', ?_⟩
      · simp only [lowerInto, new, computed, ↓reduceIte, lowered, bind, Except.bind, pure,
          Except.pure]
      · simp only [lowerInto, new', computed', ↓reduceIte, lowered', bind, Except.bind, pure,
          Except.pure]
        rfl
  | foreign value => exact absurd ordinary not_over_foreign

theorem lower_canonical (sharing : Bool) {e : Expr} (ordinary : e.Ordinary) :
    e.canonical.lower sharing = e.lower sharing := by
  obtain ⟨id, b, lowered, free, lowered'⟩ :=
    lowersAlike sharing ordinary .empty (by simp [Builder.NaNFree, Builder.empty])
  have empty : Builder.empty.canonical = .empty := rfl
  have hashable : e.canonical.unhashable? = e.unhashable? := by
    rw [unhashable?_of_over ordinary, unhashable?_of_over (ordinary_canonical ordinary.naNFree)]
  rw [empty] at lowered'
  rw [lower, lower, hashable, lowered, lowered']
  rfl

theorem exists_lower (sharing : Bool) {e : Expr} (ordinary : e.Ordinary) :
    ∃ graph, e.lower sharing = .ok graph := by
  obtain ⟨id, b, lowered, _⟩ :=
    lowersAlike sharing ordinary .empty (by simp [Builder.NaNFree, Builder.empty])
  refine ⟨⟨b.nodes, id⟩, ?_⟩
  rw [lower, unhashable?_of_over ordinary, ite_self, lowered]
  rfl

theorem lowerWritten_canonical (sharing : Bool) {e : Expr} (ordinary : e.Ordinary) :
    e.canonical.lowerWritten sharing = e.lowerWritten sharing := by
  rw [lowerWritten, lowerWritten, lower_canonical sharing ordinary, isWritable_canonical]

/-- Equal expressions have the same graph, or none for the same reason. -/
theorem lowerWritten_of_same (sharing : Bool) {a b : Expr} (ordinaryA : a.Ordinary)
    (ordinaryB : b.Ordinary) (same : a.same b = true) :
    a.lowerWritten sharing = b.lowerWritten sharing := by
  have alike : a.canonical = b.canonical := (same_iff_canonical ordinaryB.naNFree).mp same
  rw [← lowerWritten_canonical sharing ordinaryA, alike, lowerWritten_canonical sharing ordinaryB]

theorem naNFree_of_seen (free : b.NaNFree) {e : Expr} {id : Nat}
    (found : b.seen? sharing e = some id) : e.NaNFree := by
  obtain ⟨_, entry, member, same, _⟩ := Builder.exists_known_of_seen found
  have known := free entry member
  rw [← naNFree_canonical, (same_iff_canonical known).mp same]
  exact (naNFree_canonical _).mpr known

theorem HasNoNaN.arguments {op : Operator} {args : List Expr} (apart : (apply op args).HasNoNaN) :
    ∀ e ∈ args, e.HasNoNaN := fun _ member value inside =>
  apart value (mem_labels_of_argument member inside)

theorem over_apply_of {C : Number → Prop} {op : Operator} {args : List Expr}
    (computed : hasKernel op.symbol = true) (inside : ∀ e ∈ args, e.Over C) :
    (apply op args).Over C := by
  intro label member
  rcases (mem_labels_apply _ _ _).mp member with rfl | ⟨e, there, member⟩
  · exact computed
  · exact inside e there label member

/-- What is lowered has kernels for its operators, and no plain value stands in it. -/
def LowersFree (sharing : Bool) (e : Expr) : Prop :=
  ∀ b : Builder, b.NaNFree → ∀ id b', lowerInto sharing b e = .ok (id, b') →
    e.NaNFree ∧ b'.NaNFree

theorem lowersFree_args {args : List Expr} (each : ∀ e ∈ args, e.LowersFree sharing)
    (free : b.NaNFree) {ids : List Nat} {b' : Builder}
    (lowered : lowerListInto sharing b args = .ok (ids, b')) :
    (∀ e ∈ args, e.NaNFree) ∧ b'.NaNFree := by
  induction args generalizing b ids with
  | nil =>
      cases lowered
      exact ⟨by simp, free⟩
  | cons e es ih =>
      obtain ⟨id, b₁, ids', first, others, _⟩ := lowerListInto_cons lowered
      obtain ⟨here, free₁⟩ := each e (by simp) b free id b₁ first
      obtain ⟨there, free₂⟩ :=
        ih (fun e member => each e (List.mem_cons_of_mem _ member)) free₁ others
      exact ⟨List.forall_mem_cons.mpr ⟨here, there⟩, free₂⟩

/-- An expression that is shared equals a known one, so only a new one has to be looked at. -/
theorem lowersFree_of_makes {e : Expr}
    (makes : ∀ b : Builder, b.NaNFree → ∀ id b', Makes sharing b e id b' →
      e.NaNFree ∧ b'.NaNFree) : e.LowersFree sharing := by
  intro b free id b' lowered
  rcases lowerInto_cases lowered with ⟨found, rfl⟩ | ⟨_, b₁, made, rfl⟩
  · exact ⟨naNFree_of_seen free found, free⟩
  · obtain ⟨covered, free₁⟩ := makes b free id b₁ made
    exact ⟨covered, List.forall_mem_cons.mpr ⟨covered, free₁⟩⟩

theorem lowersFree (sharing : Bool) {e : Expr} (apart : e.HasNoNaN) : e.LowersFree sharing := by
  induction e with
  | const value =>
      refine lowersFree_of_makes fun b free id b' made => ?_
      cases made
      refine ⟨?_, free⟩
      intro label member
      rw [labels, List.mem_singleton] at member
      rw [member]
      exact apart value (by simp [labels])
  | var v =>
      refine lowersFree_of_makes fun b free id b' made => ?_
      cases made
      refine ⟨by simp [NaNFree, Over, labels, Label.Lowerable], ?_⟩
      rw [Builder.NaNFree, Builder.known_argument]
      exact free
  | apply op args ih =>
      refine lowersFree_of_makes fun b free id b' made => ?_
      cases made with
      | kernel op args ids b₁ computed lowered =>
          obtain ⟨inside, free₁⟩ :=
            lowersFree_args (fun e member => ih e member (apart.arguments e member)) free lowered
          exact ⟨over_apply_of computed inside, free₁⟩
  | foreign value =>
      intro b free id b' lowered
      cases lowered

theorem naNFree_of_lowerWritten {e : Expr} (apart : e.HasNoNaN) {graph : Graph}
    (lowered : e.lowerWritten sharing = .ok graph) : e.NaNFree := by
  rw [lowerWritten] at lowered
  split at lowered
  · rename_i made
    obtain ⟨b, into, _⟩ := lowerInto_of_lower made
    exact (lowersFree sharing apart .empty (by simp [Builder.NaNFree, Builder.empty]) _ b into).1
  · cases lowered

end Expr

end Polish
