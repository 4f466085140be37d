import Polish.Proofs.Expr.Occurrences
import Polish.Proofs.Graph.Order
import Polish.Proofs.Graph.Refusal

/-!
The graph of an expression, told without the tables that lowering keeps. Occurrences fall into
classes: with sharing equal ones go together, without it only those of one variable. Main statement:
the graph has one node for each class, made for the first of its members that is complete. The
invariant says so of the occurrences behind which the lowering stands.
-/

set_option autoImplicit false

namespace Polish

namespace Occurrence

/-- The instruction for an occurrence whose arguments have nodes with these numbers. -/
def instruction (number : Occurrence → Nat) (o : Occurrence) : Instruction :=
  match o.expr with
  | .const value => .constant (.double value.toDouble)
  | .var v => .argument (some v.name)
  | .apply op args => .kernel op.symbol ((arguments o.path 0 args).map number)
  | .foreign _ => .argument none

end Occurrence

namespace Expr

/-- The number of the class of an occurrence, in the order in which the classes turn up. -/
def classOf (sharing : Bool) (root : Expr) : Occurrence → Nat :=
  classNumber (Occurrence.merges sharing) (root.occurrences [])

/-- The node of the class whose first member is the given one. -/
def classNode (sharing : Bool) (root : Expr) (o : Occurrence) : Node :=
  ⟨root.classOf sharing o, o.instruction (root.classOf sharing)⟩

def quotient (sharing : Bool) (root : Expr) : Graph :=
  ⟨((root.occurrences []).eraseDupsBy (Occurrence.merges sharing)).map (root.classNode sharing),
    root.classOf sharing ⟨[], root⟩⟩

end Expr

open Occurrence

variable {sharing : Bool} {root e : Expr} {done more : List Occurrence} {o earlier : Occurrence}
  {path : List Nat}

namespace Expr

theorem naNFree_of_mem (free : root.NaNFree) (member : o ∈ root.occurrences []) : o.expr.NaNFree :=
  over_of_mem_occurrences free member

theorem classOf_of_merges (free : root.NaNFree) (member : o ∈ root.occurrences [])
    (member' : earlier ∈ root.occurrences []) (together : o.merges sharing earlier = true) :
    root.classOf sharing o = root.classOf sharing earlier :=
  (groups_merges sharing).classNumber_of_alike (fun _ => naNFree_of_mem free)
    (naNFree_of_mem free member) (naNFree_of_mem free member') together

/-- Occurrences with one node are equal, shared or not. -/
theorem same_of_merges (free : root.NaNFree) (member : o ∈ root.occurrences [])
    (member' : earlier ∈ root.occurrences []) (together : o.merges sharing earlier = true) :
    o.expr.same earlier.expr = true := by
  cases sharing with
  | true => exact together
  | false =>
      rcases (merges_false_iff member member').mp together with rfl | ⟨v, left, right⟩
      · exact (same_iff_canonical (naNFree_of_mem free member)).mpr rfl
      · simp [left, right, Expr.same]

end Expr

namespace Occurrence

theorem merges_of_var {v : Variable} (named : o.expr = .var v) (named' : earlier.expr = .var v) :
    o.merges sharing earlier = true := by
  cases sharing with
  | true =>
      rw [merges_true, named, named', Expr.same]
      exact beq_self_eq_true v
  | false => rw [merges_false, identity_of_var named, identity_of_var named']

theorem var_of_merges {v : Variable} (named : o.expr = .var v)
    (together : o.merges sharing earlier = true) : earlier.expr = .var v := by
  cases sharing with
  | true =>
      rw [merges_true, named] at together
      cases other : earlier.expr with
      | var w =>
          rw [other, Expr.same, beq_iff_eq] at together
          rw [together]
      | _ =>
          rw [other] at together
          cases together
  | false =>
      rw [merges_false, identity_of_var named, identity] at together
      cases other : earlier.expr <;> simp_all

/-- Without sharing, only occurrences of a variable go together with others. -/
theorem not_merges (apart : earlier.path ≠ o.path) (other : ∀ v, o.expr ≠ .var v)
    (unlike : sharing = true → o.expr.same earlier.expr = false) :
    o.merges sharing earlier = false := by
  cases sharing with
  | true => exact unlike rfl
  | false =>
      rw [Bool.eq_false_iff, Ne, merges_false, identity_of_other other, identity]
      split
      · exact Sum.inl_ne_inr
      · exact fun together => apart (Sum.inl.inj together).symm

theorem path_ne_of_inside (inside : done ++ [o] <+: root.occurrences []) (member : earlier ∈ done) :
    earlier.path ≠ o.path := by
  have distinct := (Expr.nodup_paths [] root).sublist (inside.sublist.map (·.path))
  rw [List.map_append, List.nodup_append] at distinct
  exact distinct.2.2 _ (List.mem_map_of_mem member) _ (by simp)

end Occurrence

namespace Builder

variable {b b' : Builder}

/-- The nodes and the tables are those of the occurrences that are complete. -/
structure Stands (sharing : Bool) (root : Expr) (done : List Occurrence) (b : Builder) : Prop where
  nodes : b.nodes = (done.eraseDupsBy (merges sharing)).map (root.classNode sharing)
  arguments : ∀ v id, b.arguments.lookup v = some id ↔
    ∃ o ∈ done, o.expr = .var v ∧ root.classOf sharing o = id
  known : ∀ entry ∈ b.known, ∃ o ∈ done, o.expr = entry.1 ∧ root.classOf sharing o = entry.2
  noted : ∀ o ∈ done, ∃ entry ∈ b.known, o.expr.same entry.1 = true
  closed : ∀ o ∈ done, ∀ inner ∈ o.expr.occurrences o.path, inner ∈ done

theorem stands_empty (sharing : Bool) (root : Expr) : Stands sharing root [] empty := by
  refine ⟨rfl, ?_, ?_, ?_, ?_⟩ <;> simp [empty]

theorem Stands.length (stands : Stands sharing root done b) :
    b.nodes.length = (done.eraseDupsBy (merges sharing)).length := by
  rw [stands.nodes, List.length_map]

/-- What is inside the occurrences of an expression is among them. -/
theorem Stands.closed_append (stands : Stands sharing root done b) (path : List Nat) (e : Expr) :
    ∀ o ∈ done ++ e.occurrences path, ∀ inner ∈ o.expr.occurrences o.path,
      inner ∈ done ++ e.occurrences path := by
  intro o member inner deeper
  rw [List.mem_append] at member ⊢
  rcases member with early | late
  · exact Or.inl (stands.closed o early inner deeper)
  · exact Or.inr (Expr.mem_occurrences_trans late deeper)

/-- Occurrences that go together with complete ones add nothing. -/
theorem Stands.absorb (stands : Stands sharing root done b) (free : root.NaNFree)
    (inside : done ++ more <+: root.occurrences [])
    (again : ∀ o ∈ more, ∃ earlier ∈ done, o.merges sharing earlier = true)
    (closed : ∀ o ∈ done ++ more, ∀ inner ∈ o.expr.occurrences o.path, inner ∈ done ++ more) :
    Stands sharing root (done ++ more) b := by
  have fine : ∀ o ∈ done ++ more, o.expr.NaNFree := fun o member =>
    Expr.naNFree_of_mem free (inside.subset member)
  have early : ∀ o ∈ done, o ∈ root.occurrences [] := fun o member =>
    inside.subset (List.mem_append_left more member)
  have late : ∀ o ∈ more, o ∈ root.occurrences [] := fun o member =>
    inside.subset (List.mem_append_right done member)
  refine ⟨?_, ?_, ?_, ?_, closed⟩
  · rw [(groups_merges sharing).eraseDupsBy_absorb fine again]
    exact stands.nodes
  · intro v id
    rw [stands.arguments]
    constructor
    · rintro ⟨o, member, named⟩
      exact ⟨o, List.mem_append_left more member, named⟩
    · rintro ⟨o, member, named, number⟩
      rcases List.mem_append.mp member with before | after
      · exact ⟨o, before, named, number⟩
      · obtain ⟨earlier, before, together⟩ := again o after
        refine ⟨earlier, before, var_of_merges named together, ?_⟩
        rw [← number, Expr.classOf_of_merges free (late o after) (early earlier before) together]
  · intro entry member
    obtain ⟨o, there, rest⟩ := stands.known entry member
    exact ⟨o, List.mem_append_left more there, rest⟩
  · intro o member
    rcases List.mem_append.mp member with before | after
    · exact stands.noted o before
    · obtain ⟨earlier, before, together⟩ := again o after
      obtain ⟨entry, inTable, same⟩ := stands.noted earlier before
      obtain ⟨source, there, is, _⟩ := stands.known entry inTable
      have freeEntry : entry.1.NaNFree := is ▸ Expr.naNFree_of_mem free (early source there)
      have first := Expr.same_of_merges free (late o after) (early earlier before) together
      rw [Expr.same_iff_canonical (Expr.naNFree_of_mem free (early earlier before))] at first
      rw [Expr.same_iff_canonical freeEntry] at same
      exact ⟨entry, inTable, (Expr.same_iff_canonical freeEntry).mpr (first.trans same)⟩

/-- The first of a class gets the next node. -/
theorem Stands.add (stands : Stands sharing root done b) (free : root.NaNFree)
    (inside : done ++ [o] <+: root.occurrences [])
    (new : ∀ earlier ∈ done, o.merges sharing earlier = false)
    (closed : ∀ inner ∈ o.expr.occurrences o.path, inner ∈ done ++ [o])
    (table : List (Variable × Nat))
    (named : ∀ v id, table.lookup v = some id ↔
      b.arguments.lookup v = some id ∨ (o.expr = .var v ∧ b.nodes.length = id)) :
    b.nodes.length = root.classOf sharing o ∧
      Stands sharing root (done ++ [o])
        (Builder.remember
          { (b.add (o.instruction (root.classOf sharing))).2 with arguments := table }
          o.expr b.nodes.length) := by
  have fine : ∀ o ∈ root.occurrences [], o.expr.NaNFree := fun o => Expr.naNFree_of_mem free
  have kept : (done ++ [o]).eraseDupsBy (merges sharing) =
      done.eraseDupsBy (merges sharing) ++ [o] := by
    rcases eraseDupsBy_concat_cases (merges sharing) done o with
      ⟨⟨first, known, both⟩, _⟩ | ⟨_, same⟩
    · rw [new first (mem_of_mem_eraseDupsBy known)] at both
      cases both
    · exact same
  have number : b.nodes.length = root.classOf sharing o := by
    rw [stands.length, Expr.classOf, (groups_merges sharing).classNumber_of_new fine inside kept]
  refine ⟨number, ?_, ?_, ?_, ?_, ?_⟩
  · rw [kept, List.map_append, ← stands.nodes, List.map_singleton, Expr.classNode, ← number]
    rfl
  · intro v id
    rw [Builder.remember, named, stands.arguments, number]
    simp only [List.mem_append, List.mem_singleton, or_and_right, exists_or, exists_eq_left]
  · refine List.forall_mem_cons.mpr ⟨⟨o, by simp, rfl, number.symm⟩, fun entry member => ?_⟩
    obtain ⟨source, there, rest⟩ := stands.known entry member
    exact ⟨source, List.mem_append_left [o] there, rest⟩
  · intro other member
    rcases List.mem_append.mp member with before | own
    · obtain ⟨entry, inTable, same⟩ := stands.noted other before
      exact ⟨entry, List.mem_cons_of_mem _ inTable, same⟩
    · rw [List.mem_singleton.mp own]
      have self := fine o (inside.subset (by simp))
      exact ⟨_, List.mem_cons_self, (Expr.same_iff_canonical self).mpr rfl⟩
  · intro other member inner deeper
    rcases List.mem_append.mp member with before | own
    · exact List.mem_append_left [o] (stands.closed other before inner deeper)
    · rw [List.mem_singleton.mp own] at deeper
      exact closed inner deeper

/-- What is not known equals nothing that is complete. -/
theorem Stands.not_same_of_unseen (stands : Stands true root done b) (free : root.NaNFree)
    (inside : done <+: root.occurrences []) (unseen : b.seen? true e = none)
    (member : earlier ∈ done) : e.same earlier.expr = false := by
  rw [Bool.eq_false_iff]
  intro same
  obtain ⟨entry, inTable, same'⟩ := stands.noted earlier member
  obtain ⟨source, there, is, _⟩ := stands.known entry inTable
  have freeEntry : entry.1.NaNFree := is ▸ Expr.naNFree_of_mem free (inside.subset there)
  rw [Expr.same_iff_canonical (Expr.naNFree_of_mem free (inside.subset member))] at same
  rw [Expr.same_iff_canonical freeEntry] at same'
  rw [seen?, if_pos rfl, find?, Option.map_eq_none_iff, List.find?_eq_none] at unseen
  exact unseen entry inTable ((Expr.same_iff_canonical freeEntry).mpr (same.trans same'))

theorem Stands.remember (stands : Stands sharing root done b) (member : o ∈ done) :
    Stands sharing root done (b.remember o.expr (root.classOf sharing o)) := by
  refine ⟨stands.nodes, stands.arguments, ?_, ?_, stands.closed⟩
  · exact List.forall_mem_cons.mpr ⟨⟨o, member, rfl, rfl⟩, stands.known⟩
  · intro other there
    obtain ⟨entry, inTable, same⟩ := stands.noted other there
    exact ⟨entry, List.mem_cons_of_mem _ inTable, same⟩

theorem lookup_cons_iff {table : List (Variable × Nat)} {v : Variable}
    (unnamed : table.lookup v = none) (number id : Nat) (w : Variable) :
    ((v, number) :: table).lookup w = some id ↔
      table.lookup w = some id ∨ (Expr.var v = .var w ∧ number = id) := by
  by_cases same : w = v
  · subst same
    simp [unnamed]
  · have apart : (w == v) = false := by simpa using same
    have other : ¬ v = w := fun equal => same equal.symm
    rw [List.lookup_cons, apart]
    simp [other]

end Builder

namespace Expr

open Polish.Builder

variable {b b' : Builder} {id : Nat} {args : List Expr}

/-- Wherever the expression stands in the whole one, its lowering completes its occurrences. -/
def Completes (sharing : Bool) (root e : Expr) : Prop :=
  ∀ path done b id b', Stands sharing root done b →
    done ++ e.occurrences path <+: root.occurrences [] →
    lowerInto sharing b e = .ok (id, b') →
    Stands sharing root (done ++ e.occurrences path) b' ∧ id = root.classOf sharing ⟨path, e⟩

theorem completes_args {ids : List Nat} {index : Nat}
    (each : ∀ e ∈ args, Completes sharing root e) (stands : Stands sharing root done b)
    (inside : done ++ occurrencesList path index args <+: root.occurrences [])
    (lowered : lowerListInto sharing b args = .ok (ids, b')) :
    Stands sharing root (done ++ occurrencesList path index args) b' ∧
      ids = (Occurrence.arguments path index args).map (root.classOf sharing) := by
  induction args generalizing b done ids index with
  | nil =>
      cases lowered
      rw [occurrencesList, List.append_nil]
      exact ⟨stands, rfl⟩
  | cons e es ih =>
      obtain ⟨id, b₁, others, first, rest, rfl⟩ := lowerListInto_cons lowered
      rw [occurrencesList, ← List.append_assoc] at inside ⊢
      obtain ⟨stands₁, rfl⟩ := each e (by simp) _ done b id b₁ stands
        ((List.prefix_append _ _).trans inside) first
      obtain ⟨stands₂, rfl⟩ :=
        ih (fun e member => each e (List.mem_cons_of_mem _ member)) stands₁ inside rest
      exact ⟨stands₂, rfl⟩

/-- A node that is shared stands for an equal expression, and so do those inside it. -/
theorem completes_of_seen (free : root.NaNFree) (stands : Stands sharing root done b)
    (inside : done ++ e.occurrences path <+: root.occurrences [])
    (found : b.seen? sharing e = some id) :
    Stands sharing root (done ++ e.occurrences path) b ∧ id = root.classOf sharing ⟨path, e⟩ := by
  obtain ⟨rfl, entry, inTable, same, rfl⟩ := exists_known_of_seen found
  obtain ⟨source, there, is, number⟩ := stands.known entry inTable
  rw [← is] at same
  have beside := occurrences_of_same same path source.path
  constructor
  · refine stands.absorb free inside (fun o member => ?_) (stands.closed_append path e)
    obtain ⟨inner, deeper, together⟩ := exists_of_mem_forall₂ beside.flip member
    exact ⟨inner, stands.closed source there inner deeper, together⟩
  · have whole : (⟨path, e⟩ : Occurrence) ∈ root.occurrences [] :=
      inside.subset (List.mem_append_right done (self_mem_occurrences path e))
    have known : source ∈ root.occurrences [] := inside.subset (List.mem_append_left _ there)
    have together : Occurrence.merges true ⟨path, e⟩ source = true := same
    rw [← number, classOf_of_merges free whole known together]

/-- A variable has the node of an earlier occurrence of it, or the next one. -/
theorem completes_var (free : root.NaNFree) {v : Variable} (stands : Stands sharing root done b)
    (inside : done ++ [⟨path, .var v⟩] <+: root.occurrences []) :
    Stands sharing root (done ++ [⟨path, .var v⟩])
        ((b.argument v).2.remember (.var v) (b.argument v).1) ∧
      (b.argument v).1 = root.classOf sharing ⟨path, .var v⟩ := by
  have self : (⟨path, .var v⟩ : Occurrence) ∈ done ++ [⟨path, .var v⟩] := by simp
  rcases argument_cases b v with ⟨known, there, same⟩ | ⟨unnamed, same⟩
  · obtain ⟨earlier, member, named, number⟩ := (stands.arguments v known).mp there
    have together : Occurrence.merges sharing ⟨path, .var v⟩ earlier = true :=
      merges_of_var rfl named
    have again : ∀ o ∈ [(⟨path, .var v⟩ : Occurrence)], ∃ earlier ∈ done,
        o.merges sharing earlier = true := by simpa using ⟨earlier, member, together⟩
    have stands' := stands.absorb free inside again (stands.closed_append path (.var v))
    have equal : known = root.classOf sharing ⟨path, .var v⟩ := by
      rw [← number, classOf_of_merges free (inside.subset self)
        (inside.subset (List.mem_append_left _ member)) together]
    rw [same]
    exact ⟨equal ▸ stands'.remember self, equal⟩
  · have new : ∀ earlier ∈ done, Occurrence.merges sharing ⟨path, .var v⟩ earlier = false := by
      intro earlier member
      rw [Bool.eq_false_iff]
      intro together
      have named := (stands.arguments v _).mpr ⟨earlier, member, var_of_merges rfl together, rfl⟩
      rw [unnamed] at named
      cases named
    obtain ⟨number, stands'⟩ := stands.add free inside new
      (fun inner deeper => stands.closed_append path (.var v) _ self inner deeper) _
      (fun w id => lookup_cons_iff unnamed b.nodes.length id w)
    rw [same]
    exact ⟨stands', number⟩

theorem completes_of_makes (free : root.NaNFree)
    (each : ∀ op args, e = .apply op args → ∀ a ∈ args, Completes sharing root a)
    (stands : Stands sharing root done b)
    (inside : done ++ e.occurrences path <+: root.occurrences [])
    (unseen : b.seen? sharing e = none) {b₁ : Builder} (made : Makes sharing b e id b₁) :
    Stands sharing root (done ++ e.occurrences path) (b₁.remember e id) ∧
      id = root.classOf sharing ⟨path, e⟩ := by
  have unlike : ∀ earlier ∈ done, sharing = true → e.same earlier.expr = false := by
    rintro earlier member rfl
    exact stands.not_same_of_unseen free ((List.prefix_append _ _).trans inside) unseen member
  cases made with
  | constant value =>
      have new : ∀ earlier ∈ done, Occurrence.merges sharing ⟨path, .const value⟩ earlier = false :=
        fun earlier member => not_merges (path_ne_of_inside inside member) (by simp)
          (unlike earlier member)
      obtain ⟨number, stands'⟩ := stands.add free inside new (by simp [occurrences])
        b.arguments (by simp)
      exact ⟨stands', number⟩
  | argument v => exact completes_var free stands inside
  | kernel op args inputs b₁ computed lowered =>
      rw [occurrences, ← List.append_assoc] at inside ⊢
      obtain ⟨stands₁, rfl⟩ := completes_args (each op args rfl) stands
        ((List.prefix_append _ _).trans inside) lowered
      have new : ∀ earlier ∈ done ++ occurrencesList path 0 args,
          Occurrence.merges sharing ⟨path, .apply op args⟩ earlier = false := by
        intro earlier member
        refine not_merges (path_ne_of_inside inside member) (by simp) ?_
        rcases List.mem_append.mp member with before | argument
        · exact unlike earlier before
        · exact fun _ => not_same_of_mem_occurrencesList argument
      have closed : ∀ inner ∈ (apply op args).occurrences path,
          inner ∈ done ++ occurrencesList path 0 args ++ [⟨path, .apply op args⟩] := by
        intro inner deeper
        rw [List.append_assoc]
        exact List.mem_append_right done deeper
      obtain ⟨number, stands'⟩ := stands₁.add free inside new closed
        b₁.arguments (by simp)
      exact ⟨stands', number⟩

theorem completes_of_each (free : root.NaNFree)
    (each : ∀ op args, e = .apply op args → ∀ a ∈ args, Completes sharing root a) :
    Completes sharing root e := by
  intro path done b id b' stands inside lowered
  rcases lowerInto_cases lowered with ⟨found, rfl⟩ | ⟨unseen, b₁, made, rfl⟩
  · exact completes_of_seen free stands inside found
  · exact completes_of_makes free each stands inside unseen made

theorem completes (free : root.NaNFree) (e : Expr) : Completes sharing root e := by
  induction e with
  | apply op args ih =>
      refine completes_of_each free fun op' args' same => ?_
      cases same
      exact ih
  | _ => exact completes_of_each free (by simp)

/-- The graph of an expression has one node for each class of its occurrences. -/
theorem lower_eq_quotient (sharing : Bool) {e : Expr} (free : e.NaNFree) :
    e.lower sharing = .ok (e.quotient sharing) := by
  have keys : (if sharing then e.unhashable? else none) = none := by
    rw [unhashable?_of_over free, ite_self]
  have accepted : e.refusal? = none :=
    refusal?_eq_none_iff.mpr (free.mono fun _ _ => trivial)
  obtain ⟨⟨nodes, output⟩, lowered⟩ := exists_lower_of_accepted sharing keys accepted
  obtain ⟨b, into, rfl⟩ := lowerInto_of_lower lowered
  obtain ⟨stands, number⟩ := completes free e [] [] .empty output b (stands_empty sharing e)
    List.prefix_rfl into
  rw [lowered, quotient, stands.nodes, number]
  rfl

end Expr

end Polish
