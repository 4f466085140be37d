import Polish.Proofs.Expr.Subtrees
import Polish.Proofs.Graph.Equality

set_option autoImplicit false

namespace Polish

namespace Expr

def Label.refusal? : Label → Option LoweringError
  | .operation symbol _ =>
      if hasKernel symbol then none else some (.unsupportedOperation symbol)
  | .foreign value => some (.unsupportedKind value.kindName)
  | _ => none

/-- The refusal that is met first, from the root and the left. -/
def refusal? (e : Expr) : Option LoweringError := e.labels.findSome? Label.refusal?

def refusalList? (args : List Expr) : Option LoweringError :=
  (labelsList args).findSome? Label.refusal?

variable {op : Operator} {e : Expr} {es : List Expr}

theorem refusalList?_cons : refusalList? (e :: es) = e.refusal?.or (refusalList? es) := by
  rw [refusalList?, labelsList, List.findSome?_append]
  rfl

theorem refusal?_apply_of_kernel (computed : hasKernel op.symbol = true) :
    (apply op es).refusal? = refusalList? es := by
  rw [refusal?, labels, List.findSome?_cons, Label.refusal?, if_pos computed, refusalList?]

theorem refusal?_apply_of_not_kernel (unknown : ¬ hasKernel op.symbol = true) :
    (apply op es).refusal? = some (.unsupportedOperation op.symbol) := by
  rw [refusal?, labels, List.findSome?_cons, Label.refusal?, if_neg unknown]

theorem refusal?_foreign (value : Datum) :
    (foreign value).refusal? = some (.unsupportedKind value.kindName) := rfl

theorem Label.refusal?_eq_none_iff (label : Label) :
    label.refusal? = none ↔ label.Lowerable fun _ => True := by
  cases label <;> simp [refusal?, Lowerable]

/-- Nothing is refused where every operator has a kernel and no plain value stands. -/
theorem refusal?_eq_none_iff : e.refusal? = none ↔ e.Over fun _ => True := by
  rw [refusal?, List.findSome?_eq_none_iff, Over]
  exact forall₂_congr fun label _ => label.refusal?_eq_none_iff

/-- What equals an expression with a graph has operators with kernels, and no plain value. -/
theorem over_of_same {a b : Expr} (covered : b.Over fun _ => True) (same : a.same b = true) :
    a.Over fun _ => True := by
  intro label member
  obtain ⟨other, inside, alike⟩ := exists_of_mem_forall₂ (labels_of_same same).flip member
  have lowerable := covered other inside
  cases label with
  | operation symbol count =>
      cases other with
      | operation _ _ => exact alike.1 ▸ lowerable
      | _ => cases alike
  | foreign value =>
      cases other with
      | foreign _ => exact lowerable
      | _ => cases alike
  | _ => trivial

end Expr

/-- Nothing is refused in the known expressions. -/
def Builder.Settled (b : Builder) : Prop := ∀ entry ∈ b.known, entry.1.refusal? = none

namespace Builder

variable {b : Builder} {sharing : Bool} {e : Expr} {id : Nat}

theorem settled_empty : empty.Settled := by simp [Settled, empty]

theorem Settled.remember (settled : b.Settled) (id : Nat) (accepted : e.refusal? = none) :
    (b.remember e id).Settled :=
  List.forall_mem_cons.mpr ⟨accepted, settled⟩

/-- A shared node hides no refusal. -/
theorem Settled.refusal?_of_seen (settled : b.Settled) (found : b.seen? sharing e = some id) :
    e.refusal? = none := by
  obtain ⟨_, entry, member, same, _⟩ := exists_known_of_seen found
  have known := Expr.refusal?_eq_none_iff.mp (settled entry member)
  exact Expr.refusal?_eq_none_iff.mpr (Expr.over_of_same known same)

end Builder

namespace Expr

variable {sharing : Bool} {b : Builder} {e : Expr} {args : List Expr}

/-- What becomes of a lowering: the refusal is its error, without one it has a result. -/
def Concludes {α : Type} (refusal : Option LoweringError)
    (result : Except LoweringError (α × Builder)) : Prop :=
  match refusal with
  | some error => result = .error error
  | none => ∃ value b', result = .ok (value, b') ∧ b'.Settled

/-- The first refusal of the expression decides its lowering, whatever is known before. -/
def Decides (sharing : Bool) (e : Expr) : Prop :=
  ∀ b : Builder, b.Settled → Concludes e.refusal? (lowerInto sharing b e)

theorem concludes_args (each : ∀ e ∈ args, e.Decides sharing) (settled : b.Settled) :
    Concludes (refusalList? args) (lowerListInto sharing b args) := by
  induction args generalizing b with
  | nil => exact ⟨[], b, rfl, settled⟩
  | cons e es ih =>
      have first := each e (by simp) b settled
      rw [refusalList?_cons, lowerListInto]
      cases refused : e.refusal? with
      | some error =>
          rw [refused, Concludes] at first
          rw [first]
          rfl
      | none =>
          rw [refused] at first
          obtain ⟨id, b₁, lowered, settled₁⟩ := first
          have others := ih (fun e member => each e (List.mem_cons_of_mem _ member)) settled₁
          rw [lowered, Option.none_or]
          cases later : refusalList? es with
          | some error =>
              rw [later, Concludes] at others
              simp only [bind, Except.bind, others]
              rfl
          | none =>
              rw [later] at others
              obtain ⟨ids, b₂, rest, settled₂⟩ := others
              simp only [bind, Except.bind, rest]
              exact ⟨id :: ids, b₂, rfl, settled₂⟩

/-- An expression that shares a node is accepted, so only a new one has to be looked at. -/
theorem decides_of_unseen
    (seen : ∀ b id, b.seen? sharing e = some id → lowerInto sharing b e = .ok (id, b))
    (unseen : ∀ b : Builder, b.Settled → b.seen? sharing e = none →
      Concludes e.refusal? (lowerInto sharing b e)) : e.Decides sharing := by
  intro b settled
  cases found : b.seen? sharing e with
  | none => exact unseen b settled found
  | some id =>
      rw [settled.refusal?_of_seen found]
      exact ⟨id, b, seen b id found, settled⟩

theorem decides (sharing : Bool) (e : Expr) : e.Decides sharing := by
  induction e with
  | const value =>
      refine decides_of_unseen (fun b id found => by simp only [lowerInto, found]) ?_
      intro b settled new
      have accepted : (const value).refusal? = none := rfl
      rw [lowerInto, new, accepted]
      exact ⟨_, _, rfl, Builder.Settled.remember settled _ accepted⟩
  | var v =>
      refine decides_of_unseen (fun b id found => by simp only [lowerInto, found]) ?_
      intro b settled new
      have accepted : (var v).refusal? = none := rfl
      have kept : (b.argument v).2.Settled := by
        rw [Builder.Settled, Builder.known_argument]
        exact settled
      rw [lowerInto, new, accepted]
      exact ⟨_, _, rfl, kept.remember _ accepted⟩
  | apply op args ih =>
      refine decides_of_unseen (fun b id found => by simp only [lowerInto, found]) ?_
      intro b settled new
      simp only [lowerInto, new]
      by_cases computed : hasKernel op.symbol = true
      · have inside := concludes_args ih settled
        have whole : (apply op args).refusal? = refusalList? args :=
          refusal?_apply_of_kernel computed
        rw [whole, if_pos computed]
        cases refused : refusalList? args with
        | some error =>
            rw [refused, Concludes] at inside
            rw [inside]
            rfl
        | none =>
            rw [refused] at inside whole
            obtain ⟨ids, b₁, lowered, settled₁⟩ := inside
            rw [lowered]
            exact ⟨_, _, rfl, Builder.Settled.remember settled₁ _ whole⟩
      · rw [refusal?_apply_of_not_kernel computed, if_neg computed]
        rfl
  | foreign value =>
      intro b settled
      rw [refusal?_foreign]
      rfl

theorem lower_eq_error_of_refusal? (sharing : Bool) {error : LoweringError}
    (keys : (if sharing then e.unhashable? else none) = none) (refused : e.refusal? = some error) :
    e.lower sharing = .error error := by
  have concluded := decides sharing e .empty Builder.settled_empty
  rw [refused, Concludes] at concluded
  simp only [lower, keys, concluded]
  rfl

theorem exists_lower_of_accepted (sharing : Bool)
    (keys : (if sharing then e.unhashable? else none) = none) (accepted : e.refusal? = none) :
    ∃ g, e.lower sharing = .ok g := by
  have concluded := decides sharing e .empty Builder.settled_empty
  rw [accepted] at concluded
  obtain ⟨id, b, lowered, _⟩ := concluded
  simp only [lower, keys, lowered]
  exact ⟨_, rfl⟩

/-- Where all values can be keys, the first refusal decides whether there is a graph. -/
theorem lower_eq_error_iff (sharing : Bool) {error : LoweringError}
    (keys : (if sharing then e.unhashable? else none) = none) :
    e.lower sharing = .error error ↔ e.refusal? = some error := by
  constructor
  · intro failed
    cases refused : e.refusal? with
    | none =>
        obtain ⟨g, lowered⟩ := exists_lower_of_accepted sharing keys refused
        rw [failed] at lowered
        cases lowered
    | some other =>
        rw [lower_eq_error_of_refusal? sharing keys refused] at failed
        cases failed
        rfl
  · exact lower_eq_error_of_refusal? sharing keys

theorem exists_lower_iff (sharing : Bool)
    (keys : (if sharing then e.unhashable? else none) = none) :
    (∃ g, e.lower sharing = .ok g) ↔ e.refusal? = none := by
  constructor
  · rintro ⟨g, lowered⟩
    cases refused : e.refusal? with
    | none => rfl
    | some error =>
        rw [lower_eq_error_of_refusal? sharing keys refused] at lowered
        cases lowered
  · exact exists_lower_of_accepted sharing keys

theorem isSome_refusal?_iff : (∃ error, e.refusal? = some error) ↔
    (∃ symbol count, .operation symbol count ∈ e.labels ∧ hasKernel symbol = false) ∨
      ∃ value, .foreign value ∈ e.labels := by
  constructor
  · rintro ⟨error, refused⟩
    obtain ⟨label, member, culprit⟩ := List.exists_of_findSome?_eq_some refused
    cases label with
    | operation symbol count =>
        rw [Label.refusal?, Option.ite_none_left_eq_some, Bool.not_eq_true] at culprit
        exact Or.inl ⟨symbol, count, member, culprit.1⟩
    | foreign value => exact Or.inr ⟨value, member⟩
    | _ => cases culprit
  · intro culprit
    rw [← Option.isSome_iff_exists, refusal?, List.isSome_findSome?, List.any_eq_true]
    rcases culprit with ⟨symbol, count, member, unknown⟩ | ⟨value, member⟩
    · exact ⟨_, member, by simp [Label.refusal?, unknown]⟩
    · exact ⟨_, member, rfl⟩

theorem unhashable?_eq_some {before after : List Label} {value : Datum}
    (split : e.labels = before ++ .foreign value :: after) (mutable : value.isHashable = false)
    (first : ∀ other, .foreign other ∈ before → other.isHashable = true) :
    e.unhashable? = some value := by
  refine List.findSome?_eq_some_iff.mpr ⟨before, _, after, split, by simp [mutable], ?_⟩
  intro label member
  cases label with
  | foreign other => simp [first other member]
  | _ => rfl

theorem unhashable?_eq_none (keys : ∀ value, .foreign value ∈ e.labels → value.isHashable = true) :
    e.unhashable? = none := by
  refine List.findSome?_eq_none_iff.mpr fun label member => ?_
  cases label with
  | foreign value => simp [keys value member]
  | _ => rfl

/-- Without sharing, an expression has no graph exactly if one of its operators has no kernel or a
plain value stands in it, and the error names the first of these from the root and the left. With
sharing all goes the same way, unless a list or a table stands in the expression: then the error
names the first of those, whatever is refused in front of it. -/
theorem lowering_blames_first_culprit (e : Expr) :
    ((∃ error, e.lower false = .error error) ↔
      (∃ symbol count, .operation symbol count ∈ e.labels ∧ hasKernel symbol = false) ∨
        ∃ value, .foreign value ∈ e.labels) ∧
    (∀ error, e.lower false = .error error ↔ ∃ before label after,
      e.labels = before ++ label :: after ∧ label.refusal? = some error ∧
        ∀ earlier ∈ before, earlier.refusal? = none) ∧
    (∀ before value after, e.labels = before ++ .foreign value :: after →
      value.isHashable = false → (∀ other, .foreign other ∈ before → other.isHashable = true) →
      e.lower true = .error (.unhashable value.kindName)) ∧
    ((∀ value, .foreign value ∈ e.labels → value.isHashable = true) →
      (∀ error, e.lower true = .error error ↔ e.lower false = .error error) ∧
        ((∃ g, e.lower true = .ok g) ↔ ∃ g, e.lower false = .ok g)) := by
  have unshared : ∀ error, e.lower false = .error error ↔ e.refusal? = some error :=
    fun error => lower_eq_error_iff false rfl
  refine ⟨?_, ?_, ?_, ?_⟩
  · rw [← isSome_refusal?_iff]
    exact exists_congr unshared
  · intro error
    rw [unshared, refusal?, List.findSome?_eq_some_iff]
  · intro before value after split mutable first
    have found := unhashable?_eq_some split mutable first
    simp only [lower, if_true, found]
  · intro hashable
    have keys : (if true = true then e.unhashable? else none) = none := unhashable?_eq_none hashable
    constructor
    · intro error
      rw [lower_eq_error_iff true keys, unshared]
    · rw [exists_lower_iff true keys, exists_lower_iff false rfl]

def cube : Operator :=
  .custom "cube" (.exactly 1) fun
    | [a] => .ok (a * a * a)
    | _ => .error .wrongCount

/-- An operator without a kernel stands in front of a number and of a list. -/
theorem lowering_blames_first_culprit_list :
    (Expr.apply ⟨"+", .exactly 2, .add⟩
      [.apply cube [.foreign (.integer 3)],
        .foreign (.list [])]).lower false = .error (.unsupportedOperation "cube") ∧
    (Expr.apply ⟨"+", .exactly 2, .add⟩
      [.apply cube [.foreign (.integer 3)],
        .foreign (.list [])]).lower true = .error (.unhashable "list") := by
  obtain ⟨_, unshared, shared, _⟩ := lowering_blames_first_culprit
    (.apply ⟨"+", .exactly 2, .add⟩
      [.apply cube [.foreign (.integer 3)], .foreign (.list [])])
  have known : hasKernel "+" = true := by decide
  have unknown : hasKernel "cube" = false := by decide
  constructor
  · refine (unshared _).mpr ⟨[.operation "+" 2], .operation "cube" 1,
      [.foreign (.integer 3), .foreign (.list [])], rfl, ?_, ?_⟩
    · simp [Label.refusal?, unknown]
    · simp [Label.refusal?, known]
  · refine shared [.operation "+" 2, .operation "cube" 1, .foreign (.integer 3)] (.list []) [] rfl
      rfl ?_
    simp [Datum.isHashable]

end Expr

end Polish
