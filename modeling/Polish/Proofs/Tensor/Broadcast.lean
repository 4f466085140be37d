import Mathlib.Data.List.GetD
import Polish.Tensor.Shape

set_option autoImplicit false

namespace Polish.Shape

variable {s t u v w : Shape} {shapes : List Shape}

/-- The size of an axis counted from the last one; a missing axis counts as one of size one. -/
def axis (s : Shape) (i : Nat) : Nat := s.reverse.getD i 1

/-- Axis by axis the sizes are equal, or one of them is one. -/
def Matches (s t : Shape) : Prop := ∀ i, s.axis i = t.axis i ∨ s.axis i = 1 ∨ t.axis i = 1

/-- Arrays of the shape are stretched to the other one by adding axes and widening those of size
one. -/
structure StretchesTo (s t : Shape) : Prop where
  rank : s.length ≤ t.length
  axes : ∀ i, s.axis i = t.axis i ∨ s.axis i = 1

/-- The shape has the greatest rank, and each of its axes the size that is not one, if some shape
has such an axis there. -/
structure IsBroadcast (shapes : List Shape) (u : Shape) : Prop where
  rank : u.length = (shapes.map List.length).foldr max 0
  fits : ∀ s ∈ shapes, ∀ i, s.axis i = u.axis i ∨ s.axis i = 1
  reached : ∀ i, u.axis i = 1 ∨ ∃ s ∈ shapes, s.axis i = u.axis i

theorem joinAxis_eq_some_iff {m n k : Nat} :
    joinAxis m n = some k ↔ (m = n ∨ m = 1 ∨ n = 1) ∧ k = if m = 1 then n else m := by
  unfold joinAxis
  grind

/-- Shapes given from the last axis are joined axis by axis. -/
theorem joinReversed_spec (joined : joinReversed s t = some u) :
    u.length = max s.length t.length ∧
      ∀ i, joinAxis (s.getD i 1) (t.getD i 1) = some (u.getD i 1) := by
  induction s generalizing t u with
  | nil =>
      cases joined
      refine ⟨by simp, fun i => ?_⟩
      simp [joinAxis_eq_some_iff]
  | cons m s ih =>
      cases t with
      | nil =>
          cases joined
          refine ⟨by simp, fun i => ?_⟩
          rw [joinAxis_comm]
          simp [joinAxis_eq_some_iff]
      | cons n t =>
          simp only [joinReversed, Option.bind_eq_bind, Option.bind_eq_some_iff, Option.pure_def,
            Option.some.injEq] at joined
          obtain ⟨k, first, others, rest, rfl⟩ := joined
          obtain ⟨length, axes⟩ := ih rest
          refine ⟨by simp only [List.length_cons, length, Nat.succ_max_succ], fun i => ?_⟩
          cases i with
          | zero => exact first
          | succ i => exact axes i

theorem exists_joinReversed
    (matching : ∀ i, ∃ k, joinAxis (s.getD i 1) (t.getD i 1) = some k) :
    ∃ u, joinReversed s t = some u := by
  induction s generalizing t with
  | nil => exact ⟨t, by rw [joinReversed]⟩
  | cons m s ih =>
      cases t with
      | nil => exact ⟨m :: s, rfl⟩
      | cons n t =>
          obtain ⟨k, first⟩ := matching 0
          obtain ⟨others, rest⟩ := ih fun i => matching (i + 1)
          have first' : joinAxis m n = some k := first
          exact ⟨k :: others, by simp [joinReversed, first', rest]⟩

theorem join_spec (joined : s.join t = some u) :
    u.length = max s.length t.length ∧ ∀ i, joinAxis (s.axis i) (t.axis i) = some (u.axis i) := by
  rw [join, Option.map_eq_some_iff] at joined
  obtain ⟨r, reversed, rfl⟩ := joined
  have parts := joinReversed_spec reversed
  simpa only [axis, List.length_reverse, List.reverse_reverse] using parts

theorem StretchesTo.matches (left : s.StretchesTo w) (right : t.StretchesTo w) : s.Matches t := by
  intro i
  have first := left.axes i
  have second := right.axes i
  omega

theorem Matches.exists_join (matching : s.Matches t) : ∃ u, s.join t = some u := by
  obtain ⟨r, reversed⟩ := exists_joinReversed (s := s.reverse) (t := t.reverse) fun i =>
    ⟨_, joinAxis_eq_some_iff.mpr ⟨matching i, rfl⟩⟩
  exact ⟨r.reverse, by rw [join, reversed, Option.map_some]⟩

/-- The common shape of two is the least that both stretch to. -/
theorem stretchesTo_join_iff (joined : s.join t = some u) (w : Shape) :
    u.StretchesTo w ↔ s.StretchesTo w ∧ t.StretchesTo w := by
  obtain ⟨length, axes⟩ := join_spec joined
  have each : ∀ i, (u.axis i = w.axis i ∨ u.axis i = 1) ↔
      (s.axis i = w.axis i ∨ s.axis i = 1) ∧ (t.axis i = w.axis i ∨ t.axis i = 1) := by
    intro i
    obtain ⟨matching, size⟩ := joinAxis_eq_some_iff.mp (axes i)
    rw [size]
    split <;> omega
  constructor
  · intro above
    refine ⟨⟨?_, fun i => ((each i).mp (above.axes i)).1⟩,
      ⟨?_, fun i => ((each i).mp (above.axes i)).2⟩⟩
    · have rank := above.rank
      omega
    · have rank := above.rank
      omega
  · rintro ⟨left, right⟩
    refine ⟨?_, fun i => (each i).mpr ⟨left.axes i, right.axes i⟩⟩
    rw [length]
    exact Nat.max_le.mpr ⟨left.rank, right.rank⟩

theorem StretchesTo.refl (s : Shape) : s.StretchesTo s := ⟨Nat.le_refl _, fun _ => Or.inl rfl⟩

theorem StretchesTo.antisymm (left : s.StretchesTo t) (right : t.StretchesTo s) : s = t := by
  have rank : s.reverse.length = t.reverse.length := by
    rw [List.length_reverse, List.length_reverse]
    exact Nat.le_antisymm left.rank right.rank
  have axes : ∀ i, s.axis i = t.axis i := by
    intro i
    have first := left.axes i
    have second := right.axes i
    omega
  refine List.reverse_inj.mp (List.ext_getElem rank fun i below below' => ?_)
  have size := axes i
  rwa [axis, axis, List.getD_eq_getElem _ _ below, List.getD_eq_getElem _ _ below'] at size

/-- A shape is told by what it stretches to. -/
theorem eq_of_stretchesTo_iff (same : ∀ w, u.StretchesTo w ↔ v.StretchesTo w) : u = v :=
  ((same v).mpr (.refl v)).antisymm ((same u).mp (.refl u))

/-- Nothing is stretched to make room for an array without axes. -/
theorem stretchesTo_nil (w : Shape) : StretchesTo [] w :=
  ⟨Nat.zero_le _, fun i => Or.inr (by simp [axis])⟩

theorem stretchesTo_foldlM_iff (joined : shapes.foldlM join v = some u) (w : Shape) :
    u.StretchesTo w ↔ v.StretchesTo w ∧ ∀ s ∈ shapes, s.StretchesTo w := by
  induction shapes generalizing v with
  | nil =>
      cases joined
      simp
  | cons s shapes ih =>
      rw [List.foldlM_cons, Option.bind_eq_bind, Option.bind_eq_some_iff] at joined
      obtain ⟨both, first, rest⟩ := joined
      rw [ih rest, stretchesTo_join_iff first, List.forall_mem_cons, and_assoc]

theorem exists_foldlM (start : v.StretchesTo w) (bound : ∀ s ∈ shapes, s.StretchesTo w) :
    ∃ u, shapes.foldlM join v = some u := by
  induction shapes generalizing v with
  | nil => exact ⟨v, rfl⟩
  | cons s shapes ih =>
      rw [List.forall_mem_cons] at bound
      obtain ⟨both, first⟩ := (start.matches bound.1).exists_join
      obtain ⟨u, rest⟩ := ih ((stretchesTo_join_iff first w).mpr ⟨start, bound.1⟩) bound.2
      exact ⟨u, by rw [List.foldlM_cons, first]; exact rest⟩

/-- The common shape of a list is the least that all of it stretch to. -/
theorem stretchesTo_joinAll_iff (joined : joinAll shapes = some u) (w : Shape) :
    u.StretchesTo w ↔ ∀ s ∈ shapes, s.StretchesTo w := by
  rw [stretchesTo_foldlM_iff joined, and_iff_right (stretchesTo_nil w)]

theorem exists_joinAll (bound : ∀ s ∈ shapes, s.StretchesTo w) : ∃ u, joinAll shapes = some u :=
  exists_foldlM (stretchesTo_nil w) bound

theorem IsBroadcast.stretchesTo_iff (common : IsBroadcast shapes u) (w : Shape) :
    u.StretchesTo w ↔ ∀ s ∈ shapes, s.StretchesTo w := by
  have rank : ∀ k, (shapes.map List.length).foldr max 0 ≤ k ↔ ∀ s ∈ shapes, s.length ≤ k := by
    intro k
    clear common
    induction shapes with
    | nil => simp
    | cons s shapes ih =>
        rw [List.map_cons, List.foldr_cons, Nat.max_le, ih, List.forall_mem_cons]
  constructor
  · intro above s member
    refine ⟨(rank _).mp (common.rank ▸ above.rank) s member, fun i => ?_⟩
    have first := common.fits s member i
    have second := above.axes i
    omega
  · intro bound
    refine ⟨?_, fun i => ?_⟩
    · rw [common.rank, rank]
      exact fun s member => (bound s member).rank
    · rcases common.reached i with one | ⟨s, member, same⟩
      · exact Or.inr one
      · exact same ▸ (bound s member).axes i

/-- A shape that matches all of a list matches their common one. -/
theorem IsBroadcast.matches (common : IsBroadcast shapes u)
    (matching : ∀ t ∈ shapes, s.Matches t) : s.Matches u := by
  intro i
  rcases common.reached i with one | ⟨t, member, same⟩
  · exact Or.inr (Or.inr one)
  · exact same ▸ matching t member i

theorem IsBroadcast.cons (common : IsBroadcast shapes u) (joined : s.join u = some v) :
    IsBroadcast (s :: shapes) v := by
  obtain ⟨length, axes⟩ := join_spec joined
  have above := (stretchesTo_join_iff joined v).mp (.refl v)
  refine ⟨?_, ?_, fun i => ?_⟩
  · rw [length, common.rank, List.map_cons, List.foldr_cons]
  · rw [List.forall_mem_cons]
    exact ⟨above.1.axes, fun t member => ((common.stretchesTo_iff v).mp above.2 t member).axes⟩
  · have size := (joinAxis_eq_some_iff.mp (axes i)).2
    by_cases one : s.axis i = 1
    · rw [if_pos one] at size
      rw [size]
      exact (common.reached i).imp_right fun ⟨t, member, same⟩ =>
        ⟨t, List.mem_cons_of_mem s member, same⟩
    · rw [if_neg one] at size
      exact Or.inr ⟨s, List.mem_cons_self, size.symm⟩

/-- Shapes that match two by two have a common one. -/
theorem exists_isBroadcast (matching : ∀ s ∈ shapes, ∀ t ∈ shapes, s.Matches t) :
    ∃ u, IsBroadcast shapes u := by
  induction shapes with
  | nil => exact ⟨[], rfl, by simp, fun i => Or.inl (by simp [axis])⟩
  | cons s shapes ih =>
      obtain ⟨u, common⟩ := ih fun s first t second =>
        matching s (List.mem_cons_of_mem _ first) t (List.mem_cons_of_mem _ second)
      have apart := common.matches fun t member =>
        matching s List.mem_cons_self t (List.mem_cons_of_mem _ member)
      obtain ⟨v, joined⟩ := apart.exists_join
      exact ⟨v, common.cons joined⟩

theorem exists_bound_iff :
    (∃ w, ∀ s ∈ shapes, s.StretchesTo w) ↔ ∀ s ∈ shapes, ∀ t ∈ shapes, s.Matches t := by
  constructor
  · rintro ⟨w, bound⟩ s first t second
    exact (bound s first).matches (bound t second)
  · intro matching
    obtain ⟨u, common⟩ := exists_isBroadcast matching
    exact ⟨u, (common.stretchesTo_iff u).mp (.refl u)⟩

/-- The least shape that all stretch to has the greatest rank and the axes that are not one. -/
theorem isBroadcast_of_stretchesTo_iff
    (least : ∀ w, u.StretchesTo w ↔ ∀ s ∈ shapes, s.StretchesTo w) :
    IsBroadcast shapes u := by
  have bound := (least u).mp (.refl u)
  obtain ⟨v, common⟩ := exists_isBroadcast (exists_bound_iff.mp ⟨u, bound⟩)
  have same : u = v := eq_of_stretchesTo_iff fun w => (least w).trans (common.stretchesTo_iff w).symm
  exact same ▸ common

end Polish.Shape
