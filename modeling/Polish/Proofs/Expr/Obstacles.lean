import Polish.Expr.Rendering
import Polish.Proofs.Expr.Labels

set_option autoImplicit false

namespace Polish

def Number.isInteger : Number → Bool
  | .integer _ => true
  | _ => false

namespace Expr

mutual

/-- The first constant from the left that is no integer, and the text in front of it. -/
def obstacle? : Expr → Option (List Char × Number)
  | .const value => if value.isInteger then none else some ([], value)
  | .apply op args =>
      (obstacleList? args).map fun found =>
        ('(' :: op.symbol.toList ++ ' ' :: found.1, found.2)
  | _ => none

def obstacleList? : List Expr → Option (List Char × Number)
  | [] => none
  | e :: es =>
      match obstacle? e with
      | some found => some found
      | none => (obstacleList? es).map fun found => (prefixChars e ++ ' ' :: found.1, found.2)

end

theorem prefixChars_const (value : Number) : (const value).prefixChars = value.text.toList := by
  simp [prefixChars, leafChars]

theorem prefixChars_var (v : Variable) : (var v).prefixChars = v.name.toList := by
  simp [prefixChars, leafChars]

theorem prefixChars_apply (op : Operator) (args : List Expr) :
    (apply op args).prefixChars =
      '(' :: (op.symbol.toList ++ ' ' :: (spaced (args.map prefixChars) ++ [')'])) := by
  simp [prefixChars, prefixCharsList_eq_map]

theorem spaced_cons {first : List Char} {others : List (List Char)} (more : others ≠ []) :
    spaced (first :: others) = first ++ ' ' :: spaced others := by
  rw [spaced, spaced, List.intercalate_cons_of_ne_nil more]
  simp

/-- The constant is the first of the labels that is no integer. -/
def FirstOther (labels : List Label) (value : Number) : Prop :=
  value.isInteger = false ∧ ∃ front back, labels = front ++ .constant value :: back ∧
    ∀ other, .constant other ∈ front → other.isInteger = true

theorem FirstOther.append {labels : List Label} {value : Number} (first : FirstOther labels value)
    (more : List Label) : FirstOther (labels ++ more) value := by
  obtain ⟨other, front, back, rfl, integers⟩ := first
  exact ⟨other, front, back ++ more, by simp, integers⟩

theorem FirstOther.behind {labels : List Label} {value : Number} (first : FirstOther labels value)
    {before : List Label} (integers : ∀ other, .constant other ∈ before → other.isInteger = true) :
    FirstOther (before ++ labels) value := by
  obtain ⟨other, front, back, rfl, integers'⟩ := first
  refine ⟨other, before ++ front, back, by simp, ?_⟩
  intro number member
  rcases List.mem_append.mp member with first | second
  · exact integers number first
  · exact integers' number second

theorem obstacleList?_eq_none {args : List Expr} {value : Number}
    (each : ∀ e ∈ args, e.obstacle? = none → .constant value ∈ e.labels → value.isInteger = true)
    (none_ : obstacleList? args = none) (member : .constant value ∈ labelsList args) :
    value.isInteger = true := by
  induction args with
  | nil => simp [labelsList] at member
  | cons e es ih =>
      rw [obstacleList?] at none_
      cases here : e.obstacle? with
      | some found => simp [here] at none_
      | none =>
          simp only [here, Option.map_eq_none_iff] at none_
          rw [labelsList, List.mem_append] at member
          rcases member with first | later
          · exact each e (by simp) here first
          · exact ih (fun e inside => each e (List.mem_cons_of_mem _ inside)) none_ later

theorem isInteger_of_obstacle?_eq_none (e : Expr) (none_ : e.obstacle? = none) (value : Number)
    (member : .constant value ∈ e.labels) : value.isInteger = true := by
  induction e with
  | const number =>
      simp only [labels, List.mem_singleton, Label.constant.injEq] at member
      cases member
      cases other : value.isInteger with
      | true => rfl
      | false => simp [obstacle?, other] at none_
  | var v => simp [labels] at member
  | apply op args ih =>
      rw [obstacle?, Option.map_eq_none_iff] at none_
      rw [labels, List.mem_cons] at member
      rcases member with here | inside
      · cases here
      · exact obstacleList?_eq_none ih none_ inside
  | foreign datum => simp [labels] at member

/-- An obstacle is the first constant that is no integer, and it stands where it is said to. -/
theorem obstacleList?_eq_some {args : List Expr} (each : ∀ e ∈ args, ∀ before value,
      e.obstacle? = some (before, value) → FirstOther e.labels value ∧
        ∃ after, e.prefixChars = before ++ value.text.toList ++ after)
    {before : List Char} {value : Number} (found : obstacleList? args = some (before, value)) :
    FirstOther (labelsList args) value ∧
      ∃ after, spaced (args.map prefixChars) = before ++ value.text.toList ++ after := by
  induction args generalizing before with
  | nil => cases found
  | cons e es ih =>
      rw [obstacleList?] at found
      cases here : e.obstacle? with
      | some first =>
          simp only [here, Option.some.injEq] at found
          rw [found] at here
          obtain ⟨other, after, text⟩ := each e (by simp) before value here
          refine ⟨other.append _, ?_⟩
          by_cases last : es.map prefixChars = []
          · exact ⟨after, by rw [List.map_cons, last, spaced, List.intercalate_singleton, text]⟩
          · refine ⟨after ++ ' ' :: spaced (es.map prefixChars), ?_⟩
            rw [List.map_cons, spaced_cons last, text, List.append_assoc]
      | none =>
          simp only [here, Option.map_eq_some_iff, Prod.mk.injEq] at found
          obtain ⟨⟨inside, number⟩, later, rfl, rfl⟩ := found
          obtain ⟨other, after, text⟩ :=
            ih (fun e member => each e (List.mem_cons_of_mem _ member)) later
          refine ⟨other.behind (isInteger_of_obstacle?_eq_none e here), after, ?_⟩
          have others : es.map prefixChars ≠ [] := by
            intro nothing
            rw [List.map_eq_nil_iff.mp nothing] at later
            cases later
          rw [List.map_cons, spaced_cons others, text]
          simp

theorem obstacle?_eq_some {e : Expr} {before : List Char} {value : Number}
    (found : e.obstacle? = some (before, value)) :
    FirstOther e.labels value ∧ ∃ after, e.prefixChars = before ++ value.text.toList ++ after := by
  induction e generalizing before value with
  | const number =>
      rw [obstacle?] at found
      split at found
      · cases found
      · rename_i other
        cases found
        refine ⟨⟨by simpa using other, [], [], rfl, by simp⟩, [], ?_⟩
        simp [prefixChars_const]
  | var v => cases found
  | apply op args ih =>
      simp only [obstacle?, Option.map_eq_some_iff, Prod.mk.injEq] at found
      obtain ⟨⟨inside, number⟩, found, rfl, rfl⟩ := found
      obtain ⟨other, after, text⟩ :=
        obstacleList?_eq_some (fun e member before value => ih e member) found
      have integers : ∀ other, .constant other ∈ [Label.operation op.symbol args.length] →
          other.isInteger = true := by simp
      refine ⟨other.behind integers, after ++ [')'], ?_⟩
      rw [prefixChars_apply, text]
      simp
  | foreign datum => cases found

end Expr

end Polish
