import Polish.Proofs.Decimal.Digits
import Polish.Proofs.Expr.RoundTrip
import Polish.Proofs.Graph.Equality

set_option autoImplicit false

namespace Polish

namespace Expr

/-- The integers that are read are short enough to be written. -/
theorem short_of_spells {words : List String} {e : Expr} (spelled : Spells words e) : e.Short := by
  induction spelled with
  | @integer word negative digits shape short =>
      intro n member
      simp only [labels, List.mem_singleton, Label.constant.injEq, Number.integer.injEq] at member
      have size : n.natAbs = Decimal.ofDigits digits := by
        rw [member, Parser.integerOf]
        cases negative <;> simp
      have positive : 0 < digits.length := List.length_pos_iff.mpr shape.nonempty
      have few : (Nat.toDigits 10 n.natAbs).length ≤ digits.length := by
        rw [Nat.length_toDigits_le_iff (by decide) positive, size]
        exact Decimal.ofDigits_lt shape.decimal
      exact Nat.le_trans few short
  | named v =>
      intro n member
      simp [labels] at member
  | application op parts known accepted spelled ih =>
      intro n member
      rcases (mem_labels_apply _ _ _).mp member with here | ⟨e, inside, member⟩
      · cases here
      · obtain ⟨part, there, rfl⟩ := List.mem_map.mp inside
        exact ih part there n member

theorem obstacle?_eq_none {e : Expr}
    (integers : ∀ value, .constant value ∈ e.labels → value.isInteger = true) :
    e.obstacle? = none := by
  cases found : e.obstacle? with
  | none => rfl
  | some found' =>
      obtain ⟨⟨other, front, back, labels, _⟩, _⟩ := obstacle?_eq_some found
      rw [integers _ (by simp [labels])] at other
      cases other

theorem isWritable_of_short {e : Expr} (short : e.Short) : e.isWritable = true := by
  rw [isWritable, List.all_eq_true]
  intro label member
  cases label with
  | constant value =>
      cases value with
      | integer n => exact decide_eq_true (short n member)
      | _ => rfl
  | _ => rfl

/-- Integers are their own normal form, and operators are written by their symbols. -/
theorem prefixChars_canonical {e : Expr}
    (integers : ∀ value, .constant value ∈ e.labels → value.isInteger = true) :
    e.canonical.prefixChars = e.prefixChars := by
  induction e with
  | const value =>
      cases value with
      | integer n => rw [canonical, Number.canonical_integer]
      | _ => cases integers _ (List.mem_singleton_self _)
  | apply op args ih =>
      have each : args.map (prefixChars ∘ canonical) = args.map prefixChars :=
        List.map_congr_left fun e member => ih e member fun value inside =>
          integers value (mem_labels_of_argument member inside)
      rw [canonical_apply, prefixChars_apply, prefixChars_apply, List.map_map, each]
      rfl
  | _ => rfl

end Expr

namespace Parser

variable {text text' : String} {e e' : Expr}

theorem isInteger_of_parse (accepted : parse text = .ok e) (value : Number)
    (member : .constant value ∈ e.labels) : value.isInteger = true := by
  obtain ⟨n, rfl⟩ := Expr.integer_of_spells ((parse_eq_ok_iff text e).mp accepted) member
  rfl

theorem ordinary_of_parse (accepted : parse text = .ok e) : e.Ordinary := by
  have spelled := (parse_eq_ok_iff text e).mp accepted
  refine Expr.Over.mono spelled.wellFormed.registered.supported.covered fun value member => ?_
  have integer := isInteger_of_parse accepted value member
  constructor <;> rintro rfl <;> cases integer

theorem short_of_parse (accepted : parse text = .ok e) : e.Short :=
  Expr.short_of_spells ((parse_eq_ok_iff text e).mp accepted)

/-- The prefix text of a tree whose constants are integers is read as the same tree. -/
theorem parse_prefixText_of_integers (formed : e.WellFormed)
    (integers : ∀ value, .constant value ∈ e.labels → value.isInteger = true) (short : e.Short) :
    parse e.prefixText = .ok e := by
  have reread := rereads_of_wellFormed e.prefixText.length formed short [] 0 [] hasRoom_nil
    Token.endsWord_nil
  have start : parse e.prefixText =
      (State.enter []).outcome e.prefixText.length (Token.scan 0 (e.prefixChars ++ [])) := by
    rw [parse_eq_outcome, Token.ofText, Expr.prefixText, String.toList_ofList, List.append_nil]
    rfl
  rw [start, reread, Expr.obstacle?_eq_none integers, Token.scan_nil]
  rfl

/-- The prefix text of a tree that was read is read as the same tree. -/
theorem parse_prefixText_of_parse (accepted : parse text = .ok e) : parse e.prefixText = .ok e :=
  parse_prefixText_of_integers ((parse_eq_ok_iff text e).mp accepted).wellFormed
    (isInteger_of_parse accepted) (short_of_parse accepted)

theorem eq_of_prefixText (accepted : parse text = .ok e) (accepted' : parse text' = .ok e')
    (same : e.prefixText = e'.prefixText) : e = e' := by
  have read := parse_prefixText_of_parse accepted
  rw [same, parse_prefixText_of_parse accepted'] at read
  cases read
  rfl

/-- Trees that were read are equal exactly if they are written in the same way. -/
theorem same_iff_prefixText (accepted : parse text = .ok e) (accepted' : parse text' = .ok e') :
    e.same e' = true ↔ e.prefixText = e'.prefixText := by
  rw [Expr.same_iff_canonical (ordinary_of_parse accepted').naNFree]
  constructor
  · intro same
    have written := congrArg Expr.prefixChars same
    rw [Expr.prefixChars_canonical (isInteger_of_parse accepted),
      Expr.prefixChars_canonical (isInteger_of_parse accepted')] at written
    exact congrArg String.ofList written
  · intro same
    rw [eq_of_prefixText accepted accepted' same]

/-- A tree that was read has a graph. -/
theorem exists_lowerWritten_of_parse (sharing : Bool) (accepted : parse text = .ok e) :
    ∃ graph, e.lowerWritten sharing = .ok graph := by
  obtain ⟨graph, lowered⟩ := Expr.exists_lower sharing (ordinary_of_parse accepted)
  refine ⟨graph, ?_⟩
  rw [Expr.lowerWritten, lowered, Expr.isWritable_of_short (short_of_parse accepted)]
  rfl

end Parser

end Polish
