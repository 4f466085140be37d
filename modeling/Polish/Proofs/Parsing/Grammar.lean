import Polish.Parser.Basic

set_option autoImplicit false

namespace Polish

/-- Every application is of a registered operator to as many arguments as it takes. -/
inductive Expr.WellFormed : Expr → Prop where
  | const (value : Number) : WellFormed (.const value)
  | var (v : Variable) : WellFormed (.var v)
  | apply (op : Operator) (args : List Expr) (known : Operator.ofSymbol? op.symbol = some op)
      (accepted : op.arity.accepts args.length = true)
      (children : ∀ e ∈ args, WellFormed e) : WellFormed (.apply op args)

/-- The word is an optional hyphen and then digits, at least one. -/
structure IsInteger (word : String) (negative : Bool) (digits : List Char) : Prop where
  nonempty : digits ≠ []
  decimal : ∀ c ∈ digits, c.isDigit = true
  spelled : word.toList = if negative then '-' :: digits else digits

/-- The words, in order, are the text of the tree. -/
inductive Spells : List String → Expr → Prop where
  | integer {word : String} {negative : Bool} {digits : List Char}
      (shape : IsInteger word negative digits) (short : digits.length ≤ Decimal.digitLimit) :
      Spells [word] (.const (.integer (Parser.integerOf negative digits)))
  | named (v : Variable) : Spells [v.name] (.var v)
  | application (op : Operator) (parts : List (List String × Expr))
      (known : Operator.ofSymbol? op.symbol = some op)
      (accepted : op.arity.accepts parts.length = true)
      (spelled : ∀ part ∈ parts, Spells part.1 part.2) :
      Spells (Token.opening :: op.symbol :: parts.flatMap (·.1) ++ [Token.closing])
        (.apply op (parts.map (·.2)))

namespace Spells

theorem wellFormed {words : List String} {e : Expr} (spelled : Spells words e) :
    e.WellFormed := by
  induction spelled with
  | integer shape short => exact .const _
  | named v => exact .var v
  | application op parts known accepted spelled ih =>
      refine .apply op _ known ?_ ?_
      · simpa only [List.length_map] using accepted
      · intro e member
        obtain ⟨part, inside, rfl⟩ := List.mem_map.mp member
        exact ih part inside

end Spells

namespace Parser

theorem integerParts?_eq_some_iff (word : String) (negative : Bool) (digits : List Char) :
    integerParts? word = some (negative, digits) ↔ IsInteger word negative digits := by
  unfold integerParts?
  constructor
  · intro taken
    split at taken
    rename_i sign rest shape
    split at taken
    · rename_i good
      simp only [Option.some.injEq, Prod.mk.injEq] at taken
      obtain ⟨rfl, rfl⟩ := taken
      simp only [Bool.and_eq_true, Bool.not_eq_true', List.isEmpty_eq_false_iff,
        List.all_eq_true] at good
      refine ⟨good.1, good.2, ?_⟩
      split at shape
      · cases shape
        assumption
      · cases shape
        rfl
    · cases taken
  · rintro ⟨nonempty, decimal, spelled⟩
    have notEmpty : digits.isEmpty = false := by simpa using nonempty
    have all : digits.all Char.isDigit = true := List.all_eq_true.mpr decimal
    cases negative with
    | true => simp [spelled, notEmpty, all]
    | false =>
        obtain ⟨c, rest, rfl⟩ := List.exists_cons_of_ne_nil nonempty
        have notHyphen : c ≠ '-' := by
          rintro rfl
          exact absurd (decimal '-' (by simp)) (by decide)
        simp only [spelled, Bool.false_eq_true, ↓reduceIte]
        split
        · rename_i digits same
          simp only [List.cons.injEq] at same
          exact absurd same.1 notHyphen
        · simp [all]

theorem integerParts?_name (v : Variable) : integerParts? v.name = none := by
  cases v <;> decide

theorem integerParts?_symbol {symbol : String} {op : Operator}
    (known : Operator.ofSymbol? symbol = some op) : integerParts? symbol = none := by
  have each : ∀ op ∈ Operator.registered, integerParts? op.symbol = none := by decide
  rw [← Operator.symbol_of_ofSymbol? known]
  exact each op (List.mem_of_find?_eq_some known)

theorem leaf_of_isInteger {word : String} {negative : Bool} {digits : List Char}
    (shape : IsInteger word negative digits) (position : Nat) :
    leaf word position =
      if Decimal.digitLimit < digits.length then .error (.tooLong digits.length position)
      else .ok (.const (.integer (integerOf negative digits))) := by
  unfold leaf
  rw [(integerParts?_eq_some_iff word negative digits).mpr shape]

theorem leaf_name (v : Variable) (position : Nat) : leaf v.name position = .ok (.var v) := by
  unfold leaf
  rw [integerParts?_name, Variable.ofName?_name]

theorem leaf_of_meaningless {word : String}
    (noInteger : ∀ negative digits, ¬ IsInteger word negative digits)
    (noVariable : ∀ v : Variable, v.name ≠ word) (position : Nat) :
    leaf word position = .error (.malformed ⟨.illegalVariable word, position⟩) := by
  unfold leaf
  cases parts : integerParts? word with
  | some signed =>
      have shape := (integerParts?_eq_some_iff word signed.1 signed.2).mp parts
      exact absurd shape (noInteger signed.1 signed.2)
  | none =>
      cases named : Variable.ofName? word with
      | some v => exact absurd (Variable.name_of_ofName? named) (noVariable v)
      | none => rfl

/-- A word that is no leaf is no integer and names no variable. -/
theorem leaf_cases (word : String) (position : Nat) :
    (∃ e, Spells [word] e ∧ leaf word position = .ok e) ∨
    (∃ negative digits, IsInteger word negative digits ∧ Decimal.digitLimit < digits.length ∧
      leaf word position = .error (.tooLong digits.length position)) ∨
    ((∀ negative digits, ¬ IsInteger word negative digits) ∧ (∀ v : Variable, v.name ≠ word) ∧
      leaf word position = .error (.malformed ⟨.illegalVariable word, position⟩)) := by
  cases parts : integerParts? word with
  | some signed =>
      obtain ⟨negative, digits⟩ := signed
      have shape := (integerParts?_eq_some_iff word negative digits).mp parts
      rw [leaf_of_isInteger shape]
      by_cases long : Decimal.digitLimit < digits.length
      · exact Or.inr (Or.inl ⟨negative, digits, shape, long, if_pos long⟩)
      · exact Or.inl ⟨_, .integer shape (by omega), if_neg long⟩
  | none =>
      cases named : Variable.ofName? word with
      | some v =>
          have same := Variable.name_of_ofName? named
          rw [← same, leaf_name]
          exact Or.inl ⟨_, .named v, rfl⟩
      | none =>
          refine Or.inr (Or.inr ⟨?_, ?_, ?_⟩)
          · intro negative digits shape
            rw [(integerParts?_eq_some_iff word negative digits).mpr shape] at parts
            cases parts
          · rintro v rfl
            rw [Variable.ofName?_name] at named
            cases named
          · simp only [leaf, parts, named]

end Parser

end Polish
