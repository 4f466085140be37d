import Polish.Proofs.Parsing.Grammar
import Polish.Proofs.Text.Words

set_option autoImplicit false

namespace Polish.Parser

theorem glued_of_isInteger {word : String} {negative : Bool} {digits : List Char}
    (shape : IsInteger word negative digits) : Token.Glued word.toList ∧ word.toList ≠ [] := by
  constructor
  · rw [shape.spelled]
    exact Token.glued_of_digits negative shape.nonempty shape.decimal
  · rw [shape.spelled]
    cases negative with
    | true => exact List.cons_ne_nil _ _
    | false => exact shape.nonempty

theorem glued_name (v : Variable) : Token.Glued v.name.toList ∧ v.name.toList ≠ [] := by
  constructor
  · exact .of_all (by cases v <;> decide)
  · cases v <;> decide

/-- A parenthesis hangs together with nothing. -/
theorem ne_parenthesis_of_glued {word : String} (glued : Token.Glued word.toList) :
    word ≠ Token.opening ∧ word ≠ Token.closing := by
  constructor
  · rintro rfl
    have plain : Token.isPlain '(' = true := by
      cases glued with
      | plain plain rest => exact plain
    exact absurd plain (by decide)
  · rintro rfl
    have plain : Token.isPlain ')' = true := by
      cases glued with
      | plain plain rest => exact plain
    exact absurd plain (by decide)

/-- Every word of an expression is one token where blanks set it apart. -/
theorem alone_of_spells {words : List String} {e : Expr} (spelled : Spells words e) :
    ∀ word ∈ words, Token.Alone word := by
  induction spelled with
  | integer shape short =>
      obtain ⟨glued, nonempty⟩ := glued_of_isInteger shape
      exact List.forall_mem_singleton.mpr (Token.alone_of_glued glued nonempty)
  | named v =>
      obtain ⟨glued, nonempty⟩ := glued_name v
      exact List.forall_mem_singleton.mpr (Token.alone_of_glued glued nonempty)
  | application op parts known accepted spelled ih =>
      intro word member
      simp only [List.cons_append, List.mem_cons, List.mem_append, List.mem_flatMap,
        List.not_mem_nil, or_false] at member
      rcases member with rfl | rfl | ⟨part, inside, member⟩ | rfl
      · exact Token.alone_of_delimiter (c := '(') rfl (by decide)
      · exact Token.alone_symbol known
      · exact ih part inside word member
      · exact Token.alone_of_delimiter (c := ')') rfl (by decide)

end Polish.Parser
