import Polish.Proofs.Expr.Rereading
import Polish.Proofs.Text.Seams

set_option autoImplicit false

namespace Polish.Parser

open Polish.Expr Polish.Token

/-- Integers without zeros in front and without a sign of zero; other words as they are. -/
def normalWord (word : String) : String :=
  match integerParts? word with
  | some (negative, digits) => String.ofList (Decimal.normal negative digits)
  | none => word

/-- The normal form of an integer is the decimal of its value. -/
theorem normalWord_of_isInteger {word : String} {negative : Bool} {digits : List Char}
    (shape : IsInteger word negative digits) :
    normalWord word = (Number.integer (integerOf negative digits)).text := by
  have parts := (integerParts?_eq_some_iff word negative digits).mpr shape
  have size : (integerOf negative digits).natAbs = Decimal.ofDigits digits := by
    rw [integerOf]
    cases negative <;> simp
  have sign : integerOf negative digits < 0 ↔
      negative = true ∧ Decimal.significant digits ≠ ['0'] := by
    rw [ne_eq, Decimal.significant_eq_zero_iff shape.decimal, integerOf]
    cases negative with
    | true => simp only [↓reduceIte, true_and]; omega
    | false => simp
  apply String.toList_inj.mp
  rw [Number.toList_text_integer, size, Decimal.toDigits_ofDigits shape.decimal]
  simp only [normalWord, parts, Decimal.normal, String.toList_ofList, sign, decide_eq_true_eq]

theorem normalWord_of_not_isInteger {word : String}
    (other : ∀ negative digits, ¬ IsInteger word negative digits) : normalWord word = word := by
  unfold normalWord
  cases parts : integerParts? word with
  | none => rfl
  | some signed =>
      have shape := (integerParts?_eq_some_iff word signed.1 signed.2).mp parts
      exact absurd shape (other signed.1 signed.2)

theorem normalWord_name (v : Variable) : normalWord v.name = v.name := by
  rw [normalWord, integerParts?_name]

theorem normalWord_symbol {symbol : String} {op : Operator}
    (known : Operator.ofSymbol? symbol = some op) : normalWord symbol = symbol := by
  rw [normalWord, integerParts?_symbol known]

theorem opening_eq : String.singleton '(' = opening := rfl

theorem closing_eq : String.singleton ')' = closing := rfl

theorem normalWord_parentheses :
    normalWord opening = opening ∧ normalWord closing = closing := by decide

/-- The text yields the words, whatever stands behind that ends the last of them. -/
def Yields (cs : List Char) (words : List String) : Prop :=
  ∀ rest, EndsWord rest → texts (cs ++ rest) = words ++ texts rest

theorem yields_glued {word : String} (glued : Glued word.toList) (nonempty : word.toList ≠ []) :
    Yields word.toList [word] := by
  intro rest ends
  rw [texts_glued glued nonempty ends, String.ofList_toList, List.singleton_append]

/-- Parts with a space between each two yield the words of all, one part after the other. -/
theorem yields_spaced {parts : List (List String × List Char)}
    (each : ∀ part ∈ parts, Yields part.2 part.1) :
    Yields (spaced (parts.map (·.2))) (parts.flatMap (·.1)) := by
  intro rest ends
  induction parts with
  | nil => rfl
  | cons part parts ih =>
      have first := each part (by simp)
      have others := ih fun other member => each other (List.mem_cons_of_mem part member)
      rw [List.map_cons, List.flatMap_cons]
      -- A space follows every part but the last, which is ended by what stands behind.
      by_cases last : parts = []
      · subst last
        rw [List.map_nil, spaced, List.intercalate_singleton, List.flatMap_nil, List.append_nil]
        exact first rest ends
      · have more : parts.map (·.2) ≠ [] := by simpa using last
        rw [spaced_cons more, List.append_assoc, List.cons_append, first _ (endsWord_blank _),
          texts_blank _ (by decide), others, List.append_assoc]

/-- The words of the prefix text of a tree are those that spelled it, in normal form. -/
theorem yields_prefixChars {words : List String} {e : Expr} (spelled : Spells words e) :
    Yields e.prefixChars (words.map normalWord) := by
  induction spelled with
  | integer shape short =>
      obtain ⟨glued, nonempty⟩ := glued_of_isInteger (Number.isInteger_text (integerOf _ _))
      rw [List.map_singleton, normalWord_of_isInteger shape, prefixChars_const]
      exact yields_glued glued nonempty
  | named v =>
      obtain ⟨glued, nonempty⟩ := glued_name v
      rw [List.map_singleton, normalWord_name, prefixChars_var]
      exact yields_glued glued nonempty
  | application op parts known accepted spelled ih =>
      intro rest ends
      obtain ⟨opens, closes⟩ := normalWord_parentheses
      have each : ∀ part ∈ parts.map fun part => (part.1.map normalWord, part.2.prefixChars),
          Yields part.2 part.1 := by
        intro part member
        obtain ⟨part', inside, rfl⟩ := List.mem_map.mp member
        exact ih part' inside
      have inner := yields_spaced each (')' :: rest) (endsWord_closing rest)
      have blank : ∀ inner, ∀ c ∈ (' ' :: inner).head?, isBlank c = true := by
        intro inner c first
        cases first
        decide
      have text : (apply op (parts.map (·.2))).prefixChars ++ rest =
          '(' :: (op.symbol.toList ++ ' ' ::
            (spaced ((parts.map (·.2)).map prefixChars) ++ ')' :: rest)) := by
        simp [prefixChars_apply]
      have words : (opening :: op.symbol :: parts.flatMap (·.1) ++ [closing]).map normalWord =
          opening :: op.symbol :: (parts.flatMap fun part => part.1.map normalWord) ++
            [closing] := by
        simp [opens, closes, normalWord_symbol known, List.map_flatMap]
      rw [List.map_map, List.flatMap_map] at inner
      rw [text, words, IsParenthesis.texts (Or.inl rfl), texts_alone (alone_symbol known) (blank _),
        texts_blank _ (by decide), List.map_map]
      simp only [Function.comp_def] at inner ⊢
      rw [inner, IsParenthesis.texts (Or.inr rfl), opening_eq, closing_eq]
      simp only [List.cons_append, List.append_assoc, List.nil_append]

/-- The prefix text of a tree that was read is a normal form of what was read: its words are those
of the text, integers as decimals of their values. It is read as the same tree, and only texts of
equal trees have the same. -/
theorem prefixText_normal_form {text : String} {e : Expr} (accepted : parse text = .ok e) :
    e.isWritable = true ∧
      (Reader.ofText e.prefixText).words = (Reader.ofText text).words.map normalWord ∧
      (∀ word negative digits, IsInteger word negative digits →
        normalWord word = (Number.integer (integerOf negative digits)).text) ∧
      (∀ word, (∀ negative digits, ¬ IsInteger word negative digits) → normalWord word = word) ∧
      parse e.prefixText = .ok e ∧
      ∀ other e', parse other = .ok e' →
        (e.same e' = true ↔ e.prefixText = e'.prefixText) ∧ (e = e' ↔ e.same e' = true) := by
  refine ⟨isWritable_of_short (short_of_parse accepted), ?_,
    fun word negative digits => normalWord_of_isInteger, fun word => normalWord_of_not_isInteger,
    parse_prefixText_of_parse accepted, ?_⟩
  · have spelled := (parse_eq_ok_iff text e).mp accepted
    have words := yields_prefixChars spelled [] endsWord_nil
    rw [List.append_nil, texts_nil, List.append_nil] at words
    rw [← texts_toList, prefixText, String.toList_ofList, words]
  · intro other e' accepted'
    have written := same_iff_prefixText accepted accepted'
    refine ⟨written, ?_⟩
    rw [written]
    constructor
    · intro same
      rw [same]
    · exact eq_of_prefixText accepted accepted'

/-- Layout goes, zeros in front go, and so does the sign of a zero; symbols stay. -/
theorem prefixText_normal_form_sum :
    parse "(+  -007\t( negate -0 ))" = .ok (.apply ⟨"+", .exactly 2, .add⟩
        [.const (.integer (-7)), .apply ⟨"negate", .exactly 1, .negate⟩ [.const (.integer 0)]]) ∧
      (Reader.ofText "(+ -7 (negate 0))").words =
        (Reader.ofText "(+  -007\t( negate -0 ))").words.map normalWord ∧
      parse "(+ -7 (negate 0))" = .ok (.apply ⟨"+", .exactly 2, .add⟩
        [.const (.integer (-7)), .apply ⟨"negate", .exactly 1, .negate⟩ [.const (.integer 0)]]) := by
  have tokens : ofText "(+  -007\t( negate -0 ))" =
      [⟨"(", 0, 1⟩, ⟨"+", 1, 2⟩, ⟨"-007", 4, 8⟩, ⟨"(", 9, 10⟩, ⟨"negate", 11, 17⟩, ⟨"-0", 18, 20⟩,
        ⟨")", 21, 22⟩, ⟨")", 22, 23⟩] := by decide +kernel
  have read : parse "(+  -007\t( negate -0 ))" = .ok (.apply ⟨"+", .exactly 2, .add⟩
      [.const (.integer (-7)), .apply ⟨"negate", .exactly 1, .negate⟩ [.const (.integer 0)]]) := by
    rw [parse_eq_outcome, tokens]
    rfl
  have written : (Expr.apply ⟨"+", .exactly 2, .add⟩
      [.const (.integer (-7)), .apply ⟨"negate", .exactly 1, .negate⟩
        [.const (.integer 0)]]).prefixText = "(+ -7 (negate 0))" := by decide +kernel
  obtain ⟨_, words, _, _, reread, _⟩ := prefixText_normal_form read
  rw [written] at words reread
  exact ⟨read, words, reread⟩

end Polish.Parser
