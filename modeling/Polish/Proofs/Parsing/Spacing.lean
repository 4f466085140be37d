import Mathlib.Logic.Relation
import Polish.Proofs.Parsing.Viability
import Polish.Proofs.Text.Seams

/-!
The layout of a text. White space may be put at the ends of a text and beside its parentheses, and
what there is may be replaced. Main statement: a text is read as a tree exactly if it is so in any
other layout. Words may change, when a hyphen in front of a parenthesis comes apart from the word
before it, but they spell nothing then, neither way.
-/

set_option autoImplicit false

namespace Polish

open Token

/-- White space is put into a text, or is replaced there. -/
inductive Edit : List Char → List Char → Prop where
  | replaced (before after : List Char) {run other : List Char} (blank : AllBlank run)
      (some_ : run ≠ []) (blank' : AllBlank other) (some' : other ≠ []) :
      Edit (before ++ (run ++ after)) (before ++ (other ++ after))
  | atStart (cs : List Char) {run : List Char} (blank : AllBlank run) : Edit cs (run ++ cs)
  | atEnd (cs : List Char) {run : List Char} (blank : AllBlank run) : Edit cs (cs ++ run)
  | beforeParenthesis (before after : List Char) {run : List Char} {p : Char}
      (blank : AllBlank run) (parenthesis : IsParenthesis p) :
      Edit (before ++ p :: after) (before ++ (run ++ p :: after))
  | behindParenthesis (before after : List Char) {run : List Char} {p : Char}
      (blank : AllBlank run) (parenthesis : IsParenthesis p) :
      Edit (before ++ p :: after) (before ++ p :: (run ++ after))

namespace Parser

def EndsInHyphen (word : String) : Prop := word.toList.getLast? = some '-'

instance : DecidablePred EndsInHyphen := fun _ => inferInstanceAs (Decidable (_ = _))

theorem not_isInteger_of_endsInHyphen {word : String} (hyphen : EndsInHyphen word)
    (negative : Bool) (digits : List Char) : ¬ IsInteger word negative digits := by
  rintro ⟨nonempty, decimal, spelled⟩
  have last : digits.getLast? = some '-' := by
    rw [EndsInHyphen, spelled] at hyphen
    cases negative with
    | false => exact hyphen
    | true =>
        obtain ⟨c, rest, rfl⟩ := List.exists_cons_of_ne_nil nonempty
        rwa [if_pos rfl, List.getLast?_cons_cons] at hyphen
  have digit := decimal '-' (List.mem_of_getLast? last)
  exact absurd digit (by decide)

theorem name_ne_of_endsInHyphen {word : String} (hyphen : EndsInHyphen word) (v : Variable) :
    v.name ≠ word := by
  rintro rfl
  cases v <;> exact absurd hyphen (by decide)

theorem symbol_of_endsInHyphen {word : String} {op : Operator} (hyphen : EndsInHyphen word)
    (known : Operator.ofSymbol? word = some op) : word = "-" := by
  have each : ∀ op ∈ Operator.registered,
      op.symbol.toList.getLast? = some '-' → op.symbol = "-" := by decide
  obtain rfl := Operator.symbol_of_ofSymbol? known
  exact each op (List.mem_of_find?_eq_some known) hyphen

/-- A word that ends in a hyphen begins no expression. -/
theorem begin_ne_ok_of_endsInHyphen {token : Token} (hyphen : EndsInHyphen token.text)
    (outer : List Frame) (next : State) : State.begin token outer ≠ .ok next := by
  intro moved
  have notOpening : token.text ≠ Token.opening := by
    intro opens
    rw [opens] at hyphen
    exact absurd hyphen (by decide)
  rw [State.begin, if_neg notOpening, leaf_of_meaningless
    (not_isInteger_of_endsInHyphen hyphen) (name_ne_of_endsInHyphen hyphen)] at moved
  cases moved

/-- It is the operator then, and it is read where a parenthesis was just opened. -/
theorem opened_of_step {s next : State} {token : Token} (hyphen : EndsInHyphen token.text)
    (moved : s.step token = .ok next) :
    token.text = "-" ∧ ∃ outer, s = .opened outer := by
  have notClosing : token.text ≠ Token.closing := by
    intro closes
    rw [closes] at hyphen
    exact absurd hyphen (by decide)
  have noExpression := begin_ne_ok_of_endsInHyphen hyphen
  cases s with
  | start =>
      rw [State.step, if_neg notClosing] at moved
      exact absurd moved (noExpression [] next)
  | opened outer =>
      rw [State.step] at moved
      split at moved
      · rename_i op known
        exact ⟨symbol_of_endsInHyphen hyphen known, outer, rfl⟩
      · cases moved
  | within frame outer =>
      rw [State.step, if_neg notClosing] at moved
      split at moved
      · exact absurd moved (noExpression (frame :: outer) next)
      · cases moved
  | complete e => cases moved

/-- In words that can be completed, a word that ends in a hyphen is the operator and stands behind
an opening parenthesis. -/
theorem behind_opening_of_endsInHyphen {words : List String} {word : String}
    (viable : Viable (words ++ [word])) (hyphen : EndsInHyphen word) :
    word = "-" ∧ ∃ before, words = before ++ [Token.opening] := by
  obtain ⟨tokens, texts⟩ := exists_tokens (words ++ [word])
  obtain ⟨first, last, rfl, before, here⟩ := List.map_eq_append_iff.mp texts
  obtain ⟨token, rest, rfl, named, nothing⟩ := List.map_eq_cons_iff.mp here
  obtain rfl := List.map_eq_nil_iff.mp nothing
  rw [← texts, viable_iff_run] at viable
  obtain ⟨final, ran⟩ := viable
  cases reached : State.start.run first with
  | error rejection =>
      rw [State.run_append_of_error _ reached] at ran
      cases ran
  | ok s =>
      rw [State.run_append_of_ok _ reached] at ran
      cases moved : s.step token with
      | error rejection =>
          rw [State.run_cons_of_error _ moved] at ran
          cases ran
      | ok next =>
          rw [← named] at hyphen
          obtain ⟨same, outer, rfl⟩ := opened_of_step hyphen moved
          refine ⟨named.symm.trans same, ?_⟩
          have words_ := Reached.run .start reached
          rw [List.nil_append, before] at words_
          cases words_ with
          | opened around room => exact ⟨_, rfl⟩

/-- A hyphen glued to the end of a word spells nothing, and neither does one that is apart. -/
theorem not_spells_of_gluesHyphen {p : Char} {cs characters : List Char} {front : List String}
    (glues : GluesHyphen p cs characters front) (more : List String) (e : Expr) :
    ¬ Spells (texts cs ++ more) e ∧
      ¬ Spells (front ++ String.ofList (characters ++ ['-']) :: more) e := by
  obtain ⟨glued, nonempty, apart, _⟩ := glues
  constructor
  · intro spelled
    have split : texts cs ++ more = front ++ [String.ofList characters] ++ ["-"] ++ more := by
      rw [apart]
      simp
    have viable : Viable (front ++ [String.ofList characters] ++ ["-"]) :=
      ⟨more, e, split ▸ spelled⟩
    obtain ⟨_, before, same⟩ := behind_opening_of_endsInHyphen viable (by decide)
    have word := (List.append_inj' same rfl).2
    have glued' : Token.Glued (String.ofList characters).toList := by rwa [String.toList_ofList]
    have notOpening := (ne_parenthesis_of_glued glued').1
    exact notOpening (List.cons.inj word).1
  · intro spelled
    have viable : Viable (front ++ [String.ofList (characters ++ ['-'])]) :=
      ⟨more, e, by simpa using spelled⟩
    have hyphen : EndsInHyphen (String.ofList (characters ++ ['-'])) := by
      simp [EndsInHyphen]
    have same := (behind_opening_of_endsInHyphen viable hyphen).1
    have longer := congrArg String.toList same
    rw [String.toList_ofList] at longer
    exact nonempty (by simpa using longer)

theorem spells_iff_of_edit {cs other : List Char} (edit : Edit cs other) (e : Expr) :
    Spells (texts cs) e ↔ Spells (texts other) e := by
  cases edit with
  | replaced before after blank some_ blank' some' =>
      rw [texts_append_blanks blank some_, texts_append_blanks blank' some']
  | atStart _ blank => rw [texts_blanks blank]
  | atEnd _ blank => rw [texts_blanks_end blank]
  | @beforeParenthesis before after run p blank parenthesis =>
      by_cases nothing : run = []
      · rw [nothing, List.nil_append]
      · rw [texts_append_blanks blank nothing, parenthesis.texts]
        rcases keepsApart_or_gluesHyphen parenthesis before with apart | ⟨_, front, glues⟩
        · rw [apart]
        · have neither := not_spells_of_gluesHyphen glues
            (String.singleton p :: texts after) e
          rw [glues.joined]
          exact iff_of_false neither.2 neither.1
  | @behindParenthesis before after run p blank parenthesis =>
      obtain ⟨words, afresh⟩ := texts_behind_parenthesis parenthesis before
      rw [afresh, afresh, texts_blanks blank]

theorem parse_eq_ok_iff_texts (text : String) (e : Expr) :
    parse text = .ok e ↔ Spells (texts text.toList) e := by
  rw [parse_eq_ok_iff, texts_toList]

/-- Any number of edits, made or undone, leave a text one of the same tree, or of none. -/
theorem accepted_in_any_layout {text other : String}
    (edited : Relation.EqvGen Edit text.toList other.toList) (e : Expr) :
    parse text = .ok e ↔ parse other = .ok e := by
  rw [parse_eq_ok_iff_texts, parse_eq_ok_iff_texts]
  generalize text.toList = characters, other.toList = characters' at edited
  induction edited with
  | rel cs cs' edit => exact spells_iff_of_edit edit e
  | refl cs => rfl
  | symm cs cs' _ ih => exact ih.symm
  | trans cs cs' cs'' _ _ first second => exact first.trans second

/-- White space is put in front of a text and behind a parenthesis, and a blank becomes two. Where
a hyphen comes apart from the word in front of it, the words change and nothing is spelled. -/
theorem accepted_in_any_layout_hyphen :
    parse "\n( -\t x(negate -5))" = .ok (.apply ⟨"-", .exactly 2, .subtract⟩
        [.var .x, .apply ⟨"negate", .exactly 1, .negate⟩ [.const (.integer (-5))]]) ∧
      texts "(+ x-(negate y))".toList ≠ texts "(+ x- (negate y))".toList ∧
      ∀ e, parse "(+ x-(negate y))" = .ok e ↔ parse "(+ x- (negate y))" = .ok e := by
  have blank : AllBlank ['\n'] ∧ AllBlank [' '] ∧ AllBlank ['\t', ' '] := by
    simp [AllBlank, isBlank]
  have front : Edit "(- x(negate -5))".toList "\n(- x(negate -5))".toList :=
    .atStart _ blank.1
  have inner : Edit "\n(- x(negate -5))".toList "\n( - x(negate -5))".toList :=
    .behindParenthesis ['\n'] "- x(negate -5))".toList blank.2.1 (Or.inl rfl)
  have wider : Edit "\n( - x(negate -5))".toList "\n( -\t x(negate -5))".toList :=
    .replaced "\n( -".toList "x(negate -5))".toList blank.2.1 (by simp) blank.2.2 (by simp)
  have seam : Edit "(+ x-(negate y))".toList "(+ x- (negate y))".toList :=
    .beforeParenthesis "(+ x-".toList "negate y))".toList blank.2.1 (Or.inl rfl)
  have tokens : ofText "(- x(negate -5))" =
      [⟨"(", 0, 1⟩, ⟨"-", 1, 2⟩, ⟨"x", 3, 4⟩, ⟨"(", 4, 5⟩, ⟨"negate", 5, 11⟩, ⟨"-5", 12, 14⟩,
        ⟨")", 14, 15⟩, ⟨")", 15, 16⟩] := by decide +kernel
  have read : parse "(- x(negate -5))" = .ok (.apply ⟨"-", .exactly 2, .subtract⟩
      [.var .x, .apply ⟨"negate", .exactly 1, .negate⟩ [.const (.integer (-5))]]) := by
    rw [parse_eq_outcome, tokens]
    rfl
  refine ⟨?_, by decide +kernel, fun e => accepted_in_any_layout (.rel _ _ seam) e⟩
  have all := Relation.EqvGen.trans _ _ _ (.rel _ _ front)
    (Relation.EqvGen.trans _ _ _ (.rel _ _ inner) (.rel _ _ wider))
  exact (accepted_in_any_layout all _).mp read

end Parser

end Polish
