import Mathlib.Data.List.Basic
import Polish.Proofs.Expr.NormalForm

set_option autoImplicit false

namespace Polish

namespace Expr

def Label.word : Label → String
  | .operation symbol _ => symbol
  | .variable v => v.name
  | .constant value => value.text
  | .foreign value => String.ofList ('<' :: value.kindName.toList ++ ['>'])

mutual

/-- The labels of all nodes, each behind those of its arguments. -/
def postorder : Expr → List Label
  | .const value => [.constant value]
  | .var v => [.variable v]
  | .apply op args => postorderList args ++ [.operation op.symbol args.length]
  | .foreign value => [.foreign value]

def postorderList : List Expr → List Label
  | [] => []
  | e :: es => postorder e ++ postorderList es

end

variable {e : Expr} {args : List Expr} {op : Operator}

theorem labelsList_eq_flatMap (args : List Expr) : labelsList args = args.flatMap labels := by
  induction args with
  | nil => rfl
  | cons e es ih => rw [labelsList, ih, List.flatMap_cons]

theorem labelsList_perm_postorderList (each : ∀ e ∈ args, e.labels.Perm e.postorder) :
    (labelsList args).Perm (postorderList args) := by
  induction args with
  | nil => exact .nil
  | cons e es ih =>
      exact (each e (by simp)).append (ih fun e member => each e (List.mem_cons_of_mem _ member))

/-- Both orders have the same labels. -/
theorem labels_perm_postorder (e : Expr) : e.labels.Perm e.postorder := by
  induction e with
  | apply op args ih =>
      rw [labels, postorder]
      exact ((labelsList_perm_postorderList ih).cons _).trans
        (List.perm_append_singleton _ _).symm
  | _ => exact .refl _

theorem filter_labelsList {keep : Label → Bool}
    (each : ∀ e ∈ args, e.labels.filter keep = e.postorder.filter keep) :
    (labelsList args).filter keep = (postorderList args).filter keep := by
  induction args with
  | nil => rfl
  | cons e es ih =>
      rw [labelsList, postorderList, List.filter_append, List.filter_append, each e (by simp),
        ih fun e member => each e (List.mem_cons_of_mem _ member)]

/-- Without the operators, both orders are the same. -/
theorem filter_labels {keep : Label → Bool}
    (operators : ∀ symbol count, .operation symbol count ∈ e.labels →
      keep (.operation symbol count) = false) :
    e.labels.filter keep = e.postorder.filter keep := by
  induction e with
  | apply op args ih =>
      have own : keep (.operation op.symbol args.length) = false :=
        operators _ _ (by simp [labels])
      have inside := filter_labelsList fun e member => ih e member fun symbol count within =>
        operators symbol count (mem_labels_of_argument member within)
      rw [labels, postorder, List.filter_cons_of_neg (by rw [own]; decide), inside,
        List.filter_append, List.filter_cons_of_neg (by rw [own]; decide), List.filter_nil,
        List.append_nil]
  | _ => rfl

theorem spaced_singleton (word : List Char) : spaced [word] = word := List.intercalate_singleton

theorem spaced_append {first second : List (List Char)} (some_ : first ≠ [])
    (more : second ≠ []) : spaced (first ++ second) = spaced first ++ ' ' :: spaced second := by
  induction first with
  | nil => exact absurd rfl some_
  | cons word words ih =>
      by_cases last : words = []
      · rw [last, List.singleton_append, spaced_cons more, spaced_singleton]
      · have later : words ++ second ≠ [] := by simp [last]
        rw [List.cons_append, spaced_cons later, ih last, spaced_cons last, List.append_assoc,
          List.cons_append]

theorem flatten_ne_nil {groups : List (List (List Char))} (some_ : groups ≠ [])
    (each : ∀ group ∈ groups, group ≠ []) : groups.flatten ≠ [] := by
  obtain ⟨group, others, rfl⟩ := List.exists_cons_of_ne_nil some_
  rw [List.flatten_cons]
  exact List.append_ne_nil_of_left_ne_nil (each group (by simp)) _

/-- Spaces between groups of words are spaces between all words, if no group is empty. -/
theorem spaced_flatten {groups : List (List (List Char))} (each : ∀ group ∈ groups, group ≠ []) :
    spaced (groups.map spaced) = spaced groups.flatten := by
  induction groups with
  | nil => rfl
  | cons group groups ih =>
      have later : ∀ other ∈ groups, other ≠ [] :=
        fun other member => each other (List.mem_cons_of_mem _ member)
      rw [List.map_cons, List.flatten_cons]
      by_cases last : groups = []
      · rw [last, List.map_nil, List.flatten_nil, List.append_nil, spaced_singleton]
      · have more : groups.map spaced ≠ [] := by simpa using last
        rw [spaced_cons more, ih later,
          spaced_append (each group (by simp)) (flatten_ne_nil last later)]

def postfixWords (e : Expr) : List (List Char) := e.postorder.map (·.word.toList)

theorem postfixWords_ne_nil (e : Expr) : e.postfixWords ≠ [] := by
  cases e <;> simp [postfixWords, postorder]

theorem flatten_postfixWords (args : List Expr) :
    (args.map postfixWords).flatten = (postorderList args).map (·.word.toList) := by
  induction args with
  | nil => rfl
  | cons e es ih =>
      rw [List.map_cons, List.flatten_cons, ih, postorderList, List.map_append, postfixWords]

/-- No registered operator may do without arguments. -/
theorem ne_nil_of_accepted (known : Operator.ofSymbol? op.symbol = some op)
    (accepted : op.arity.accepts args.length = true) : args ≠ [] := by
  have each : ∀ op ∈ Operator.registered, op.arity.accepts 0 = false := by decide
  rintro rfl
  have refused := each op (List.mem_of_find?_eq_some known)
  exact absurd (refused.symm.trans accepted) Bool.false_ne_true

theorem postfixChars_eq_spaced (formed : e.WellFormed) : e.postfixChars = spaced e.postfixWords := by
  induction formed with
  | const value => exact (spaced_singleton value.text.toList).symm
  | var v => exact (spaced_singleton v.name.toList).symm
  | apply op args known accepted children ih =>
      have some_ := ne_nil_of_accepted known accepted
      have parts : args.map postfixChars = (args.map postfixWords).map spaced := by
        rw [List.map_map]
        exact List.map_congr_left ih
      have groups : ∀ group ∈ args.map postfixWords, group ≠ [] := by
        intro group member
        obtain ⟨e, _, rfl⟩ := List.mem_map.mp member
        exact postfixWords_ne_nil e
      have inner := flatten_ne_nil (by simpa using some_) groups
      have whole : (apply op args).postfixWords =
          (args.map postfixWords).flatten ++ [op.symbol.toList] := by
        rw [flatten_postfixWords, postfixWords, postorder, List.map_append]
        rfl
      rw [postfixChars, postfixCharsList_eq_map, parts, spaced_flatten groups, whole,
        spaced_append inner (List.cons_ne_nil _ _), spaced_singleton]

/-- What texts are read as: every operator has as many arguments as it takes, and the constants are
integers with no more digits than are read. -/
structure Readable (e : Expr) : Prop where
  formed : e.WellFormed
  integers : ∀ value, .constant value ∈ e.labels → value.isInteger = true
  short : e.Short

theorem Readable.arguments (readable : (apply op args).Readable) : ∀ e ∈ args, e.Readable := by
  intro e member
  obtain ⟨formed, integers, short⟩ := readable
  cases formed with
  | apply op args known accepted children =>
      exact ⟨children e member, fun value inside =>
        integers value (mem_labels_of_argument member inside),
        short_of_mem short e member⟩

theorem exists_parse_iff : (∃ text, Parser.parse text = .ok e) ↔ e.Readable := by
  constructor
  · rintro ⟨text, accepted⟩
    exact ⟨((Parser.parse_eq_ok_iff text e).mp accepted).wellFormed,
      Parser.isInteger_of_parse accepted, Parser.short_of_parse accepted⟩
  · rintro ⟨formed, integers, short⟩
    exact ⟨_, Parser.parse_prefixText_of_integers formed integers short⟩

theorem space_not_mem_word (readable : e.Readable) {label : Label} (member : label ∈ e.labels) :
    ' ' ∉ label.word.toList := by
  have supported := readable.formed.registered.supported
  match label, member with
  | .operation symbol count, member =>
      have each : ∀ op ∈ Operator.registered, ' ' ∉ op.symbol.toList := by decide
      obtain ⟨op, known⟩ := Option.isSome_iff_exists.mp (supported.1 symbol count member)
      rw [Label.word, ← Operator.symbol_of_ofSymbol? known]
      exact each op (List.mem_of_find?_eq_some known)
  | .variable v, _ => cases v <;> decide
  | .constant (.integer n), _ =>
      have digits : ' ' ∉ Nat.toDigits 10 n.natAbs := fun inside =>
        absurd (Layout.isDigit_of_mem_toDigits _ _ inside) (by decide)
      rw [Label.word, Number.toList_text_integer]
      split <;> simp [digits]
  | .constant (.truth _), member => cases readable.integers _ member
  | .constant (.double _), member => cases readable.integers _ member
  | .foreign value, member => exact absurd member (supported.2 value)

end Expr

/-- The words of a text that are set apart by single spaces. -/
def Postfix.words (text : String) : List String := (text.toList.splitOn ' ').map String.ofList

def Token.unbracketed (words : List String) : List String :=
  words.filter fun word => word != opening && word != closing

namespace Expr

open Polish.Parser Polish.Token

variable {e : Expr} {words : List String}

theorem words_postfixText (readable : e.Readable) :
    Postfix.words e.postfixText = e.postorder.map Label.word := by
  have apart : ∀ word ∈ e.postfixWords, ' ' ∉ word := by
    intro word member
    obtain ⟨label, inside, rfl⟩ := List.mem_map.mp member
    exact space_not_mem_word readable ((labels_perm_postorder e).mem_iff.mpr inside)
  rw [Postfix.words, postfixText, String.toList_ofList, postfixChars_eq_spaced readable.formed,
    spaced, List.splitOn_intercalate ' ' apart (postfixWords_ne_nil e), postfixWords, List.map_map]
  exact List.map_congr_left fun label _ => String.ofList_toList

theorem unbracketed_append (first second : List String) :
    unbracketed (first ++ second) = unbracketed first ++ unbracketed second :=
  List.filter_append _ _

theorem unbracketed_of_glued {word : String} (glued : Glued word.toList) :
    unbracketed [word] = [word] := by
  obtain ⟨notOpening, notClosing⟩ := ne_parenthesis_of_glued glued
  simp [unbracketed, notOpening, notClosing]

/-- By induction on the spelling: without parentheses, the words are those of the nodes. -/
theorem unbracketed_of_spells (spelled : Spells words e) :
    unbracketed (words.map normalWord) = e.labels.map Label.word := by
  induction spelled with
  | integer shape short =>
      rw [List.map_singleton, normalWord_of_isInteger shape]
      exact unbracketed_of_glued (glued_of_isInteger (Number.isInteger_text _)).1
  | named v =>
      rw [List.map_singleton, normalWord_name]
      exact unbracketed_of_glued (glued_name v).1
  | application op parts known accepted spelled ih =>
      obtain ⟨opens, closes⟩ := normalWord_parentheses
      have kept : unbracketed [op.symbol] = [op.symbol] := by
        have each : ∀ op ∈ Operator.registered, unbracketed [op.symbol] = [op.symbol] := by decide
        exact each op (List.mem_of_find?_eq_some known)
      have inside : unbracketed ((parts.flatMap (·.1)).map normalWord) =
          (labelsList (parts.map (·.2))).map Label.word := by
        rw [List.map_flatMap, unbracketed, List.filter_flatMap, labelsList_eq_flatMap,
          List.flatMap_map, List.map_flatMap]
        exact List.flatMap_congr ih
      have split : (opening :: op.symbol :: parts.flatMap (·.1) ++ [closing]).map normalWord =
          [opening] ++ [op.symbol] ++ (parts.flatMap (·.1)).map normalWord ++ [closing] := by
        simp [opens, closes, normalWord_symbol known]
      have outer : unbracketed [opening] = [] ∧ unbracketed [closing] = [] := by decide
      rw [split, unbracketed_append, unbracketed_append, unbracketed_append, outer.1, outer.2, kept,
        inside, labels, List.map_cons, List.append_nil]
      rfl

theorem words_prefixText (readable : e.Readable) :
    unbracketed (Reader.ofText e.prefixText).words = e.labels.map Label.word := by
  have spelled := (parse_eq_ok_iff _ e).mp
    (parse_prefixText_of_integers readable.formed readable.integers readable.short)
  have written := yields_prefixChars spelled [] endsWord_nil
  rw [List.append_nil, texts_nil, List.append_nil] at written
  have normal : (Reader.ofText e.prefixText).words =
      (Reader.ofText e.prefixText).words.map normalWord := by
    rw [← written, ← texts_toList, prefixText, String.toList_ofList]
  exact (congrArg unbracketed normal).trans (unbracketed_of_spells spelled)

end Expr

end Polish
