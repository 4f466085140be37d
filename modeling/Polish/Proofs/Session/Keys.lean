import Polish.Axes
import Polish.Proofs.Expr.RoundTrip

set_option autoImplicit false

namespace Polish

/-- No digit comes next, so that an integer in front has ended. -/
def DigitFree (rest : List Char) : Prop := ∀ c ∈ rest.head?, c.isDigit = false

theorem digitFree_nil : DigitFree [] := nofun

theorem digitFree_cons {c : Char} {rest : List Char} (other : c.isDigit = false) :
    DigitFree (c :: rest) := by
  rintro _ ⟨⟩
  exact other

theorem takeWhile_isDigit_append {digits rest : List Char}
    (decimal : ∀ c ∈ digits, c.isDigit = true) (ended : DigitFree rest) :
    (digits ++ rest).takeWhile Char.isDigit = digits := by
  rw [List.takeWhile_append_of_pos decimal]
  cases rest with
  | nil => simp
  | cons c rest => simp [ended c rfl]

/-- Digits with something else behind them end in one place. -/
theorem digits_append_inj {digits digits' u v : List Char}
    (decimal : ∀ c ∈ digits, c.isDigit = true) (decimal' : ∀ c ∈ digits', c.isDigit = true)
    (ended : DigitFree u) (ended' : DigitFree v) (same : digits ++ u = digits' ++ v) :
    digits = digits' ∧ u = v := by
  have front : digits = digits' := by
    rw [← takeWhile_isDigit_append decimal ended, same, takeWhile_isDigit_append decimal' ended']
  rw [front] at same
  exact ⟨front, List.append_cancel_left same⟩

namespace Number

theorem exists_toDigits_eq_cons (n : Nat) :
    ∃ c rest, Nat.toDigits 10 n = c :: rest ∧ c.isDigit = true := by
  have digits := Layout.isDigit_of_mem_toDigits n
  obtain ⟨c, rest, shape⟩ := List.exists_cons_of_ne_nil (Nat.toDigits_ne_nil (n := n) (b := 10))
  rw [shape] at digits
  exact ⟨c, rest, shape, digits c List.mem_cons_self⟩

/-- The text of an integer begins with a hyphen or a digit. -/
theorem exists_cons_integer (n : Int) :
    ∃ c rest, (integer n).text.toList = c :: rest ∧ (c = '-' ∨ c.isDigit = true) := by
  rw [toList_text_integer]
  cases decide (n < 0) with
  | true => exact ⟨'-', _, rfl, Or.inl rfl⟩
  | false =>
      obtain ⟨c, rest, shape, digit⟩ := exists_toDigits_eq_cons n.natAbs
      exact ⟨c, rest, shape, Or.inr digit⟩

theorem integer_append_inj {m n : Int} {u v : List Char} (ended : DigitFree u)
    (ended' : DigitFree v)
    (same : (integer m).text.toList ++ u = (integer n).text.toList ++ v) : m = n ∧ u = v := by
  have digits := Layout.isDigit_of_mem_toDigits m.natAbs
  have digits' := Layout.isDigit_of_mem_toDigits n.natAbs
  have apart : ∀ {k : Nat} {u : List Char}, ∀ rest, Nat.toDigits 10 k ++ u ≠ '-' :: rest := by
    intro k u rest meets
    obtain ⟨c, more, shape, digit⟩ := exists_toDigits_eq_cons k
    rw [shape] at meets
    obtain ⟨rfl, _⟩ := List.cons.inj meets
    revert digit
    decide
  have value := integerOf_toDigits m
  have value' := integerOf_toDigits n
  rw [toList_text_integer, toList_text_integer] at same
  cases below : decide (m < 0) <;> cases below' : decide (n < 0) <;>
    simp only [below, below', Bool.false_eq_true, ↓reduceIte, List.cons_append] at same value value'
  · obtain ⟨sizes, rests⟩ := digits_append_inj digits digits' ended ended' same
    rw [sizes, value'] at value
    exact ⟨value.symm, rests⟩
  · exact absurd same (apart _)
  · exact absurd same.symm (apart _)
  · obtain ⟨sizes, rests⟩ :=
      digits_append_inj digits digits' ended ended' (List.cons.inj same).2
    rw [sizes, value'] at value
    exact ⟨value.symm, rests⟩

end Number

namespace Axes

def closing : List Axes → List Char
  | [] => [',', ')']
  | entry :: rest => following (entry :: rest) ++ [')']

theorem characters_each_cons (entry : Axes) (rest : List Axes) :
    characters (.each (entry :: rest)) = '(' :: characters entry ++ closing rest := by
  cases rest with
  | nil => rw [characters, closing]
  | cons next rest => rw [characters, closing, List.append_assoc]

theorem digitFree_closing (rest : List Axes) (u : List Char) : DigitFree (closing rest ++ u) := by
  cases rest with
  | nil => exact digitFree_cons (by decide)
  | cons next rest =>
      rw [closing, following]
      exact digitFree_cons (by decide)

theorem digitFree_following (rest : List Axes) (u : List Char) :
    DigitFree (following rest ++ ')' :: u) := by
  cases rest with
  | nil => exact digitFree_cons (by decide)
  | cons next rest =>
      rw [following]
      exact digitFree_cons (by decide)

/-- The character that the text begins with, unless it is an integer. -/
def mark? : Axes → Option Char
  | .unmapped => some 'N'
  | .axis _ => none
  | .each _ => some '('

theorem exists_characters_eq_cons (axes : Axes) : ∃ c rest, axes.characters = c :: rest ∧
    (axes.mark? = if c = 'N' ∨ c = '(' then some c else none) ∧ c ≠ ')' := by
  match axes with
  | .unmapped => exact ⟨'N', _, by rw [characters]; rfl, rfl, by decide⟩
  | .axis index =>
      obtain ⟨c, rest, shape, first⟩ := Number.exists_cons_integer index
      have other : ¬ (c = 'N' ∨ c = '(') := by
        rintro (rfl | rfl) <;> revert first <;> decide
      have apart : c ≠ ')' := by
        rintro rfl
        revert first
        decide
      exact ⟨c, rest, by rw [characters, shape], by rw [mark?, if_neg other], apart⟩
  | .each [] => exact ⟨'(', _, by rw [characters], rfl, by decide⟩
  | .each (entry :: rest) =>
      exact ⟨'(', _, by rw [characters_each_cons, List.cons_append], rfl, by decide⟩

/-- Texts of axes of different kinds begin differently. -/
theorem mark?_eq_of_append {a b : Axes} {u v : List Char}
    (same : a.characters ++ u = b.characters ++ v) : a.mark? = b.mark? := by
  obtain ⟨c, rest, shape, mark, _⟩ := a.exists_characters_eq_cons
  obtain ⟨c', rest', shape', mark', _⟩ := b.exists_characters_eq_cons
  rw [shape, shape'] at same
  obtain ⟨rfl, _⟩ := List.cons.inj same
  rw [mark, mark']

/-- No text of axes begins with the end of a list. -/
theorem characters_append_ne (axes : Axes) (u v : List Char) :
    axes.characters ++ u ≠ ')' :: v := by
  intro meets
  obtain ⟨c, rest, shape, mark, other⟩ := axes.exists_characters_eq_cons
  rw [shape] at meets
  exact other (List.cons.inj meets).1

mutual

/-- A text of axes with no digit behind it ends in one place, and is the text of those axes only. -/
theorem characters_append_inj (a b : Axes) {u v : List Char} (ended : DigitFree u)
    (ended' : DigitFree v) (same : a.characters ++ u = b.characters ++ v) : a = b ∧ u = v := by
  have alike := mark?_eq_of_append same
  match a, b, alike, same with
  | .unmapped, .unmapped, _, same => exact ⟨rfl, List.append_cancel_left same⟩
  | .axis m, .axis n, _, same =>
      rw [characters, characters] at same
      obtain ⟨rfl, rests⟩ := Number.integer_append_inj ended ended' same
      exact ⟨rfl, rests⟩
  | .each [], .each [], _, same => exact ⟨rfl, List.append_cancel_left same⟩
  | .each [], .each (entry :: rest), _, same =>
      rw [characters, characters_each_cons] at same
      exact absurd (List.cons.inj same).2.symm (by simpa using characters_append_ne _ _ _)
  | .each (entry :: rest), .each [], _, same =>
      rw [characters, characters_each_cons] at same
      exact absurd (List.cons.inj same).2 (by simpa using characters_append_ne _ _ _)
  | .each (entry :: rest), .each (entry' :: rest'), _, same =>
      rw [characters_each_cons, characters_each_cons, List.cons_append, List.cons_append,
        List.append_assoc, List.append_assoc] at same
      obtain ⟨rfl, closings⟩ := characters_append_inj entry entry' (digitFree_closing _ _)
        (digitFree_closing _ _) (List.cons.inj same).2
      match rest, rest', closings with
      | [], [], closings => exact ⟨rfl, List.append_cancel_left closings⟩
      | [], next :: rest, closings => simp [closing, following] at closings
      | next :: rest, [], closings => simp [closing, following] at closings
      | next :: rest, next' :: rest', closings =>
          rw [closing, closing, List.append_assoc, List.append_assoc] at closings
          obtain ⟨entries, rests⟩ := following_append_inj _ _ closings
          exact ⟨by rw [entries], rests⟩
  | .unmapped, .axis _, alike, _ | .unmapped, .each _, alike, _ | .axis _, .unmapped, alike, _
  | .axis _, .each _, alike, _ | .each _, .unmapped, alike, _ | .each _, .axis _, alike, _ =>
      simp [mark?] at alike

theorem following_append_inj (a b : List Axes) {u v : List Char}
    (same : following a ++ ')' :: u = following b ++ ')' :: v) : a = b ∧ u = v := by
  match a, b, same with
  | [], [], same => exact ⟨rfl, (List.cons.inj same).2⟩
  | [], entry :: rest, same => simp [following] at same
  | entry :: rest, [], same => simp [following] at same
  | entry :: rest, entry' :: rest', same =>
      simp only [following, List.cons_append, List.append_assoc, List.cons.injEq,
        true_and] at same
      obtain ⟨rfl, behind⟩ := characters_append_inj entry entry' (digitFree_following _ _)
        (digitFree_following _ _) same
      obtain ⟨rfl, rests⟩ := following_append_inj rest rest' behind
      exact ⟨rfl, rests⟩

end

/-- Axes are kept apart by their texts. -/
theorem text_inj {a b : Axes} : a.text = b.text ↔ a = b := by
  refine ⟨fun same => ?_, congrArg text⟩
  have characters_ : a.characters ++ [] = b.characters ++ [] := by
    rw [List.append_nil, List.append_nil]
    exact String.ofList_injective same
  exact (characters_append_inj a b digitFree_nil digitFree_nil characters_).1

/-- A list of one entry is not written as the entry. -/
example : (Axes.each [.each [.axis (-1)], .unmapped]).text = "((-1,), None)" ∧
    (Axes.each [.axis (-1), .unmapped]).text = "(-1, None)" := by
  decide +kernel

end Axes

end Polish
