import Polish.Number
import Polish.Proofs.Text.Words

set_option autoImplicit false

namespace Polish

namespace Token

theorem Glued.tail {c : Char} {cs : List Char} (plain : isPlain c = true)
    (glued : Glued (c :: cs)) : Glued cs := by
  cases glued with
  | plain _ rest => exact rest
  | hyphen _ rest => exact absurd plain (by decide)

theorem plus_not_mem_of_glued {cs : List Char} (glued : Glued cs) : '+' ∉ cs := by
  induction glued with
  | nil => simp
  | plain plain rest ih =>
      rw [List.mem_cons, not_or]
      refine ⟨?_, ih⟩
      rintro rfl
      exact absurd plain (by decide)
  | hyphen plain rest ih =>
      rw [List.mem_cons, List.mem_cons, not_or, not_or]
      refine ⟨by decide, ?_, ih⟩
      rintro rfl
      exact absurd plain (by decide)

end Token

namespace Layout

open Token

theorem isDigit_of_mem_toDigits (n : Nat) : ∀ c ∈ Nat.toDigits 10 n, c.isDigit = true :=
  fun _ member => Nat.isDigit_of_mem_toDigits (by decide) (by decide) member

theorem isDigit_of_mem_padLeft (width : Nat) {digits : List Char}
    (decimal : ∀ c ∈ digits, c.isDigit = true) : ∀ c ∈ padLeft width digits, c.isDigit = true := by
  intro c member
  rcases List.mem_append.mp member with zeros | inside
  · rw [List.eq_of_mem_replicate zeros]
    decide
  · exact decimal c inside

theorem padLeft_ne_nil (width : Nat) {digits : List Char} (nonempty : digits ≠ []) :
    padLeft width digits ≠ [] :=
  List.append_ne_nil_of_right_ne_nil _ nonempty

theorem isDigit_of_mem_trim {digits : List Char} (decimal : ∀ c ∈ digits, c.isDigit = true) :
    ∀ c ∈ trim digits, c.isDigit = true := by
  intro c member
  unfold trim at member
  split at member
  · rw [List.mem_singleton] at member
    rw [member]
    decide
  · rw [List.mem_reverse] at member
    exact decimal c (List.mem_reverse.mp ((List.dropWhile_sublist _).mem member))

/-- A character that no integer and no variable has. -/
def isForeign (c : Char) : Bool :=
  !c.isDigit && c != '-' && c != 'x' && c != 'y' && c != 'z'

/-- The text is `cut` and what a plus leaves of it: glued characters that are no integer and no
variable, and behind the letter of an exponent a plus with its digits. -/
structure Splits (text cut : List Char) : Prop where
  glued : Glued cut
  foreign : ∃ c ∈ cut, isForeign c = true
  ends : text = cut ∨ ∃ front digits, cut = front ++ ['e'] ∧ text = cut ++ '+' :: digits

/-- A sign in front of a plain character hangs together with it. -/
theorem Splits.negative {text cut : List Char} (plain : ∀ c ∈ cut.head?, isPlain c = true)
    (splits : Splits text cut) : Splits ('-' :: text) ('-' :: cut) := by
  obtain ⟨glued, ⟨d, member, foreign⟩, ends⟩ := splits
  obtain ⟨c, cs, rfl⟩ := List.exists_cons_of_ne_nil (List.ne_nil_of_mem member)
  have first : isPlain c = true := plain c rfl
  refine ⟨.hyphen first (glued.tail first), ⟨d, List.mem_cons_of_mem _ member, foreign⟩, ?_⟩
  rcases ends with same | ⟨front, digits, last, same⟩
  · exact Or.inl (by rw [same])
  · refine Or.inr ⟨'-' :: front, digits, ?_, ?_⟩
    · rw [last, List.cons_append]
    · rw [same]
      rfl

/-- The cut is the text before a plus. -/
theorem Splits.takeWhile_eq {text cut : List Char} (splits : Splits text cut) :
    text.takeWhile (· ≠ '+') = cut := by
  have none : ∀ c ∈ cut, decide (c ≠ '+') = true := by
    intro c member
    simp only [ne_eq, decide_not, Bool.not_eq_true', decide_eq_false_iff_not]
    rintro rfl
    exact plus_not_mem_of_glued splits.glued member
  have stop : ∀ rest, (cut ++ rest).takeWhile (· ≠ '+') = cut ++ rest.takeWhile (· ≠ '+') :=
    fun rest => List.takeWhile_append_of_pos none
  rcases splits.ends with same | ⟨front, digits, _, same⟩
  · have whole := stop []
    rw [List.append_nil, List.takeWhile_nil, List.append_nil] at whole
    rw [same, whole]
  · rw [same, stop]
    simp

theorem positional_splits {digits : List Char} (decimal : ∀ c ∈ digits, c.isDigit = true)
    (whole : Int) :
    (∀ c ∈ positional digits whole, isPlain c = true) ∧
      Splits (positional digits whole) (positional digits whole) := by
  have zeros : ∀ count, ∀ c ∈ List.replicate count '0', c.isDigit = true := by
    intro count c member
    rw [List.eq_of_mem_replicate member]
    decide
  have shape : ∃ front back, positional digits whole = front ++ '.' :: back ∧
      (∀ c ∈ front, c.isDigit = true) ∧ ∀ c ∈ back, c.isDigit = true := by
    unfold positional
    split
    · refine ⟨['0'], _, rfl, List.forall_mem_singleton.mpr (by decide), ?_⟩
      exact List.forall_mem_append.mpr ⟨zeros _, decimal⟩
    · dsimp only
      split
      · refine ⟨digits ++ List.replicate (whole.toNat - digits.length) '0', ['0'], rfl, ?_,
          List.forall_mem_singleton.mpr (by decide)⟩
        exact List.forall_mem_append.mpr ⟨decimal, zeros _⟩
      · exact ⟨_, _, rfl, fun c member => decimal c (List.mem_of_mem_take member),
          fun c member => decimal c (List.mem_of_mem_drop member)⟩
  obtain ⟨front, back, same, before, behind⟩ := shape
  have all : ∀ c ∈ positional digits whole, isPlain c = true := by
    rw [same]
    refine List.forall_mem_append.mpr ⟨fun c member => isPlain_of_isDigit (before c member), ?_⟩
    exact List.forall_mem_cons.mpr
      ⟨by decide, fun c member => isPlain_of_isDigit (behind c member)⟩
  exact ⟨all, .of_plain all, ⟨'.', by simp [same], by decide⟩, Or.inl rfl⟩

theorem scientific_splits (layout : Layout) {digits : List Char}
    (decimal : ∀ c ∈ digits, c.isDigit = true) (exponent : Int) :
    ∃ cut, (∀ c ∈ cut.head?, isPlain c = true) ∧
      Splits (layout.scientific digits exponent) cut := by
  obtain ⟨front, plain, same⟩ : ∃ front, (∀ c ∈ front, isPlain c = true) ∧
      layout.scientific digits exponent = front ++ 'e' :: (if exponent < 0 then '-' else '+') ::
        padLeft layout.exponentDigits (Nat.toDigits 10 exponent.natAbs) := by
    refine ⟨_, ?_, rfl⟩
    refine List.forall_mem_append.mpr
      ⟨fun c member => isPlain_of_isDigit (decimal c (List.mem_of_mem_take member)), ?_⟩
    split
    · simp
    · exact List.forall_mem_cons.mpr ⟨by decide, fun c member =>
        isPlain_of_isDigit (decimal c (List.mem_of_mem_drop member))⟩
  have marked : ∀ c ∈ front ++ ['e'], isPlain c = true :=
    List.forall_mem_append.mpr ⟨plain, List.forall_mem_singleton.mpr (by decide)⟩
  have head : ∀ more, ∀ c ∈ (front ++ ['e'] ++ more).head?, isPlain c = true := by
    intro more c member
    obtain ⟨d, rest, split⟩ := List.exists_cons_of_ne_nil (List.concat_ne_nil 'e' front)
    rw [split] at member marked
    cases member
    exact marked c (by simp)
  have marker : ∀ more, ∃ d ∈ front ++ ['e'] ++ more, isForeign d = true := fun more =>
    ⟨'e', by simp, by decide⟩
  rw [same, List.append_cons]
  -- A minus hangs together with the digits of the exponent; a plus ends the word before it.
  by_cases below : exponent < 0
  · have power := isDigit_of_mem_padLeft layout.exponentDigits
      (isDigit_of_mem_toDigits exponent.natAbs)
    have some_ := padLeft_ne_nil layout.exponentDigits
      (Nat.toDigits_ne_nil (n := exponent.natAbs) (b := 10))
    obtain ⟨d, digits, split⟩ := List.exists_cons_of_ne_nil some_
    rw [split] at power
    have tail : Glued ('-' :: d :: digits) :=
      .hyphen (isPlain_of_isDigit (power d (by simp)))
        (.of_plain fun c member => isPlain_of_isDigit (power c (List.mem_cons_of_mem d member)))
    simp only [below, ↓reduceIte, split]
    exact ⟨_, head _, (Glued.of_plain marked).append tail, marker _, Or.inl rfl⟩
  · simp only [below, ↓reduceIte]
    refine ⟨front ++ ['e'], ?_, .of_plain marked, ?_, Or.inr ⟨front, _, rfl, rfl⟩⟩
    · simpa using head []
    · simpa using marker []

theorem decimal_splits (layout : Layout) (d : Decimal) :
    ∃ cut, (∀ c ∈ cut.head?, isPlain c = true) ∧ Splits (layout.decimal d) cut := by
  have digits := isDigit_of_mem_trim (isDigit_of_mem_toDigits d.significand)
  unfold decimal
  dsimp only
  split
  · obtain ⟨all, splits⟩ := positional_splits digits _
    exact ⟨_, fun c member => all c (List.mem_of_mem_head? member), splits⟩
  · exact scientific_splits layout digits _

theorem text_splits (layout : Layout) {f : Format} (b : Binary f) :
    ∃ cut, Splits (layout.text b).toList cut := by
  cases b with
  | nan =>
      have shown : (layout.text (.nan : Binary f)).toList = ['n', 'a', 'n'] := by
        rw [text]
        decide
      rw [shown]
      exact ⟨_, .of_all (by decide), ⟨'n', by decide, by decide⟩, Or.inl rfl⟩
  | infinite negative =>
      have shown : (layout.text (.infinite negative : Binary f)).toList =
          if negative then ['-', 'i', 'n', 'f'] else ['i', 'n', 'f'] := by
        rw [text]
        cases negative <;> decide
      have splits : Splits ['i', 'n', 'f'] ['i', 'n', 'f'] :=
        ⟨.of_all (by decide), ⟨'i', by decide, by decide⟩, Or.inl rfl⟩
      rw [shown]
      cases negative with
      | false => exact ⟨_, splits⟩
      | true =>
          have plain : ∀ c ∈ ['i', 'n', 'f'].head?, isPlain c = true := by
            intro c first
            cases first
            decide
          exact ⟨_, splits.negative plain⟩
  | finite negative m s canonical =>
      obtain ⟨cut, plain, splits⟩ : ∃ cut, (∀ c ∈ cut.head?, isPlain c = true) ∧
          Splits (if m = 0 then ['0', '.', '0'] else layout.decimal (Decimal.shortest f m s))
            cut := by
        split
        · refine ⟨['0', '.', '0'], ?_, .of_all (by decide), ⟨'.', by decide, by decide⟩,
            Or.inl rfl⟩
          intro c first
          cases first
          decide
        · exact decimal_splits layout _
      rw [text, String.toList_ofList]
      cases negative with
      | false => exact ⟨cut, splits⟩
      | true => exact ⟨_, splits.negative plain⟩

end Layout

end Polish
