import Polish.Proofs.Text.Lossless
import Polish.Proofs.Text.Seams

set_option autoImplicit false

namespace Polish

namespace Token

theorem isBlank_iff_mem (c : Char) : isBlank c = true ↔ c ∈ [' ', '\t', '\n', '\r'] := by
  simp [isBlank, or_assoc]

theorem isDelimiter_iff_mem (c : Char) :
    isDelimiter c = true ↔ c ∈ ['+', '-', '*', '/', '(', ')'] := by
  have same : delimiters.Perm ['+', '-', '*', '/', '(', ')'] := by decide
  rw [isDelimiter, List.contains_iff_mem, same.mem_iff]

theorem isPlain_iff_not_mem (c : Char) :
    isPlain c = true ↔ c ∉ [' ', '\t', '\n', '\r', '+', '-', '*', '/', '(', ')'] := by
  have parts : [' ', '\t', '\n', '\r', '+', '-', '*', '/', '(', ')'] =
      [' ', '\t', '\n', '\r'] ++ ['+', '-', '*', '/', '(', ')'] := rfl
  rw [parts, List.mem_append, ← isBlank_iff_mem, ← isDelimiter_iff_mem, isPlain_iff, not_or,
    Bool.not_eq_true, Bool.not_eq_true]

/-- No longer front of the characters is glued. -/
structure LongestGlued (longest cs : List Char) : Prop where
  front : longest <+: cs
  glued : Glued longest
  most : ∀ other, other <+: cs → Glued other → other.length ≤ longest.length

/-- Nothing that a word is glued from stands in front of the characters. -/
def Stops (cs : List Char) : Prop := ∀ other, other <+: cs → Glued other → other = []

/-- A hyphen stands in front of the characters, and a delimiter behind it. -/
def HyphenBinds (cs : List Char) : Prop :=
  ∃ d ∈ ['+', '-', '*', '/', '(', ')'], ['-', d] <+: cs

theorem stops_nil : Stops [] := fun _ front _ => List.prefix_nil.mp front

theorem Stops.not_plain {c : Char} {cs : List Char} (stops : Stops (c :: cs)) :
    isPlain c = false := by
  by_contra plain
  have nothing := stops [c] ⟨cs, rfl⟩ (.plain (by simpa using plain) .nil)
  cases nothing

theorem Stops.not_plain_behind_hyphen {c : Char} {cs : List Char} (stops : Stops ('-' :: c :: cs)) :
    isPlain c = false := by
  by_contra plain
  have nothing := stops ['-', c] ⟨cs, rfl⟩ (.hyphen (by simpa using plain) .nil)
  cases nothing

theorem stops_of_not_plain {c : Char} {cs : List Char} (other : isPlain c = false)
    (behind : c = '-' → ∀ d ∈ cs.head?, isPlain d = false) : Stops (c :: cs) := by
  intro front isFront glued
  cases glued with
  | nil => rfl
  | plain plain more =>
      obtain ⟨rfl, _⟩ := List.cons_prefix_cons.mp isFront
      rw [other] at plain
      cases plain
  | hyphen plain more =>
      obtain ⟨rfl, rest⟩ := List.cons_prefix_cons.mp isFront
      obtain ⟨left, rfl⟩ := rest
      rw [behind rfl _ rfl] at plain
      cases plain

/-- Characters are a glued word and what stops it. -/
theorem exists_glued_stops (cs : List Char) : ∃ w left, cs = w ++ left ∧ Glued w ∧ Stops left := by
  match cs with
  | [] => exact ⟨[], [], rfl, .nil, stops_nil⟩
  | c :: cs =>
      by_cases plain : isPlain c = true
      · obtain ⟨w, left, rfl, glued, stops⟩ := exists_glued_stops cs
        exact ⟨c :: w, left, rfl, .plain plain glued, stops⟩
      · by_cases hyphen : c = '-' ∧ ∃ d ∈ cs.head?, isPlain d = true
        · obtain ⟨rfl, d, first, plain'⟩ := hyphen
          obtain ⟨rest, rfl⟩ := List.head?_eq_some_iff.mp first
          obtain ⟨w, left, rfl, glued, stops⟩ := exists_glued_stops rest
          exact ⟨'-' :: d :: w, left, rfl, .hyphen plain' glued, stops⟩
        · refine ⟨[], c :: cs, rfl, .nil, stops_of_not_plain (by simpa using plain) ?_⟩
          intro isHyphen d first
          by_contra plain'
          exact hyphen ⟨isHyphen, d, first, by simpa using plain'⟩
termination_by cs.length

/-- Every glued front is one of the word that stops. -/
theorem prefix_of_glued {w left other : List Char} (glued : Glued w) (stops : Stops left)
    (front : other <+: w ++ left) (glued' : Glued other) : other <+: w := by
  induction glued generalizing other with
  | nil =>
      have none_ := stops other front glued'
      exact none_ ▸ List.nil_prefix
  | @plain c w plain more ih =>
      cases glued' with
      | nil => exact List.nil_prefix
      | plain plain' more' =>
          obtain ⟨rfl, front'⟩ := List.cons_prefix_cons.mp front
          exact List.cons_prefix_cons.mpr ⟨rfl, ih front' more'⟩
      | hyphen plain' more' =>
          obtain ⟨rfl, _⟩ := List.cons_prefix_cons.mp front
          exact absurd rfl (ne_hyphen_of_isPlain plain)
  | @hyphen c w plain more ih =>
      cases glued' with
      | nil => exact List.nil_prefix
      | plain plain' more' =>
          obtain ⟨rfl, _⟩ := List.cons_prefix_cons.mp front
          exact absurd rfl (ne_hyphen_of_isPlain plain')
      | hyphen plain' more' =>
          obtain ⟨_, rest⟩ := List.cons_prefix_cons.mp front
          obtain ⟨rfl, front'⟩ := List.cons_prefix_cons.mp rest
          exact List.cons_prefix_cons.mpr ⟨rfl, List.cons_prefix_cons.mpr ⟨rfl, ih front' more'⟩⟩

/-- The word that stops is the only longest one. -/
theorem longestGlued_iff {w left : List Char} (glued : Glued w) (stops : Stops left)
    (longest : List Char) : LongestGlued longest (w ++ left) ↔ longest = w := by
  constructor
  · rintro ⟨front, glued', most⟩
    have inside := prefix_of_glued glued stops front glued'
    exact inside.eq_of_length_le (most w (List.prefix_append w left) glued)
  · rintro rfl
    exact ⟨List.prefix_append _ left, glued, fun other front glued' =>
      (prefix_of_glued glued stops front glued').length_le⟩

/-- Reading goes on behind glued characters as in the middle of a word. -/
theorem word_glued_append {w : List Char} {started : Bool} (glued : Glued w)
    (begun : w = [] → started = true) (left : List Char) :
    word started (w ++ left) = (w ++ (word true left).1, (word true left).2) := by
  induction glued generalizing started with
  | nil => rw [begun rfl, List.nil_append, List.nil_append]
  | plain plain more ih =>
      rw [List.cons_append, word_plain started _ plain, ih fun _ => rfl]
      rfl
  | hyphen plain more ih =>
      rw [List.cons_append, List.cons_append, word_hyphen started _ plain, ih fun _ => rfl]
      rfl

theorem word_of_hyphenBinds {cs : List Char} (binds : HyphenBinds cs) (started : Bool) :
    (word started cs).1 = ['-'] := by
  obtain ⟨d, member, rest, rfl⟩ := binds
  have single := (isDelimiter_iff_mem d).mpr member
  have notBlank : isBlank d = false := by
    have none_ : ['+', '-', '*', '/', '(', ')'].all (fun d => !isBlank d) = true := by decide
    simpa using List.all_eq_true.mp none_ d member
  rw [List.cons_append, List.cons_append, word_hyphen_delimiter started _ single notBlank]

/-- A hyphen that binds no delimiter stands in front of white space, or at the end. -/
theorem blank_behind_hyphen {cs : List Char} (stops : Stops ('-' :: cs))
    (loose : ¬ HyphenBinds ('-' :: cs)) : ∀ d ∈ cs.head?, isBlank d = true := by
  intro d first
  obtain ⟨rest, rfl⟩ := List.head?_eq_some_iff.mp first
  rcases blank_or_plain_or_delimiter d with blank | plain | ⟨_, single⟩
  · exact blank
  · rw [stops.not_plain_behind_hyphen] at plain
    cases plain
  · exact absurd ⟨d, (isDelimiter_iff_mem d).mp single, rest, rfl⟩ loose

/-- Where a word stops nothing more is read, but for a hyphen that binds. -/
theorem word_of_stops {left : List Char} (stops : Stops left) (loose : ¬ HyphenBinds left) :
    (word true left).1 = [] := by
  cases left with
  | nil => rfl
  | cons c left =>
      rcases blank_or_plain_or_delimiter c with blank | plain | ⟨notBlank, single⟩
      · rw [word_blank true left blank]
      · rw [stops.not_plain] at plain
        cases plain
      · by_cases hyphen : c = '-'
        · subst hyphen
          rw [word_hyphen_apart true (blank_behind_hyphen stops loose)]
          rfl
        · rw [word_delimiter true left single notBlank hyphen]
          rfl

/-- The word at the start of a text that begins neither with a blank nor with a delimiter other
than a hyphen. -/
theorem word_longest {w left : List Char} (glued : Glued w) (stops : Stops left) {first : Char}
    (begins : first ∈ (w ++ left).head?) (solid : isBlank first = false)
    (other : first ∉ ['+', '*', '/', '(', ')']) :
    (HyphenBinds left → (word false (w ++ left)).1 = w ++ ['-']) ∧
    (¬ HyphenBinds left → w = [] → (word false (w ++ left)).1 = ['-']) ∧
    (¬ HyphenBinds left → w ≠ [] → (word false (w ++ left)).1 = w) := by
  refine ⟨?_, ?_, ?_⟩
  · intro binds
    by_cases empty : w = []
    · rw [empty, List.nil_append, List.nil_append, word_of_hyphenBinds binds]
    · rw [word_glued_append glued (fun nothing => absurd nothing empty),
        word_of_hyphenBinds binds]
  · rintro loose rfl
    obtain ⟨rest, rfl⟩ := List.head?_eq_some_iff.mp begins
    -- Nothing else than a hyphen is left to begin with.
    have hyphen : first = '-' := by
      rcases blank_or_plain_or_delimiter first with blank | plain | ⟨_, single⟩
      · rw [solid] at blank
        cases blank
      · rw [stops.not_plain] at plain
        cases plain
      · have member := (isDelimiter_iff_mem first).mp single
        simp only [List.mem_cons, List.not_mem_nil, or_false, not_or] at member other
        simpa [other] using member
    subst hyphen
    rw [List.nil_append, word_hyphen_apart false (blank_behind_hyphen stops loose)]
    rfl
  · intro loose some_
    rw [word_glued_append glued (fun nothing => absurd nothing some_), word_of_stops stops loose,
      List.append_nil]

end Token

namespace Reader

open Token

/-- Only white space stands in front of a place, and something else there. -/
theorem dropWhile_of_skipped {text : String} {index start : Nat} {first : Char}
    (order : index ≤ start)
    (skipped : ∀ c ∈ text.toList.extract index start, isBlank c = true)
    (begins : text.toList[start]? = some first) (solid : isBlank first = false) :
    (text.toList.drop index).dropWhile isBlank = text.toList.drop start ∧
      first ∈ (text.toList.drop start).head? := by
  have head : first ∈ (text.toList.drop start).head? := by rw [List.head?_drop, begins]; rfl
  obtain ⟨rest, drop⟩ := List.head?_eq_some_iff.mp head
  have split : text.toList.drop index =
      text.toList.extract index start ++ text.toList.drop start := by
    have whole := List.take_append_drop (start - index) (text.toList.drop index)
    rw [List.drop_drop, Nat.add_sub_cancel' order] at whole
    rw [List.extract_eq_take_drop, whole]
  refine ⟨?_, head⟩
  rw [split, List.dropWhile_append_of_pos skipped, drop,
    List.dropWhile_cons_of_neg (by simp [solid])]

/-- The token from an index on, where white space is passed over up to `start`: a delimiter that is
no hyphen is one by itself. Otherwise there is exactly one longest glued front of what begins at
`start`. If a hyphen stands behind it, and a delimiter behind the hyphen, the token is the front with
the hyphen; if not, it is the front, or a hyphen where the front is empty. -/
theorem token_is_longest_match (text : String) {index start : Nat} {first : Char}
    (order : index ≤ start)
    (skipped : ∀ c ∈ text.toList.extract index start, isBlank c = true)
    (begins : text.toList[start]? = some first) (solid : isBlank first = false) :
    (∀ c, isPlain c = true ↔ c ∉ [' ', '\t', '\n', '\r', '+', '-', '*', '/', '(', ')']) ∧
    (first ∈ ['+', '*', '/', '(', ')'] →
      (atIndex text index).token.1 = String.singleton first) ∧
    (first ∉ ['+', '*', '/', '(', ')'] →
      ∃ w, (∀ longest, LongestGlued longest (text.toList.drop start) ↔ longest = w) ∧
        (HyphenBinds (text.toList.drop (start + w.length)) →
          (atIndex text index).token.1 = String.ofList (w ++ ['-'])) ∧
        (¬ HyphenBinds (text.toList.drop (start + w.length)) → w = [] →
          (atIndex text index).token.1 = "-") ∧
        (¬ HyphenBinds (text.toList.drop (start + w.length)) → w ≠ [] →
          (atIndex text index).token.1 = String.ofList w)) := by
  obtain ⟨dropped, head⟩ := dropWhile_of_skipped order skipped begins solid
  obtain ⟨rest, drop⟩ := List.head?_eq_some_iff.mp head
  have read : (atIndex text index).token.1 =
      String.ofList (word false (text.toList.drop start)).1 := by
    rw [drop] at dropped ⊢
    rw [token_eq (r := atIndex text index) dropped]
  refine ⟨isPlain_iff_not_mem, ?_, ?_⟩
  · intro member
    have single : isDelimiter first = true ∧ first ≠ '-' := by
      rw [isDelimiter_iff_mem]
      simp only [List.mem_cons, List.not_mem_nil, or_false] at member ⊢
      rcases member with rfl | rfl | rfl | rfl | rfl <;> decide
    rw [read, drop, word_delimiter false rest single.1 solid single.2]
    rfl
  · intro other
    obtain ⟨w, left, split, glued, stops⟩ := exists_glued_stops (text.toList.drop start)
    have behind : text.toList.drop (start + w.length) = left := by
      rw [← List.drop_drop, split, List.drop_left]
    rw [split] at head
    obtain ⟨binds, alone, loose⟩ := word_longest glued stops head solid other
    refine ⟨w, split ▸ longestGlued_iff glued stops, ?_, ?_, ?_⟩ <;> rw [behind, read, split]
    · exact fun taken => congrArg String.ofList (binds taken)
    · exact fun apart empty => congrArg String.ofList (alone apart empty)
    · exact fun apart some_ => congrArg String.ofList (loose apart some_)

/-- The first of two hyphens behind a word is taken along, and the second begins a number. -/
theorem token_is_longest_match_hyphens :
    (atIndex "( a--5" 1).token.1 = "a-" ∧ (atIndex "( a--5" 4).token.1 = "-5" := by
  constructor
  · have skipped : "( a--5".toList.extract 1 2 = [' '] := rfl
    obtain ⟨w, only, binds, _⟩ := (@token_is_longest_match "( a--5" 1 2 'a' (by decide)
      (skipped ▸ List.forall_mem_singleton.mpr rfl) rfl (by decide)).2.2 (by decide)
    have longest : LongestGlued ['a'] ("( a--5".toList.drop 2) :=
      (longestGlued_iff (.plain (by decide) .nil)
        (stops_of_not_plain (by decide) fun _ d first => by cases first; decide) ['a']).mpr rfl
    obtain rfl := (only _).mp longest
    exact binds ⟨'-', by decide, ['5'], rfl⟩
  · have nothing : "( a--5".toList.extract 4 4 = [] := rfl
    obtain ⟨w, only, _, _, loose⟩ := (@token_is_longest_match "( a--5" 4 4 '-' (by decide)
      (nothing ▸ List.forall_mem_nil _) rfl (by decide)).2.2 (by decide)
    have longest : LongestGlued ['-', '5'] ("( a--5".toList.drop 4) :=
      (longestGlued_iff (.hyphen (by decide) .nil) stops_nil ['-', '5']).mpr rfl
    obtain rfl := (only _).mp longest
    exact loose (by rintro ⟨_, _, _, ended⟩; cases ended) (by decide)

end Reader

end Polish
