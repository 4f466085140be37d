import Polish.Proofs.Text.Words

/-!
Where one part of a text meets the next. The words of a text do not depend on where it begins, and
blanks keep the parts apart. A parenthesis does so too, but for one case: a hyphen between a word
and a parenthesis is glued to the word, which it is not in front of a blank.
-/

set_option autoImplicit false

namespace Polish.Token

theorem map_text_scan_eq (here there : Nat) (cs : List Char) :
    (scan here cs).map (·.text) = (scan there cs).map (·.text) := by
  cases cs with
  | nil => rw [scan_nil, scan_nil]
  | cons c cs =>
      by_cases blank : isBlank c = true
      · rw [scan_blank here cs blank, scan_blank there cs blank,
          map_text_scan_eq (here + 1) (there + 1) cs]
      · have solid : isBlank c = false := by simpa using blank
        have later := map_text_scan_eq (here + (word false (c :: cs)).1.length)
          (there + (word false (c :: cs)).1.length) (word false (c :: cs)).2
        rw [scan_word here cs solid, scan_word there cs solid, List.map_cons, List.map_cons, later]
termination_by cs.length
decreasing_by
  · exact Nat.lt_succ_self cs.length
  · exact length_word_lt c cs solid

def texts (cs : List Char) : List String := (scan 0 cs).map (·.text)

theorem map_text_scan (position : Nat) (cs : List Char) :
    (scan position cs).map (·.text) = texts cs :=
  map_text_scan_eq position 0 cs

theorem texts_toList (text : String) : texts text.toList = (Reader.ofText text).words :=
  (Reader.words_ofText text).symm

@[simp] theorem texts_nil : texts [] = [] := by
  rw [texts, scan_nil, List.map_nil]

theorem texts_blank {c : Char} (cs : List Char) (blank : isBlank c = true) :
    texts (c :: cs) = texts cs := by
  rw [texts, scan_blank 0 cs blank, map_text_scan]

theorem texts_word {c : Char} (cs : List Char) (solid : isBlank c = false) :
    texts (c :: cs) =
      String.ofList (word false (c :: cs)).1 :: texts (word false (c :: cs)).2 := by
  rw [texts, scan_word 0 cs solid, List.map_cons, map_text_scan]

theorem texts_append_blank {c : Char} (cs further : List Char) (blank : isBlank c = true) :
    texts (cs ++ c :: further) = texts cs ++ texts further := by
  rw [texts, scan_append_blank 0 cs further blank, List.map_append, map_text_scan, map_text_scan]

theorem texts_delimiter {c : Char} {rest : List Char} (single : isDelimiter c = true)
    (apart : c = '-' → ∀ d ∈ rest.head?, isBlank d = true) :
    texts (c :: rest) = String.singleton c :: texts rest := by
  rw [texts, scan_delimiter 0 single apart, List.map_cons, map_text_scan]

theorem texts_glued {cs rest : List Char} (glued : Glued cs) (nonempty : cs ≠ [])
    (ends : EndsWord rest) : texts (cs ++ rest) = String.ofList cs :: texts rest := by
  rw [texts, scan_glued 0 glued nonempty ends, List.map_cons, map_text_scan]

theorem texts_alone {word : String} (alone : Alone word) {rest : List Char}
    (blank : ∀ c ∈ rest.head?, isBlank c = true) :
    texts (word.toList ++ rest) = word :: texts rest := by
  rw [texts, alone 0 rest blank, List.map_cons, map_text_scan]

def AllBlank (cs : List Char) : Prop := ∀ c ∈ cs, isBlank c = true

theorem AllBlank.tail {c : Char} {cs : List Char} (blank : AllBlank (c :: cs)) : AllBlank cs :=
  fun d member => blank d (List.mem_cons_of_mem c member)

theorem scan_blanks {run : List Char} (blank : AllBlank run) (position : Nat) (cs : List Char) :
    scan position (run ++ cs) = scan (position + run.length) cs := by
  induction run generalizing position with
  | nil => rfl
  | cons c run ih =>
      have length : position + (c :: run).length = position + 1 + run.length := by
        rw [List.length_cons]
        omega
      rw [List.cons_append, scan_blank _ _ (blank c (by simp)), ih blank.tail, length]

theorem texts_blanks {run : List Char} (blank : AllBlank run) (cs : List Char) :
    texts (run ++ cs) = texts cs := by
  rw [texts, scan_blanks blank, map_text_scan]

/-- White space keeps what stands before it and what stands behind it apart. -/
theorem texts_append_blanks {run : List Char} (blank : AllBlank run) (some_ : run ≠ [])
    (cs further : List Char) : texts (cs ++ (run ++ further)) = texts cs ++ texts further := by
  obtain ⟨c, rest, rfl⟩ := List.exists_cons_of_ne_nil some_
  rw [List.cons_append, texts_append_blank _ _ (blank c (by simp)), texts_blanks blank.tail]

theorem texts_blanks_end {run : List Char} (blank : AllBlank run) (cs : List Char) :
    texts (cs ++ run) = texts cs := by
  by_cases nothing : run = []
  · rw [nothing, List.append_nil]
  · have apart := texts_append_blanks blank nothing cs []
    rwa [List.append_nil, texts_nil, List.append_nil] at apart

def IsParenthesis (c : Char) : Prop := c = '(' ∨ c = ')'

namespace IsParenthesis

variable {c : Char}

theorem isDelimiter (parenthesis : IsParenthesis c) : isDelimiter c = true := by
  rcases parenthesis with rfl | rfl <;> decide

theorem isBlank (parenthesis : IsParenthesis c) : isBlank c = false := by
  rcases parenthesis with rfl | rfl <;> decide

theorem ne_hyphen (parenthesis : IsParenthesis c) : c ≠ '-' := by
  rcases parenthesis with rfl | rfl <;> decide

theorem endsWord (parenthesis : IsParenthesis c) (rest : List Char) : EndsWord (c :: rest) := by
  intro d first
  cases first
  exact Or.inr ⟨parenthesis.isDelimiter, parenthesis.ne_hyphen⟩

theorem texts (parenthesis : IsParenthesis c) (rest : List Char) :
    Token.texts (c :: rest) = String.singleton c :: Token.texts rest :=
  texts_delimiter parenthesis.isDelimiter fun hyphen => absurd hyphen parenthesis.ne_hyphen

end IsParenthesis

theorem blank_or_plain_or_delimiter (c : Char) :
    isBlank c = true ∨ isPlain c = true ∨ (isBlank c = false ∧ isDelimiter c = true) := by
  unfold isPlain
  cases isBlank c <;> cases isDelimiter c <;> simp

theorem word_delimiter {c : Char} (started : Bool) (cs : List Char) (single : isDelimiter c = true)
    (notBlank : isBlank c = false) (notHyphen : c ≠ '-') :
    word started (c :: cs) = if started then ([], c :: cs) else ([c], cs) := by
  cases started <;> cases cs <;> simp [word, notBlank, notHyphen, single]

/-- A hyphen in front of another delimiter ends a word. -/
theorem word_hyphen_delimiter {d : Char} (started : Bool) (cs : List Char)
    (single : isDelimiter d = true) (notBlank : isBlank d = false) :
    word started ('-' :: d :: cs) = (['-'], d :: cs) := by
  have hyphen : isBlank '-' = false := by decide
  simp [word, notBlank, hyphen, single]

/-- A hyphen in front of a blank, or at the end, is a word of its own. -/
theorem word_hyphen_apart (started : Bool) {cs : List Char}
    (apart : ∀ d ∈ cs.head?, isBlank d = true) :
    word started ('-' :: cs) = if started then ([], '-' :: cs) else (['-'], cs) := by
  have hyphen : isBlank '-' = false ∧ isDelimiter '-' = true := by decide
  cases cs with
  | nil => cases started <;> simp [word, hyphen]
  | cons d cs =>
      have blank := apart d rfl
      cases started <;> simp [word, hyphen, blank]

section Parenthesis

variable {p : Char} {started : Bool} {cs : List Char}

/-- In front of the parenthesis a word ends as it does at the end of the text. -/
def EndsAlike (p : Char) (started : Bool) (cs : List Char) : Prop :=
  ∀ further, word started (cs ++ p :: further) =
    ((word started cs).1, (word started cs).2 ++ p :: further)

/-- In front of the parenthesis a word takes a last hyphen, which at the end of the text is a word
of its own. -/
structure TakesHyphen (p : Char) (started : Bool) (cs : List Char) : Prop where
  glued : Glued (word started cs).1
  begun : started = false → (word started cs).1 ≠ []
  left : (word started cs).2 = ['-']
  taken : ∀ further, word started (cs ++ p :: further) =
    ((word started cs).1 ++ ['-'], p :: further)

theorem EndsAlike.plain {c : Char} (plain : isPlain c = true) (alike : EndsAlike p true cs) :
    EndsAlike p started (c :: cs) := by
  intro further
  rw [List.cons_append, word_plain started _ plain, word_plain started _ plain, alike]

theorem EndsAlike.hyphen {c : Char} (plain : isPlain c = true) (alike : EndsAlike p true cs) :
    EndsAlike p started ('-' :: c :: cs) := by
  intro further
  rw [List.cons_append, List.cons_append, word_hyphen started _ plain, word_hyphen started _ plain,
    alike]

theorem TakesHyphen.plain {c : Char} (plain : isPlain c = true) (takes : TakesHyphen p true cs) :
    TakesHyphen p started (c :: cs) := by
  have here := fun cs => word_plain (c := c) started cs plain
  refine ⟨?_, ?_, ?_, ?_⟩
  · rw [here]
    exact .plain plain takes.glued
  · simp [here]
  · rw [here, takes.left]
  · intro further
    rw [List.cons_append, here, here, takes.taken]
    rfl

theorem TakesHyphen.hyphen {c : Char} (plain : isPlain c = true) (takes : TakesHyphen p true cs) :
    TakesHyphen p started ('-' :: c :: cs) := by
  have here := fun cs => word_hyphen (c := c) started cs plain
  refine ⟨?_, ?_, ?_, ?_⟩
  · rw [here]
    exact .hyphen plain takes.glued
  · simp [here]
  · rw [here, takes.left]
  · intro further
    rw [List.cons_append, List.cons_append, here, here, takes.taken]
    rfl

theorem endsAlike_delimiter {c : Char} (single : isDelimiter c = true)
    (notBlank : isBlank c = false) (notHyphen : c ≠ '-') : EndsAlike p started (c :: cs) := by
  intro further
  have here := fun cs => word_delimiter started cs single notBlank notHyphen
  rw [List.cons_append, here, here]
  cases started <;> rfl

theorem endsAlike_hyphen_blank {d : Char} (blank : isBlank d = true) :
    EndsAlike p started ('-' :: d :: cs) := by
  intro further
  have here : ∀ cs, word started ('-' :: d :: cs) =
      if started then ([], '-' :: d :: cs) else (['-'], d :: cs) := by
    intro cs
    exact word_hyphen_apart started fun e first => by
      cases first
      exact blank
  rw [List.cons_append, List.cons_append, here, here]
  cases started <;> rfl

theorem endsAlike_hyphen_delimiter {d : Char} (single : isDelimiter d = true)
    (notBlank : isBlank d = false) : EndsAlike p started ('-' :: d :: cs) := by
  intro further
  have here := fun cs => word_hyphen_delimiter started cs single notBlank
  rw [List.cons_append, List.cons_append, here, here]
  rfl

/-- A hyphen right in front of the parenthesis is glued to a word that has begun. -/
theorem endsAlike_or_takesHyphen_singleton (single : isDelimiter p = true)
    (notBlank : isBlank p = false) :
    EndsAlike p started ['-'] ∨ TakesHyphen p started ['-'] := by
  have ended : word started ['-'] = if started then ([], ['-']) else (['-'], []) :=
    word_hyphen_apart started (by simp)
  have taken := fun further => word_hyphen_delimiter started further single notBlank
  cases started with
  | false =>
      left
      intro further
      rw [List.singleton_append, taken, ended]
      rfl
  | true =>
      right
      refine ⟨?_, nofun, ?_, ?_⟩
      · rw [ended]
        exact .nil
      · rw [ended]
        rfl
      · intro further
        rw [List.singleton_append, taken, ended]
        rfl

end Parenthesis

/-- A word that has begun, or that begins here, ends in one of these two ways. -/
theorem endsAlike_or_takesHyphen {p : Char} (parenthesis : IsParenthesis p) (started : Bool)
    (cs : List Char) (begun : started = false → cs ≠ []) :
    EndsAlike p started cs ∨ TakesHyphen p started cs := by
  cases cs with
  | nil =>
      have inside : started = true := by simpa using begun
      subst inside
      exact Or.inl fun further => word_of_endsWord (parenthesis.endsWord further)
  | cons c cs =>
      rcases blank_or_plain_or_delimiter c with blank | plain | ⟨notBlank, single⟩
      · refine Or.inl fun further => ?_
        rw [List.cons_append, word_blank started _ blank, word_blank started _ blank]
        rfl
      · rcases endsAlike_or_takesHyphen parenthesis true cs nofun with alike | takes
        · exact Or.inl (alike.plain plain)
        · exact Or.inr (takes.plain plain)
      · by_cases hyphen : c = '-'
        · subst hyphen
          cases cs with
          | nil =>
              exact endsAlike_or_takesHyphen_singleton parenthesis.isDelimiter parenthesis.isBlank
          | cons d cs =>
              rcases blank_or_plain_or_delimiter d with blank | plain | ⟨notBlank, single⟩
              · exact Or.inl (endsAlike_hyphen_blank blank)
              · rcases endsAlike_or_takesHyphen parenthesis true cs nofun with alike | takes
                · exact Or.inl (alike.hyphen plain)
                · exact Or.inr (takes.hyphen plain)
              · exact Or.inl (endsAlike_hyphen_delimiter single notBlank)
        · exact Or.inl (endsAlike_delimiter single notBlank hyphen)
termination_by cs.length

/-- The words in front of the parenthesis are those of the text up to there. -/
def KeepsApart (p : Char) (cs : List Char) : Prop :=
  ∀ further, texts (cs ++ p :: further) = texts cs ++ String.singleton p :: texts further

/-- A hyphen between the last word and the parenthesis is glued to that word. -/
structure GluesHyphen (p : Char) (cs characters : List Char) (front : List String) : Prop where
  glued : Glued characters
  nonempty : characters ≠ []
  apart : texts cs = front ++ [String.ofList characters, "-"]
  joined : ∀ further, texts (cs ++ p :: further) =
    front ++ String.ofList (characters ++ ['-']) :: String.singleton p :: texts further

section Seam

variable {p c : Char} {cs characters : List Char} {front : List String}

theorem texts_cons_append (notBlank : isBlank c = false) (alike : EndsAlike p false (c :: cs))
    (further : List Char) :
    texts (c :: cs ++ p :: further) =
      String.ofList (word false (c :: cs)).1 ::
        texts ((word false (c :: cs)).2 ++ p :: further) := by
  have taken := alike further
  rw [List.cons_append] at taken
  rw [List.cons_append, texts_word _ notBlank, taken]

theorem KeepsApart.behind_word (notBlank : isBlank c = false)
    (alike : EndsAlike p false (c :: cs)) (rest : KeepsApart p (word false (c :: cs)).2) :
    KeepsApart p (c :: cs) := by
  intro further
  rw [texts_cons_append notBlank alike, rest, texts_word cs notBlank, List.cons_append]

theorem GluesHyphen.behind_word (notBlank : isBlank c = false)
    (alike : EndsAlike p false (c :: cs))
    (rest : GluesHyphen p (word false (c :: cs)).2 characters front) :
    GluesHyphen p (c :: cs) characters (String.ofList (word false (c :: cs)).1 :: front) := by
  refine ⟨rest.glued, rest.nonempty, ?_, ?_⟩
  · rw [texts_word cs notBlank, rest.apart, List.cons_append]
  · intro further
    rw [texts_cons_append notBlank alike, rest.joined, List.cons_append]

theorem TakesHyphen.gluesHyphen (notBlank : isBlank c = false) (parenthesis : IsParenthesis p)
    (takes : TakesHyphen p false (c :: cs)) :
    GluesHyphen p (c :: cs) (word false (c :: cs)).1 [] := by
  refine ⟨takes.glued, takes.begun rfl, ?_, ?_⟩
  · have hyphen : texts ['-'] = ["-"] := by
      rw [texts_delimiter (by decide) (by simp), texts_nil]
      rfl
    rw [texts_word cs notBlank, takes.left, hyphen, List.nil_append]
  · intro further
    have taken := takes.taken further
    rw [List.cons_append] at taken
    rw [List.cons_append, texts_word _ notBlank, taken, parenthesis.texts, List.nil_append]

theorem GluesHyphen.behind_blank (blank : isBlank c = true)
    (rest : GluesHyphen p cs characters front) : GluesHyphen p (c :: cs) characters front := by
  refine ⟨rest.glued, rest.nonempty, ?_, ?_⟩
  · rw [texts_blank cs blank, rest.apart]
  · intro further
    rw [List.cons_append, texts_blank _ blank, rest.joined]

end Seam

/-- In front of a parenthesis the words are those of the text up to there, unless a hyphen between
the last word and the parenthesis is glued to that word. -/
theorem keepsApart_or_gluesHyphen {p : Char} (parenthesis : IsParenthesis p) (cs : List Char) :
    KeepsApart p cs ∨ ∃ characters front, GluesHyphen p cs characters front := by
  cases cs with
  | nil =>
      refine Or.inl fun further => ?_
      rw [List.nil_append, parenthesis.texts, texts_nil, List.nil_append]
  | cons c cs =>
      by_cases blank : isBlank c = true
      · rcases keepsApart_or_gluesHyphen parenthesis cs with apart | ⟨characters, front, glues⟩
        · refine Or.inl fun further => ?_
          rw [List.cons_append, texts_blank _ blank, texts_blank _ blank, apart]
        · exact Or.inr ⟨characters, front, glues.behind_blank blank⟩
      · have notBlank : isBlank c = false := by simpa using blank
        have shorter := length_word_lt c cs notBlank
        rcases endsAlike_or_takesHyphen parenthesis false (c :: cs) (by simp) with alike | takes
        · rcases keepsApart_or_gluesHyphen parenthesis (word false (c :: cs)).2 with
            apart | ⟨characters, front, glues⟩
          · exact Or.inl (apart.behind_word notBlank alike)
          · exact Or.inr ⟨characters, _, glues.behind_word notBlank alike⟩
        · exact Or.inr ⟨_, _, takes.gluesHyphen notBlank parenthesis⟩
termination_by cs.length
decreasing_by
  · exact Nat.lt_succ_self _
  · exact shorter

/-- Whatever stands in front of a parenthesis, the words behind it are read afresh. -/
theorem texts_behind_parenthesis {p : Char} (parenthesis : IsParenthesis p) (cs : List Char) :
    ∃ before, ∀ further, texts (cs ++ p :: further) = before ++ texts further := by
  rcases keepsApart_or_gluesHyphen parenthesis cs with apart | ⟨characters, front, glues⟩
  · refine ⟨texts cs ++ [String.singleton p], fun further => ?_⟩
    rw [apart, List.append_assoc, List.singleton_append]
  · refine ⟨front ++ [String.ofList (characters ++ ['-']), String.singleton p], fun further => ?_⟩
    rw [glues.joined, List.append_assoc]
    rfl

end Polish.Token
