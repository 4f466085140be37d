import Polish.Parser.Reader

set_option autoImplicit false

namespace Polish.Token

theorem scan_of_dropWhile_nil {cs : List Char} (position : Nat)
    (blank : cs.dropWhile isBlank = []) : scan position cs = [] := by
  rw [scan.eq_def]
  split
  · rfl
  · rename_i found
    rw [blank] at found
    cases found

theorem scan_of_dropWhile_cons {cs rest : List Char} {c : Char} (position : Nat)
    (begins : cs.dropWhile isBlank = c :: rest) :
    scan position cs =
      ⟨String.ofList (word false (c :: rest)).1, position + (cs.takeWhile isBlank).length,
        position + (cs.takeWhile isBlank).length + (word false (c :: rest)).1.length⟩ ::
        scan (position + (cs.takeWhile isBlank).length + (word false (c :: rest)).1.length)
          (word false (c :: rest)).2 := by
  rw [scan.eq_def]
  split
  · rename_i found
    rw [begins] at found
    cases found
  · rename_i found
    rw [begins] at found
    cases found
    rfl

theorem scan_nil (position : Nat) : scan position [] = [] :=
  scan_of_dropWhile_nil position rfl

/-- White space in front is passed over. -/
theorem scan_blank {c : Char} (position : Nat) (cs : List Char) (blank : isBlank c = true) :
    scan position (c :: cs) = scan (position + 1) cs := by
  have dropped : (c :: cs).dropWhile isBlank = cs.dropWhile isBlank :=
    List.dropWhile_cons_of_pos blank
  have taken : ((c :: cs).takeWhile isBlank).length = (cs.takeWhile isBlank).length + 1 := by
    rw [List.takeWhile_cons_of_pos blank, List.length_cons]
  have moved : position + ((cs.takeWhile isBlank).length + 1) =
      position + 1 + (cs.takeWhile isBlank).length := by omega
  cases rest : cs.dropWhile isBlank with
  | nil => rw [scan_of_dropWhile_nil _ rest, scan_of_dropWhile_nil _ (dropped.trans rest)]
  | cons d ds =>
      rw [scan_of_dropWhile_cons _ rest, scan_of_dropWhile_cons _ (dropped.trans rest), taken,
        moved]

/-- A text that does not begin with white space begins with a word. -/
theorem scan_word {c : Char} (position : Nat) (cs : List Char) (notBlank : isBlank c = false) :
    scan position (c :: cs) =
      ⟨String.ofList (word false (c :: cs)).1, position,
        position + (word false (c :: cs)).1.length⟩ ::
        scan (position + (word false (c :: cs)).1.length) (word false (c :: cs)).2 := by
  have plain : ¬ isBlank c = true := by simp [notBlank]
  rw [scan_of_dropWhile_cons position (List.dropWhile_cons_of_neg plain),
    List.takeWhile_cons_of_neg plain, List.length_nil, Nat.add_zero]

theorem word_blank {c : Char} (started : Bool) (cs : List Char) (blank : isBlank c = true) :
    word started (c :: cs) = ([], c :: cs) := by
  cases cs <;> simp [word, blank]

/-- A blank ends a word just as the end of the text does. -/
theorem word_append_blank {c : Char} (started : Bool) (cs further : List Char)
    (blank : isBlank c = true) :
    word started (cs ++ c :: further) =
      ((word started cs).1, (word started cs).2 ++ c :: further) := by
  fun_induction word started cs with
  | case1 => exact word_blank _ further blank
  | case2 started d ends =>
      cases space : isBlank d with
      | true => exact word_blank started (c :: further) space
      | false => simp_all [word]
  | case3 started d kept =>
      cases single : isDelimiter d <;> simp_all [word, word_blank]
  | _ => simp_all [word]

/-- The words before a blank are those of the text before it, and the words behind it are read as
those of a text that begins there. -/
theorem scan_append_blank {c : Char} (position : Nat) (cs further : List Char)
    (blank : isBlank c = true) :
    scan position (cs ++ c :: further) =
      scan position cs ++ scan (position + cs.length + 1) further := by
  cases cs with
  | nil =>
      rw [List.nil_append, scan_blank position further blank, scan_nil, List.nil_append,
        List.length_nil, Nat.add_zero]
  | cons d ds =>
      cases space : isBlank d with
      | true =>
          have here : position + (d :: ds).length + 1 = position + 1 + ds.length + 1 := by
            rw [List.length_cons]
            omega
          rw [List.cons_append, scan_blank position _ space, scan_blank position _ space,
            scan_append_blank (position + 1) ds further blank, here]
      | false =>
          have whole := congrArg List.length (word_append false (d :: ds))
          rw [List.length_append] at whole
          have here : position + (word false (d :: ds)).1.length +
              (word false (d :: ds)).2.length + 1 = position + (d :: ds).length + 1 := by
            omega
          rw [scan_word position ds space, List.cons_append, scan_word position _ space,
            ← List.cons_append, word_append_blank false (d :: ds) further blank,
            scan_append_blank _ (word false (d :: ds)).2 further blank, here, List.cons_append]
termination_by cs.length
decreasing_by
  · exact length_word_lt d ds space
  · exact Nat.lt_succ_self ds.length

theorem ofText_of_split {text whole : String} {blank : Char} {further : List Char}
    (split : whole.toList = text.toList ++ blank :: further) (isBlank_ : isBlank blank = true) :
    ofText whole = ofText text ++ scan (text.length + 1) further := by
  rw [ofText, split, scan_append_blank 0 _ _ isBlank_, Nat.zero_add, String.length_toList, ofText]

/-- The character neither is white space nor ends a word. -/
def isPlain (c : Char) : Bool := !isBlank c && !isDelimiter c

theorem delimiters_eq : delimiters = ['(', ')', '+', '-', '*', '/'] := by decide

theorem isPlain_iff (c : Char) : isPlain c = true ↔ isBlank c = false ∧ isDelimiter c = false := by
  simp [isPlain]

theorem ne_hyphen_of_isPlain {c : Char} (plain : isPlain c = true) : c ≠ '-' := by
  rintro rfl
  exact absurd plain (by decide)

theorem isPlain_of_isDigit {c : Char} (digit : c.isDigit = true) : isPlain c = true := by
  have others : ∀ d ∈ [' ', '\t', '\n', '\r', '(', ')', '+', '-', '*', '/'], c ≠ d := by
    rintro d member rfl
    have none : [' ', '\t', '\n', '\r', '(', ')', '+', '-', '*', '/'].all
        (fun d => !d.isDigit) = true := by decide
    have noDigit := List.all_eq_true.mp none c member
    rw [digit] at noDigit
    cases noDigit
  simp only [List.forall_mem_cons] at others
  simp [isPlain, isBlank, isDelimiter, delimiters_eq, others]

/-- Characters of one word: plain ones, each with at most one hyphen in front. -/
inductive Glued : List Char → Prop where
  | nil : Glued []
  | plain {c : Char} {cs : List Char} (isPlain_ : isPlain c = true) (rest : Glued cs) :
      Glued (c :: cs)
  | hyphen {c : Char} {cs : List Char} (isPlain_ : isPlain c = true) (rest : Glued cs) :
      Glued ('-' :: c :: cs)

theorem Glued.of_plain {cs : List Char} (all : ∀ c ∈ cs, isPlain c = true) : Glued cs := by
  induction cs with
  | nil => exact .nil
  | cons c cs ih =>
      exact .plain (all c (by simp)) (ih fun d member => all d (List.mem_cons_of_mem c member))

theorem Glued.of_all {cs : List Char} (all : cs.all isPlain = true) : Glued cs :=
  .of_plain (List.all_eq_true.mp all)

theorem Glued.append {first second : List Char} (front : Glued first) (back : Glued second) :
    Glued (first ++ second) := by
  induction front with
  | nil => exact back
  | plain isPlain_ rest ih => exact .plain isPlain_ ih
  | hyphen isPlain_ rest ih => exact .hyphen isPlain_ ih

/-- What is read as one word from end to end is glued. -/
theorem glued_of_word {started : Bool} {cs : List Char} (begun : started = true)
    (whole : (word started cs).2 = []) : Glued cs := by
  fun_induction word started cs with
  | case1 => exact .nil
  | case3 started c kept =>
      have plain : isPlain c = true := by
        rw [isPlain_iff]
        simpa [begun] using kept
      exact .plain plain .nil
  | case6 started c d rest notBlank joined notDelimiter more left read ih =>
      have hyphen : c = '-' := by simp_all
      have plain : isPlain d = true := by
        rw [isPlain_iff]
        simp_all
      rw [hyphen]
      exact .hyphen plain (ih rfl (by rw [read]; exact whole))
  | case8 started c d rest notBlank single delimiter fresh => exact absurd begun fresh
  | case9 started c d rest notBlank single notDelimiter more left read ih =>
      have plain : isPlain c = true := by
        rw [isPlain_iff]
        simp_all
      exact .plain plain (ih rfl (by rw [read]; exact whole))
  | _ => cases whole

theorem glued_of_digits {digits : List Char} (negative : Bool) (nonempty : digits ≠ [])
    (decimal : ∀ c ∈ digits, c.isDigit = true) :
    Glued (if negative then '-' :: digits else digits) := by
  have all : ∀ c ∈ digits, isPlain c = true := fun c member =>
    isPlain_of_isDigit (decimal c member)
  cases negative with
  | false => exact .of_plain all
  | true =>
      obtain ⟨c, digits, rfl⟩ := List.exists_cons_of_ne_nil nonempty
      obtain ⟨first, rest⟩ := List.forall_mem_cons.mp all
      exact .hyphen first (.of_plain rest)

/-- The text ends a word in front of it: it is empty, or begins with a blank or with a delimiter
that is no hyphen. -/
def EndsWord (rest : List Char) : Prop :=
  ∀ c ∈ rest.head?, isBlank c = true ∨ (isDelimiter c = true ∧ c ≠ '-')

theorem endsWord_nil : EndsWord [] := by
  intro c member
  cases member

theorem word_of_endsWord {rest : List Char} (ends : EndsWord rest) :
    word true rest = ([], rest) := by
  cases rest with
  | nil => rfl
  | cons c rest =>
      rcases ends c rfl with blank | ⟨single, notHyphen⟩
      · exact word_blank true rest blank
      · cases rest <;> simp [word, single, notHyphen]

theorem word_plain {c : Char} (started : Bool) (cs : List Char) (plain : isPlain c = true) :
    word started (c :: cs) = (c :: (word true cs).1, (word true cs).2) := by
  obtain ⟨notBlank, notDelimiter⟩ := (isPlain_iff c).mp plain
  cases cs <;> simp [word, notBlank, notDelimiter, ne_hyphen_of_isPlain plain]

theorem word_hyphen {c : Char} (started : Bool) (cs : List Char) (plain : isPlain c = true) :
    word started ('-' :: c :: cs) = ('-' :: c :: (word true cs).1, (word true cs).2) := by
  obtain ⟨notBlank, notDelimiter⟩ := (isPlain_iff c).mp plain
  have hyphen : isBlank '-' = false := by decide
  simp [word, notBlank, notDelimiter, hyphen]

/-- Glued characters are read as one word up to a text that ends it. -/
theorem word_glued {cs rest : List Char} (glued : Glued cs) (ends : EndsWord rest) :
    word true (cs ++ rest) = (cs, rest) := by
  induction glued with
  | nil => exact word_of_endsWord ends
  | plain plain more ih => rw [List.cons_append, word_plain true _ plain, ih]
  | hyphen plain more ih => rw [List.cons_append, List.cons_append, word_hyphen true _ plain, ih]

theorem word_glued_start {cs rest : List Char} (glued : Glued cs) (nonempty : cs ≠ [])
    (ends : EndsWord rest) : word false (cs ++ rest) = (cs, rest) := by
  cases glued with
  | nil => exact absurd rfl nonempty
  | plain plain more => rw [List.cons_append, word_plain false _ plain, word_glued more ends]
  | hyphen plain more =>
      rw [List.cons_append, List.cons_append, word_hyphen false _ plain, word_glued more ends]

/-- A word in front of what ends it is the first token. -/
theorem scan_characters {characters left : List Char} (position : Nat) (nonempty : characters ≠ [])
    (read : word false (characters ++ left) = (characters, left)) :
    scan position (characters ++ left) =
      ⟨String.ofList characters, position, position + characters.length⟩ ::
        scan (position + characters.length) left := by
  obtain ⟨c, cs, rfl⟩ := List.exists_cons_of_ne_nil nonempty
  rw [List.cons_append] at read ⊢
  by_cases blank : isBlank c = true
  · rw [word_blank false _ blank] at read
    cases read
  · rw [scan_word position _ (by simpa using blank), read]

/-- Glued characters in front of a text that ends them are its first token. -/
theorem scan_glued {cs rest : List Char} (position : Nat) (glued : Glued cs) (nonempty : cs ≠ [])
    (ends : EndsWord rest) :
    scan position (cs ++ rest) =
      ⟨String.ofList cs, position, position + cs.length⟩ :: scan (position + cs.length) rest :=
  scan_characters position nonempty (word_glued_start glued nonempty ends)

/-- A delimiter is a token of its own; a hyphen is one in front of a blank. -/
theorem scan_delimiter {c : Char} {rest : List Char} (position : Nat)
    (single : isDelimiter c = true) (apart : c = '-' → ∀ d ∈ rest.head?, isBlank d = true) :
    scan position (c :: rest) =
      ⟨String.singleton c, position, position + 1⟩ :: scan (position + 1) rest := by
  have notBlank : isBlank c = false := by
    have none : delimiters.all (fun d => !isBlank d) = true := by decide
    have apart_ := List.all_eq_true.mp none c (by simpa [isDelimiter] using single)
    simpa using apart_
  have taken : word false (c :: rest) = ([c], rest) := by
    cases rest with
    | nil => simp [word, notBlank]
    | cons d rest =>
        by_cases hyphen : c = '-'
        · have blank := apart hyphen d rfl
          simp [word, notBlank, blank, single]
        · simp [word, notBlank, hyphen, single]
  rw [scan_word position rest notBlank, taken]
  rfl

/-- The word is one token wherever it stands in front of a blank or at the end. -/
def Alone (word : String) : Prop :=
  ∀ position rest, (∀ c ∈ rest.head?, isBlank c = true) →
    scan position (word.toList ++ rest) =
      ⟨word, position, position + word.length⟩ :: scan (position + word.length) rest

theorem alone_of_glued {word : String} (glued : Glued word.toList) (nonempty : word.toList ≠ []) :
    Alone word := by
  intro position rest blank
  have ends : EndsWord rest := fun c member => Or.inl (blank c member)
  rw [scan_glued position glued nonempty ends, String.ofList_toList, String.length_toList]

theorem alone_of_delimiter {word : String} {c : Char} (spelled : word.toList = [c])
    (single : isDelimiter c = true) : Alone word := by
  intro position rest blank
  have same : String.singleton c = word := by
    rw [← String.ofList_toList (s := word), spelled]
    rfl
  have length : word.length = 1 := by rw [← String.length_toList, spelled, List.length_singleton]
  rw [spelled, List.singleton_append, scan_delimiter position single fun _ => blank, same, length]

theorem alone_symbol {symbol : String} {op : Operator}
    (known : Operator.ofSymbol? symbol = some op) : Alone symbol := by
  obtain rfl := Operator.symbol_of_ofSymbol? known
  have member : op ∈ Operator.registered := List.mem_of_find?_eq_some known
  have shape : (∃ c, op.symbol.toList = [c] ∧ isDelimiter c = true) ∨
      ((word true op.symbol.toList).2 = [] ∧ op.symbol.toList ≠ []) := by
    simp only [Operator.registered, List.mem_cons, List.not_mem_nil, or_false] at member
    rcases member with rfl | rfl | rfl | rfl | rfl | rfl | rfl | rfl | rfl | rfl <;>
      first
      | exact Or.inl ⟨_, by rfl, by decide⟩
      | exact Or.inr (by decide)
  rcases shape with ⟨c, spelled, single⟩ | ⟨whole, nonempty⟩
  · exact alone_of_delimiter spelled single
  · exact alone_of_glued (glued_of_word rfl whole) nonempty

def separated (words : List String) : List Char :=
  words.flatMap fun word => word.toList ++ [' ']

/-- Words that stand apart are read back. -/
theorem scan_separated {words : List String} (position : Nat)
    (alone : ∀ word ∈ words, Alone word) :
    (scan position (separated words)).map (·.text) = words := by
  induction words generalizing position with
  | nil => rw [separated, List.flatMap_nil, scan_nil, List.map_nil]
  | cons word words ih =>
      have here := alone word (by simp) position (' ' :: separated words) (by simp [isBlank])
      have there := ih (position + word.length + 1)
        fun other member => alone other (List.mem_cons_of_mem word member)
      have split : separated (word :: words) = word.toList ++ ' ' :: separated words := by
        simp [separated]
      rw [split, here, scan_blank _ _ (by decide), List.map_cons, there]

end Polish.Token

namespace Polish.Reader

theorem rest_skipBlanks (r : Reader) : r.skipBlanks.rest = r.rest.dropWhile Token.isBlank := by
  have split : (r.rest.takeWhile Token.isBlank ++ r.rest.dropWhile Token.isBlank).drop
      (r.rest.takeWhile Token.isBlank).length = r.rest.dropWhile Token.isBlank := List.drop_left
  rw [List.takeWhile_append_dropWhile] at split
  simpa only [skipBlanks, advance, Nat.add_sub_cancel_left] using split

/-- The word that stands here, and the reader behind it. -/
theorem token_eq {r : Reader} {c : Char} {cs : List Char}
    (begins : r.rest.dropWhile Token.isBlank = c :: cs) :
    r.token = (String.ofList (Token.word false (c :: cs)).1,
      ⟨r.position + (r.rest.takeWhile Token.isBlank).length +
        (Token.word false (c :: cs)).1.length, (Token.word false (c :: cs)).2⟩) := by
  have split : ((r.rest.takeWhile Token.isBlank ++ (Token.word false (c :: cs)).1) ++
      (Token.word false (c :: cs)).2).drop
        (r.rest.takeWhile Token.isBlank ++ (Token.word false (c :: cs)).1).length =
      (Token.word false (c :: cs)).2 := List.drop_left
  rw [List.append_assoc, Token.word_append, ← begins, List.takeWhile_append_dropWhile,
    List.length_append] at split
  unfold token tokens
  rw [Token.scan_of_dropWhile_cons r.position begins]
  simp only [advance, Prod.mk.injEq, true_and, mk.injEq]
  rw [begins] at split
  rw [← split]
  congr 1
  omega

theorem token_shorter {r : Reader} (more : r.skipBlanks.isAtEnd = false) :
    r.token.2.rest.length < r.rest.length := by
  rw [isAtEnd, rest_skipBlanks, List.isEmpty_eq_false_iff] at more
  obtain ⟨c, cs, begins⟩ := List.exists_cons_of_ne_nil more
  have notBlank : Token.isBlank c = false := by
    have head := List.head?_dropWhile_not Token.isBlank r.rest
    rw [begins] at head
    simpa using head
  have shorter := Token.length_word_lt c cs notBlank
  have suffix := (List.dropWhile_suffix Token.isBlank (l := r.rest)).length_le
  rw [begins] at suffix
  rw [token_eq begins]
  exact Nat.lt_of_lt_of_le shorter suffix

/-- Reads words one after the other while more than white space is left. -/
def words (r : Reader) : List String :=
  if r.skipBlanks.isAtEnd then [] else r.token.1 :: r.token.2.words
termination_by r.rest.length
decreasing_by
  exact token_shorter (by simpa using ‹¬ r.skipBlanks.isAtEnd = true›)

/-- Reading word by word gives the tokens of the text. -/
theorem words_eq (r : Reader) : r.words = r.tokens.map (·.text) := by
  rw [words]
  cases begins : r.rest.dropWhile Token.isBlank with
  | nil =>
      have ended : r.skipBlanks.isAtEnd = true := by rw [isAtEnd, rest_skipBlanks, begins]; rfl
      rw [if_pos ended, tokens, Token.scan_of_dropWhile_nil _ begins, List.map_nil]
  | cons c cs =>
      have more : r.skipBlanks.isAtEnd = false := by rw [isAtEnd, rest_skipBlanks, begins]; rfl
      rw [if_neg (by simp [more]), words_eq, token_eq begins, tokens, tokens,
        Token.scan_of_dropWhile_cons _ begins, List.map_cons]
termination_by r.rest.length
decreasing_by exact token_shorter more

theorem words_ofText (text : String) :
    (ofText text).words = (Token.ofText text).map (·.text) :=
  words_eq (ofText text)

/-- A word that stands apart is all that is in its text. -/
theorem words_of_alone {word : String} (alone : Token.Alone word) :
    (ofText word).words = [word] := by
  have tokens := alone 0 [] (by simp)
  rw [List.append_nil, Token.scan_nil] at tokens
  rw [words_ofText, Token.ofText, tokens, List.map_singleton]

end Polish.Reader
