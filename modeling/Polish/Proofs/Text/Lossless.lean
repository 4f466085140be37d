import Mathlib.Data.List.TakeWhile
import Polish.Proofs.Text.Words

set_option autoImplicit false

namespace Polish

namespace Token

theorem not_isBlank_of_mem_word {started : Bool} {cs : List Char} :
    ∀ c ∈ (word started cs).1, isBlank c = false := by
  have hyphen : isBlank '-' = false := by decide
  fun_induction word started cs <;> simp_all

end Token

namespace Reader

/-- The reader that stands at an index of a text. -/
def atIndex (text : String) (index : Nat) : Reader := ⟨index, text.toList.drop index⟩

/-- From one index on, the word between two others is read: white space in front of it is passed
over, and the reader then stands behind it. Nothing is read only at the end of the text. -/
structure TakesWord (text : String) (index start stop : Nat) : Prop where
  ordered : index ≤ start ∧ start ≤ stop ∧ stop ≤ text.length
  skipped : ∀ c ∈ text.toList.extract index start, Token.isBlank c = true
  begins : ∀ c ∈ text.toList[start]?, Token.isBlank c = false
  taken : (atIndex text index).token =
    (String.ofList (text.toList.extract start stop), atIndex text stop)
  solid : ∀ c ∈ text.toList.extract start stop, Token.isBlank c = false
  ended : (atIndex text index).token.1 = "" ↔ start = text.length

/-- With nothing but white space left, the reader goes to the end. -/
theorem takesWord_of_blank {text : String} {index : Nat} (inside : index ≤ text.length)
    (blank : (text.toList.drop index).dropWhile Token.isBlank = []) :
    TakesWord text index text.length text.length := by
  have all : text.toList.length = text.length := String.length_toList
  have stop : (atIndex text index).stop = text.length := by
    simp only [atIndex, Reader.stop, List.length_drop, all]
    omega
  have nothing : text.toList.extract text.length text.length = [] := by simp
  have moved : (atIndex text index).advance text.length = atIndex text text.length := by
    simp only [atIndex, advance, List.drop_drop]
    congr 2
    omega
  have taken : (atIndex text index).token = ("", atIndex text text.length) := by
    have none_ : (atIndex text index).tokens = [] := Token.scan_of_dropWhile_nil index blank
    simp only [token, none_, stop, moved]
  refine ⟨⟨inside, Nat.le_refl _, Nat.le_refl _⟩, ?_, ?_, ?_, ?_, ?_⟩
  · intro c member
    rw [List.dropWhile_eq_nil_iff] at blank
    exact blank c (List.mem_of_mem_take member)
  · intro c member
    rw [List.getElem?_eq_none (Nat.le_of_eq all)] at member
    cases member
  · rw [taken, nothing, String.ofList_nil]
  · rw [nothing]
    intro c member
    cases member
  · rw [taken]
    exact iff_of_true rfl rfl

/-- A word that begins behind the white space is read up to its end. -/
theorem takesWord_of_word {text : String} {index : Nat} (inside : index ≤ text.length) {c : Char}
    {cs : List Char} (begins : (text.toList.drop index).dropWhile Token.isBlank = c :: cs) :
    TakesWord text index (index + ((text.toList.drop index).takeWhile Token.isBlank).length)
      (index + ((text.toList.drop index).takeWhile Token.isBlank).length +
        (Token.word false (c :: cs)).1.length) := by
  generalize blanks : (text.toList.drop index).takeWhile Token.isBlank = front
  generalize read : (Token.word false (c :: cs)).1 = characters
  generalize left : (Token.word false (c :: cs)).2 = rest
  have word_ : characters ++ rest = c :: cs := by
    rw [← read, ← left]
    exact Token.word_append false (c :: cs)
  have split : text.toList.drop index = front ++ (characters ++ rest) := by
    rw [word_, ← begins, ← blanks, List.takeWhile_append_dropWhile]
  have whole : text.length = index + front.length + characters.length + rest.length := by
    have lengths := congrArg List.length split
    simp only [List.length_drop, List.length_append, String.length_toList] at lengths
    omega
  have behind : text.toList.drop (index + front.length) = characters ++ rest := by
    rw [← List.drop_drop, split, List.drop_left]
  have last : text.toList.drop (index + front.length + characters.length) = rest := by
    rw [← List.drop_drop, behind, List.drop_left]
  have slice : text.toList.extract (index + front.length)
      (index + front.length + characters.length) = characters := by
    rw [List.extract_eq_take_drop, Nat.add_sub_cancel_left, behind, List.take_left]
  have taken : (atIndex text index).token =
      (String.ofList characters, atIndex text (index + front.length + characters.length)) := by
    rw [token_eq (r := atIndex text index) begins, read, left]
    simp only [atIndex, blanks, last]
  have notBlank : Token.isBlank c = false := by
    have head := List.head?_dropWhile_not Token.isBlank (text.toList.drop index)
    rw [begins] at head
    simpa using head
  have nonempty : characters ≠ [] := read ▸ Token.word_ne_nil c cs notBlank
  have positive : 0 < characters.length := List.length_pos_iff.mpr nonempty
  refine ⟨by omega, ?_, ?_, by rw [taken, slice], ?_, ?_⟩
  · rw [List.extract_eq_take_drop, Nat.add_sub_cancel_left, split, List.take_left, ← blanks]
    intro d member
    exact List.mem_takeWhile_imp member
  · intro d member
    rw [← List.head?_drop, behind, word_] at member
    cases member
    exact notBlank
  · rw [slice, ← read]
    exact fun d => Token.not_isBlank_of_mem_word d
  · rw [taken]
    refine iff_of_false ?_ (by omega)
    intro empty
    exact nonempty (String.ofList_injective empty)

theorem exists_takesWord {text : String} {index : Nat} (inside : index ≤ text.length) :
    ∃ start stop, TakesWord text index start stop := by
  cases begins : (text.toList.drop index).dropWhile Token.isBlank with
  | nil => exact ⟨_, _, takesWord_of_blank inside begins⟩
  | cons c cs => exact ⟨_, _, takesWord_of_word inside begins⟩

/-- The words from some place on make up all that is not blank there. -/
theorem flatMap_words (r : Reader) :
    r.words.flatMap String.toList = r.rest.filter fun c => !Token.isBlank c := by
  rw [words]
  have blank : (r.rest.takeWhile Token.isBlank).filter (fun c => !Token.isBlank c) = [] := by
    rw [List.filter_eq_nil_iff]
    intro c member
    simp [List.mem_takeWhile_imp member]
  have split := List.takeWhile_append_dropWhile (p := Token.isBlank) (l := r.rest)
  cases begins : r.rest.dropWhile Token.isBlank with
  | nil =>
      have ended : r.skipBlanks.isAtEnd = true := by rw [isAtEnd, rest_skipBlanks, begins]; rfl
      rw [if_pos ended, ← split, begins, List.append_nil, blank, List.flatMap_nil]
  | cons c cs =>
      have more : r.skipBlanks.isAtEnd = false := by rw [isAtEnd, rest_skipBlanks, begins]; rfl
      have solid : (Token.word false (c :: cs)).1.filter (fun c => !Token.isBlank c) =
          (Token.word false (c :: cs)).1 := by
        rw [List.filter_eq_self]
        intro d member
        simp [Token.not_isBlank_of_mem_word d member]
      have later := flatMap_words r.token.2
      have characters : (c :: cs).filter (fun c => !Token.isBlank c) =
          (Token.word false (c :: cs)).1 ++
            (Token.word false (c :: cs)).2.filter fun c => !Token.isBlank c := by
        have parts := congrArg (List.filter fun c => !Token.isBlank c)
          (Token.word_append false (c :: cs))
        rw [← parts, List.filter_append, solid]
      rw [token_eq begins] at later
      rw [if_neg (by simp [more]), List.flatMap_cons, token_eq begins, later, ← split, begins,
        List.filter_append, blank, List.nil_append, String.toList_ofList, characters]
termination_by r.rest.length
decreasing_by exact token_shorter more

/-- From every place in a text the next word is what stands between two later places, and the
reader goes on behind it. While more than white space is left the rest gets shorter with every
word, so all words are read, and together they are the text without its white space. -/
theorem words_lose_only_blanks (text : String) (index : Nat) (inside : index ≤ text.length) :
    (∃ start stop, TakesWord text index start stop) ∧
    (∀ r : Reader, r.words = if r.skipBlanks.isAtEnd then [] else r.token.1 :: r.token.2.words) ∧
    (∀ r : Reader, r.skipBlanks.isAtEnd = false → r.token.2.rest.length < r.rest.length) ∧
    String.join (atIndex text index).words =
      String.ofList ((text.toList.drop index).filter fun c => !Token.isBlank c) := by
  refine ⟨exists_takesWord inside, fun r => by rw [words], fun r => token_shorter, ?_⟩
  apply String.toList_injective
  rw [String.toList_join, flatMap_words, String.toList_ofList]
  rfl

/-- A hyphen that is glued to a word in front of a parenthesis, and what is left behind it. -/
theorem words_lose_only_blanks_hyphen :
    (∃ start stop, TakesWord "( a-(-5" 1 start stop) ∧
      (atIndex "( a-(-5" 1).words = ["a-", "(", "-5"] ∧
      String.join (atIndex "( a-(-5" 1).words = "a-(-5" := by
  obtain ⟨takes, _, _, joined⟩ := words_lose_only_blanks "( a-(-5" 1 (by decide)
  refine ⟨takes, ?_, joined⟩
  rw [words_eq]
  decide +kernel

end Reader

end Polish
