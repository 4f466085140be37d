import Mathlib.Data.List.TakeWhile
import Polish.Proofs.Text.Seams

set_option autoImplicit false

namespace Polish.Token

/-- The first token stands behind white space, and the others are those of the text behind it. -/
theorem scan_eq_cons {position : Nat} {cs : List Char} {first : Token} {others : List Token}
    (split : scan position cs = first :: others) :
    ∃ blanks characters left, cs = blanks ++ (characters ++ left) ∧ AllBlank blanks ∧
      characters ≠ [] ∧ word false (characters ++ left) = (characters, left) ∧
      first = ⟨String.ofList characters, position + blanks.length,
        position + blanks.length + characters.length⟩ ∧
      others = scan (position + blanks.length + characters.length) left := by
  cases begins : cs.dropWhile isBlank with
  | nil =>
      rw [scan_of_dropWhile_nil position begins] at split
      cases split
  | cons c rest =>
      rw [scan_of_dropWhile_cons position begins] at split
      obtain ⟨here, there⟩ := List.cons.inj split
      have notBlank : isBlank c = false := by
        have head := List.head?_dropWhile_not isBlank cs
        rw [begins] at head
        simpa using head
      have whole := word_append false (c :: rest)
      refine ⟨cs.takeWhile isBlank, _, _, ?_, fun d => List.mem_takeWhile_imp,
        word_ne_nil c rest notBlank, ?_, here.symm, there.symm⟩
      · rw [whole, ← begins, List.takeWhile_append_dropWhile]
      · rw [whole]

/-- The token stands in the characters, which begin at a position. -/
structure StandsIn (position : Nat) (cs : List Char) (token : Token) : Prop where
  nonempty : token.text ≠ ""
  stop : token.stop = token.start + token.text.length
  place : ∃ before after, cs = before ++ (token.text.toList ++ after) ∧
    token.start = position + before.length

namespace StandsIn

variable {position : Nat} {cs : List Char} {token : Token}

/-- Characters in front of others move a token on. -/
theorem append (front : List Char) (stands : StandsIn (position + front.length) cs token) :
    StandsIn position (front ++ cs) token := by
  obtain ⟨nonempty, stop, before, after, split, start⟩ := stands
  refine ⟨nonempty, stop, front ++ before, after, ?_, ?_⟩
  · rw [split, List.append_assoc]
  · rw [start, List.length_append]
    omega

theorem inside (stands : StandsIn position cs token) :
    position ≤ token.start ∧ token.stop ≤ position + cs.length := by
  obtain ⟨_, stop, before, after, split, start⟩ := stands
  have size := congrArg List.length split
  simp only [List.length_append, String.length_toList] at size
  omega

theorem extract (stands : StandsIn 0 cs token) :
    cs.extract token.start token.stop = token.text.toList := by
  obtain ⟨_, stop, before, after, split, start⟩ := stands
  have length : token.stop - token.start = token.text.toList.length := by
    rw [stop, String.length_toList]
    omega
  rw [List.extract_eq_take_drop, length, start, Nat.zero_add, split, List.drop_left, List.take_left]

end StandsIn

theorem standsIn_of_mem_scan {position : Nat} {cs : List Char} :
    ∀ token ∈ scan position cs, StandsIn position cs token := by
  generalize split : scan position cs = tokens
  induction tokens generalizing position cs with
  | nil => nofun
  | cons first others ih =>
      intro token member
      obtain ⟨blanks, characters, left, rfl, _, nonempty, _, here, there⟩ := scan_eq_cons split
      rcases List.mem_cons.mp member with rfl | later
      · rw [here]
        refine ⟨?_, ?_, blanks, left, ?_, rfl⟩
        · intro empty
          exact nonempty (String.ofList_injective empty)
        · rw [String.length_ofList]
        · rw [String.toList_ofList]
      · rw [Nat.add_assoc, ← List.length_append] at there
        rw [← List.append_assoc]
        exact (ih there.symm token later).append (blanks ++ characters)

/-- A word is read in the same way as long as some of what follows it is left. -/
theorem word_append_of_isPrefix {started : Bool} {cs left : List Char} (some_ : left ≠ [])
    (front : left <+: (word started cs).2) :
    word started ((word started cs).1 ++ left) = ((word started cs).1, left) := by
  obtain ⟨e, left, rfl⟩ := List.exists_cons_of_ne_nil some_
  cases cs with
  | nil => exact absurd (List.prefix_nil.mp front) some_
  | cons c cs =>
      rcases blank_or_plain_or_delimiter c with blank | plain | ⟨notBlank, single⟩
      · rw [word_blank started cs blank] at front ⊢
        obtain ⟨rfl, _⟩ := List.cons_prefix_cons.mp front
        exact word_blank started left blank
      · rw [word_plain started cs plain] at front ⊢
        rw [List.cons_append, word_plain started _ plain, word_append_of_isPrefix some_ front]
      · by_cases hyphen : c = '-'
        · subst hyphen
          cases cs with
          | nil =>
              rw [word_hyphen_apart started (by simp)] at front ⊢
              cases started with
              | false => exact absurd (List.prefix_nil.mp front) some_
              | true =>
                  obtain ⟨rfl, nothing⟩ := List.cons_prefix_cons.mp front
                  rw [List.prefix_nil.mp nothing]
                  rfl
          | cons d cs =>
              rcases blank_or_plain_or_delimiter d with blank | plain | ⟨notBlank, single⟩
              · rw [word_hyphen_apart started (by simpa using blank)] at front ⊢
                cases started with
                | false =>
                    obtain ⟨rfl, _⟩ := List.cons_prefix_cons.mp front
                    exact word_hyphen_apart false (by simpa using blank)
                | true =>
                    obtain ⟨rfl, more⟩ := List.cons_prefix_cons.mp front
                    refine word_hyphen_apart true fun f first => ?_
                    have same : f = d := by
                      obtain ⟨rest, same⟩ := more
                      obtain ⟨left, rfl⟩ := List.head?_eq_some_iff.mp first
                      exact (List.cons.inj same).1
                    rw [same, blank]
              · rw [word_hyphen started cs plain] at front ⊢
                rw [List.cons_append, List.cons_append, word_hyphen started _ plain,
                  word_append_of_isPrefix some_ front]
              · rw [word_hyphen_delimiter started cs single notBlank] at front ⊢
                obtain ⟨rfl, _⟩ := List.cons_prefix_cons.mp front
                exact word_hyphen_delimiter started left single notBlank
        · rw [word_delimiter started cs single notBlank hyphen] at front ⊢
          cases started with
          | false => exact word_delimiter false _ single notBlank hyphen
          | true =>
              obtain ⟨rfl, _⟩ := List.cons_prefix_cons.mp front
              exact word_delimiter true left single notBlank hyphen
termination_by cs.length

/-- The word needs nothing behind it to be read as one. -/
def Complete (word : String) : Prop := Token.word false word.toList = (word.toList, [])

/-- The text in front of a token has the tokens before it, if the last of them is complete. -/
theorem scan_take {position : Nat} {cs : List Char} {before after : List Token} {token : Token}
    (split : scan position cs = before ++ token :: after)
    (complete : ∀ last ∈ before.getLast?, Complete last.text) :
    scan position (cs.take (token.start - position)) = before := by
  induction before generalizing position cs with
  | nil =>
      obtain ⟨blanks, characters, left, rfl, blank, _, _, rfl, _⟩ := scan_eq_cons split
      have only := scan_blanks blank position []
      rw [List.append_nil, scan_nil] at only
      rw [Nat.add_sub_cancel_left, List.take_left, only]
  | cons first before ih =>
      obtain ⟨blanks, characters, left, rfl, blank, nonempty, read, rfl, there⟩ :=
        scan_eq_cons split
      have member : token ∈ scan (position + blanks.length + characters.length) left := by
        simp [← there]
      have behind := (standsIn_of_mem_scan token member).inside.1
      have rest := ih there.symm fun last same => complete last (by
        rw [List.getLast?_cons, Option.mem_def.mp same]
        rfl)
      generalize taken : left.take (token.start -
        (position + blanks.length + characters.length)) = front at rest
      have whole : (blanks ++ (characters ++ left)).take (token.start - position) =
          blanks ++ (characters ++ front) := by
        have moved : token.start - position = blanks.length + (characters.length +
            (token.start - (position + blanks.length + characters.length))) := by omega
        rw [moved, List.take_length_add_append, List.take_length_add_append, taken]
      have read' : word false (characters ++ front) = (characters, front) := by
        by_cases last : front = []
        · rw [last, scan_nil] at rest
          have alone := complete ⟨String.ofList characters, _, _⟩ (by rw [← rest]; rfl)
          rw [Complete, String.toList_ofList] at alone
          rw [last, List.append_nil, alone]
        · have prefix_ : front <+: (word false (characters ++ left)).2 := by
            rw [read, ← taken]
            exact List.take_prefix _ _
          have same := word_append_of_isPrefix last prefix_
          rwa [read] at same
      rw [whole, scan_blanks blank, scan_characters _ nonempty read', rest]

end Polish.Token
