import Polish.Proofs.Decimal.Layout
import Polish.Proofs.Parsing.Viability
import Polish.Proofs.Text.Lossless

set_option autoImplicit false

namespace Polish

def OneLine (text : String) : Prop := '\n' ∉ text.toList

instance (text : String) : Decidable (OneLine text) := inferInstanceAs (Decidable (¬ _))

namespace OneLine

theorem append {first second : String} (front : OneLine first) (back : OneLine second) :
    OneLine (first ++ second) := by
  rw [OneLine, String.toList_append, List.mem_append]
  exact fun inside => inside.elim front back

theorem natural (n : Nat) : OneLine (toString n) := by
  intro inside
  have digit := Layout.isDigit_of_mem_toDigits n '\n' (by simpa using inside)
  revert digit
  decide

theorem symbol {op : Operator} (known : Operator.ofSymbol? op.symbol = some op) :
    OneLine op.symbol := by
  have each : ∀ op ∈ Operator.registered, '\n' ∉ op.symbol.toList := by decide
  exact each op (List.mem_of_find?_eq_some known)

/-- White space is in no word. -/
theorem word {text : String} : ∀ word ∈ (Reader.ofText text).words, OneLine word := by
  intro word member inside
  have there : '\n' ∈ (Reader.ofText text).words.flatMap String.toList :=
    List.mem_flatMap.mpr ⟨word, member, inside⟩
  rw [Reader.flatMap_words, List.mem_filter] at there
  exact absurd there.2 (by decide)

end OneLine

theorem oneLine_argument {symbol : String} (line : OneLine symbol) (number : Nat) :
    OneLine (Expectation.argument number symbol).text := by
  have literal : OneLine "argument " ∧ OneLine " of " := by decide
  exact ((literal.1.append (.natural _)).append literal.2).append line

namespace Cause

/-- The texts that a cause has from elsewhere. -/
def quoted : Cause → List String
  | .endOfInput wanted | .missingArgument wanted => [wanted.text]
  | .illegalToken => []
  | .noArguments symbol => [symbol]
  | .unknownOperation found | .tooManyArguments found | .illegalVariable found
  | .trailing found => [found]

variable {cause : Cause}

theorem oneLine_summary (lines : ∀ text ∈ cause.quoted, OneLine text) : OneLine cause.summary := by
  cases cause with
  | noArguments symbol =>
      have literal : OneLine "Operation " ∧ OneLine " needs at least one argument" := by decide
      exact (literal.1.append (lines symbol (by simp [quoted]))).append literal.2
  | _ =>
      rw [summary]
      decide

theorem oneLine_expected (lines : ∀ text ∈ cause.quoted, OneLine text) :
    OneLine (", ".intercalate cause.expected) := by
  cases cause with
  | endOfInput wanted | missingArgument wanted =>
      rw [expected, String.intercalate_singleton]
      exact lines _ (by simp [quoted])
  | noArguments symbol =>
      rw [expected, String.intercalate_singleton]
      exact oneLine_argument (lines symbol (by simp [quoted])) 1
  | _ =>
      rw [expected]
      decide

theorem oneLine_found (lines : ∀ text ∈ cause.quoted, OneLine text) : OneLine cause.found := by
  cases cause with
  | unknownOperation found | tooManyArguments found | illegalVariable found | trailing found =>
      exact lines found (by simp [quoted])
  | _ =>
      rw [found]
      decide

end Cause

theorem Fault.oneLine_message {fault : Fault}
    (lines : ∀ text ∈ fault.cause.quoted, OneLine text) : OneLine fault.diagnostic.message := by
  have literal : OneLine " at position " ∧ OneLine "; expected " ∧ OneLine "; found \"" ∧
      OneLine "\"" ∧ OneLine "" := by decide
  obtain ⟨position, expected, found, quote, empty⟩ := literal
  have number : OneLine (toString (fault.position : Int)) := .natural fault.position
  have front := ((Cause.oneLine_summary lines).append position).append number
  have back := (found.append (Cause.oneLine_found lines)).append quote
  rw [Diagnostic.message, Fault.diagnostic]
  refine (front.append ?_).append back
  split
  · exact empty
  · exact expected.append (Cause.oneLine_expected lines)

namespace Parser

theorem Opens.known {words : List String} {frame : Frame} {outer : List Frame}
    (open_ : Opens words (frame :: outer)) :
    Operator.ofSymbol? frame.op.symbol = some frame.op := by
  cases open_ with
  | frame op parts around room known fits spelled => exact known

theorem Reached.oneLine_wanted {words : List String} {s : State} (reached : Reached words s) :
    OneLine s.wanted.text := by
  cases reached with
  | start | opened | complete =>
      rw [State.wanted]
      decide
  | @within _ frame outer open_ =>
      rw [State.wanted]
      split
      · exact oneLine_argument (.symbol open_.known) _
      · decide

/-- Whatever a state has against a word, it quotes the word or an operator. -/
theorem Reached.oneLine_of_step {words : List String} {s : State} {token : Token} {fault : Fault}
    (reached : Reached words s) (line : OneLine token.text)
    (refused : s.step token = .error (.malformed fault)) :
    ∀ text ∈ fault.cause.quoted, OneLine text := by
  have begins : ∀ outer, State.begin token outer = .error (.malformed fault) →
      ∀ text ∈ fault.cause.quoted, OneLine text := by
    intro outer refused
    rcases State.begin_error refused with ⟨count, _, other⟩ | ⟨_, same⟩
    · cases other
    · cases same
      simpa [Cause.quoted] using line
  cases reached with
  | start =>
      simp only [State.step] at refused
      split at refused
      · cases refused
        simp [Cause.quoted]
      · exact begins _ refused
  | opened around room =>
      simp only [State.step] at refused
      split at refused
      · cases refused
      · cases refused
        simpa [Cause.quoted] using line
  | complete spelled =>
      cases refused
      simpa [Cause.quoted] using line
  | @within _ frame outer open_ =>
      have symbol : OneLine frame.op.symbol := .symbol open_.known
      simp only [State.step] at refused
      split at refused
      · unfold State.finishFrame at refused
        split at refused <;> split at refused <;> cases refused
        · simpa [Cause.quoted, Frame.nextArgument] using oneLine_argument symbol _
        · simpa [Cause.quoted] using symbol
      · split at refused
        · exact begins _ refused
        · cases refused
          simpa [Cause.quoted] using line

/-- The report on a malformed text is one line. -/
theorem oneLine_of_malformed {text : String} {fault : Fault}
    (rejected : parse text = .error (.malformed fault)) : OneLine fault.diagnostic.message := by
  apply Fault.oneLine_message
  rw [parse_eq_outcome, State.outcome] at rejected
  cases moved : State.start.run (Token.ofText text) with
  | ok s =>
      have line := (Reached.run .start moved).oneLine_wanted
      rw [moved] at rejected
      cases s with
      | complete e => cases rejected
      | _ =>
          cases rejected
          simpa [Cause.quoted] using line
  | error rejection =>
      rw [moved] at rejected
      cases rejected
      obtain ⟨before, token, after, s, split, reached, refused⟩ := State.exists_of_run_error moved
      have member : token.text ∈ (Reader.ofText text).words := by
        rw [Reader.words_ofText, split]
        simp
      exact (Reached.run .start reached).oneLine_of_step (.word _ member) refused

end Parser

end Polish
