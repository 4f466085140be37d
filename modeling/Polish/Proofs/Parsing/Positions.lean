import Polish.Proofs.Parsing.Viability
import Polish.Proofs.Text.Places

set_option autoImplicit false

namespace Polish

/-- Where a text has what is reported as found, for each class of faults. -/
def PointsAt (text found : String) (position : Nat) : FaultKind → Prop
  | .general => False
  | .unexpectedEnd => found = "" ∧ position = text.length
  | .trailingInput =>
      found ≠ "" ∧ text.toList.extract position (position + found.length) = found.toList ∧
        ∃ e, Parser.parse (String.ofList (text.toList.take position)) = .ok e
  | .expectedOperation | .arityMismatch | .unknownVariable =>
      found ≠ "" ∧ found.length ≤ position ∧
        text.toList.extract (position - found.length) position = found.toList

namespace Parser

/-- Nothing but the end of a whole expression makes what follows it a fault. -/
theorem State.complete_of_step_error {s : State} {token : Token} {fault : Fault}
    (refused : s.step token = .error (.malformed fault))
    (trailing : fault.cause.kind = .trailingInput) : ∃ e, s = .complete e := by
  have notBegun : ∀ outer, State.begin token outer ≠ .error (.malformed fault) := by
    intro outer broken
    rcases State.begin_error broken with ⟨count, _, other⟩ | ⟨_, same⟩
    · cases other
    · cases same
      cases trailing
  have notRefused : ∀ cause : Cause, cause.kind ≠ .trailingInput →
      State.refuse token cause ≠ .error (.malformed fault) := by
    intro cause other broken
    cases broken
    exact other trailing
  cases s with
  | start =>
      simp only [State.step] at refused
      split at refused
      · exact absurd refused (notRefused _ (by decide))
      · exact absurd refused (notBegun _)
  | opened outer =>
      simp only [State.step] at refused
      split at refused
      · cases refused
      · exact absurd refused (notRefused _ (by simp [Cause.kind]))
  | within frame outer =>
      simp only [State.step] at refused
      split at refused
      · unfold State.finishFrame at refused
        split at refused <;> split at refused
        · exact absurd refused (notRefused _ (by simp [Cause.kind]))
        · cases refused
        · exact absurd refused (notRefused _ (by simp [Cause.kind]))
        · cases refused
      · split at refused
        · exact absurd refused (notBegun _)
        · exact absurd refused (notRefused _ (by simp [Cause.kind]))
  | complete e => exact ⟨e, rfl⟩

/-- The last word of a tree needs nothing behind it. -/
theorem complete_of_spells {words : List String} {e : Expr} (spelled : Spells words e) :
    ∀ last ∈ words.getLast?, Token.Complete last := by
  have glued : ∀ {word : String}, Token.Glued word.toList ∧ word.toList ≠ [] →
      ∀ last ∈ [word].getLast?, Token.Complete last := by
    intro word ⟨glued, nonempty⟩ last same
    cases same
    have read := Token.word_glued_start glued nonempty Token.endsWord_nil
    rwa [List.append_nil] at read
  cases spelled with
  | integer shape short => exact glued (glued_of_isInteger shape)
  | named v => exact glued (glued_name v)
  | application op parts known accepted spelled =>
      intro last same
      rw [List.getLast?_concat] at same
      cases same
      rfl

/-- The text in front of what follows a whole expression is accepted. -/
theorem exists_parse_take {text : String} {before after : List Token} {token : Token} {e : Expr}
    (split : Token.ofText text = before ++ token :: after)
    (reached : State.start.run before = .ok (.complete e)) :
    parse (String.ofList (text.toList.take token.start)) = .ok e := by
  have spelled := (State.run_eq_complete_iff before e).mp reached
  have complete : ∀ last ∈ before.getLast?, Token.Complete last.text := by
    intro last same
    apply complete_of_spells spelled
    rw [List.getLast?_map, Option.mem_def.mp same]
    rfl
  have tokens := Token.scan_take split complete
  rw [Nat.sub_zero] at tokens
  rw [parse_eq_ok_iff, Reader.words_ofText, Token.ofText, String.toList_ofList, tokens]
  exact spelled

/-- A refused token stands where the rejection says, in front of the position or behind it. -/
theorem pointsAt_of_step_error {text : String} {before after : List Token} {token : Token}
    {s : State} {fault : Fault} (split : Token.ofText text = before ++ token :: after)
    (reached : State.start.run before = .ok s)
    (refused : s.step token = .error (.malformed fault)) :
    fault.position ≤ text.length ∧
      PointsAt text fault.cause.found fault.position fault.cause.kind := by
  obtain ⟨⟨named, placed⟩, notEnd, _⟩ := State.blames_of_step_error refused
  have member : token ∈ Token.ofText text := by simp [split]
  have stands := Token.standsIn_of_mem_scan token member
  have inside := stands.inside.2
  have stop := stands.stop
  have slice := stands.extract
  rw [Nat.zero_add, String.length_toList] at inside
  rw [named]
  by_cases trailing : fault.cause.kind = .trailingInput
  · obtain ⟨e, rfl⟩ := State.complete_of_step_error refused trailing
    rw [if_pos trailing] at placed
    rw [stop] at slice
    rw [trailing, placed]
    exact ⟨by omega, stands.nonempty, slice, e, exists_parse_take split reached⟩
  · rw [if_neg trailing] at placed
    have start : token.stop - token.text.length = token.start := by omega
    have behind : token.text ≠ "" ∧ token.text.length ≤ token.stop ∧
        text.toList.extract (token.stop - token.text.length) token.stop = token.text.toList :=
      ⟨stands.nonempty, by omega, by rw [start, slice]⟩
    rw [placed]
    refine ⟨inside, ?_⟩
    cases kind : fault.cause.kind with
    | general => exact absurd (congrArg some kind) (kind?_ne_general (.malformed fault))
    | unexpectedEnd => exact absurd (congrArg some kind) notEnd
    | trailingInput => exact absurd kind trailing
    | expectedOperation | arityMismatch | unknownVariable => exact behind

/-- A fault is reported where the text has what is named: a missing end behind everything, what is
too much in front of it, and any other word behind it. -/
theorem fault_points_at_found {text : String} {fault : Fault}
    (rejected : parse text = .error (.malformed fault)) :
    ∃ (position : Nat) (found : String), fault.diagnostic.position = position ∧
      fault.diagnostic.found = some found ∧ position ≤ text.length ∧
      PointsAt text found position fault.diagnostic.kind := by
  refine ⟨fault.position, fault.cause.found, rfl, rfl, ?_⟩
  rw [parse_eq_outcome, State.outcome] at rejected
  cases moved : State.start.run (Token.ofText text) with
  | ok s =>
      rw [moved] at rejected
      cases s with
      | complete e => cases rejected
      | _ =>
          cases rejected
          exact ⟨Nat.le_refl _, rfl, rfl⟩
  | error rejection =>
      rw [moved] at rejected
      cases rejected
      obtain ⟨before, token, after, s, split, reached, refused⟩ := State.exists_of_run_error moved
      exact pointsAt_of_step_error split reached refused

/-- A word without a meaning, deep inside; a hyphen that follows an integer; and a text that ends
in white space. -/
theorem fault_points_at_found_deep :
    PointsAt "(+ x (negate foo) y)" "foo" 16 .unknownVariable ∧
      PointsAt " -05-" "-" 4 .trailingInput ∧ PointsAt "(+ x  " "" 6 .unexpectedEnd := by
  have deep : parse "(+ x (negate foo) y)" = .error (.malformed ⟨.illegalVariable "foo", 16⟩) := by
    have tokens : Token.ofText "(+ x (negate foo) y)" =
        [⟨"(", 0, 1⟩, ⟨"+", 1, 2⟩, ⟨"x", 3, 4⟩, ⟨"(", 5, 6⟩, ⟨"negate", 6, 12⟩, ⟨"foo", 13, 16⟩,
          ⟨")", 16, 17⟩, ⟨"y", 18, 19⟩, ⟨")", 19, 20⟩] := by decide +kernel
    rw [parse_eq_outcome, tokens]
    rfl
  have trailing : parse " -05-" = .error (.malformed ⟨.trailing "-", 4⟩) := by
    have tokens : Token.ofText " -05-" = [⟨"-05", 1, 4⟩, ⟨"-", 4, 5⟩] := by decide +kernel
    rw [parse_eq_outcome, tokens]
    rfl
  have ended : parse "(+ x  " = .error (.malformed ⟨.endOfInput (.argument 2 "+"), 6⟩) := by
    have tokens : Token.ofText "(+ x  " = [⟨"(", 0, 1⟩, ⟨"+", 1, 2⟩, ⟨"x", 3, 4⟩] := by
      decide +kernel
    rw [parse_eq_outcome, tokens]
    rfl
  obtain ⟨position, found, at_, named, _, first⟩ := fault_points_at_found deep
  obtain ⟨position', found', at', named', _, second⟩ := fault_points_at_found trailing
  obtain ⟨position'', found'', at'', named'', _, third⟩ := fault_points_at_found ended
  cases named
  cases named'
  cases named''
  obtain rfl : 16 = position := Int.ofNat.inj at_
  obtain rfl : 4 = position' := Int.ofNat.inj at'
  obtain rfl : 6 = position'' := Int.ofNat.inj at''
  exact ⟨first, second, third⟩

end Parser

end Polish
