import Polish.Proofs.Parsing.Acceptance

/-!
Faults are found at the first word that no continuation can repair. Words are viable when some
more words make them a tree; the machine moves on exactly while its words are viable, since every
stack of open frames can be closed. Main statement: a refused text ends too early if its words are
viable, and else its rejection names the first word behind which they are not.
-/

set_option autoImplicit false

namespace Polish

/-- Some more words complete these to a tree. -/
def Viable (words : List String) : Prop := ∃ more e, Spells (words ++ more) e

/-- An expression or an argument may come next: a variable may. -/
def AwaitsExpression (words : List String) : Prop := Viable (words ++ [Variable.x.name])

theorem Viable.of_append {first second : List String} (viable : Viable (first ++ second)) :
    Viable first := by
  obtain ⟨more, e, spelled⟩ := viable
  exact ⟨second ++ more, e, by rwa [← List.append_assoc]⟩

/-- The word is an integer of so many digits, more than are read. -/
def Overlong (word : String) (count : Nat) : Prop :=
  ∃ negative digits, IsInteger word negative digits ∧ digits.length = count ∧
    Decimal.digitLimit < count

namespace Rejection

/-- The class of the fault; an integer that is too long is none. -/
def kind? : Rejection → Option FaultKind
  | .malformed fault => some fault.cause.kind
  | .tooLong _ _ => none

@[simp] theorem kind?_malformed (fault : Fault) :
    (malformed fault).kind? = some fault.cause.kind := rfl

@[simp] theorem kind?_tooLong (digits position : Nat) :
    (tooLong digits position).kind? = none := rfl

/-- The rejection is about this token. What follows a whole expression is refused where it begins,
everything else behind its end. -/
def Blames (token : Token) : Rejection → Prop
  | .malformed fault =>
      fault.cause.found = token.text ∧
        fault.position = if fault.cause.kind = .trailingInput then token.start else token.stop
  | .tooLong digits position => Overlong token.text digits ∧ position = token.stop

end Rejection

namespace Parser

/-- Arguments that an operator lacks can be supplied. -/
theorem exists_missing (op : Operator) (known : Operator.ofSymbol? op.symbol = some op)
    (given : Nat) (fits : op.arity.Allows given) :
    ∃ parts : List (List String × Expr), (∀ part ∈ parts, Spells part.1 part.2) ∧
      op.arity.accepts (given + parts.length : Nat) = true := by
  have all : ∀ count, ∀ part ∈ List.replicate count ([Variable.x.name], Expr.var .x),
      Spells part.1 part.2 := by
    intro count part member
    rw [List.eq_of_mem_replicate member]
    exact .named .x
  rcases Operator.arity_of_ofSymbol? known with arity | ⟨count, arity⟩
  · refine ⟨_, all 1, ?_⟩
    simp only [arity, Arity.accepts, List.length_replicate, decide_eq_true_eq]
    omega
  · have atMost := fits count arity
    refine ⟨_, all (count - given), ?_⟩
    simp only [arity, Arity.accepts, List.length_replicate, beq_iff_eq]
    omega

/-- The innermost frame can be closed. -/
theorem Opens.exists_application {words : List String} {frame : Frame} {outer : List Frame}
    (open_ : Opens words (frame :: outer)) :
    ∃ before inner more e, words = before ++ inner ∧ Opens before outer ∧ HasRoom outer ∧
      Spells (inner ++ more) e := by
  cases open_ with
  | @frame before outer op parts around room known fits spelled =>
      obtain ⟨missing, supplied, accepted⟩ := exists_missing op known parts.length fits
      have all : ∀ part ∈ parts ++ missing, Spells part.1 part.2 := by
        intro part member
        rcases List.mem_append.mp member with first | second
        · exact spelled part first
        · exact supplied part second
      have whole := Spells.application op (parts ++ missing) known
        (by simpa only [List.length_append] using accepted) all
      rw [List.flatMap_append, ← List.cons_append, ← List.cons_append, List.append_assoc] at whole
      exact ⟨before, _, _, _, rfl, around, room, whole⟩

/-- Open frames can be closed one after the other, from the innermost one on. -/
theorem Opens.viable {words : List String} {frame : Frame} {outer : List Frame}
    (open_ : Opens words (frame :: outer)) : Viable words := by
  induction outer generalizing words frame with
  | nil =>
      obtain ⟨before, inner, more, e, rfl, around, room, whole⟩ := open_.exists_application
      cases around
      exact ⟨more, e, whole⟩
  | cons next outer ih =>
      obtain ⟨before, inner, more, e, rfl, around, room, whole⟩ := open_.exists_application
      -- The application that is closed here is an argument of the next frame.
      have viable := ih (around.push (room next rfl) whole)
      rw [← List.append_assoc] at viable
      exact viable.of_append

/-- Every state of a run can be completed. -/
theorem Reached.viable {words : List String} {s : State} (reached : Reached words s) :
    Viable words := by
  cases reached with
  | start => exact ⟨[Variable.x.name], .var .x, .named .x⟩
  | opened around room =>
      have known : Operator.ofSymbol? "negate" = some ⟨"negate", .exactly 1, .negate⟩ := rfl
      exact (around.begin room known).viable.of_append
  | within open_ => exact open_.viable
  | complete spelled => exact ⟨[], _, by simpa using spelled⟩

/-- The machine reads words exactly as long as they are viable. -/
theorem viable_iff_run (tokens : List Token) :
    Viable (tokens.map (·.text)) ↔ ∃ s, State.start.run tokens = .ok s := by
  constructor
  · rintro ⟨more, e, spelled⟩
    obtain ⟨further, texts⟩ := exists_tokens more
    rw [← texts, ← List.map_append, ← State.run_eq_complete_iff] at spelled
    cases moved : State.start.run tokens with
    | ok s => exact ⟨s, rfl⟩
    | error rejection =>
        rw [State.run_append_of_error further moved] at spelled
        cases spelled
  · rintro ⟨s, moved⟩
    exact (Reached.run .start moved).viable

theorem viable_concat_iff (tokens : List Token) (token : Token) :
    Viable (tokens.map (·.text) ++ [token.text]) ↔
      ∃ s, State.start.run (tokens ++ [token]) = .ok s := by
  rw [← viable_iff_run, List.map_append, List.map_singleton]

namespace State

/-- An expression may come next in this state. -/
def Awaits (s : State) : Prop := ∃ outer, HasRoom outer ∧ s = enter outer

theorem awaits_start : State.start.Awaits := ⟨[], hasRoom_nil, rfl⟩

theorem not_awaits_opened (outer : List Frame) : ¬ (State.opened outer).Awaits := by
  rintro ⟨frames, room, same⟩
  cases frames <;> cases same

theorem awaits_within_iff (frame : Frame) (outer : List Frame) :
    (State.within frame outer).Awaits ↔ frame.hasRoom = true := by
  constructor
  · rintro ⟨frames, room, same⟩
    cases frames with
    | nil => cases same
    | cons inner frames =>
        cases same
        exact room frame rfl
  · intro room
    exact ⟨frame :: outer, hasRoom_cons outer room, rfl⟩

theorem not_awaits_complete (e : Expr) : ¬ (State.complete e).Awaits := by
  rintro ⟨frames, room, same⟩
  cases frames <;> cases same

theorem awaits_iff_step (s : State) {token : Token} (named : token.text = Variable.x.name) :
    s.Awaits ↔ ∃ next, s.step token = .ok next := by
  have notOpening : token.text ≠ Token.opening := by
    rw [named]
    decide
  have notClosing : token.text ≠ Token.closing := by
    rw [named]
    decide
  constructor
  · rintro ⟨outer, room, rfl⟩
    refine ⟨resume (.var .x) outer, ?_⟩
    rw [step_enter room notClosing]
    refine begin_of_leaf outer notOpening ?_
    rw [named, leaf_name]
  · rintro ⟨next, moved⟩
    cases s with
    | start => exact awaits_start
    | opened outer =>
        have unknown : Operator.ofSymbol? token.text = none := by
          rw [named]
          decide
        simp [step, unknown, refuse] at moved
    | within frame outer =>
        rw [awaits_within_iff]
        simp only [step, notClosing, ↓reduceIte] at moved
        split at moved
        · assumption
        · cases moved
    | complete e => cases moved

/-- The words read so far tell whether an expression may come next. -/
theorem awaits_iff {tokens : List Token} {s : State} (moved : State.start.run tokens = .ok s) :
    s.Awaits ↔ AwaitsExpression (tokens.map (·.text)) := by
  have longer : State.start.run (tokens ++ [⟨Variable.x.name, 0, 0⟩]) =
      s.step ⟨Variable.x.name, 0, 0⟩ := by
    rw [run_append_of_ok _ moved, run]
    cases s.step ⟨Variable.x.name, 0, 0⟩ <;> rfl
  have viable := viable_concat_iff tokens ⟨Variable.x.name, 0, 0⟩
  rw [longer] at viable
  exact (awaits_iff_step s rfl).trans viable.symm

/-- What begins no expression is an integer that is too long or a word without a meaning. -/
theorem begin_error {token : Token} {outer : List Frame} {rejection : Rejection}
    (refused : begin token outer = .error rejection) :
    (∃ count, Overlong token.text count ∧ rejection = .tooLong count token.stop) ∨
    ((∀ count, ¬ Overlong token.text count) ∧
      rejection = .malformed ⟨.illegalVariable token.text, token.stop⟩) := by
  unfold begin at refused
  split at refused
  · cases refused
  · rcases leaf_cases token.text token.stop with
      ⟨e, spelled, read⟩ | ⟨negative, digits, shape, long, read⟩ | ⟨noInteger, _, read⟩
    · rw [read] at refused
      cases refused
    · rw [read] at refused
      cases refused
      exact Or.inl ⟨digits.length, ⟨negative, digits, shape, rfl, long⟩, rfl⟩
    · rw [read] at refused
      cases refused
      refine Or.inr ⟨?_, rfl⟩
      rintro count ⟨negative, digits, shape, _⟩
      exact noInteger negative digits shape

theorem refuse_error {token : Token} {cause : Cause} {rejection : Rejection}
    (refused : refuse token cause = .error rejection) (named : cause.found = token.text)
    (kind : cause.kind = .expectedOperation ∨ cause.kind = .arityMismatch) :
    rejection.Blames token ∧ ∃ fault, rejection = .malformed fault ∧
      fault.cause.kind ≠ .unexpectedEnd := by
  cases refused
  rcases kind with kind | kind
  · exact ⟨⟨named, by rw [kind]; rfl⟩, _, rfl, by rw [kind]; decide⟩
  · exact ⟨⟨named, by rw [kind]; rfl⟩, _, rfl, by rw [kind]; decide⟩

/-- A token is refused because it begins no expression, or because none may begin with it here. -/
theorem step_error {s : State} {token : Token} {rejection : Rejection}
    (refused : s.step token = .error rejection) :
    (s.Awaits ∧ ∃ outer, begin token outer = .error rejection) ∨
    ((s.Awaits → token.text = Token.closing) ∧ rejection.Blames token ∧
      ∃ fault, rejection = .malformed fault ∧ fault.cause.kind ≠ .unexpectedEnd) := by
  cases s with
  | start =>
      simp only [step] at refused
      split at refused
      · rename_i closes
        exact Or.inr ⟨fun _ => closes, refuse_error refused closes.symm (Or.inr rfl)⟩
      · exact Or.inl ⟨awaits_start, [], refused⟩
  | opened outer =>
      simp only [step] at refused
      split at refused
      · cases refused
      · exact Or.inr ⟨fun awaits => absurd awaits (not_awaits_opened outer),
          refuse_error refused rfl (Or.inl rfl)⟩
  | within frame outer =>
      simp only [step] at refused
      split at refused
      · rename_i closes
        have cause : refuse token (.missingArgument frame.nextArgument) = .error rejection ∨
            refuse token (.noArguments frame.op.symbol) = .error rejection := by
          unfold finishFrame at refused
          split at refused <;> split at refused
          · exact Or.inl refused
          · cases refused
          · exact Or.inr refused
          · cases refused
        rcases cause with refused | refused
        · exact Or.inr ⟨fun _ => closes, refuse_error refused closes.symm (Or.inr rfl)⟩
        · exact Or.inr ⟨fun _ => closes, refuse_error refused closes.symm (Or.inr rfl)⟩
      · split at refused
        · rename_i room
          exact Or.inl ⟨(awaits_within_iff frame outer).mpr room, _, refused⟩
        · rename_i full
          exact Or.inr ⟨fun awaits => absurd ((awaits_within_iff frame outer).mp awaits) full,
            refuse_error refused rfl (Or.inr rfl)⟩
  | complete e =>
      cases refused
      exact Or.inr ⟨fun awaits => absurd awaits (not_awaits_complete e), ⟨rfl, rfl⟩, _, rfl,
        by simp [Cause.kind]⟩

theorem not_overlong_closing (count : Nat) : ¬ Overlong Token.closing count := by
  rintro ⟨negative, digits, shape, _⟩
  exact (ne_parenthesis_of_glued (glued_of_isInteger shape).1).2 rfl

/-- A refused token is named in the rejection, and the limit of digits is reported of it exactly
if it is too long an integer in place of an expression. -/
theorem blames_of_step_error {s : State} {token : Token} {rejection : Rejection}
    (refused : s.step token = .error rejection) :
    rejection.Blames token ∧ rejection.kind? ≠ some .unexpectedEnd ∧
      (rejection.kind? = none ↔ (∃ count, Overlong token.text count) ∧ s.Awaits) := by
  rcases step_error refused with ⟨awaits, outer, broken⟩ | ⟨closing, blames, fault, rfl, notEnd⟩
  · rcases begin_error broken with ⟨count, long, rfl⟩ | ⟨short, rfl⟩
    · exact ⟨⟨long, rfl⟩, by simp, fun _ => ⟨⟨count, long⟩, awaits⟩, fun _ => rfl⟩
    · refine ⟨⟨rfl, rfl⟩, by simp [Cause.kind], by simp, ?_⟩
      rintro ⟨⟨count, long⟩, _⟩
      exact absurd long (short count)
  · refine ⟨blames, fun ended => notEnd (Option.some.inj ended), by simp, ?_⟩
    rintro ⟨⟨count, long⟩, awaits⟩
    rw [closing awaits] at long
    exact absurd long (not_overlong_closing count)

end State

theorem State.finish_error {stop : Nat} {s : State} {rejection : Rejection}
    (refused : s.finish stop = .error rejection) : rejection.kind? = some .unexpectedEnd := by
  cases s <;> cases refused <;> rfl

/-- A refused text ends too early, or its run breaks at one token and would break there whatever
follows. -/
theorem rejected_cases {text : String} {rejection : Rejection}
    (rejected : parse text = .error rejection) :
    (Viable (Reader.ofText text).words ∧ rejection.kind? = some .unexpectedEnd) ∨
    (¬ Viable (Reader.ofText text).words ∧ rejection.kind? ≠ some .unexpectedEnd ∧
      State.start.run (Token.ofText text) = .error rejection) := by
  rw [parse_eq_outcome, State.outcome] at rejected
  rw [Reader.words_ofText, viable_iff_run]
  cases moved : State.start.run (Token.ofText text) with
  | ok s =>
      rw [moved] at rejected
      exact Or.inl ⟨⟨s, rfl⟩, State.finish_error rejected⟩
  | error reason =>
      rw [moved] at rejected
      cases rejected
      obtain ⟨before, token, after, s, _, _, broken⟩ := State.exists_of_run_error moved
      exact Or.inr ⟨by simp, (State.blames_of_step_error broken).2.1, rfl⟩

/-- The words of a text with further words behind it. -/
theorem words_append_separated (text : String) {words : List String}
    (alone : ∀ word ∈ words, Token.Alone word) :
    (Reader.ofText (text ++ " " ++ String.ofList (Token.separated words))).words =
      (Reader.ofText text).words ++ words := by
  have split : (text ++ " " ++ String.ofList (Token.separated words)).toList =
      text.toList ++ ' ' :: Token.separated words := by simp
  rw [Reader.words_ofText, Reader.words_ofText, Token.ofText_of_split split (by decide),
    List.map_append, Token.scan_separated _ alone]

/-- A text is viable exactly when some text behind a blank completes it. -/
theorem viable_iff_exists_further (text : String) :
    Viable (Reader.ofText text).words ↔ ∃ further e, parse (text ++ " " ++ further) = .ok e := by
  constructor
  · rintro ⟨more, e, spelled⟩
    have alone : ∀ word ∈ more, Token.Alone word := fun word member =>
      alone_of_spells spelled word (List.mem_append_right _ member)
    refine ⟨String.ofList (Token.separated more), e, ?_⟩
    rwa [parse_eq_ok_iff, words_append_separated text alone]
  · rintro ⟨further, e, accepted⟩
    have split : (text ++ " " ++ further).toList = text.toList ++ ' ' :: further.toList := by simp
    rw [parse_eq_ok_iff, Reader.words_ofText, Token.ofText_of_split split (by decide),
      List.map_append, ← Reader.words_ofText] at accepted
    exact ⟨_, e, accepted⟩

/-- A run that breaks has read viable words up to the token that the rejection is about. -/
theorem exists_blamed {tokens : List Token} {rejection : Rejection}
    (broken : State.start.run tokens = .error rejection) :
    ∃ before token after, tokens = before ++ token :: after ∧
      Viable (before.map (·.text)) ∧ ¬ Viable (before.map (·.text) ++ [token.text]) ∧
      rejection.Blames token ∧
      (rejection.kind? = none ↔
        (∃ count, Overlong token.text count) ∧ AwaitsExpression (before.map (·.text))) := by
  obtain ⟨before, token, after, s, split, moved, refused⟩ := State.exists_of_run_error broken
  obtain ⟨blames, _, long⟩ := State.blames_of_step_error refused
  refine ⟨before, token, after, split, (viable_iff_run before).mpr ⟨s, moved⟩, ?_, blames, ?_⟩
  · have last : State.start.run (before ++ [token]) = .error rejection := by
      rw [State.run_append_of_ok _ moved, State.run_cons_of_error _ refused]
    rw [viable_concat_iff, last]
    intro ⟨next, impossible⟩
    cases impossible
  · rw [long, State.awaits_iff moved]

/-- A break is not repaired by what stands behind a blank. -/
theorem parse_append_of_broken {text : String} {rejection : Rejection}
    (broken : State.start.run (Token.ofText text) = .error rejection) {blank : Char}
    (further : List Char) (isBlank_ : Token.isBlank blank = true) :
    parse (text ++ String.ofList (blank :: further)) = .error rejection := by
  have split : (text ++ String.ofList (blank :: further)).toList =
      text.toList ++ blank :: further := by simp
  rw [parse_eq_outcome, Token.ofText_of_split split isBlank_, State.outcome,
    State.run_append_of_error _ broken]

theorem kind?_ne_general (rejection : Rejection) : rejection.kind? ≠ some .general := by
  cases rejection with
  | malformed fault => cases cause : fault.cause <;> simp [Cause.kind, cause]
  | tooLong digits position => simp

/-- A rejected text has ended too early exactly when its words are viable, that is, when some text
behind a blank completes it. Otherwise the rejection is about the first token behind which the
words are not viable any more, it reports the limit of digits exactly of a too long integer in
place of an expression, and no text behind a blank changes it. -/
theorem rejected_at_first_unviable_word {text : String} {rejection : Rejection}
    (rejected : parse text = .error rejection) :
    (rejection.kind? = some .unexpectedEnd ↔ Viable (Reader.ofText text).words) ∧
    (¬ Viable (Reader.ofText text).words →
      ∃ before token after, Token.ofText text = before ++ token :: after ∧
        Viable (before.map (·.text)) ∧ ¬ Viable (before.map (·.text) ++ [token.text]) ∧
        rejection.Blames token ∧
        (rejection.kind? = none ↔
          (∃ count, Overlong token.text count) ∧ AwaitsExpression (before.map (·.text)))) ∧
    rejection.kind? ≠ some .general ∧
    (rejection.kind? = some .unexpectedEnd ↔
      ∃ further e, parse (text ++ " " ++ further) = .ok e) ∧
    (rejection.kind? ≠ some .unexpectedEnd → ∀ blank further, Token.isBlank blank = true →
      parse (text ++ String.ofList (blank :: further)) = .error rejection) := by
  rcases rejected_cases rejected with ⟨viable, ended⟩ | ⟨unviable, notEnd, broken⟩
  · refine ⟨iff_of_true ended viable, fun unviable => absurd viable unviable,
      kind?_ne_general rejection, ?_, fun notEnd => absurd ended notEnd⟩
    exact iff_of_true ended ((viable_iff_exists_further text).mp viable)
  · refine ⟨iff_of_false notEnd unviable, fun _ => exists_blamed broken,
      kind?_ne_general rejection, ?_, ?_⟩
    · exact iff_of_false notEnd ((not_congr (viable_iff_exists_further text)).mp unviable)
    · intro _ blank further isBlank_
      exact parse_append_of_broken broken further isBlank_

/-- A word without a meaning is refused there, whatever follows it. -/
theorem rejected_at_first_unviable_word_meaningless :
    parse "(+ x foo" = .error (.malformed ⟨.illegalVariable "foo", 8⟩) ∧
      ∀ further, parse ("(+ x foo" ++ String.ofList (' ' :: further)) =
        .error (.malformed ⟨.illegalVariable "foo", 8⟩) := by
  have tokens : Token.ofText "(+ x foo" =
      [⟨"(", 0, 1⟩, ⟨"+", 1, 2⟩, ⟨"x", 3, 4⟩, ⟨"foo", 5, 8⟩] := by decide +kernel
  have rejected : parse "(+ x foo" = .error (.malformed ⟨.illegalVariable "foo", 8⟩) := by
    rw [parse_eq_outcome, tokens]
    rfl
  obtain ⟨_, _, _, _, kept⟩ := rejected_at_first_unviable_word rejected
  exact ⟨rejected, fun further => kept (by decide) ' ' further (by decide)⟩

end Parser

end Polish
