import Polish.Proofs.Parsing.Viability

set_option autoImplicit false

namespace Polish

/-- The words are an expression, with integers of any length. -/
inductive IsSentence : List String → Prop where
  | integer {word : String} {negative : Bool} {digits : List Char}
      (shape : IsInteger word negative digits) : IsSentence [word]
  | named (v : Variable) : IsSentence [v.name]
  | application (op : Operator) (parts : List (List String))
      (known : Operator.ofSymbol? op.symbol = some op)
      (accepted : op.arity.accepts parts.length = true)
      (each : ∀ part ∈ parts, IsSentence part) :
      IsSentence (Token.opening :: op.symbol :: parts.flatten ++ [Token.closing])

/-- Behind words after which an expression may begin there is an integer that is too long. -/
def MeetsOverlong (words : List String) (count : Nat) : Prop :=
  ∃ before word after, words = before ++ word :: after ∧ AwaitsExpression before ∧
    Overlong word count

theorem Spells.isSentence {words : List String} {e : Expr} (spelled : Spells words e) :
    IsSentence words := by
  induction spelled with
  | integer shape short => exact .integer shape
  | named v => exact .named v
  | application op parts known accepted spelled ih =>
      have all : ∀ part ∈ parts.map (·.1), IsSentence part := List.forall_mem_map.mpr ih
      have whole := IsSentence.application op (parts.map (·.1)) known
        (by simpa only [List.length_map] using accepted) all
      rwa [← List.flatMap_def] at whole

theorem not_overlong_of_parts {word : String} (other : Parser.integerParts? word = none)
    (count : Nat) : ¬ Overlong word count := by
  rintro ⟨negative, digits, shape, _⟩
  rw [(Parser.integerParts?_eq_some_iff word negative digits).mpr shape] at other
  cases other

/-- Words of a tree are within the limit. -/
theorem Spells.not_overlong {words : List String} {e : Expr} (spelled : Spells words e) :
    ∀ word ∈ words, ∀ count, ¬ Overlong word count := by
  induction spelled with
  | @integer word negative digits shape short =>
      intro other member count long
      obtain ⟨negative', digits', shape', rfl, more⟩ := long
      have parts := (Parser.integerParts?_eq_some_iff word negative digits).mpr shape
      rw [List.mem_singleton.mp member] at shape'
      rw [(Parser.integerParts?_eq_some_iff word negative' digits').mpr shape'] at parts
      cases parts
      omega
  | named v =>
      intro other member
      rw [List.mem_singleton.mp member]
      exact not_overlong_of_parts (Parser.integerParts?_name v)
  | application op parts known accepted spelled ih =>
      intro word member
      simp only [List.cons_append, List.mem_cons, List.mem_append, List.mem_flatMap,
        List.not_mem_nil, or_false] at member
      rcases member with rfl | rfl | ⟨part, inside, member⟩ | rfl
      · exact not_overlong_of_parts (by decide)
      · exact not_overlong_of_parts (Parser.integerParts?_symbol known)
      · exact ih part inside word member
      · exact not_overlong_of_parts (by decide)

namespace Parser

/-- Where an expression may begin, an integer that is too long is refused. -/
theorem State.step_overlong {outer : List Frame} {token : Token} {count : Nat}
    (room : HasRoom outer) (long : Overlong token.text count) :
    (State.enter outer).step token = .error (.tooLong count token.stop) := by
  obtain ⟨negative, digits, shape, rfl, more⟩ := long
  obtain ⟨notOpening, notClosing⟩ := ne_parenthesis_of_glued (glued_of_isInteger shape).1
  rw [State.step_enter room notClosing, State.begin, if_neg notOpening, leaf_of_isInteger shape,
    if_pos more]

/-- From this state the tokens are refused for an integer that is too long. -/
def State.BreaksOverlong (s : State) (tokens : List Token) : Prop :=
  ∃ count position, s.run tokens = .error (.tooLong count position)

/-- The arguments of an application are those of a tree, or one of them is refused. -/
theorem State.breaks_arguments (parts : List (List String))
    (each : ∀ part ∈ parts, (∃ e, Spells part e) ∨ ∀ outer tokens, HasRoom outer →
      tokens.map (·.text) = part → (State.enter outer).BreaksOverlong tokens) :
    (∃ spelled : List (List String × Expr), spelled.map (·.1) = parts ∧
      ∀ part ∈ spelled, Spells part.1 part.2) ∨
    ∀ (frame : Frame) outer tokens further, tokens.map (·.text) = parts.flatten →
      frame.op.arity.Allows (frame.args.length + parts.length) →
      (State.within frame outer).BreaksOverlong (tokens ++ further) := by
  induction parts with
  | nil => exact Or.inl ⟨[], rfl, by simp⟩
  | cons part parts ih =>
      have others := ih fun part member => each part (List.mem_cons_of_mem _ member)
      rcases each part (by simp) with ⟨e, here⟩ | broken
      · rcases others with ⟨spelled, rfl, there⟩ | broken
        · exact Or.inl ⟨(part, e) :: spelled, rfl, List.forall_mem_cons.mpr ⟨here, there⟩⟩
        · right
          intro frame outer tokens further texts fits
          obtain ⟨first, rest, rfl, texts, texts'⟩ := List.map_eq_append_iff.mp texts
          obtain ⟨room, fewer⟩ := Frame.room_of_allows fits e
          have one := State.run_spelled here (frame :: outer) first (hasRoom_cons outer room) texts
          obtain ⟨count, position, stopped⟩ :=
            broken (frame.push e) outer rest further texts' fewer
          refine ⟨count, position, ?_⟩
          rw [List.append_assoc]
          exact (State.run_append_of_ok (rest ++ further) one).trans stopped
      · right
        intro frame outer tokens further texts fits
        obtain ⟨first, rest, rfl, texts, _⟩ := List.map_eq_append_iff.mp texts
        obtain ⟨room, _⟩ := Frame.room_of_allows fits (.var .x)
        obtain ⟨count, position, stopped⟩ :=
          broken (frame :: outer) first (hasRoom_cons outer room) texts
        refine ⟨count, position, ?_⟩
        rw [List.append_assoc]
        exact State.run_append_of_error (rest ++ further) stopped

/-- By induction on the sentence: it spells a tree, or the machine breaks wherever it begins. -/
theorem State.breaks_sentence {words : List String} (sentence : IsSentence words) :
    (∃ e, Spells words e) ∨ ∀ outer tokens, HasRoom outer → tokens.map (·.text) = words →
      (State.enter outer).BreaksOverlong tokens := by
  induction sentence with
  | @integer word negative digits shape =>
      by_cases short : digits.length ≤ Decimal.digitLimit
      · exact Or.inl ⟨_, .integer shape short⟩
      · right
        intro outer tokens room texts
        obtain ⟨token, rest, rfl, rfl, _⟩ := List.map_eq_cons_iff.mp texts
        have long : Overlong token.text digits.length :=
          ⟨negative, digits, shape, rfl, Nat.lt_of_not_le short⟩
        exact ⟨_, _, State.run_cons_of_error _ (State.step_overlong room long)⟩
  | named v => exact Or.inl ⟨_, .named v⟩
  | application op parts known accepted each ih =>
      rcases State.breaks_arguments parts ih with ⟨spelled, rfl, all⟩ | broken
      · have whole := Spells.application op spelled known
          (by simpa only [List.length_map] using accepted) all
        rw [List.flatMap_def] at whole
        exact Or.inl ⟨_, whole⟩
      · right
        intro outer tokens room texts
        obtain ⟨opening, rest, rfl, opens, texts⟩ := List.map_eq_cons_iff.mp texts
        obtain ⟨symbol, rest, rfl, named, texts⟩ := List.map_eq_cons_iff.mp texts
        obtain ⟨middle, last, rfl, inside, _⟩ := List.map_eq_append_iff.mp texts
        have fits : op.arity.Allows (([] : List Expr).length + parts.length) := by
          simpa using Arity.allows_of_accepts accepted
        obtain ⟨count, position, stopped⟩ := broken ⟨op, []⟩ outer middle last inside fits
        refine ⟨count, position, ?_⟩
        rw [State.run_front known room opens named, stopped]

/-- A sentence is accepted, or the limit of digits is reported of it. -/
theorem parse_of_isSentence {text : String} (sentence : IsSentence (Reader.ofText text).words) :
    (∃ e, parse text = .ok e) ∨ ∃ count position, parse text = .error (.tooLong count position) := by
  rcases State.breaks_sentence sentence with ⟨e, spelled⟩ | broken
  · exact Or.inl ⟨e, (parse_eq_ok_iff text e).mpr spelled⟩
  · obtain ⟨count, position, stopped⟩ :=
      broken [] (Token.ofText text) hasRoom_nil (Reader.words_ofText text).symm
    refine Or.inr ⟨count, position, ?_⟩
    rw [parse_eq_outcome, State.outcome]
    rw [State.enter] at stopped
    rw [stopped]

/-- The limit of digits is reported of the first integer beyond it, in place of an expression. -/
theorem exists_tooLong_iff (text : String) (count : Nat) :
    (∃ position, parse text = .error (.tooLong count position)) ↔
      MeetsOverlong (Reader.ofText text).words count := by
  constructor
  · rintro ⟨position, rejected⟩
    rcases rejected_cases rejected with ⟨_, ended⟩ | ⟨_, _, broken⟩
    · cases ended
    · obtain ⟨before, token, after, split, _, _, blames, awaits⟩ := exists_blamed broken
      refine ⟨before.map (·.text), token.text, after.map (·.text), ?_, (awaits.mp rfl).2, blames.1⟩
      rw [Reader.words_ofText, split, List.map_append, List.map_cons]
  · rintro ⟨words, word, further, split, awaits, long⟩
    rw [Reader.words_ofText] at split
    obtain ⟨before, rest, tokens, rfl, texts⟩ := List.map_eq_append_iff.mp split
    obtain ⟨token, after, rfl, rfl, _⟩ := List.map_eq_cons_iff.mp texts
    obtain ⟨s, moved⟩ := (viable_iff_run before).mp awaits.of_append
    obtain ⟨outer, room, rfl⟩ := (State.awaits_iff moved).mpr awaits
    refine ⟨token.stop, ?_⟩
    rw [parse_eq_outcome, tokens, State.outcome, State.run_append_of_ok _ moved,
      State.run_cons_of_error _ (State.step_overlong room long)]

/-- A sentence meets its first integer that is too long. -/
theorem meetsOverlong_iff_of_isSentence {text : String}
    (sentence : IsSentence (Reader.ofText text).words) :
    (∃ count, MeetsOverlong (Reader.ofText text).words count) ↔
      ∃ word ∈ (Reader.ofText text).words, ∃ count, Overlong word count := by
  constructor
  · rintro ⟨count, before, word, after, split, _, long⟩
    exact ⟨word, by simp [split], count, long⟩
  · rintro ⟨word, member, count, long⟩
    rcases parse_of_isSentence sentence with ⟨e, accepted⟩ | ⟨count', position, rejected⟩
    · exact absurd long (((parse_eq_ok_iff text e).mp accepted).not_overlong word member count)
    · exact ⟨count', (exists_tooLong_iff text count').mp ⟨position, rejected⟩⟩

end Parser

end Polish
