import Polish.Proofs.Parsing.Viability

/-!
What is reported about a malformed text, told from the outside. A place says which parenthesis is
the innermost open one and how many arguments are complete behind its operator; it knows no trees
and no causes. One table gives the complaint about the next word at each place. Main statement: a
text is malformed exactly as the first complaint on its way through the places says.
-/

set_option autoImplicit false

namespace Polish

structure Complaint where
  kind : FaultKind
  summary : String
  expected : List String
deriving DecidableEq, Repr

def Cause.complaint (cause : Cause) : Complaint := ⟨cause.kind, cause.summary, cause.expected⟩

/-- An operator behind an open parenthesis, and how many of its arguments are complete. -/
structure Pending where
  op : Operator
  complete : Nat

namespace Pending

def hasRoom (pending : Pending) : Bool :=
  match pending.op.arity with
  | .exactly count => (pending.complete : Int) < count
  | .variadic => true

def argument (pending : Pending) : String :=
  "argument " ++ toString (pending.complete + 1) ++ " of " ++ pending.op.symbol

end Pending

/-- How far a text is read; what stands around the innermost open parenthesis comes nearest
first. -/
inductive Place where
  /-- Nothing is read. -/
  | outside
  /-- A parenthesis was just opened. -/
  | opened (outer : List Pending)
  /-- An operator and some complete arguments are read. -/
  | within (inner : Pending) (outer : List Pending)
  /-- The whole expression is complete. -/
  | finished

def IsLeaf (word : String) : Prop :=
  (∃ negative digits, IsInteger word negative digits) ∨ ∃ v : Variable, v.name = word

theorem isLeaf_iff (word : String) :
    ((Parser.integerParts? word).isSome || (Variable.ofName? word).isSome) = true ↔
      IsLeaf word := by
  rw [Bool.or_eq_true, Option.isSome_iff_exists, Option.isSome_iff_exists]
  constructor
  · rintro (⟨⟨negative, digits⟩, taken⟩ | ⟨v, named⟩)
    · exact Or.inl ⟨negative, digits, (Parser.integerParts?_eq_some_iff _ _ _).mp taken⟩
    · exact Or.inr ⟨v, Variable.name_of_ofName? named⟩
  · rintro (⟨negative, digits, shape⟩ | ⟨v, rfl⟩)
    · exact Or.inl ⟨(negative, digits), (Parser.integerParts?_eq_some_iff _ _ _).mpr shape⟩
    · exact Or.inr ⟨v, Variable.ofName?_name v⟩

instance : DecidablePred IsLeaf := fun word => decidable_of_iff _ (isLeaf_iff word)

/-- The complaint about a word that begins no expression. -/
def leafComplaint? (word : String) : Option Complaint :=
  if word = "(" ∨ IsLeaf word then none
  else some ⟨.unknownVariable, "Illegal variable", ["integer", "x", "y", "z"]⟩

namespace Place

def wanted : Place → String
  | .outside => "expression"
  | .opened _ => "operation"
  | .within inner _ => if inner.hasRoom then inner.argument else ")"
  | .finished => "end of input"

/-- The place behind an expression that is complete. -/
def resume : List Pending → Place
  | [] => .finished
  | inner :: outer => .within { inner with complete := inner.complete + 1 } outer

/-- The place behind one more word. -/
def read (word : String) : Place → Place
  | .outside => if word = "(" then .opened [] else .finished
  | .opened outer =>
      match Operator.ofSymbol? word with
      | some op => .within ⟨op, 0⟩ outer
      | none => .opened outer
  | .within inner outer =>
      if word = ")" then resume outer
      else if word = "(" then .opened (inner :: outer)
      else resume (inner :: outer)
  | .finished => .finished

/-- The place behind some more words. -/
def behind (p : Place) (words : List String) : Place := words.foldl (fun p word => p.read word) p

def wordComplaint? (word : String) : Place → Option Complaint
  | .outside =>
      if word = ")" then some ⟨.arityMismatch, "Illegal token", ["expression"]⟩
      else leafComplaint? word
  | .opened _ =>
      if (Operator.ofSymbol? word).isSome then none
      else some ⟨.expectedOperation, "Unknown operation", ["operation"]⟩
  | .within inner _ =>
      match inner.op.arity with
      | .exactly count =>
          if (inner.complete : Int) < count then
            if word = ")" then some ⟨.arityMismatch, "Missing argument", [inner.argument]⟩
            else leafComplaint? word
          else if word = ")" then none
          else some ⟨.arityMismatch, "Too many arguments", [")"]⟩
      | .variadic =>
          if word = ")" then
            if inner.complete = 0 then
              some ⟨.arityMismatch,
                "Operation " ++ inner.op.symbol ++ " needs at least one argument",
                [inner.argument]⟩
            else none
          else leafComplaint? word
  | .finished =>
      some ⟨.trailingInput, "Illegal token after end of expression", ["end of input"]⟩

def endComplaint? : Place → Option Complaint
  | .finished => none
  | p => some ⟨.unexpectedEnd, "Unexpected end of input", [p.wanted]⟩

/-- The complaint about the next word, or about the end of the text if there is none. -/
def complaint? (p : Place) : Option String → Option Complaint
  | some word => p.wordComplaint? word
  | none => p.endComplaint?

/-- The complaint about the word behind the first `count` words. -/
def complaintAt? (p : Place) (words : List String) (count : Nat) : Option Complaint :=
  (p.behind (words.take count)).complaint? words[count]?

theorem complaintAt?_cons_succ (p : Place) (word : String) (words : List String) (count : Nat) :
    p.complaintAt? (word :: words) (count + 1) = (p.read word).complaintAt? words count := rfl

section Within

variable {inner : Pending} (outer : List Pending) {word : String}

theorem wordComplaint?_of_room (room : inner.hasRoom = true) (other : word ≠ ")") :
    (within inner outer).wordComplaint? word = leafComplaint? word := by
  unfold Pending.hasRoom at room
  cases arity : inner.op.arity <;> simp_all [wordComplaint?]

theorem wordComplaint?_of_full (full : inner.hasRoom = false) (other : word ≠ ")") :
    (within inner outer).wordComplaint? word =
      some ⟨.arityMismatch, "Too many arguments", [")"]⟩ := by
  unfold Pending.hasRoom at full
  cases arity : inner.op.arity with
  | exactly count =>
      have enough : ¬ (inner.complete : Int) < count := by simpa [arity] using full
      simp [wordComplaint?, arity, enough, other]
  | variadic => simp [arity] at full

theorem wordComplaint?_closing_exactly {count : Int} (arity : inner.op.arity = .exactly count) :
    (within inner outer).wordComplaint? ")" =
      if inner.hasRoom then some ⟨.arityMismatch, "Missing argument", [inner.argument]⟩
      else none := by
  simp [wordComplaint?, Pending.hasRoom, arity]

theorem wordComplaint?_closing_variadic (arity : inner.op.arity = .variadic) :
    (within inner outer).wordComplaint? ")" =
      if inner.complete = 0 then
        some ⟨.arityMismatch, "Operation " ++ inner.op.symbol ++ " needs at least one argument",
          [inner.argument]⟩
      else none := by
  simp [wordComplaint?, arity]

end Within

/-- Whatever is complained of, what the place wants is expected, except in front of a word that
has no meaning. -/
theorem expected_of_complaint? {p : Place} {word : Option String} {complaint : Complaint}
    (said : p.complaint? word = some complaint) :
    complaint.expected = [p.wanted] ∨ word.bind leafComplaint? = some complaint := by
  cases word with
  | none =>
      cases p <;> cases said <;> exact Or.inl rfl
  | some word =>
      rw [complaint?] at said
      cases p with
      | outside =>
          rw [wordComplaint?] at said
          split at said
          · cases said
            exact Or.inl rfl
          · exact Or.inr said
      | opened outer =>
          rw [wordComplaint?] at said
          split at said <;> cases said
          exact Or.inl rfl
      | within inner outer =>
          by_cases closes : word = ")"
          · subst closes
            left
            cases arity : inner.op.arity with
            | exactly count =>
                rw [wordComplaint?_closing_exactly outer arity] at said
                split at said <;> cases said
                rename_i room
                rw [wanted, if_pos room]
            | variadic =>
                rw [wordComplaint?_closing_variadic outer arity] at said
                split at said <;> cases said
                have room : inner.hasRoom = true := by simp [Pending.hasRoom, arity]
                rw [wanted, if_pos room]
          · cases room : inner.hasRoom with
            | true =>
                rw [wordComplaint?_of_room outer room closes] at said
                exact Or.inr said
            | false =>
                rw [wordComplaint?_of_full outer room closes] at said
                cases said
                simp [wanted, room]
      | finished =>
          cases said
          exact Or.inl rfl

end Place

namespace Parser

def Frame.pending (frame : Frame) : Pending := ⟨frame.op, frame.args.length⟩

@[simp] theorem Frame.pending_complete (frame : Frame) :
    frame.pending.complete = frame.args.length := rfl

theorem Frame.hasRoom_pending (frame : Frame) : frame.pending.hasRoom = frame.hasRoom := rfl

theorem isLeaf_of_leaf {word : String} {position : Nat} {e : Expr}
    (read : leaf word position = .ok e) : IsLeaf word := by
  unfold leaf at read
  rw [← isLeaf_iff]
  cases parts : integerParts? word with
  | some signed => rfl
  | none =>
      cases named : Variable.ofName? word with
      | some v => rfl
      | none => simp [parts, named] at read

theorem not_isLeaf_of_leaf {word : String} {position : Nat} {fault : Fault}
    (refused : leaf word position = .error (.malformed fault)) :
    ¬ IsLeaf word ∧ fault.cause = .illegalVariable word := by
  unfold leaf at refused
  rw [← isLeaf_iff]
  cases parts : integerParts? word with
  | some signed =>
      simp only [parts] at refused
      split at refused <;> cases refused
  | none =>
      cases named : Variable.ofName? word with
      | some v => simp [parts, named] at refused
      | none =>
          simp only [parts, named, Except.error.injEq, Rejection.malformed.injEq] at refused
          rw [← refused]
          exact ⟨by simp, rfl⟩

namespace State

/-- Where a state of the machine stands. -/
def place : State → Place
  | .start => .outside
  | .opened outer => .opened (outer.map Frame.pending)
  | .within frame outer => .within frame.pending (outer.map Frame.pending)
  | .complete _ => .finished

theorem place_resume (e : Expr) (outer : List Frame) :
    (resume e outer).place = .resume (outer.map Frame.pending) := by
  cases outer with
  | nil => rfl
  | cons frame outer =>
      simp [resume, place, Place.resume, Frame.pending]

theorem text_wanted (s : State) : s.wanted.text = s.place.wanted := by
  cases s with
  | within frame outer =>
      rw [wanted, place, Place.wanted, frame.hasRoom_pending]
      split <;> rfl
  | _ => rfl

/-- A word that begins an expression is an opening parenthesis or a leaf. -/
theorem leafComplaint?_of_begin {token : Token} {outer : List Frame} {next : State}
    (moved : begin token outer = .ok next) :
    leafComplaint? token.text = none ∧ next.place =
      if token.text = "(" then .opened (outer.map Frame.pending)
      else .resume (outer.map Frame.pending) := by
  unfold begin at moved
  split at moved
  · rename_i opens
    cases moved
    exact ⟨if_pos (Or.inl opens), (if_pos opens).symm⟩
  · rename_i other
    split at moved
    · rename_i e read
      cases moved
      refine ⟨if_pos (Or.inr (isLeaf_of_leaf read)), ?_⟩
      rw [place_resume]
      exact (if_neg other).symm
    · cases moved

theorem leafComplaint?_of_begin_error {token : Token} {outer : List Frame} {fault : Fault}
    (refused : begin token outer = .error (.malformed fault)) :
    leafComplaint? token.text = some fault.cause.complaint := by
  unfold begin at refused
  split at refused
  · cases refused
  · rename_i other
    split at refused
    · cases refused
    · rename_i rejection read
      cases refused
      obtain ⟨foreign, cause⟩ := not_isLeaf_of_leaf read
      have nothing : ¬ (token.text = "(" ∨ IsLeaf token.text) := not_or.mpr ⟨other, foreign⟩
      rw [leafComplaint?, if_neg nothing, cause]
      rfl

/-- A closing parenthesis that is admitted completes an expression. -/
theorem wordComplaint?_of_finishFrame {token : Token} {frame : Frame} {outer : List Frame}
    {next : State} (around : List Pending) (moved : finishFrame token frame outer = .ok next) :
    (Place.within frame.pending around).wordComplaint? ")" = none ∧
      next.place = .resume (outer.map Frame.pending) := by
  unfold finishFrame at moved
  split at moved
  · rename_i count arity
    split at moved
    · cases moved
    · rename_i full
      cases moved
      rw [Place.wordComplaint?_closing_exactly around arity, frame.hasRoom_pending, if_neg full]
      exact ⟨rfl, place_resume _ outer⟩
  · rename_i arity
    split at moved
    · cases moved
    · rename_i nonempty
      cases moved
      have positive : ¬ frame.pending.complete = 0 := by simpa using nonempty
      rw [Place.wordComplaint?_closing_variadic around arity, if_neg positive]
      exact ⟨rfl, place_resume _ outer⟩

theorem wordComplaint?_of_finishFrame_error {token : Token} {frame : Frame} {outer : List Frame}
    {fault : Fault} (around : List Pending)
    (refused : finishFrame token frame outer = .error (.malformed fault)) :
    (Place.within frame.pending around).wordComplaint? ")" = some fault.cause.complaint := by
  unfold finishFrame at refused
  split at refused
  · rename_i count arity
    split at refused
    · rename_i room
      cases refused
      rw [Place.wordComplaint?_closing_exactly around arity, frame.hasRoom_pending, if_pos room]
      rfl
    · cases refused
  · rename_i arity
    split at refused
    · rename_i empty
      cases refused
      have nothing : frame.args = [] := by simpa using empty
      have first : frame.pending.argument = (Expectation.argument 1 frame.op.symbol).text := by
        rw [Pending.argument, Frame.pending, nothing]
        rfl
      rw [Place.wordComplaint?_closing_variadic around arity, first, Frame.pending_complete,
        nothing]
      rfl
    · cases refused

/-- Nothing is to be said against a word that is read, and the places go with the states. -/
theorem wordComplaint?_of_step {s next : State} {token : Token}
    (moved : s.step token = .ok next) :
    s.place.wordComplaint? token.text = none ∧ next.place = s.place.read token.text := by
  cases s with
  | start =>
      simp only [step] at moved
      split at moved
      · cases moved
      · rename_i other
        obtain ⟨quiet, there⟩ := leafComplaint?_of_begin moved
        exact ⟨(if_neg other).trans quiet, there⟩
  | opened outer =>
      simp only [step] at moved
      split at moved
      · rename_i op found
        cases moved
        simp [place, Place.wordComplaint?, Place.read, found, Frame.pending]
      · cases moved
  | within frame outer =>
      simp only [step] at moved
      rw [place, Place.read]
      split at moved
      · rename_i closes
        have same : token.text = ")" := closes
        rw [if_pos same, same]
        exact wordComplaint?_of_finishFrame _ moved
      · rename_i notClosing
        have other : token.text ≠ ")" := notClosing
        split at moved
        · rename_i room
          obtain ⟨quiet, there⟩ := leafComplaint?_of_begin moved
          rw [if_neg other, Place.wordComplaint?_of_room _ (frame.hasRoom_pending.trans room) other]
          exact ⟨quiet, there⟩
        · cases moved
  | complete e => cases moved

/-- What is to be said against a word is the cause for which it is refused. -/
theorem wordComplaint?_of_step_error {s : State} {token : Token} {fault : Fault}
    (refused : s.step token = .error (.malformed fault)) :
    s.place.wordComplaint? token.text = some fault.cause.complaint := by
  cases s with
  | start =>
      simp only [step] at refused
      split at refused
      · rename_i closes
        cases refused
        exact if_pos closes
      · rename_i other
        exact (if_neg other).trans (leafComplaint?_of_begin_error refused)
  | opened outer =>
      simp only [step] at refused
      split at refused
      · cases refused
      · rename_i unknown
        cases refused
        simp only [place, Place.wordComplaint?, unknown]
        rfl
  | within frame outer =>
      simp only [step] at refused
      rw [place]
      split at refused
      · rename_i closes
        have same : token.text = ")" := closes
        rw [same]
        exact wordComplaint?_of_finishFrame_error _ refused
      · rename_i notClosing
        have other : token.text ≠ ")" := notClosing
        split at refused
        · rename_i room
          rw [Place.wordComplaint?_of_room _ (frame.hasRoom_pending.trans room) other]
          exact leafComplaint?_of_begin_error refused
        · rename_i full
          cases refused
          have none_ : frame.pending.hasRoom = false := by
            rwa [frame.hasRoom_pending, Bool.eq_false_iff]
          rw [Place.wordComplaint?_of_full _ none_ other]
          rfl
  | complete e =>
      cases refused
      rfl

theorem endComplaint?_of_finish {stop : Nat} {s : State} {e : Expr}
    (finished : s.finish stop = .ok e) : s.place.endComplaint? = none := by
  cases s <;> cases finished
  rfl

/-- What is wanted at the end of a malformed text is what the state wants. -/
theorem endComplaint?_of_finish_error {stop : Nat} {s : State} {fault : Fault}
    (ended : s.finish stop = .error (.malformed fault)) :
    s.place.endComplaint? = some fault.cause.complaint ∧
      fault.cause.found = "" ∧ fault.position = stop := by
  have cause : ∀ s : State, (Cause.endOfInput s.wanted).complaint =
      ⟨.unexpectedEnd, "Unexpected end of input", [s.place.wanted]⟩ := by
    intro s
    rw [← s.text_wanted]
    rfl
  cases s with
  | complete e => cases ended
  | _ =>
      cases ended
      exact ⟨congrArg some (cause _).symm, rfl, rfl⟩

end State

/-- The fault is about the word behind so many others, or else about the end of the text. -/
def IsAbout (fault : Fault) (stop : Nat) : Option Token → Prop
  | some token => (Rejection.malformed fault).Blames token
  | none => fault.cause.found = "" ∧ fault.position = stop

/-- On its way through the places a text first meets the complaint that it is refused for. -/
theorem State.complaintAt?_of_outcome_error {stop : Nat} {s : State} {tokens : List Token}
    {fault : Fault} (refused : s.outcome stop tokens = .error (.malformed fault)) :
    ∃ count, s.place.complaintAt? (tokens.map (·.text)) count = some fault.cause.complaint ∧
      IsAbout fault stop tokens[count]? ∧
      ∀ earlier < count, s.place.complaintAt? (tokens.map (·.text)) earlier = none := by
  induction tokens generalizing s with
  | nil =>
      rw [outcome_nil] at refused
      obtain ⟨said, about⟩ := endComplaint?_of_finish_error refused
      exact ⟨0, said, about, by simp⟩
  | cons token tokens ih =>
      rw [outcome_cons] at refused
      rw [List.map_cons]
      cases moved : s.step token with
      | error rejection =>
          rw [moved] at refused
          cases refused
          exact ⟨0, wordComplaint?_of_step_error moved, (blames_of_step_error moved).1, by simp⟩
      | ok next =>
          rw [moved] at refused
          obtain ⟨quiet, there⟩ := wordComplaint?_of_step moved
          obtain ⟨count, said, about, before⟩ := ih refused
          rw [there] at said before
          refine ⟨count + 1, said, about, ?_⟩
          intro earlier less
          cases earlier with
          | zero => exact quiet
          | succ earlier => exact before earlier (by omega)

theorem State.complaintAt?_of_outcome_ok {stop : Nat} {s : State} {tokens : List Token}
    {e : Expr} (accepted : s.outcome stop tokens = .ok e) (count : Nat) :
    s.place.complaintAt? (tokens.map (·.text)) count = none := by
  induction tokens generalizing s count with
  | nil =>
      rw [outcome_nil] at accepted
      rw [List.map_nil, Place.complaintAt?, List.take_nil, List.getElem?_nil]
      exact endComplaint?_of_finish accepted
  | cons token tokens ih =>
      rw [outcome_cons] at accepted
      rw [List.map_cons]
      cases moved : s.step token with
      | error rejection =>
          rw [moved] at accepted
          cases accepted
      | ok next =>
          rw [moved] at accepted
          obtain ⟨quiet, there⟩ := wordComplaint?_of_step moved
          cases count with
          | zero => exact quiet
          | succ count =>
              rw [Place.complaintAt?_cons_succ, ← there]
              exact ih accepted count

/-- A malformed text is refused for the first complaint on its way through the places, and the
fault is about the word complained of; against a text that is accepted there is no complaint. What
a complaint expects is what its place wants, unless the word could begin an expression there and
has no meaning. -/
theorem malformed_for_first_complaint :
    (∀ text fault, parse text = .error (.malformed fault) →
      ∃ count,
        Place.outside.complaintAt? (Reader.ofText text).words count =
          some fault.cause.complaint ∧
        IsAbout fault text.length (Token.ofText text)[count]? ∧
        ∀ earlier < count, Place.outside.complaintAt? (Reader.ofText text).words earlier = none) ∧
    (∀ text e, parse text = .ok e →
      ∀ count, Place.outside.complaintAt? (Reader.ofText text).words count = none) ∧
    ∀ p word complaint, Place.complaint? p word = some complaint →
      complaint.expected = [p.wanted] ∨ word.bind leafComplaint? = some complaint := by
  refine ⟨?_, ?_, fun p word complaint => Place.expected_of_complaint?⟩
  · intro text fault refused
    rw [parse_eq_outcome] at refused
    rw [Reader.words_ofText]
    exact State.complaintAt?_of_outcome_error refused
  · intro text e accepted
    rw [parse_eq_outcome] at accepted
    rw [Reader.words_ofText]
    exact State.complaintAt?_of_outcome_ok accepted

/-- A mean without arguments inside a sum that lacks one: the inner parenthesis counts. -/
theorem malformed_for_first_complaint_nested :
    parse "(+ (harm-mean) x" = .error (.malformed ⟨.noArguments "harm-mean", 14⟩) ∧
      ∃ count, Place.outside.complaintAt? (Reader.ofText "(+ (harm-mean) x").words count =
        some ⟨.arityMismatch, "Operation harm-mean needs at least one argument",
          ["argument 1 of harm-mean"]⟩ := by
  have tokens : Token.ofText "(+ (harm-mean) x" =
      [⟨"(", 0, 1⟩, ⟨"+", 1, 2⟩, ⟨"(", 3, 4⟩, ⟨"harm-mean", 4, 13⟩, ⟨")", 13, 14⟩,
        ⟨"x", 15, 16⟩] := by decide +kernel
  have refused : parse "(+ (harm-mean) x" =
      .error (.malformed ⟨.noArguments "harm-mean", 14⟩) := by
    rw [parse_eq_outcome, tokens]
    rfl
  obtain ⟨count, said, _⟩ := malformed_for_first_complaint.1 _ _ refused
  exact ⟨refused, count, said⟩

/-- What is expected is not always what the place wants: in front of the word `w` nothing is read
and an expression is wanted, but the kinds of leaves are what is expected. -/
theorem expected_not_wanted_at_unknown_word :
    ¬ ∀ text fault count, parse text = .error (.malformed fault) →
      IsAbout fault text.length (Token.ofText text)[count]? →
      fault.cause.expected =
        [(Place.outside.behind ((Reader.ofText text).words.take count)).wanted] := by
  intro always
  have tokens : Token.ofText "w" = [⟨"w", 0, 1⟩] := by decide +kernel
  have refused : parse "w" = .error (.malformed ⟨.illegalVariable "w", 1⟩) := by
    rw [parse_eq_outcome, tokens]
    rfl
  have about : IsAbout ⟨.illegalVariable "w", 1⟩ "w".length (Token.ofText "w")[0]? := by
    rw [tokens]
    exact ⟨rfl, rfl⟩
  have expected := always "w" _ 0 refused about
  rw [List.take_zero] at expected
  exact absurd expected (by decide)

end Parser

end Polish
