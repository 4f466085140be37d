import Polish.Expr.Building
import Polish.Proofs.Parsing.Machine
import Polish.Proofs.Parsing.Spelling

set_option autoImplicit false

namespace Polish.Parser

/-- Whether an expression may stand inside these frames. -/
def HasRoom (outer : List Frame) : Prop := ∀ frame ∈ outer.head?, frame.hasRoom = true

/-- The words begin the applications of these frames and all arguments that the frames hold. -/
inductive Opens : List String → List Frame → Prop where
  | none : Opens [] []
  | frame {before : List String} {outer : List Frame} (op : Operator)
      (parts : List (List String × Expr)) (around : Opens before outer) (room : HasRoom outer)
      (known : Operator.ofSymbol? op.symbol = some op)
      (fits : op.arity.Allows parts.length) (spelled : ∀ part ∈ parts, Spells part.1 part.2) :
      Opens (before ++ Token.opening :: op.symbol :: parts.flatMap (·.1))
        (⟨op, parts.map (·.2)⟩ :: outer)

/-- The words lead from the start of a text to the state. -/
inductive Reached : List String → State → Prop where
  | start : Reached [] .start
  | opened {words : List String} {outer : List Frame} (around : Opens words outer)
      (room : HasRoom outer) : Reached (words ++ [Token.opening]) (.opened outer)
  | within {words : List String} {frame : Frame} {outer : List Frame}
      (open_ : Opens words (frame :: outer)) : Reached words (.within frame outer)
  | complete {words : List String} {e : Expr} (spelled : Spells words e) :
      Reached words (.complete e)

theorem hasRoom_nil : HasRoom [] := by
  intro frame member
  cases member

theorem hasRoom_cons {frame : Frame} (outer : List Frame) (room : frame.hasRoom = true) :
    HasRoom (frame :: outer) := by
  intro other member
  cases member
  exact room

/-- An operator behind a parenthesis begins a frame. -/
theorem Opens.begin {before : List String} {outer : List Frame} (around : Opens before outer)
    (room : HasRoom outer) {symbol : String} {op : Operator}
    (found : Operator.ofSymbol? symbol = some op) :
    Opens (before ++ [Token.opening] ++ [symbol]) (⟨op, []⟩ :: outer) := by
  obtain rfl := Operator.symbol_of_ofSymbol? found
  simpa using Opens.frame op [] around room found (Operator.allows_zero found) (by simp)

/-- An argument goes into the innermost frame. -/
theorem Opens.push {before words : List String} {frame : Frame} {outer : List Frame} {e : Expr}
    (around : Opens before (frame :: outer)) (room : frame.hasRoom = true)
    (spelled : Spells words e) : Opens (before ++ words) (frame.push e :: outer) := by
  cases around with
  | @frame before outer op parts around' room' known fits spelled' =>
      have longer : op.arity.Allows (parts ++ [(words, e)]).length := by
        simpa using (Frame.hasRoom_iff _).mp room
      have all : ∀ part ∈ parts ++ [(words, e)], Spells part.1 part.2 := by
        intro part member
        rcases List.mem_append.mp member with inside | last
        · exact spelled' part inside
        · rw [List.mem_singleton] at last
          rw [last]
          exact spelled
      have grown := Opens.frame op (parts ++ [(words, e)]) around' room' known longer all
      simp only [List.flatMap_append, List.flatMap_cons, List.flatMap_nil, List.append_nil,
        List.map_append, List.map_cons, List.map_nil] at grown
      simpa only [Frame.push, List.append_assoc, List.cons_append] using grown

theorem Reached.resume {before words : List String} {outer : List Frame} {e : Expr}
    (around : Opens before outer) (room : HasRoom outer) (spelled : Spells words e) :
    Reached (before ++ words) (State.resume e outer) := by
  cases outer with
  | nil =>
      cases around
      exact .complete spelled
  | cons frame outer => exact .within (around.push (room frame rfl) spelled)

theorem Reached.begin {before : List String} {outer : List Frame} {token : Token} {next : State}
    (around : Opens before outer) (room : HasRoom outer)
    (moved : State.begin token outer = .ok next) : Reached (before ++ [token.text]) next := by
  unfold State.begin at moved
  split at moved
  · rename_i opens
    cases moved
    rw [opens]
    exact .opened around room
  · rcases leaf_cases token.text token.stop with
      ⟨e, spelled, read⟩ | ⟨negative, digits, shape, long, read⟩ | ⟨_, _, read⟩
    · rw [read] at moved
      cases moved
      exact .resume around room spelled
    · rw [read] at moved
      cases moved
    · rw [read] at moved
      cases moved

/-- A closing parenthesis that is admitted ends a spelled application. -/
theorem Reached.finishFrame {words : List String} {frame : Frame} {outer : List Frame}
    {token : Token} {next : State} (open_ : Opens words (frame :: outer))
    (closes : token.text = Token.closing)
    (moved : State.finishFrame token frame outer = .ok next) :
    Reached (words ++ [token.text]) next := by
  cases open_ with
  | @frame before outer op parts around room known fits spelled =>
      have finished : op.arity.accepts parts.length = true ∧
          next = State.resume (.apply op (parts.map (·.2))) outer := by
        unfold State.finishFrame at moved
        cases arity : op.arity with
        | exactly count =>
            simp only [arity] at moved
            split at moved
            · cases moved
            · rename_i full
              cases moved
              have atMost := fits count arity
              have atLeast : ¬ (parts.length : Int) < count := by
                simpa [Frame.hasRoom, arity] using full
              refine ⟨?_, rfl⟩
              simp only [Arity.accepts, beq_iff_eq]
              omega
        | variadic =>
            simp only [arity] at moved
            split at moved
            · cases moved
            · rename_i some_
              cases moved
              refine ⟨?_, rfl⟩
              cases parts with
              | nil => simp at some_
              | cons part parts =>
                  simp only [Arity.accepts, List.length_cons, decide_eq_true_eq]
                  omega
      obtain ⟨accepted, rfl⟩ := finished
      have whole := Reached.resume around room (.application op parts known accepted spelled)
      simpa only [closes, List.append_assoc, List.cons_append] using whole

theorem Reached.spells {words : List String} {e : Expr} (reached : Reached words (.complete e)) :
    Spells words e := by
  cases reached with
  | complete spelled => exact spelled

/-- One token keeps the invariant. -/
theorem Reached.step {words : List String} {s next : State} {token : Token}
    (reached : Reached words s) (moved : s.step token = .ok next) :
    Reached (words ++ [token.text]) next := by
  unfold State.step at moved
  cases reached with
  | start =>
      simp only at moved
      split at moved
      · cases moved
      · exact .begin .none hasRoom_nil moved
  | opened around room =>
      simp only at moved
      split at moved
      · rename_i op found
        cases moved
        exact .within (around.begin room found)
      · cases moved
  | within open_ =>
      simp only at moved
      split at moved
      · exact .finishFrame open_ ‹_› moved
      · split at moved
        · exact .begin open_ (hasRoom_cons _ ‹_›) moved
        · cases moved
  | complete spelled => cases moved

/-- Every state of a run is spelled by the words read so far. -/
theorem Reached.run {words : List String} {s last : State} {tokens : List Token}
    (reached : Reached words s) (moved : s.run tokens = .ok last) :
    Reached (words ++ tokens.map (·.text)) last := by
  induction tokens generalizing words s with
  | nil =>
      cases moved
      simpa using reached
  | cons token tokens ih =>
      cases first : s.step token with
      | error rejection =>
          rw [State.run_cons_of_error _ first] at moved
          cases moved
      | ok next =>
          rw [State.run_cons_of_ok _ first] at moved
          simpa using ih (reached.step first) moved

namespace State

theorem step_enter {outer : List Frame} {token : Token} (room : HasRoom outer)
    (notClosing : token.text ≠ Token.closing) : (enter outer).step token = begin token outer := by
  cases outer with
  | nil => simp only [enter, step, notClosing, ↓reduceIte]
  | cons frame outer =>
      have more : frame.hasRoom = true := room frame rfl
      simp only [enter, step, notClosing, more, ↓reduceIte]

theorem begin_of_opening {token : Token} (outer : List Frame)
    (opens : token.text = Token.opening) : begin token outer = .ok (.opened outer) := by
  simp only [begin, opens, ↓reduceIte]

theorem begin_of_leaf {token : Token} {e : Expr} (outer : List Frame)
    (notOpening : token.text ≠ Token.opening) (read : leaf token.text token.stop = .ok e) :
    begin token outer = .ok (resume e outer) := by
  simp only [begin, notOpening, read, ↓reduceIte]

theorem step_closing (frame : Frame) (outer : List Frame) {token : Token}
    (closes : token.text = Token.closing)
    (accepted : frame.op.arity.accepts frame.args.length = true) :
    (State.within frame outer).step token = .ok (resume frame.close outer) := by
  simp only [step, closes, ↓reduceIte, finishFrame]
  cases arity : frame.op.arity with
  | exactly count =>
      have full : frame.hasRoom = false := by
        rw [arity] at accepted
        simp only [Arity.accepts, beq_iff_eq] at accepted
        simp [Frame.hasRoom, arity, accepted]
      simp only [full, Bool.false_eq_true, ↓reduceIte]
  | variadic =>
      have nonempty : frame.args.isEmpty = false := by
        rw [arity] at accepted
        cases args : frame.args with
        | nil => simp [args, Arity.accepts] at accepted
        | cons e es => rfl
      simp only [nonempty, Bool.false_eq_true, ↓reduceIte]

end State

/-- A leaf is one step of the machine wherever an expression may begin. -/
theorem State.run_leaf {outer : List Frame} {word : String} {e : Expr} {tokens : List Token}
    (room : HasRoom outer) (glued : Token.Glued word.toList)
    (read : ∀ position, leaf word position = .ok e) (texts : tokens.map (·.text) = [word]) :
    (State.enter outer).run tokens = .ok (State.resume e outer) := by
  obtain ⟨token, rest, rfl, same, nothing⟩ := List.map_eq_cons_iff.mp texts
  obtain rfl := List.map_eq_nil_iff.mp nothing
  subst same
  obtain ⟨notOpening, notClosing⟩ := ne_parenthesis_of_glued glued
  have moved : (State.enter outer).step token = .ok (State.resume e outer) := by
    rw [State.step_enter room notClosing]
    exact State.begin_of_leaf outer notOpening (read token.stop)
  rw [State.run_cons_of_ok [] moved, State.run_nil]

/-- A parenthesis and an operator open a frame. -/
theorem State.run_front {op : Operator} (known : Operator.ofSymbol? op.symbol = some op)
    {outer : List Frame} (room : HasRoom outer) {opening symbol : Token}
    (opens : opening.text = Token.opening) (named : symbol.text = op.symbol)
    (rest : List Token) :
    (State.enter outer).run (opening :: symbol :: rest) =
      (State.within ⟨op, []⟩ outer).run rest := by
  have notClosing : opening.text ≠ Token.closing := by
    rw [opens]
    decide
  have first : (State.enter outer).step opening = .ok (.opened outer) := by
    rw [State.step_enter room notClosing, State.begin_of_opening outer opens]
  have second : (State.opened outer).step symbol = .ok (.within ⟨op, []⟩ outer) := by
    simp only [State.step, named, known]
  rw [State.run_cons_of_ok _ first, State.run_cons_of_ok _ second]

/-- Arguments that the machine reads one by one all go into the frame. -/
theorem State.run_arguments (parts : List (List String × Expr))
    (each : ∀ part ∈ parts, ∀ outer tokens, HasRoom outer → tokens.map (·.text) = part.1 →
      (State.enter outer).run tokens = .ok (State.resume part.2 outer))
    (frame : Frame) (outer : List Frame) (tokens : List Token)
    (texts : tokens.map (·.text) = parts.flatMap (·.1))
    (fits : frame.op.arity.Allows (frame.args.length + parts.length)) :
    (State.within frame outer).run tokens =
      .ok (.within { frame with args := frame.args ++ parts.map (·.2) } outer) := by
  induction parts generalizing frame tokens with
  | nil =>
      obtain rfl := List.map_eq_nil_iff.mp texts
      simp
  | cons part parts ih =>
      obtain ⟨first, rest, rfl, here, there⟩ := List.map_eq_append_iff.mp texts
      obtain ⟨room, fewer⟩ := Frame.room_of_allows fits part.2
      have one := each part (by simp) (frame :: outer) first (hasRoom_cons outer room) here
      have more := ih (fun part member => each part (List.mem_cons_of_mem _ member))
        (frame.push part.2) rest there fewer
      rw [State.enter] at one
      rw [State.run_append_of_ok rest one, State.resume, more]
      simp [Frame.push]

/-- Wherever an expression may begin, the machine reads the words of a tree as this tree. -/
theorem State.run_spelled {words : List String} {e : Expr} (spelled : Spells words e) :
    ∀ outer tokens, HasRoom outer → tokens.map (·.text) = words →
      (State.enter outer).run tokens = .ok (State.resume e outer) := by
  induction spelled with
  | integer shape short =>
      intro outer tokens room texts
      refine State.run_leaf room (glued_of_isInteger shape).1 ?_ texts
      intro position
      rw [leaf_of_isInteger shape, if_neg (by omega)]
  | named v =>
      intro outer tokens room texts
      exact State.run_leaf room (glued_name v).1 (leaf_name v) texts
  | application op parts known accepted spelled ih =>
      intro outer tokens room texts
      obtain ⟨opening, rest, rfl, opens, texts⟩ := List.map_eq_cons_iff.mp texts
      obtain ⟨symbol, rest, rfl, named, texts⟩ := List.map_eq_cons_iff.mp texts
      obtain ⟨middle, last, rfl, inside, texts⟩ := List.map_eq_append_iff.mp texts
      obtain ⟨closing, rest, rfl, closes, nothing⟩ := List.map_eq_cons_iff.mp texts
      obtain rfl := List.map_eq_nil_iff.mp nothing
      have fits : op.arity.Allows (([] : List Expr).length + parts.length) := by
        simpa using Arity.allows_of_accepts accepted
      have third := State.run_arguments parts ih ⟨op, []⟩ outer middle inside fits
      have fourth := State.step_closing ⟨op, parts.map (·.2)⟩ outer closes
        (by simpa only [List.length_map] using accepted)
      rw [State.run_front known room opens named, State.run_append_of_ok _ third, List.nil_append,
        State.run_cons_of_ok [] fourth, State.run_nil]
      rfl

theorem State.run_eq_complete_iff (tokens : List Token) (e : Expr) :
    State.start.run tokens = .ok (.complete e) ↔ Spells (tokens.map (·.text)) e := by
  constructor
  · intro finished
    exact (Reached.run .start finished).spells
  · intro spelled
    exact State.run_spelled spelled [] tokens hasRoom_nil rfl

theorem State.outcome_eq_ok_iff (stop : Nat) (tokens : List Token) (e : Expr) :
    State.start.outcome stop tokens = .ok e ↔ Spells (tokens.map (·.text)) e := by
  rw [← State.run_eq_complete_iff, State.outcome]
  cases State.start.run tokens with
  | error rejection => simp
  | ok last => cases last <;> simp [State.finish]

theorem parse_eq_ok_iff (text : String) (e : Expr) :
    parse text = .ok e ↔ Spells (Reader.ofText text).words e := by
  rw [parse_eq_outcome, State.outcome_eq_ok_iff, Reader.words_ofText]

theorem exists_tokens (words : List String) :
    ∃ tokens : List Token, tokens.map (·.text) = words :=
  ⟨words.map fun word => ⟨word, 0, 0⟩, by simp [Function.comp_def]⟩

/-- No words spell two trees: the machine that reads them is a function. -/
theorem spells_unique {words : List String} {a b : Expr} (left : Spells words a)
    (right : Spells words b) : a = b := by
  obtain ⟨tokens, texts⟩ := exists_tokens words
  have first := State.run_spelled left [] _ hasRoom_nil texts
  have second := State.run_spelled right [] _ hasRoom_nil texts
  rw [first] at second
  simpa [State.resume] using second

/-- As many arguments are read as are missing. -/
theorem length_of_fixed {stop number missing : Nat} {symbol : String} {tokens : List Token}
    {args : List Expr} {left : { left : List Token // left.length ≤ tokens.length }}
    (read : fixed stop symbol number missing tokens = .ok (args, left)) :
    args.length = missing := by
  induction missing generalizing number tokens args with
  | zero =>
      rw [fixed] at read
      split at read
      · cases read
      · cases read
        rfl
  | succ missing ih =>
      rw [fixed] at read
      split at read
      · cases read
      · split at read
        · cases read
        · split at read
          · cases read
          · rename_i more
            cases read
            rw [List.length_cons, ih more]

/-- The first place of an open list takes an argument. -/
theorem ne_nil_of_variadic {stop : Nat} {symbol : String} {tokens : List Token}
    {args : List Expr} {left : { left : List Token // left.length ≤ tokens.length }}
    (read : variadic stop symbol 1 tokens = .ok (args, left)) : args ≠ [] := by
  rw [variadic] at read
  split at read
  · cases read
  · split at read
    · cases read
    · split at read
      · cases read
      · split at read
        · cases read
        · cases read
          exact List.cons_ne_nil _ _

/-- Whatever arguments are read for a registered operator, it takes that many. -/
theorem accepts_of_arguments {stop : Nat} {symbol : String} {op : Operator}
    {tokens : List Token} {args : List Expr}
    {left : { left : List Token // left.length ≤ tokens.length }}
    (known : Operator.ofSymbol? symbol = some op)
    (read : arguments stop op tokens = .ok (args, left)) :
    op.arity.accepts args.length = true := by
  rcases Operator.arity_of_ofSymbol? known with arity | ⟨count, arity⟩
  · rw [arguments_of_variadic stop tokens arity] at read
    obtain ⟨e, es, rfl⟩ := List.exists_cons_of_ne_nil (ne_nil_of_variadic read)
    simp only [arity, Arity.accepts, List.length_cons, decide_eq_true_eq]
    omega
  · rw [arguments_of_exactly stop tokens arity] at read
    simp [arity, Arity.accepts, length_of_fixed read]

theorem known_of_next {stop : Nat} {token : Token} {tokens : List Token}
    {rest : { rest : List Token // rest.length < tokens.length }}
    (admitted : next stop .operation false tokens = .ok (token, rest)) :
    ∃ op, Operator.ofSymbol? token.text = some op := by
  cases tokens with
  | nil => cases admitted
  | cons first tokens =>
      rw [next_cons, objection?_operation] at admitted
      cases known : Operator.ofSymbol? first.text with
      | none => simp [known] at admitted
      | some op =>
          simp only [known, reduceCtorEq, ↓reduceIte, Except.ok.injEq, Prod.mk.injEq] at admitted
          exact ⟨op, admitted.1 ▸ known⟩

/-- A text is accepted with a tree exactly when its words spell the tree. So words spell at most
one tree, and an accepted tree is well formed. Where the parser looks up an operator it finds one,
also in a text that is refused later, and the operator takes the arguments that are read for it. -/
theorem parse_iff_spells :
    (∀ text e, parse text = .ok e ↔ Spells (Reader.ofText text).words e) ∧
    (∀ words a b, Spells words a → Spells words b → a = b) ∧
    (∀ text e, parse text = .ok e → e.WellFormed) ∧
    ∀ stop tokens token rest, next stop .operation false tokens = .ok (token, rest) →
      ∃ op, Operator.ofSymbol? token.text = some op ∧
        ∀ args left, arguments stop op rest.1 = .ok (args, left) →
          Expr.call op args = .ok (.apply op args) := by
  refine ⟨parse_eq_ok_iff, fun words a b => spells_unique, ?_, ?_⟩
  · intro text e accepted
    exact ((parse_eq_ok_iff text e).mp accepted).wellFormed
  · intro stop tokens token rest admitted
    obtain ⟨op, known⟩ := known_of_next admitted
    refine ⟨op, known, ?_⟩
    intro args left read
    rw [Expr.call, if_pos (accepts_of_arguments known read)]

/-- A text with two open parentheses, a negative integer and a word before a parenthesis. -/
theorem parse_iff_spells_nested :
    parse "(arith-mean (- x\t-07)z)" =
      .ok (.apply ⟨"arith-mean", .variadic, .arithmeticMean⟩
        [.apply ⟨"-", .exactly 2, .subtract⟩ [.var .x, .const (.integer (-7))], .var .z]) := by
  have words : (Reader.ofText "(arith-mean (- x\t-07)z)").words =
      ["(", "arith-mean", "(", "-", "x", "-07", ")", "z", ")"] := by
    rw [Reader.words_ofText]
    decide +kernel
  have shape : IsInteger "-07" true ['0', '7'] :=
    ⟨by decide, List.all_eq_true.mp (by decide), by decide⟩
  have inner := Spells.application ⟨"-", .exactly 2, .subtract⟩
    [(["x"], .var .x), (["-07"], .const (.integer (-7)))] rfl (by decide) (by
      simp only [List.forall_mem_cons, List.not_mem_nil, false_implies, implies_true, and_true]
      exact ⟨.named .x, .integer shape (by decide)⟩)
  have outer := Spells.application ⟨"arith-mean", .variadic, .arithmeticMean⟩
    [(["(", "-", "x", "-07", ")"], .apply ⟨"-", .exactly 2, .subtract⟩
      [.var .x, .const (.integer (-7))]), (["z"], .var .z)] rfl (by decide) (by
      simp only [List.forall_mem_cons, List.not_mem_nil, false_implies, implies_true, and_true]
      exact ⟨inner, .named .z⟩)
  exact (parse_iff_spells.1 _ _).mpr (words ▸ outer)

end Polish.Parser
