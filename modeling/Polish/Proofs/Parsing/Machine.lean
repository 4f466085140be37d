import Polish.Proofs.Parsing.Steps

/-!
The parser as a machine with an explicit stack. A state says what the innermost open parenthesis
waits for; one token moves it on or is refused. Main statement: the recursive descent and the run
of the machine give the same tree or the same rejection on every list of tokens.
-/

set_option autoImplicit false

namespace Polish

/-- So many arguments are not too many yet. -/
def Arity.Allows (arity : Arity) (given : Nat) : Prop :=
  ∀ count, arity = .exactly count → (given : Int) ≤ count

theorem Arity.Allows.of_le {arity : Arity} {few many : Nat} (allowed : arity.Allows many)
    (less : few ≤ many) : arity.Allows few := by
  intro count exact_
  have atMost := allowed count exact_
  omega

theorem Arity.allows_of_accepts {arity : Arity} {given : Nat}
    (accepted : arity.accepts given = true) : arity.Allows given := by
  intro count exact_
  rw [exact_] at accepted
  simp only [accepts, beq_iff_eq] at accepted
  omega

theorem Operator.allows_zero {symbol : String} {op : Operator}
    (found : ofSymbol? symbol = some op) : op.arity.Allows 0 := by
  intro count exact_
  rcases arity_of_ofSymbol? found with variadic | ⟨size, sized⟩
  · rw [exact_] at variadic
    cases variadic
  · rw [exact_] at sized
    cases sized
    exact Int.natCast_nonneg size

namespace Parser

/-- An application that is not closed yet: its operator and the arguments already complete. -/
structure Frame where
  op : Operator
  args : List Expr

namespace Frame

def hasRoom (frame : Frame) : Bool :=
  match frame.op.arity with
  | .exactly count => (frame.args.length : Int) < count
  | .variadic => true

def nextArgument (frame : Frame) : Expectation :=
  .argument (frame.args.length + 1) frame.op.symbol

def push (frame : Frame) (e : Expr) : Frame := { frame with args := frame.args ++ [e] }

def close (frame : Frame) : Expr := .apply frame.op frame.args

theorem hasRoom_iff (frame : Frame) :
    frame.hasRoom = true ↔ frame.op.arity.Allows (frame.args.length + 1) := by
  unfold hasRoom Arity.Allows
  cases frame.op.arity with
  | exactly count =>
      simp only [decide_eq_true_eq, Arity.exactly.injEq, forall_eq']
      omega
  | variadic => simp

@[simp] theorem push_op (frame : Frame) (e : Expr) : (frame.push e).op = frame.op := rfl

@[simp] theorem push_args (frame : Frame) (e : Expr) :
    (frame.push e).args = frame.args ++ [e] := rfl

/-- Where more arguments are allowed there is room for one, and the others go behind it. -/
theorem room_of_allows {frame : Frame} {more : Nat}
    (allowed : frame.op.arity.Allows (frame.args.length + (more + 1))) (e : Expr) :
    frame.hasRoom = true ∧
      (frame.push e).op.arity.Allows ((frame.push e).args.length + more) := by
  constructor
  · exact frame.hasRoom_iff.mpr (allowed.of_le (by omega))
  · have same : (frame.push e).args.length + more = frame.args.length + (more + 1) := by
      rw [push_args, List.length_append, List.length_singleton]
      omega
    rwa [same]

end Frame

/-- How far a text is read; the frames around the innermost open parenthesis come nearest first. -/
inductive State where
  /-- Nothing is read. -/
  | start
  /-- A parenthesis was just opened. -/
  | opened (outer : List Frame)
  /-- An operator and some arguments are read. -/
  | within (frame : Frame) (outer : List Frame)
  /-- The expression is complete. -/
  | complete (e : Expr)

namespace State

/-- The state in which an argument of the innermost frame is expected. -/
def enter : List Frame → State
  | [] => .start
  | frame :: outer => .within frame outer

/-- The state after an expression inside some frames. -/
def resume (e : Expr) : List Frame → State
  | [] => .complete e
  | frame :: outer => .within (frame.push e) outer

def wanted : State → Expectation
  | .start => .expression
  | .opened _ => .operation
  | .within frame _ => if frame.hasRoom then frame.nextArgument else .closing
  | .complete _ => .label "end of input"

/-- The first token of an expression inside some frames. -/
def begin (token : Token) (outer : List Frame) : Except Rejection State :=
  if token.text = Token.opening then .ok (.opened outer)
  else
    match leaf token.text token.stop with
    | .ok e => .ok (resume e outer)
    | .error rejection => .error rejection

def refuse (token : Token) (cause : Cause) : Except Rejection State :=
  .error (.malformed ⟨cause, token.stop⟩)

/-- A closing parenthesis behind an operator and its arguments. -/
def finishFrame (token : Token) (frame : Frame) (outer : List Frame) : Except Rejection State :=
  match frame.op.arity with
  | .exactly _ =>
      if frame.hasRoom then refuse token (.missingArgument frame.nextArgument)
      else .ok (resume frame.close outer)
  | .variadic =>
      if frame.args.isEmpty then refuse token (.noArguments frame.op.symbol)
      else .ok (resume frame.close outer)

/-- The state after one more token. -/
def step (token : Token) : State → Except Rejection State
  | .start =>
      if token.text = Token.closing then refuse token .illegalToken else begin token []
  | .opened outer =>
      match Operator.ofSymbol? token.text with
      | some op => .ok (.within ⟨op, []⟩ outer)
      | none => refuse token (.unknownOperation token.text)
  | .within frame outer =>
      if token.text = Token.closing then finishFrame token frame outer
      else if frame.hasRoom then begin token (frame :: outer)
      else refuse token (.tooManyArguments token.text)
  | .complete _ => .error (.malformed ⟨.trailing token.text, token.start⟩)

def run (s : State) : List Token → Except Rejection State
  | [] => .ok s
  | token :: tokens =>
      match s.step token with
      | .ok s => s.run tokens
      | .error rejection => .error rejection

def finish (stop : Nat) : State → Except Rejection Expr
  | .complete e => .ok e
  | s => .error (.malformed ⟨.endOfInput s.wanted, stop⟩)

/-- The result of reading some tokens up to the end of the text. -/
def outcome (stop : Nat) (s : State) (tokens : List Token) : Except Rejection Expr :=
  match s.run tokens with
  | .ok s => s.finish stop
  | .error rejection => .error rejection

@[simp] theorem run_nil (s : State) : s.run [] = .ok s := rfl

theorem run_cons_of_ok {s next : State} {token : Token} (tokens : List Token)
    (moved : s.step token = .ok next) : s.run (token :: tokens) = next.run tokens := by
  simp only [run, moved]

theorem run_cons_of_error {s : State} {token : Token} {rejection : Rejection}
    (tokens : List Token) (refused : s.step token = .error rejection) :
    s.run (token :: tokens) = .error rejection := by
  simp only [run, refused]

theorem run_append_of_ok {s next : State} {first : List Token} (second : List Token)
    (reached : s.run first = .ok next) : s.run (first ++ second) = next.run second := by
  induction first generalizing s with
  | nil =>
      cases reached
      rfl
  | cons token first ih =>
      cases moved : s.step token with
      | error rejection =>
          rw [run_cons_of_error _ moved] at reached
          cases reached
      | ok middle =>
          rw [run_cons_of_ok _ moved] at reached
          rw [List.cons_append, run_cons_of_ok _ moved]
          exact ih reached

theorem run_append_of_error {s : State} {first : List Token} {rejection : Rejection}
    (second : List Token) (refused : s.run first = .error rejection) :
    s.run (first ++ second) = .error rejection := by
  induction first generalizing s with
  | nil => cases refused
  | cons token first ih =>
      cases moved : s.step token with
      | error reason =>
          rw [run_cons_of_error _ moved] at refused
          cases refused
          exact run_cons_of_error _ moved
      | ok middle =>
          rw [run_cons_of_ok _ moved] at refused
          rw [List.cons_append, run_cons_of_ok _ moved]
          exact ih refused

/-- A refused run breaks at one token: all before it are read, and it is refused. -/
theorem exists_of_run_error {s : State} {tokens : List Token} {rejection : Rejection}
    (refused : s.run tokens = .error rejection) :
    ∃ before token after middle, tokens = before ++ token :: after ∧
      s.run before = .ok middle ∧ middle.step token = .error rejection := by
  induction tokens generalizing s with
  | nil => cases refused
  | cons token tokens ih =>
      cases moved : s.step token with
      | error reason =>
          rw [run_cons_of_error _ moved] at refused
          cases refused
          exact ⟨[], token, tokens, s, rfl, rfl, moved⟩
      | ok next =>
          rw [run_cons_of_ok _ moved] at refused
          obtain ⟨before, culprit, after, middle, split, reached, broken⟩ := ih refused
          refine ⟨token :: before, culprit, after, middle, ?_, ?_, broken⟩
          · rw [split, List.cons_append]
          · rw [run_cons_of_ok _ moved, reached]

theorem outcome_nil (stop : Nat) (s : State) : s.outcome stop [] = s.finish stop := rfl

theorem outcome_cons (stop : Nat) (s : State) (token : Token) (tokens : List Token) :
    s.outcome stop (token :: tokens) =
      (s.step token).bind fun next => next.outcome stop tokens := by
  unfold outcome
  rw [run]
  cases s.step token <;> rfl

-- The frames around stay general, since an argument is read inside one frame more.
mutual

/-- A token that may begin an expression, and all that the expression takes. -/
theorem outcome_argument (stop : Nat) (token : Token) (tokens : List Token)
    (outer : List Frame) :
    ((begin token outer).bind fun s => s.outcome stop tokens) =
      (argument stop token tokens).andThen fun e left => (resume e outer).outcome stop left := by
  rw [argument_andThen, begin]
  by_cases opens : token.text = Token.opening
  · rw [if_pos opens, if_pos opens]
    exact outcome_operation stop tokens outer
  · rw [if_neg opens, if_neg opens]
    cases leaf token.text token.stop <;> rfl
termination_by (tokens.length, 2)

theorem outcome_operation (stop : Nat) (tokens : List Token) (outer : List Frame) :
    (State.opened outer).outcome stop tokens =
      (operation stop tokens).andThen fun e left => (resume e outer).outcome stop left := by
  cases tokens with
  | nil =>
      rw [operation_nil_andThen]
      rfl
  | cons token tokens =>
      rw [operation_cons_andThen, outcome_cons, step]
      cases known : Operator.ofSymbol? token.text with
      | none => rfl
      | some op =>
          dsimp only
          rcases Operator.arity_of_ofSymbol? known with arity | ⟨count, arity⟩
          · rw [arguments_of_variadic stop tokens arity]
            exact outcome_variadic stop ⟨op, []⟩ tokens outer arity
          · rw [arguments_of_exactly stop tokens arity]
            exact outcome_fixed stop ⟨op, []⟩ count tokens outer (by simpa using arity)
termination_by (tokens.length, 1)

theorem outcome_fixed (stop : Nat) (frame : Frame) (missing : Nat) (tokens : List Token)
    (outer : List Frame) (arity : frame.op.arity = .exactly (frame.args.length + missing : Nat)) :
    (State.within frame outer).outcome stop tokens =
      (fixed stop frame.op.symbol (frame.args.length + 1) missing tokens).andThen
        fun es left => (resume (.apply frame.op (frame.args ++ es)) outer).outcome stop left := by
  cases missing with
  | zero =>
      have full : frame.hasRoom = false := by simp [Frame.hasRoom, arity]
      cases tokens with
      | nil =>
          rw [fixed_zero_nil_andThen, outcome_nil, finish, wanted, full]
          · rfl
          · simp
      | cons token tokens =>
          rw [fixed_zero_cons_andThen, outcome_cons, step, full]
          by_cases closes : token.text = Token.closing
          · simp [closes, finishFrame, arity, full, Frame.close, Except.bind]
          · simp [closes, refuse, Except.bind]
  | succ missing =>
      have room : frame.hasRoom = true := by
        simp only [Frame.hasRoom, arity, decide_eq_true_eq]
        omega
      cases tokens with
      | nil =>
          rw [fixed_succ_nil_andThen, outcome_nil, finish, wanted, room]
          · rfl
          · simp
      | cons token tokens =>
          rw [fixed_succ_cons_andThen, outcome_cons, step, room]
          by_cases closes : token.text = Token.closing
          · simp [closes, finishFrame, arity, room, refuse, Frame.nextArgument, Except.bind]
          · rw [if_neg closes, if_neg closes, if_pos rfl, outcome_argument]
            cases argument stop token tokens with
            | error rejection => rfl
            | ok read =>
                obtain ⟨e, left, fewer⟩ := read
                have fewer_ : (frame.push e).op.arity =
                    .exactly ((frame.push e).args.length + missing : Nat) := by
                  rw [Frame.push_op, arity, Frame.push_args, List.length_append,
                    List.length_singleton]
                  congr 2
                  omega
                have rest := outcome_fixed stop (frame.push e) missing left outer fewer_
                simpa [Step.andThen, resume, List.append_assoc] using rest
termination_by (tokens.length, 0)

theorem outcome_variadic (stop : Nat) (frame : Frame) (tokens : List Token)
    (outer : List Frame) (arity : frame.op.arity = .variadic) :
    (State.within frame outer).outcome stop tokens =
      (variadic stop frame.op.symbol (frame.args.length + 1) tokens).andThen
        fun es left => (resume (.apply frame.op (frame.args ++ es)) outer).outcome stop left := by
  have room : frame.hasRoom = true := by simp [Frame.hasRoom, arity]
  cases tokens with
  | nil =>
      rw [variadic_nil_andThen, outcome_nil, finish, wanted, room]
      · rfl
      · simp
  | cons token tokens =>
      rw [variadic_cons_andThen, outcome_cons, step, room]
      by_cases closes : token.text = Token.closing
      · cases args : frame.args with
        | nil => simp [closes, finishFrame, arity, args, refuse, Except.bind]
        | cons e es => simp [closes, finishFrame, arity, args, Frame.close, Except.bind]
      · rw [if_neg closes, if_neg closes, if_pos rfl, outcome_argument]
        cases argument stop token tokens with
        | error rejection => rfl
        | ok read =>
            obtain ⟨e, left, fewer⟩ := read
            have rest := outcome_variadic stop (frame.push e) left outer arity
            simpa [Step.andThen, resume, List.append_assoc] using rest
termination_by (tokens.length, 0)

end

end State

/-- The recursive descent agrees with the machine on every list of tokens. -/
theorem whole_eq_outcome (stop : Nat) (tokens : List Token) :
    whole stop tokens = State.start.outcome stop tokens := by
  have closed : whole stop tokens =
      (expression stop tokens).andThen fun e left => (State.complete e).outcome stop left := by
    unfold whole
    rcases expression stop tokens with rejection | ⟨e, left, fewer⟩
    · rfl
    · cases left <;> rfl
  rw [closed]
  cases tokens with
  | nil => rfl
  | cons token tokens =>
      rw [expression_cons_andThen, State.outcome_cons, State.step]
      by_cases closes : token.text = Token.closing
      · rw [if_pos closes, if_pos closes]
        rfl
      · rw [if_neg closes, if_neg closes]
        exact (State.outcome_argument stop token tokens []).symm

theorem parse_eq_outcome (text : String) :
    parse text = State.start.outcome text.length (Token.ofText text) :=
  whole_eq_outcome text.length (Token.ofText text)

end Parser

end Polish
