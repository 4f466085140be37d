import Polish.Parser.Basic

set_option autoImplicit false

namespace Polish.Operator

/-- No registered operator has a negative arity. -/
theorem arity_of_ofSymbol? {symbol : String} {op : Operator}
    (found : ofSymbol? symbol = some op) :
    op.arity = .variadic ∨ ∃ count : Nat, op.arity = .exactly count := by
  have member : op ∈ registered := List.mem_of_find?_eq_some found
  simp only [registered, List.mem_cons, List.not_mem_nil, or_false] at member
  rcases member with rfl | rfl | rfl | rfl | rfl | rfl | rfl | rfl | rfl | rfl <;>
    first
    | exact Or.inl rfl
    | exact Or.inr ⟨_, rfl⟩

end Polish.Operator

namespace Polish.Parser

variable {α β : Type}

/-- Goes on with what a step has read and with the tokens it leaves. -/
def Step.andThen {tokens : List Token} (s : Step tokens α)
    (next : α → List Token → Except Rejection β) : Except Rejection β :=
  match s with
  | .ok (a, rest) => next a rest.1
  | .error rejection => .error rejection

theorem objection?_expression (word : String) :
    Expectation.expression.objection? false word =
      if word = Token.closing then some .illegalToken else none := by
  by_cases closes : word = Token.closing <;> simp_all [Expectation.objection?, Token.closing]

theorem objection?_operation (word : String) :
    Expectation.operation.objection? false word =
      if Operator.ofSymbol? word = none then some (.unknownOperation word) else none := by
  by_cases unknown : Operator.ofSymbol? word = none
  · simp only [Expectation.objection?, unknown, and_self, ↓reduceIte]
  · have notClosing : word ≠ ")" := by
      rintro rfl
      exact unknown (by decide)
    simp [Expectation.objection?, unknown, notClosing]

theorem objection?_argument (number : Nat) (symbol word : String) :
    (Expectation.argument number symbol).objection? false word =
      if word = Token.closing then some (.missingArgument (.argument number symbol)) else none := by
  by_cases closes : word = Token.closing <;> simp_all [Expectation.objection?, Token.closing]

theorem objection?_openList (number : Nat) (symbol word : String) :
    (Expectation.argument number symbol).objection? true word = none := by
  simp [Expectation.objection?]

theorem objection?_closing (word : String) :
    Expectation.closing.objection? false word =
      if word = Token.closing then none else some (.tooManyArguments word) := by
  by_cases closes : word = Token.closing <;> simp_all [Expectation.objection?, Token.closing]

section Equations

variable (stop : Nat) (token : Token) (tokens : List Token)

theorem next_cons (wanted : Expectation) (openList : Bool) :
    next stop wanted openList (token :: tokens) =
      match wanted.objection? openList token.text with
      | some cause => .error (.malformed ⟨cause, token.stop⟩)
      | none => .ok (token, ⟨tokens, Nat.lt_succ_self _⟩) := rfl

theorem argument_andThen (k : Expr → List Token → Except Rejection β) :
    (argument stop token tokens).andThen k =
      if token.text = Token.opening then (operation stop tokens).andThen k
      else
        match leaf token.text token.stop with
        | .ok e => k e tokens
        | .error rejection => .error rejection := by
  unfold argument
  by_cases opens : token.text = Token.opening
  · rw [if_pos opens, if_pos opens]
  · rw [if_neg opens, if_neg opens]
    cases leaf token.text token.stop <;> rfl

theorem operation_nil_andThen (k : Expr → List Token → Except Rejection β) :
    (operation stop []).andThen k = .error (.malformed ⟨.endOfInput .operation, stop⟩) := by
  unfold operation
  rfl

theorem operation_cons_andThen (k : Expr → List Token → Except Rejection β) :
    (operation stop (token :: tokens)).andThen k =
      match Operator.ofSymbol? token.text with
      | some op => (arguments stop op tokens).andThen fun args left => k (.apply op args) left
      | none => .error (.malformed ⟨.unknownOperation token.text, token.stop⟩) := by
  rw [operation, next_cons, objection?_operation]
  cases known : Operator.ofSymbol? token.text with
  | none => rfl
  | some op =>
      simp only [reduceCtorEq, ↓reduceIte, known]
      cases arguments stop op tokens <;> rfl

theorem arguments_of_exactly {op : Operator} {count : Int} (arity : op.arity = .exactly count) :
    arguments stop op tokens = fixed stop op.symbol 1 count.toNat tokens := by
  rw [arguments, arity]

theorem arguments_of_variadic {op : Operator} (arity : op.arity = .variadic) :
    arguments stop op tokens = variadic stop op.symbol 1 tokens := by
  rw [arguments, arity]

theorem fixed_zero_nil_andThen (symbol : String) (number : Nat)
    (k : List Expr → List Token → Except Rejection β) :
    (fixed stop symbol number 0 []).andThen k =
      .error (.malformed ⟨.endOfInput .closing, stop⟩) := by
  unfold fixed
  rfl

theorem fixed_zero_cons_andThen (symbol : String) (number : Nat)
    (k : List Expr → List Token → Except Rejection β) :
    (fixed stop symbol number 0 (token :: tokens)).andThen k =
      if token.text = Token.closing then k [] tokens
      else .error (.malformed ⟨.tooManyArguments token.text, token.stop⟩) := by
  rw [fixed, next_cons, objection?_closing]
  by_cases closes : token.text = Token.closing
  · rw [if_pos closes, if_pos closes]
    rfl
  · rw [if_neg closes, if_neg closes]
    rfl

theorem fixed_succ_nil_andThen (symbol : String) (number missing : Nat)
    (k : List Expr → List Token → Except Rejection β) :
    (fixed stop symbol number (missing + 1) []).andThen k =
      .error (.malformed ⟨.endOfInput (.argument number symbol), stop⟩) := by
  unfold fixed
  rfl

theorem fixed_succ_cons_andThen (symbol : String) (number missing : Nat)
    (k : List Expr → List Token → Except Rejection β) :
    (fixed stop symbol number (missing + 1) (token :: tokens)).andThen k =
      if token.text = Token.closing then
        .error (.malformed ⟨.missingArgument (.argument number symbol), token.stop⟩)
      else
        (argument stop token tokens).andThen fun e left =>
          (fixed stop symbol (number + 1) missing left).andThen fun es last =>
            k (e :: es) last := by
  rw [fixed, next_cons, objection?_argument]
  by_cases closes : token.text = Token.closing
  · rw [if_pos closes, if_pos closes]
    rfl
  · simp only [closes, ↓reduceIte]
    cases argument stop token tokens with
    | error rejection => rfl
    | ok read =>
        obtain ⟨e, left, fewer⟩ := read
        simp only [Step.andThen]
        cases fixed stop symbol (number + 1) missing left <;> rfl

theorem variadic_nil_andThen (symbol : String) (number : Nat)
    (k : List Expr → List Token → Except Rejection β) :
    (variadic stop symbol number []).andThen k =
      .error (.malformed ⟨.endOfInput (.argument number symbol), stop⟩) := by
  unfold variadic
  rfl

theorem variadic_cons_andThen (symbol : String) (number : Nat)
    (k : List Expr → List Token → Except Rejection β) :
    (variadic stop symbol number (token :: tokens)).andThen k =
      if token.text = Token.closing then
        if number = 1 then .error (.malformed ⟨.noArguments symbol, token.stop⟩) else k [] tokens
      else
        (argument stop token tokens).andThen fun e left =>
          (variadic stop symbol (number + 1) left).andThen fun es last => k (e :: es) last := by
  rw [variadic, next_cons, objection?_openList]
  by_cases closes : token.text = Token.closing
  · simp only [closes, ↓reduceIte]
    by_cases first : number = 1
    · rw [if_pos first, if_pos first]
      rfl
    · rw [if_neg first, if_neg first]
      rfl
  · simp only [closes, ↓reduceIte]
    cases argument stop token tokens with
    | error rejection => rfl
    | ok read =>
        obtain ⟨e, left, fewer⟩ := read
        simp only [Step.andThen]
        cases variadic stop symbol (number + 1) left <;> rfl

theorem expression_cons_andThen (k : Expr → List Token → Except Rejection β) :
    (expression stop (token :: tokens)).andThen k =
      if token.text = Token.closing then .error (.malformed ⟨.illegalToken, token.stop⟩)
      else (argument stop token tokens).andThen k := by
  rw [expression, next_cons, objection?_expression]
  by_cases closes : token.text = Token.closing
  · rw [if_pos closes, if_pos closes]
    rfl
  · simp only [closes, ↓reduceIte]
    cases argument stop token tokens <;> rfl

end Equations

end Polish.Parser
