import Polish.Proofs.Expr.Postorder

set_option autoImplicit false

namespace Polish

open Polish.Parser

namespace Postfix

/-- The trees on the stack after one more word. A leaf is put on top; an operator takes off its
arguments, the last of them first. One that takes any number of them cannot tell how many. -/
def step (stack : List Expr) (word : String) : Option (List Expr) :=
  match Operator.ofSymbol? word with
  | none => (leaf word 0).toOption.map (· :: stack)
  | some op =>
      match op.arity with
      | .exactly count =>
          if count ≤ stack.length then
            some (.apply op (stack.take count.toNat).reverse :: stack.drop count.toNat)
          else none
      | .variadic => none

def read? (text : String) : Option Expr :=
  match (words text).foldlM step [] with
  | some [e] => some e
  | _ => none

variable {stack : List Expr}

theorem ofSymbol?_of_isInteger {word : String} {negative : Bool} {digits : List Char}
    (shape : IsInteger word negative digits) : Operator.ofSymbol? word = none := by
  cases known : Operator.ofSymbol? word with
  | none => rfl
  | some op =>
      have parts := (integerParts?_eq_some_iff word negative digits).mpr shape
      rw [integerParts?_symbol known] at parts
      cases parts

theorem step_integer {n : Int} (short : (Nat.toDigits 10 n.natAbs).length ≤ Decimal.digitLimit) :
    step stack (Number.integer n).text = some (.const (.integer n) :: stack) := by
  have shape := Number.isInteger_text n
  simp only [step, ofSymbol?_of_isInteger shape]
  rw [leaf_of_isInteger shape, if_neg (Nat.not_lt.mpr short), Number.integerOf_toDigits]
  rfl

theorem step_name (v : Variable) : step stack v.name = some (.var v :: stack) := by
  have unknown : Operator.ofSymbol? v.name = none := by cases v <;> decide
  simp only [step, unknown]
  rw [leaf_name]
  rfl

/-- An operator finds its arguments on top of the stack. -/
theorem step_symbol {op : Operator} {args : List Expr}
    (known : Operator.ofSymbol? op.symbol = some op) (fixed : op.arity ≠ .variadic)
    (accepted : op.arity.accepts args.length = true) :
    step (args.reverse ++ stack) op.symbol = some (.apply op args :: stack) := by
  simp only [step, known]
  cases arity : op.arity with
  | variadic => exact absurd arity fixed
  | exactly count =>
      rw [arity, Arity.accepts, beq_iff_eq] at accepted
      have enough : count ≤ (args.reverse ++ stack).length := by
        rw [List.length_append, List.length_reverse]
        omega
      have taken : count.toNat = args.reverse.length := by
        rw [List.length_reverse]
        omega
      simp only [if_pos enough, taken, List.take_left, List.drop_left, List.reverse_reverse]

end Postfix

namespace Expr

open Polish.Postfix

variable {e : Expr} {args : List Expr}

def IsFixed (e : Expr) : Prop :=
  ∀ symbol count, .operation symbol count ∈ e.labels → ∀ op,
    Operator.ofSymbol? symbol = some op → op.arity ≠ .variadic

theorem IsFixed.arguments {op : Operator} (fixed : (apply op args).IsFixed) :
    ∀ e ∈ args, e.IsFixed := by
  intro e member symbol count inside
  exact fixed symbol count (mem_labels_of_argument member inside)

/-- Wherever the words of the expression are read, they put it on the stack. -/
def Stacks (e : Expr) : Prop :=
  ∀ stack, (e.postorder.map Label.word).foldlM step stack = some (e :: stack)

theorem stacks_args (each : ∀ e ∈ args, e.Stacks) (stack : List Expr) :
    ((postorderList args).map Label.word).foldlM step stack = some (args.reverse ++ stack) := by
  induction args generalizing stack with
  | nil => rfl
  | cons e es ih =>
      rw [postorderList, List.map_append, List.foldlM_append, each e (by simp) stack,
        List.reverse_cons, List.append_assoc, List.singleton_append]
      exact ih (fun e member => each e (List.mem_cons_of_mem _ member)) (e :: stack)

theorem stacks_of_readable (readable : e.Readable) (fixed : e.IsFixed) : e.Stacks := by
  intro stack
  induction e generalizing stack with
  | const value =>
      cases value with
      | integer n =>
          rw [postorder, List.map_singleton, List.foldlM_cons, Label.word,
            step_integer (readable.short n (List.mem_singleton_self _))]
          rfl
      | _ => cases readable.integers _ (List.mem_singleton_self _)
  | var v =>
      rw [postorder, List.map_singleton, List.foldlM_cons, Label.word, step_name]
      rfl
  | apply op args ih =>
      cases readable.formed with
      | apply op args known accepted children =>
          have each : ∀ e ∈ args, e.Stacks := fun e member =>
            ih e member (readable.arguments e member) (fixed.arguments e member)
          have certain := fixed op.symbol args.length (by simp [labels]) op known
          rw [postorder, List.map_append, List.foldlM_append, stacks_args each, List.map_singleton,
            Option.bind_eq_bind, Option.bind_some, List.foldlM_cons, Label.word,
            step_symbol known certain accepted]
          rfl
  | foreign value =>
      exact absurd (List.mem_singleton_self _) (readable.formed.registered.supported.2 value)

/-- A tree of operators with certain numbers of arguments is read back from its postfix text. -/
theorem read?_postfixText (readable : e.Readable) (fixed : e.IsFixed) :
    read? e.postfixText = some e := by
  rw [read?, words_postfixText readable, stacks_of_readable readable fixed []]

def leafWords (words : List String) : List String :=
  words.filter fun word => (Operator.ofSymbol? word).isNone

theorem leafWords_labels (readable : e.Readable) :
    leafWords (e.postorder.map Label.word) = leafWords (e.labels.map Label.word) := by
  have operators : ∀ symbol count, .operation symbol count ∈ e.labels →
      (Operator.ofSymbol? (Label.operation symbol count).word).isNone = false := by
    intro symbol count member
    have known := readable.formed.registered.supported.1 symbol count member
    rw [Label.word, ← Option.not_isSome, ← hasKernel, known]
    rfl
  rw [leafWords, leafWords, List.filter_map, List.filter_map]
  exact congrArg (List.map Label.word) (filter_labels operators).symm

/-- The words of the postfix text of a tree of integers, variables and registered operators are
those of its nodes, each behind those of its arguments. They are the words of the prefix text but
for the parentheses, in another order, and the words of the leaves are in the same order. If every
operator takes a certain number of arguments, the tree can be read back with a stack, so no other
such tree has this postfix text. -/
theorem postfixText_is_faithful (e : Expr) (readable : e.Readable) :
    words e.postfixText = e.postorder.map Label.word ∧
      (words e.postfixText).Perm (Token.unbracketed (Reader.ofText e.prefixText).words) ∧
      leafWords (words e.postfixText) =
        leafWords (Token.unbracketed (Reader.ofText e.prefixText).words) ∧
      (e.IsFixed → read? e.postfixText = some e) ∧
      ∀ other : Expr, other.Readable → e.IsFixed → other.IsFixed →
        e.postfixText = other.postfixText → e = other := by
  refine ⟨words_postfixText readable, ?_, ?_, read?_postfixText readable, ?_⟩
  · rw [words_postfixText readable, words_prefixText readable]
    exact ((labels_perm_postorder e).map Label.word).symm
  · rw [words_postfixText readable, words_prefixText readable]
    exact leafWords_labels readable
  · intro other readable' fixed fixed' same
    have read := read?_postfixText readable fixed
    rw [same, read?_postfixText readable' fixed'] at read
    exact (Option.some.inj read).symm

/-- A hyphen is the sign of an integer, and a hyphen is an operator. -/
theorem postfixText_is_faithful_difference :
    words "x -5 -" = ["x", "-5", "-"] ∧
      read? "x -5 -" =
        some (.apply ⟨"-", .exactly 2, .subtract⟩ [.var .x, .const (.integer (-5))]) := by
  have tokens : Token.ofText "(- x -5)" =
      [⟨"(", 0, 1⟩, ⟨"-", 1, 2⟩, ⟨"x", 3, 4⟩, ⟨"-5", 5, 7⟩, ⟨")", 7, 8⟩] := by decide +kernel
  have parsed : Parser.parse "(- x -5)" = .ok (.apply ⟨"-", .exactly 2, .subtract⟩
      [.var .x, .const (.integer (-5))]) := by
    rw [Parser.parse_eq_outcome, tokens]
    rfl
  have fixed : (Expr.apply ⟨"-", .exactly 2, .subtract⟩
      [.var .x, .const (.integer (-5))]).IsFixed := by
    simp [IsFixed, labels, labelsList, Operator.ofSymbol?, Operator.registered]
  have written : (Expr.apply ⟨"-", .exactly 2, .subtract⟩
      [.var .x, .const (.integer (-5))]).postfixText = "x -5 -" := by decide +kernel
  obtain ⟨cut, _, _, read, _⟩ := postfixText_is_faithful _ (exists_parse_iff.mp ⟨_, parsed⟩)
  rw [written] at cut read
  exact ⟨cut, read fixed⟩

/-- Behind its arguments, a mean does not tell how many of them it takes. -/
example :
    (Expr.apply ⟨"arith-mean", .variadic, .arithmeticMean⟩
      [.var .x, .apply ⟨"arith-mean", .variadic, .arithmeticMean⟩ [.var .y]]).postfixText =
    (Expr.apply ⟨"arith-mean", .variadic, .arithmeticMean⟩
      [.apply ⟨"arith-mean", .variadic, .arithmeticMean⟩ [.var .x, .var .y]]).postfixText := by
  decide +kernel

end Expr

end Polish
