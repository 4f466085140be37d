import Polish.Proofs.Decimal.Layout
import Polish.Proofs.Expr.Obstacles
import Polish.Proofs.Parsing.Acceptance

set_option autoImplicit false

namespace Polish

open Polish.Parser

namespace Number

/-- The text up to a plus; it is read as one word. -/
def stem (value : Number) : List Char := value.text.toList.takeWhile (· ≠ '+')

theorem toList_text_integer (n : Int) :
    (integer n).text.toList =
      if decide (n < 0) then '-' :: Nat.toDigits 10 n.natAbs else Nat.toDigits 10 n.natAbs := by
  rw [text, Int.toString_eq_repr, Int.repr_eq_if]
  by_cases below : n < 0
  · have above : ¬ 0 ≤ n := by omega
    have size : (-n).toNat = n.natAbs := by omega
    simp [below, above, size, Nat.toList_repr]
  · have above : 0 ≤ n := by omega
    have size : n.toNat = n.natAbs := by omega
    simp [below, above, size, Nat.toList_repr]

theorem isInteger_text (n : Int) :
    IsInteger (integer n).text (decide (n < 0)) (Nat.toDigits 10 n.natAbs) :=
  ⟨Nat.toDigits_ne_nil, Layout.isDigit_of_mem_toDigits _, toList_text_integer n⟩

theorem integerOf_toDigits (n : Int) :
    integerOf (decide (n < 0)) (Nat.toDigits 10 n.natAbs) = n := by
  have size : Decimal.ofDigits (Nat.toDigits 10 n.natAbs) = n.natAbs :=
    Nat.ofDigitChars_ten_toDigits
  rw [integerOf, size]
  by_cases below : n < 0
  · simp only [below, decide_true, ↓reduceIte]
    omega
  · simp only [below, decide_false, Bool.false_eq_true, ↓reduceIte]
    omega

theorem stem_splits {value : Number} (other : value.isInteger = false) :
    Layout.Splits value.text.toList value.stem := by
  obtain ⟨cut, splits⟩ : ∃ cut, Layout.Splits value.text.toList cut := by
    cases value with
    | integer n => cases other
    | truth t =>
        have plain : (truth t).text.toList.all Token.isPlain = true := by cases t <;> decide
        have foreign : ∃ c ∈ (truth t).text.toList, Layout.isForeign c = true := by
          cases t <;> exact ⟨'e', by decide, by decide⟩
        exact ⟨_, .of_all plain, foreign, Or.inl rfl⟩
    | double d => exact Layout.text_splits Layout.plain d
  rw [stem, splits.takeWhile_eq]
  exact splits

end Number

namespace Expr

def Short (e : Expr) : Prop :=
  ∀ n, .constant (.integer n) ∈ e.labels →
    (Nat.toDigits 10 n.natAbs).length ≤ Decimal.digitLimit

theorem short_of_mem {op : Operator} {args : List Expr} (short : (apply op args).Short) :
    ∀ e ∈ args, e.Short := by
  intro e member n inside
  exact short n (mem_labels_of_argument member inside)

end Expr

namespace Parser

open Polish.Expr

/-- The rejection of the stem of a constant, in a text that begins at a position. -/
def refusal (position : Nat) (found : List Char × Number) : Rejection :=
  .malformed ⟨.illegalVariable (String.ofList found.2.stem),
    position + found.1.length + found.2.stem.length⟩

theorem refusal_shift (position : Nat) (before : List Char) (found : List Char × Number) :
    refusal (position + before.length) found = refusal position (before ++ found.1, found.2) := by
  simp only [refusal, List.length_append, Nat.add_assoc]

/-- Wherever the expression may stand, its text is read as the expression, or its first constant
that is no integer is refused. -/
def Rereads (stop : Nat) (e : Expr) : Prop :=
  ∀ outer position rest, HasRoom outer → Token.EndsWord rest →
    (State.enter outer).outcome stop (Token.scan position (e.prefixChars ++ rest)) =
      match e.obstacle? with
      | none =>
          (State.resume e outer).outcome stop (Token.scan (position + e.prefixChars.length) rest)
      | some found => .error (refusal position found)

theorem endsWord_blank (rest : List Char) : Token.EndsWord (' ' :: rest) := by
  intro c first
  cases first
  exact Or.inl (by decide)

theorem endsWord_closing (rest : List Char) : Token.EndsWord (')' :: rest) := by
  intro c first
  cases first
  exact Or.inr (by decide)

/-- A word in place of an expression is read as a leaf. -/
theorem outcome_glued {stop position : Nat} {outer : List Frame} {cs rest : List Char}
    (room : HasRoom outer) (glued : Token.Glued cs) (nonempty : cs ≠ [])
    (ends : Token.EndsWord rest) :
    (State.enter outer).outcome stop (Token.scan position (cs ++ rest)) =
      match leaf (String.ofList cs) (position + cs.length) with
      | .ok e => (State.resume e outer).outcome stop (Token.scan (position + cs.length) rest)
      | .error rejection => .error rejection := by
  have spelled : Token.Glued (String.ofList cs).toList := by rwa [String.toList_ofList]
  obtain ⟨notOpening, notClosing⟩ := ne_parenthesis_of_glued spelled
  rw [Token.scan_glued position glued nonempty ends, State.outcome_cons,
    State.step_enter room notClosing, State.begin, if_neg notOpening]
  cases leaf (String.ofList cs) (position + cs.length) <;> rfl

/-- An opening parenthesis and an operator begin a frame. -/
theorem outcome_begun {stop position : Nat} {outer : List Frame} {op : Operator}
    {rest : List Char} (room : HasRoom outer) (known : Operator.ofSymbol? op.symbol = some op) :
    (State.enter outer).outcome stop
        (Token.scan position ('(' :: (op.symbol.toList ++ ' ' :: rest))) =
      (State.within ⟨op, []⟩ outer).outcome stop
        (Token.scan (position + 1 + op.symbol.length + 1) rest) := by
  have notClosing : String.singleton '(' ≠ Token.closing := by decide
  have blank : ∀ c ∈ (' ' :: rest).head?, Token.isBlank c = true := by
    intro c first
    cases first
    decide
  rw [Token.scan_delimiter position (by decide) (fun same => absurd same (by decide)),
    State.outcome_cons, State.step_enter room notClosing, State.begin_of_opening outer rfl]
  dsimp only [Except.bind]
  rw [Token.alone_symbol known (position + 1) (' ' :: rest) blank, State.outcome_cons,
    Token.scan_blank _ _ (by decide)]
  simp only [State.step, known, Except.bind]

theorem outcome_closing {stop : Nat} {frame : Frame} (outer : List Frame) (position : Nat)
    (rest : List Char) (accepted : frame.op.arity.accepts frame.args.length = true) :
    (State.within frame outer).outcome stop (Token.scan position (')' :: rest)) =
      (State.resume frame.close outer).outcome stop (Token.scan (position + 1) rest) := by
  rw [Token.scan_delimiter position (by decide) (fun same => absurd same (by decide)),
    State.outcome_cons, State.step_closing frame outer rfl accepted]
  rfl

theorem not_isInteger_of_foreign {word : String} {c : Char} (member : c ∈ word.toList)
    (foreign : Layout.isForeign c = true) (negative : Bool) (digits : List Char) :
    ¬ IsInteger word negative digits := by
  rintro ⟨_, decimal, spelled⟩
  rw [spelled] at member
  have usual : c = '-' ∨ c.isDigit = true := by
    cases negative with
    | true => exact (List.mem_cons.mp member).imp id (decimal c)
    | false => exact Or.inr (decimal c member)
  rcases usual with rfl | digit
  · exact absurd foreign (by decide)
  · simp [Layout.isForeign, digit] at foreign

theorem name_ne_of_foreign {word : String} {c : Char} (member : c ∈ word.toList)
    (foreign : Layout.isForeign c = true) (v : Variable) : v.name ≠ word := by
  rintro rfl
  have none : v.name.toList.all (fun d => !Layout.isForeign d) = true := by cases v <;> decide
  have usual := List.all_eq_true.mp none c member
  rw [foreign] at usual
  cases usual

theorem leaf_of_splits {text cut : List Char} (splits : Layout.Splits text cut)
    (position : Nat) : leaf (String.ofList cut) position =
      .error (.malformed ⟨.illegalVariable (String.ofList cut), position⟩) := by
  obtain ⟨c, inside, foreign⟩ := splits.foreign
  have member : c ∈ (String.ofList cut).toList := by rwa [String.toList_ofList]
  exact leaf_of_meaningless (not_isInteger_of_foreign member foreign)
    (name_ne_of_foreign member foreign) position

theorem rereads_integer (stop : Nat) (n : Int)
    (short : (Nat.toDigits 10 n.natAbs).length ≤ Decimal.digitLimit) :
    Rereads stop (.const (.integer n)) := by
  intro outer position rest room ends
  have shape := Number.isInteger_text n
  obtain ⟨glued, nonempty⟩ := glued_of_isInteger shape
  have read : ∀ position, leaf (Number.integer n).text position = .ok (.const (.integer n)) := by
    intro position
    rw [leaf_of_isInteger shape, if_neg (by omega), Number.integerOf_toDigits]
  rw [prefixChars_const, outcome_glued room glued nonempty ends, String.ofList_toList, read]
  rfl

theorem rereads_variable (stop : Nat) (v : Variable) : Rereads stop (.var v) := by
  intro outer position rest room ends
  obtain ⟨glued, nonempty⟩ := glued_name v
  rw [prefixChars_var, outcome_glued room glued nonempty ends, String.ofList_toList, leaf_name]
  rfl

theorem rereads_other (stop : Nat) {value : Number} (other : value.isInteger = false) :
    Rereads stop (.const value) := by
  intro outer position rest room ends
  have splits := Number.stem_splits other
  obtain ⟨c, inside, _⟩ := splits.foreign
  have nonempty := List.ne_nil_of_mem inside
  obtain ⟨behind, same, apart⟩ : ∃ behind, value.text.toList ++ rest = value.stem ++ behind ∧
      Token.EndsWord behind := by
    rcases splits.ends with whole | ⟨front, digits, _, whole⟩
    · exact ⟨rest, by rw [← whole], ends⟩
    · refine ⟨'+' :: digits ++ rest, by rw [whole, List.append_assoc], ?_⟩
      intro d first
      cases first
      exact Or.inr (by decide)
  rw [prefixChars_const, same, outcome_glued room splits.glued nonempty apart,
    leaf_of_splits splits, obstacle?, other]
  rfl

/-- The arguments are read one after the other, up to the first that is refused. -/
theorem rereads_args {stop : Nat} {args : List Expr} (each : ∀ e ∈ args, Rereads stop e)
    (frame : Frame) (outer : List Frame) (position : Nat) (rest : List Char)
    (fits : frame.op.arity.Allows (frame.args.length + args.length)) :
    (State.within frame outer).outcome stop
        (Token.scan position (spaced (args.map prefixChars) ++ ')' :: rest)) =
      match obstacleList? args with
      | none =>
          (State.within { frame with args := frame.args ++ args } outer).outcome stop
            (Token.scan (position + (spaced (args.map prefixChars)).length) (')' :: rest))
      | some found => .error (refusal position found) := by
  induction args generalizing frame position with
  | nil => simp [obstacleList?, spaced]
  | cons e es ih =>
      obtain ⟨room, fewer⟩ := Frame.room_of_allows fits e
      have first := fun rest => each e (by simp) (frame :: outer) position rest
        (hasRoom_cons outer room)
      rw [State.enter, State.resume] at first
      rw [obstacleList?]
      -- A blank follows every argument but the last, which the closing parenthesis ends.
      by_cases last : es = []
      · subst last
        rw [List.map_cons, List.map_nil, spaced, List.intercalate_singleton,
          first (')' :: rest) (endsWord_closing rest)]
        cases e.obstacle? with
        | some found => rfl
        | none => rfl
      · have others : es.map prefixChars ≠ [] := by simpa using last
        rw [List.map_cons, spaced_cons others, List.append_assoc, List.cons_append,
          first _ (endsWord_blank _)]
        cases e.obstacle? with
        | some found => rfl
        | none =>
            have more := ih (fun e member => each e (List.mem_cons_of_mem _ member))
              (frame.push e) (position + e.prefixChars.length + 1) fewer
            dsimp only
            rw [Token.scan_blank _ _ (by decide), more]
            cases obstacleList? es with
            | some found =>
                have shift := refusal_shift position (e.prefixChars ++ [' ']) found
                simpa [Nat.add_assoc] using shift
            | none =>
                have length : position + e.prefixChars.length + 1 +
                    (spaced (es.map prefixChars)).length =
                    position + (e.prefixChars ++ ' ' :: spaced (es.map prefixChars)).length := by
                  simp only [List.length_append, List.length_cons]
                  omega
                simp only [Option.map_none, Frame.push_op, Frame.push_args, List.append_assoc,
                  List.singleton_append, length]

/-- A well-formed expression is read back as far as its constants are integers. -/
theorem rereads_of_wellFormed (stop : Nat) {e : Expr} (formed : e.WellFormed) (short : e.Short) :
    Rereads stop e := by
  induction formed with
  | const value =>
      cases value with
      | integer n => exact rereads_integer stop n (short n (by simp [labels]))
      | truth t => exact rereads_other stop rfl
      | double d => exact rereads_other stop rfl
  | var v => exact rereads_variable stop v
  | apply op args known accepted children ih =>
      intro outer position rest room ends
      have each : ∀ e ∈ args, Rereads stop e := fun e member =>
        ih e member (short_of_mem short e member)
      have fits : op.arity.Allows (([] : List Expr).length + args.length) := by
        simpa using Arity.allows_of_accepts accepted
      have text : (apply op args).prefixChars ++ rest =
          '(' :: (op.symbol.toList ++ ' ' :: (spaced (args.map prefixChars) ++ ')' :: rest)) := by
        simp [prefixChars_apply]
      have all := rereads_args each ⟨op, []⟩ outer (position + 1 + op.symbol.length + 1) rest fits
      rw [text, outcome_begun room known, all, obstacle?]
      cases obstacleList? args with
      | some found =>
          have shift := refusal_shift position ('(' :: op.symbol.toList ++ [' ']) found
          have length : position + 1 + op.symbol.length + 1 =
              position + ('(' :: op.symbol.toList ++ [' ']).length := by
            simp only [List.length_append, List.length_cons, List.length_nil, String.length_toList]
            omega
          rw [length]
          simpa using shift
      | none =>
          have length : position + 1 + op.symbol.length + 1 +
              (spaced (args.map prefixChars)).length + 1 =
              position + (apply op args).prefixChars.length := by
            simp only [prefixChars_apply, List.length_append, List.length_cons, List.length_nil,
              String.length_toList]
            omega
          dsimp only [Option.map_none]
          rw [List.nil_append, outcome_closing outer _ rest accepted, length]
          rfl

/-- The prefix text of an expression is read back as the expression if all its constants are
integers. Otherwise the first constant that is none is refused as a word without a meaning, where
it stands; a plus behind the letter of its exponent ends the word. -/
theorem parse_prefixText {e : Expr} (formed : e.WellFormed) (short : e.Short) :
    ((∀ value, .constant value ∈ e.labels → value.isInteger = true) →
      parse e.prefixText = .ok e) ∧
    (¬ (∀ value, .constant value ∈ e.labels → value.isInteger = true) →
      ∃ before value after, e.obstacle? = some (before, value) ∧
        Expr.FirstOther e.labels value ∧ e.prefixChars = before ++ value.text.toList ++ after ∧
        (value.text.toList = value.stem ∨ ∃ front digits, value.stem = front ++ ['e'] ∧
          value.text.toList = value.stem ++ '+' :: digits) ∧
        parse e.prefixText = .error (.malformed
          ⟨.illegalVariable (String.ofList value.stem), before.length + value.stem.length⟩)) := by
  have reread := rereads_of_wellFormed e.prefixText.length formed short [] 0 [] hasRoom_nil
    Token.endsWord_nil
  have start : parse e.prefixText =
      (State.enter []).outcome e.prefixText.length (Token.scan 0 (e.prefixChars ++ [])) := by
    rw [parse_eq_outcome, Token.ofText, prefixText, String.toList_ofList, List.append_nil]
    rfl
  rw [start, reread]
  cases obstacle : e.obstacle? with
  | none =>
      have integers := isInteger_of_obstacle?_eq_none e obstacle
      refine ⟨fun _ => ?_, fun others => absurd integers others⟩
      rw [Token.scan_nil]
      rfl
  | some found =>
      obtain ⟨before, value⟩ := found
      obtain ⟨first, after, text⟩ := obstacle?_eq_some obstacle
      constructor
      · intro integers
        obtain ⟨other, front, back, labels, _⟩ := first
        rw [integers value (by simp [labels])] at other
        cases other
      · intro _
        refine ⟨before, value, after, rfl, first, text, (Number.stem_splits first.1).ends, ?_⟩
        simp only [refusal, Nat.zero_add]

/-- An integer is read back, and a double whose exponent has a sign is cut at the sign. -/
theorem parse_prefixText_sum :
    parse (Expr.apply ⟨"+", .exactly 2, .add⟩ [.var .x, .const (.integer (-7))]).prefixText =
      .ok (.apply ⟨"+", .exactly 2, .add⟩ [.var .x, .const (.integer (-7))]) ∧
    parse (Expr.apply ⟨"+", .exactly 2, .add⟩
        [.var .x, .const (.double (.ofInt .double 10000000000000000))]).prefixText =
      .error (.malformed ⟨.illegalVariable "1e", 7⟩) := by
  have formed : ∀ value,
      (Expr.apply ⟨"+", .exactly 2, .add⟩ [.var .x, .const value]).WellFormed := by
    intro value
    refine .apply _ _ rfl rfl ?_
    simp [Expr.WellFormed.var, Expr.WellFormed.const]
  constructor
  · have short : (Expr.apply ⟨"+", .exactly 2, .add⟩
        [.var .x, .const (.integer (-7))]).Short := by
      intro n member
      simp only [labels, labelsList, List.mem_cons, List.mem_append, List.not_mem_nil, or_false,
        reduceCtorEq, false_or, Label.constant.injEq, Number.integer.injEq] at member
      rw [member]
      decide
    exact (parse_prefixText (formed _) short).1 (by simp [labels, labelsList, Number.isInteger])
  · have short : (Expr.apply ⟨"+", .exactly 2, .add⟩
        [.var .x, .const (.double (.ofInt .double 10000000000000000))]).Short := by
      intro n member
      simp [labels, labelsList] at member
    obtain ⟨before, value, after, found, _, _, _, refused⟩ :=
      (parse_prefixText (formed _) short).2 (by simp [labels, labelsList, Number.isInteger])
    have place : (Expr.apply ⟨"+", .exactly 2, .add⟩
        [.var .x, .const (.double (.ofInt .double 10000000000000000))]).obstacle? =
        some (['(', '+', ' ', 'x', ' '], .double (.ofInt .double 10000000000000000)) := by rfl
    have stem : (Number.double (.ofInt .double 10000000000000000)).stem = ['1', 'e'] := by
      decide +kernel
    rw [place] at found
    cases found
    rw [refused, stem]
    rfl

end Parser

end Polish
