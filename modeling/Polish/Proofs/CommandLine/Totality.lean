import Polish.CommandLine.Run
import Polish.Proofs.Expr.Interchange
import Polish.Proofs.Parsing.Messages
import Polish.Proofs.Parsing.Overlong

set_option autoImplicit false

namespace Polish.CommandLine

theorem Operand.ofKernel_numbers (kernel : Kernel) (values : List Double) :
    ofKernel kernel (values.map .number) = carry .evaluation .number (kernel.onDoubles values) := by
  have back : (values.map Operand.number).mapM number? = some values := by
    induction values with
    | nil => rfl
    | cons value values ih =>
        rw [List.map_cons, List.mapM_cons, ih]
        rfl
  simp only [ofKernel, back]
  cases kernel.onDoubles values <;> rfl

/-- The variables are bound to numbers, the doubles of the point. -/
def BoundTo (bound : Point Operand) (p : Point Number) : Prop :=
  ∀ v, bound.get v = .number (p.get v).toDouble

theorem exists_boundTo {bound : Point Operand} (numbers : ∀ v, ∃ d, bound.get v = .number d) :
    ∃ p, BoundTo bound p := by
  obtain ⟨x, boundX⟩ := numbers .x
  obtain ⟨y, boundY⟩ := numbers .y
  obtain ⟨z, boundZ⟩ := numbers .z
  refine ⟨⟨.double x, .double y, .double z⟩, fun v => ?_⟩
  cases v with
  | x => exact boundX
  | y => exact boundY
  | z => exact boundZ

section Values

variable {bound : Point Operand} {p : Point Number}

/-- On numbers the program computes what evaluation does. -/
theorem valueAt_of_boundTo (numbers : BoundTo bound p) (e : Expr) :
    valueAt bound e = carry .evaluation .number (e.evaluate p) :=
  Expr.evaluateWith_carry ⟨fun _ => rfl, fun v => congrArg Except.ok (numbers v),
    fun op values => Operand.ofKernel_numbers op.kernel values, fun _ => rfl⟩ e

end Values

def Options.words (options : Options) : List String := (Reader.ofText options.expression).words

/-- The variables are numbers, something is to be printed, doubles evaluate, and there is a level
of messages, at which those for debugging are shown or not. -/
structure Options.InOrder (options : Options) (shown : Bool) : Prop where
  numbers : ∀ v, ∃ d, options.bound.get v = .number d
  printed : ∃ display, options.display = some display
  doubles : options.backend = .doubles
  level : ∃ level, options.logLevel = some level ∧ levels.lookup (Text.upper level) = some shown

namespace Options.InOrder

variable {options : Options} {shown : Bool}

theorem valueText (order : options.InOrder shown) {e : Expr} (formed : e.WellFormed) :
    ∃ value, valueText shown options e = .ok (value, "") := by
  obtain ⟨p, numbers⟩ := exists_boundTo order.numbers
  obtain ⟨d, computed⟩ := formed.exists_evaluate p
  refine ⟨(Operand.number d).text, ?_⟩
  rw [CommandLine.valueText, order.doubles]
  simp only [valueAt_of_boundTo numbers, computed, carry]

/-- There is something to print about every expression of registered operators. -/
theorem report (order : options.InOrder shown) {e : Expr} (formed : e.WellFormed) :
    ∃ output errors, report shown options e = .ok ⟨0, output, errors⟩ := by
  obtain ⟨display, printed⟩ := order.printed
  obtain ⟨value, computed⟩ := order.valueText formed
  simp only [CommandLine.report, printed, computed, pure, Except.pure]
  split
  · exact ⟨_, _, rfl⟩
  · exact ⟨_, _, rfl⟩

theorem runOptions_of_ok (order : options.InOrder shown) {e : Expr}
    (accepted : Parser.parse options.expression = .ok e) :
    runOptions options = CommandLine.report shown options e := by
  obtain ⟨level, given, known⟩ := order.level
  simp only [runOptions, given, known, accepted]

theorem runOptions_of_tooLong (order : options.InOrder shown) {count position : Nat}
    (rejected : Parser.parse options.expression = .error (.tooLong count position)) :
    runOptions options = .error (.tooLong count) := by
  obtain ⟨level, given, known⟩ := order.level
  simp only [runOptions, given, known, rejected]

theorem runOptions_of_malformed (order : options.InOrder shown) {fault : Fault}
    (rejected : Parser.parse options.expression = .error (.malformed fault)) :
    runOptions options = .ok ⟨2, "", debugLine shown "cli" ("Parse failed with " ++
      fault.cause.kind.name) ++ "error: " ++ fault.diagnostic.message ++ "\n"⟩ := by
  obtain ⟨level, given, known⟩ := order.level
  simp only [runOptions, given, known, rejected]

end Options.InOrder

theorem run_of_parsed {arguments : List String} {options : Options}
    (parsed : parseArguments arguments = .ok options) : run arguments = runOptions options := by
  rw [run, parsed]

/-- Any text is the expression behind a double hyphen, with the defaults for all else. -/
theorem parseArguments_separated (text : String) :
    parseArguments ["--", text] = .ok { Taken.nothing.options with expression := text } := rfl

theorem inOrder_separated (text : String) :
    ({ Taken.nothing.options with expression := text } : Options).InOrder false where
  numbers := fun v => ⟨.zero false, by cases v <;> rfl⟩
  printed := ⟨.value, rfl⟩
  doubles := rfl
  level := ⟨"WARNING", rfl, by decide +kernel⟩

section Outcomes

variable {arguments : List String} {options : Options} {shown : Bool}

/-- An expression within the limit of digits is printed. -/
theorem run_of_sentence (parsed : parseArguments arguments = .ok options)
    (order : options.InOrder shown) (sentence : IsSentence options.words)
    (within : ∀ word ∈ options.words, ∀ count, ¬ Overlong word count) :
    ∃ output errors, run arguments = .ok ⟨0, output, errors⟩ := by
  rcases Parser.parse_of_isSentence sentence with ⟨e, accepted⟩ | ⟨count, position, rejected⟩
  · rw [run_of_parsed parsed, order.runOptions_of_ok accepted]
    exact order.report ((Parser.parse_eq_ok_iff _ e).mp accepted).wellFormed
  · have meets : ∃ count, MeetsOverlong options.words count :=
      ⟨count, (Parser.exists_tooLong_iff _ count).mp ⟨position, rejected⟩⟩
    obtain ⟨word, member, count, long⟩ :=
      (Parser.meetsOverlong_iff_of_isSentence sentence).mp meets
    exact absurd long (within word member count)

/-- Any other text, if no integer in it meets the limit, is reported in one line. -/
theorem run_of_not_sentence (parsed : parseArguments arguments = .ok options)
    (order : options.InOrder shown) (other : ¬ IsSentence options.words)
    (within : ∀ count, ¬ MeetsOverlong options.words count) :
    ∃ fault, Parser.parse options.expression = .error (.malformed fault) ∧
      OneLine fault.diagnostic.message ∧
      run arguments = .ok ⟨2, "", debugLine shown "cli" ("Parse failed with " ++
        fault.cause.kind.name) ++ "error: " ++ fault.diagnostic.message ++ "\n"⟩ := by
  cases read : Parser.parse options.expression with
  | ok e => exact absurd ((Parser.parse_eq_ok_iff _ e).mp read).isSentence other
  | error rejection =>
      cases rejection with
      | tooLong count position =>
          exact absurd ((Parser.exists_tooLong_iff _ count).mp ⟨position, read⟩) (within count)
      | malformed fault =>
          refine ⟨fault, rfl, Parser.oneLine_of_malformed read, ?_⟩
          rw [run_of_parsed parsed, order.runOptions_of_malformed read]

/-- Only the limit of digits stops the program. -/
theorem run_eq_error_iff (parsed : parseArguments arguments = .ok options)
    (order : options.InOrder shown) (crash : Crash) :
    run arguments = .error crash ↔
      ∃ count, crash = .tooLong count ∧ MeetsOverlong options.words count := by
  rw [run_of_parsed parsed]
  constructor
  · intro stopped
    cases read : Parser.parse options.expression with
    | ok e =>
        obtain ⟨output, errors, printed⟩ :=
          order.report ((Parser.parse_eq_ok_iff _ e).mp read).wellFormed
        rw [order.runOptions_of_ok read, printed] at stopped
        cases stopped
    | error rejection =>
        cases rejection with
        | tooLong count position =>
            rw [order.runOptions_of_tooLong read] at stopped
            cases stopped
            exact ⟨count, rfl, (Parser.exists_tooLong_iff _ count).mp ⟨position, read⟩⟩
        | malformed fault =>
            rw [order.runOptions_of_malformed read] at stopped
            cases stopped
  · rintro ⟨count, rfl, meets⟩
    obtain ⟨position, rejected⟩ := (Parser.exists_tooLong_iff _ count).mpr meets
    exact order.runOptions_of_tooLong rejected

end Outcomes

/-- With all else in order every text gets its exit code, unless an integer of more digits than are
read stands where an expression may begin. That alone stops the program, its stack being taken as
unbounded: the interpreter gives up on a few hundred nested parentheses. In an expression any such
integer stops it. -/
theorem stopped_by_long_integers_alone {arguments : List String} {options : Options} {shown : Bool}
    (parsed : parseArguments arguments = .ok options) (order : options.InOrder shown) :
    (IsSentence options.words → (∀ word ∈ options.words, ∀ count, ¬ Overlong word count) →
      ∃ output errors, run arguments = .ok ⟨0, output, errors⟩) ∧
    (¬ IsSentence options.words → (∀ count, ¬ MeetsOverlong options.words count) →
      ∃ fault, Parser.parse options.expression = .error (.malformed fault) ∧
        OneLine fault.diagnostic.message ∧
        run arguments = .ok ⟨2, "", debugLine shown "cli" ("Parse failed with " ++
          fault.cause.kind.name) ++ "error: " ++ fault.diagnostic.message ++ "\n"⟩) ∧
    (∀ crash, run arguments = .error crash ↔
      ∃ count, crash = .tooLong count ∧ MeetsOverlong options.words count) ∧
    (IsSentence options.words → ((∃ count, MeetsOverlong options.words count) ↔
      ∃ word ∈ options.words, ∃ count, Overlong word count)) :=
  ⟨run_of_sentence parsed order, run_of_not_sentence parsed order,
    run_eq_error_iff parsed order, Parser.meetsOverlong_iff_of_isSentence⟩

/-- An expression, and the same without its end. -/
theorem stopped_by_long_integers_alone_unclosed :
    (∃ output errors, run ["--", "(+ x 2)"] = .ok ⟨0, output, errors⟩) ∧
      run ["--", "(+ x 2"] = .ok ⟨2, "",
        "error: Unexpected end of input at position 6; expected ); found \"\"\n"⟩ := by
  have whole : Token.ofText "(+ x 2)" =
      [⟨"(", 0, 1⟩, ⟨"+", 1, 2⟩, ⟨"x", 3, 4⟩, ⟨"2", 5, 6⟩, ⟨")", 6, 7⟩] := by decide +kernel
  have open_ : Token.ofText "(+ x 2" =
      [⟨"(", 0, 1⟩, ⟨"+", 1, 2⟩, ⟨"x", 3, 4⟩, ⟨"2", 5, 6⟩] := by decide +kernel
  have accepted : ∃ e, Parser.parse "(+ x 2)" = .ok e := by
    rw [Parser.parse_eq_outcome, whole]
    exact ⟨_, rfl⟩
  have rejected : Parser.parse "(+ x 2" =
      .error (.malformed ⟨.endOfInput .closing, 6⟩) := by
    rw [Parser.parse_eq_outcome, open_]
    rfl
  obtain ⟨e, accepted⟩ := accepted
  have spelled := (Parser.parse_eq_ok_iff _ e).mp accepted
  constructor
  · exact (stopped_by_long_integers_alone (parseArguments_separated "(+ x 2)")
      (inOrder_separated _)).1 spelled.isSentence spelled.not_overlong
  · have other : ¬ IsSentence (Reader.ofText "(+ x 2").words := by
      intro sentence
      rcases Parser.parse_of_isSentence sentence with ⟨e, read⟩ | ⟨count, position, read⟩
      · cases rejected.symm.trans read
      · cases rejected.symm.trans read
    have within : ∀ count, ¬ MeetsOverlong (Reader.ofText "(+ x 2").words count := by
      intro count meets
      obtain ⟨position, read⟩ := (Parser.exists_tooLong_iff _ count).mpr meets
      cases rejected.symm.trans read
    obtain ⟨fault, read, _, reported⟩ := (stopped_by_long_integers_alone
      (parseArguments_separated "(+ x 2") (inOrder_separated _)).2.1 other within
    cases rejected.symm.trans read
    rw [reported]
    decide +kernel

/-- An expression of one integer, with a digit more than are read. -/
theorem stopped_by_long_integer :
    ¬ ∀ (arguments : List String) (options : Options) (shown : Bool),
      parseArguments arguments = .ok options → options.InOrder shown →
      IsSentence options.words → ∃ output errors, run arguments = .ok ⟨0, output, errors⟩ := by
  intro always
  let text := String.ofList (List.replicate 4301 '1')
  have shape : IsInteger text false (List.replicate 4301 '1') :=
    ⟨by rw [Ne, List.replicate_eq_nil_iff]; decide, fun c member => List.eq_of_mem_replicate member ▸ rfl, String.toList_ofList⟩
  obtain ⟨glued, nonempty⟩ := Parser.glued_of_isInteger shape
  have words : (Reader.ofText text).words = [text] :=
    Reader.words_of_alone (Token.alone_of_glued glued nonempty)
  have long : Overlong text 4301 := ⟨false, _, shape, List.length_replicate, by decide⟩
  have meets : MeetsOverlong [text] 4301 :=
    ⟨[], text, [], rfl, ⟨[], .var .x, .named .x⟩, long⟩
  have parsed := parseArguments_separated text
  have order := inOrder_separated text
  have sentence : IsSentence (Reader.ofText text).words := words ▸ IsSentence.integer shape
  obtain ⟨output, errors, printed⟩ := always _ _ _ parsed order sentence
  have stopped : run ["--", text] = .error (.tooLong 4301) :=
    (run_eq_error_iff parsed order _).mpr ⟨4301, rfl, by rw [Options.words, words]; exact meets⟩
  rw [stopped] at printed
  cases printed

end Polish.CommandLine
