import Mathlib.Data.List.Pairwise
import Polish.Proofs.Expr.Rereading
import Polish.Proofs.Session.Steps

set_option autoImplicit false

namespace Polish

def Source.HasNoNaN : Source → Prop
  | .text _ => True
  | .tree e => e.HasNoNaN

def Request.HasNoNaN (request : Request) : Prop := ∀ asked ∈ request.source?, asked.2.HasNoNaN

/-- A graph that was asked for and given: whether a kept one would do, the tree, and the graph. -/
structure Lowering where
  useCache : Bool
  tree : Expr
  object : GraphObject

def lowering? (request : Request) (reply : Reply) : Option Lowering :=
  match request.source?, reply.result? with
  | some (useCache, source), some (.ok object) =>
      match source.read with
      | .ok tree => some ⟨useCache, tree, object⟩
      | .error _ => none
  | _, _ => none

theorem lowering?_eq_some {request : Request} {reply : Reply} {a : Lowering}
    (given : lowering? request reply = some a) :
    ∃ source, request.source? = some (a.useCache, source) ∧ source.read = .ok a.tree ∧
      reply.result? = some (.ok a.object) := by
  unfold lowering? at given
  split at given
  · rename_i useCache source object asks result
    split at given
    · rename_i tree read
      cases given
      exact ⟨source, asks, read, result⟩
    · cases given
  · cases given

theorem Source.hasNoNaN_of_read {source : Source} (apart : source.HasNoNaN) {e : Expr}
    (read : source.read = .ok e) : e.HasNoNaN := by
  cases source with
  | text text => exact fun value member => (Parser.ordinary_of_parse read _ member).1
  | tree built =>
      cases read
      exact apart

namespace Shelf

variable {t after : Shelf}

/-- The invariant of the kept graphs: each is known by one tree and one identity, and the next
identity is a new one. -/
structure Keyed (t : Shelf) : Prop where
  free : ∀ entry ∈ t.graphs, entry.1.NaNFree
  below : ∀ entry ∈ t.graphs, entry.2.identity < t.next
  apart : t.graphs.Pairwise fun p q =>
    p.1.canonical ≠ q.1.canonical ∧ p.2.identity ≠ q.2.identity

/-- The graph is kept for trees equal to this one. -/
def Holds (t : Shelf) (e : Expr) (object : GraphObject) : Prop :=
  ∃ key, (key, object) ∈ t.graphs ∧ key.canonical = e.canonical

/-- The identity was given to a graph that is not kept. -/
def Spent (t : Shelf) (identity : Nat) : Prop :=
  identity < t.next ∧ ∀ entry ∈ t.graphs, entry.2.identity ≠ identity

/-- Neither a tree nor an identity belongs to two kept graphs. -/
theorem Keyed.eq_of_mem (keyed : t.Keyed) {p q : Expr × GraphObject} (first : p ∈ t.graphs)
    (second : q ∈ t.graphs)
    (same : p.1.canonical = q.1.canonical ∨ p.2.identity = q.2.identity) : p = q := by
  have symmetric : Std.Symm fun p q : Expr × GraphObject =>
      p.1.canonical ≠ q.1.canonical ∧ p.2.identity ≠ q.2.identity :=
    ⟨fun _ _ apart => ⟨apart.1.symm, apart.2.symm⟩⟩
  by_contra other
  have apart := keyed.apart.forall first second other
  exact same.elim apart.1 apart.2

/-- Trees are looked up by their normal forms. -/
theorem Keyed.same_iff (keyed : t.Keyed) {entry : Expr × GraphObject} (member : entry ∈ t.graphs)
    (e : Expr) : e.same entry.1 = true ↔ e.canonical = entry.1.canonical :=
  Expr.same_iff_canonical (keyed.free entry member)

theorem Keyed.lowers {sharing looked : Bool} {e : Expr} {result : Except LoweringError GraphObject}
    (keyed : t.Keyed) (apart : e.HasNoNaN) (lowers : t.Lowers sharing e looked result after) :
    after.Keyed := by
  have later : ∀ entry ∈ t.graphs, entry.2.identity < t.next + 1 :=
    fun entry member => Nat.lt_succ_of_lt (keyed.below entry member)
  cases lowers with
  | refused found => exact keyed
  | recalled kept same => exact keyed
  | failed failed => exact keyed
  | passed lowered => exact ⟨keyed.free, later, keyed.apart⟩
  | added new lowered =>
      refine ⟨?_, ?_, List.pairwise_cons.mpr ⟨?_, keyed.apart⟩⟩
      · exact List.forall_mem_cons.mpr ⟨Expr.naNFree_of_lowerWritten apart lowered, keyed.free⟩
      · exact List.forall_mem_cons.mpr ⟨Nat.lt_succ_self _, later⟩
      · intro entry member
        -- A kept graph of an equal tree would have been found.
        constructor
        · intro same
          have found := (keyed.same_iff member e).mpr same
          rw [new entry member] at found
          cases found
        · exact (Nat.ne_of_lt (keyed.below entry member)).symm

/-- A graph that is given is kept for its tree, or not at all if kept graphs are not looked at. -/
theorem Keyed.given {sharing looked : Bool} {e : Expr} {object : GraphObject} (keyed : t.Keyed)
    (lowers : t.Lowers sharing e looked (.ok object) after) :
    if looked then after.Holds e object else after.Spent object.identity := by
  cases lowers with
  | recalled kept same => exact ⟨_, kept, ((keyed.same_iff kept e).mp same).symm⟩
  | added new lowered => exact ⟨e, List.mem_cons_self, rfl⟩
  | passed lowered =>
      exact ⟨Nat.lt_succ_self _, fun entry member => Nat.ne_of_lt (keyed.below entry member)⟩

theorem Holds.lowers {sharing looked : Bool} {e e' : Expr} {object : GraphObject}
    {result : Except LoweringError GraphObject} (holds : t.Holds e object)
    (lowers : t.Lowers sharing e' looked result after) : after.Holds e object := by
  obtain ⟨key, kept, same⟩ := holds
  cases lowers with
  | added new lowered => exact ⟨key, List.mem_cons_of_mem _ kept, same⟩
  | _ => exact ⟨key, kept, same⟩

theorem Spent.lowers {sharing looked : Bool} {e : Expr} {identity : Nat}
    {result : Except LoweringError GraphObject} (spent : t.Spent identity)
    (lowers : t.Lowers sharing e looked result after) : after.Spent identity := by
  obtain ⟨before, gone⟩ := spent
  cases lowers with
  | added new lowered =>
      exact ⟨Nat.lt_succ_of_lt before,
        List.forall_mem_cons.mpr ⟨(Nat.ne_of_lt before).symm, gone⟩⟩
  | passed lowered => exact ⟨Nat.lt_succ_of_lt before, gone⟩
  | _ => exact ⟨before, gone⟩

/-- A kept graph comes back for the trees equal to its own, if kept graphs are looked at. -/
theorem Holds.returns {sharing looked : Bool} {e e' : Expr} {object object' : GraphObject}
    (holds : t.Holds e object) (keyed : t.Keyed)
    (lowers : t.Lowers sharing e' looked (.ok object') after) :
    (object.identity = object'.identity ↔ looked = true ∧ e.canonical = e'.canonical) ∧
      (object.identity = object'.identity → object = object') := by
  obtain ⟨key, kept, same⟩ := holds
  have newer : object.identity ≠ t.next := Nat.ne_of_lt (keyed.below _ kept)
  cases lowers with
  | @recalled key' _ kept' same' =>
      have same' := (keyed.same_iff kept' e').mp same'
      constructor
      · constructor
        · intro identity
          cases keyed.eq_of_mem kept kept' (Or.inr identity)
          exact ⟨rfl, by rw [same', ← same]⟩
        · rintro ⟨_, equal⟩
          cases keyed.eq_of_mem kept kept' (Or.inl (by rw [same, equal, same']))
          rfl
      · intro identity
        cases keyed.eq_of_mem kept kept' (Or.inr identity)
        rfl
  | added new lowered =>
      have other : e.canonical ≠ e'.canonical := by
        intro equal
        have found := (keyed.same_iff kept e').mpr (by rw [← equal, same])
        rw [new _ kept] at found
        cases found
      simp [newer, other]
  | passed lowered => simp [newer]

/-- An identity of a graph that is not kept does not come back. -/
theorem Spent.returns {sharing looked : Bool} {e : Expr} {identity : Nat} {object : GraphObject}
    (spent : t.Spent identity) (lowers : t.Lowers sharing e looked (.ok object) after) :
    identity ≠ object.identity := by
  cases lowers with
  | recalled kept same => exact (spent.2 _ kept).symm
  | added new lowered => exact Nat.ne_of_lt spent.1
  | passed lowered => exact Nat.ne_of_lt spent.1

/-- A tree that has a graph has kernels for its operators, and no plain value stands in it. -/
theorem Keyed.naNFree {sharing looked : Bool} {e : Expr} {object : GraphObject} (keyed : t.Keyed)
    (apart : e.HasNoNaN) (lowers : t.Lowers sharing e looked (.ok object) after) : e.NaNFree := by
  cases lowers with
  | recalled kept same =>
      rw [← Expr.naNFree_canonical, (keyed.same_iff kept e).mp same, Expr.naNFree_canonical]
      exact keyed.free _ kept
  | added new lowered => exact Expr.naNFree_of_lowerWritten apart lowered
  | passed lowered => exact Expr.naNFree_of_lowerWritten apart lowered

theorem Lowers.ok_of_parse {sharing looked : Bool} {text : String} {e : Expr}
    {result : Except LoweringError GraphObject} (accepted : Parser.parse text = .ok e)
    (lowers : t.Lowers sharing e looked result after) : ∃ object, result = .ok object := by
  cases lowers with
  | refused found =>
      rw [Expr.unhashable?_of_over (Parser.ordinary_of_parse accepted)] at found
      cases found
  | failed failed =>
      obtain ⟨graph, lowered⟩ := Parser.exists_lowerWritten_of_parse sharing accepted
      rw [lowered] at failed
      cases failed
  | recalled kept same => exact ⟨_, rfl⟩
  | added new lowered => exact ⟨_, rfl⟩
  | passed lowered => exact ⟨_, rfl⟩

theorem isReset_of_asks {request : Request} {asked : Bool × Source}
    (asks : request.source? = some asked) : request.isReset = false := by
  cases request with
  | graphCounts reset => cases asks
  | _ => rfl

variable {settings : Settings} {request : Request} {result : Option (Except SourceError GraphObject)}

theorem Keyed.moves (keyed : t.Keyed) (apart : request.HasNoNaN)
    (moves : t.Moves settings request result after) : after.Keyed := by
  cases moves with
  | idle other keeps => exact keyed
  | cleared other reset => exact ⟨by simp, by simp, .nil⟩
  | rejected asks read => exact keyed
  | lowers asks read lowers =>
      exact keyed.lowers (Source.hasNoNaN_of_read (apart _ asks) read) lowers

theorem Holds.moves {e : Expr} {object : GraphObject} (holds : t.Holds e object)
    (moves : t.Moves settings request result after) (keeps : request.isReset = false) :
    after.Holds e object := by
  cases moves with
  | idle other keeps => exact holds
  | cleared other reset =>
      rw [reset] at keeps
      cases keeps
  | rejected asks read => exact holds
  | lowers asks read lowers => exact holds.lowers lowers

theorem Spent.moves {identity : Nat} (spent : t.Spent identity)
    (moves : t.Moves settings request result after) : after.Spent identity := by
  cases moves with
  | idle other keeps => exact spent
  | cleared other reset => exact ⟨spent.1, by simp⟩
  | rejected asks read => exact spent
  | lowers asks read lowers => exact spent.lowers lowers

/-- A reset spends all identities that were given. -/
theorem Holds.reset {e : Expr} {object : GraphObject} (holds : t.Holds e object) (keyed : t.Keyed)
    (moves : t.Moves settings request result after) (reset : request.isReset = true) :
    after.Spent object.identity := by
  obtain ⟨key, kept, _⟩ := holds
  cases moves with
  | idle other keeps =>
      rw [reset] at keeps
      cases keeps
  | cleared other reset => exact ⟨keyed.below _ kept, by simp⟩
  | rejected asks read =>
      rw [isReset_of_asks asks] at reset
      cases reset
  | lowers asks read lowers =>
      rw [isReset_of_asks asks] at reset
      cases reset

end Shelf

namespace Session

variable {s : Session} {settings : Settings} {requests : List Request}

/-- What holds of a session in every run. -/
structure Ready (settings : Settings) (s : Session) : Prop where
  settings : s.settings = settings
  faithful : Faithful s.texts
  keyed : s.shelf.Keyed

theorem ready_start (settings : Settings) : (start settings).Ready settings :=
  ⟨rfl, by simp [Faithful, start, Recent.empty], by simp [shelf, start], by simp [shelf, start],
    .nil⟩

theorem Ready.moves (ready : s.Ready settings) (request : Request) :
    s.shelf.Moves settings request (s.step request).1.result? (s.step request).2.shelf :=
  ready.settings ▸ (step_moves ready.faithful request).1

theorem Ready.step (ready : s.Ready settings) {request : Request} (apart : request.HasNoNaN) :
    (s.step request).2.Ready settings := by
  obtain ⟨_, faithful, same⟩ := step_moves ready.faithful request
  exact ⟨same.trans ready.settings, faithful, ready.keyed.moves apart (ready.moves request)⟩

theorem Ready.run (ready : s.Ready settings) (apart : ∀ request ∈ requests, request.HasNoNaN) :
    (s.run requests).2.Ready settings := by
  induction requests generalizing s with
  | nil => exact ready
  | cons request requests ih =>
      exact ih (ready.step (apart request (by simp)))
        fun request member => apart request (List.mem_cons_of_mem _ member)

theorem Ready.spent_run (ready : s.Ready settings)
    (apart : ∀ request ∈ requests, request.HasNoNaN) {identity : Nat}
    (spent : s.shelf.Spent identity) : (s.run requests).2.shelf.Spent identity := by
  induction requests generalizing s with
  | nil => exact spent
  | cons request requests ih =>
      exact ih (ready.step (apart request (by simp)))
        (fun request member => apart request (List.mem_cons_of_mem _ member))
        (spent.moves (ready.moves request))

/-- Without a reset a kept graph stays, and a reset spends its identity. -/
theorem Ready.holds_run (ready : s.Ready settings)
    (apart : ∀ request ∈ requests, request.HasNoNaN) {e : Expr} {object : GraphObject}
    (holds : s.shelf.Holds e object) :
    ((∀ request ∈ requests, request.isReset = false) ∧
        (s.run requests).2.shelf.Holds e object) ∨
      ((∃ request ∈ requests, request.isReset = true) ∧
        (s.run requests).2.shelf.Spent object.identity) := by
  induction requests generalizing s with
  | nil => exact Or.inl ⟨by simp, holds⟩
  | cons request requests ih =>
      have ready' := ready.step (apart request (by simp))
      have apart' : ∀ request ∈ requests, request.HasNoNaN :=
        fun request member => apart request (List.mem_cons_of_mem _ member)
      cases reset : request.isReset with
      | true =>
          have spent := holds.reset ready.keyed (ready.moves request) reset
          exact Or.inr ⟨⟨request, by simp, reset⟩, ready'.spent_run apart' spent⟩
      | false =>
          rcases ih ready' apart' (holds.moves (ready.moves request) reset) with
            ⟨none_, kept⟩ | ⟨⟨other, member, reset'⟩, spent⟩
          · exact Or.inl ⟨List.forall_mem_cons.mpr ⟨reset, none_⟩, kept⟩
          · exact Or.inr ⟨⟨other, List.mem_cons_of_mem _ member, reset'⟩, spent⟩

/-- A lowering moves the shelf by lowering its tree. -/
theorem Ready.lowers (ready : s.Ready settings) (keeps : settings.keepsGraphs = true)
    {request : Request} {a : Lowering} (given : lowering? request (s.step request).1 = some a) :
    s.shelf.Lowers settings.sharing a.tree a.useCache (.ok a.object)
      (s.step request).2.shelf := by
  obtain ⟨source, asks, read, object⟩ := lowering?_eq_some given
  have moves := ready.moves request
  rw [object] at moves
  generalize (s.step request).2.shelf = after at moves ⊢
  generalize given' : some (Except.ok a.object) = result at moves
  cases moves with
  | idle other keeps => cases given'
  | cleared other reset => cases given'
  | rejected asks' read' => cases given'
  | @lowers useCache source' e result after asks' read' lowers =>
      cases result with
      | error error => cases given'
      | ok object =>
          cases given'
          rw [asks] at asks'
          cases asks'
          rw [read] at read'
          cases read'
          rw [keeps, Bool.and_true] at lowers
          exact lowers

/-- A text that is accepted is lowered. -/
theorem Ready.lowering_of_text (ready : s.Ready settings) {request : Request} {useCache : Bool}
    {text : String} (asks : request.source? = some (useCache, .text text)) {e : Expr}
    (accepted : Parser.parse text = .ok e) :
    ∃ object, lowering? request (s.step request).1 = some ⟨useCache, e, object⟩ := by
  have moves := ready.moves request
  unfold lowering?
  generalize (s.step request).1.result? = result at moves ⊢
  generalize (s.step request).2.shelf = after at moves
  cases moves with
  | idle other keeps => simp [asks] at other
  | cleared other reset => simp [asks] at other
  | rejected asks' read =>
      rw [asks] at asks'
      cases asks'
      rw [Source.read, accepted] at read
      cases read
  | @lowers useCache' source e' result after asks' read lowers =>
      rw [asks] at asks'
      cases asks'
      rw [Source.read, accepted] at read
      cases read
      obtain ⟨object, rfl⟩ := lowers.ok_of_parse accepted
      have made : (Except.ok object).mapError SourceError.lowering = .ok object := rfl
      exact ⟨object, by simp only [asks, made, Source.read, accepted]⟩

/-- Two lowerings with other requests between them. -/
theorem Ready.same_graph_iff (ready : s.Ready settings) (keeps : settings.keepsGraphs = true)
    {first second : Request} (apart : first.HasNoNaN) (apart' : second.HasNoNaN)
    (between : ∀ request ∈ requests, request.HasNoNaN) {a b : Lowering}
    (given : lowering? first (s.step first).1 = some a)
    (given' : lowering? second (((s.step first).2.run requests).2.step second).1 = some b) :
    (a.object.identity = b.object.identity ↔
      a.useCache = true ∧ b.useCache = true ∧ a.tree.same b.tree = true ∧
        ∀ request ∈ requests, request.isReset = false) ∧
    (a.object.identity = b.object.identity → a.object = b.object) := by
  have later := (ready.step apart).run between
  have lowers := later.lowers keeps given'
  have free : b.tree.NaNFree := by
    obtain ⟨source, asks, read, _⟩ := lowering?_eq_some given'
    exact later.keyed.naNFree (Source.hasNoNaN_of_read (apart' _ asks) read) lowers
  have standing := ready.keyed.given (ready.lowers keeps given)
  cases looked : a.useCache with
  | false =>
      -- The graph is not kept, so its identity is spent from the start.
      rw [looked] at standing
      have differ := ((ready.step apart).spent_run between standing).returns lowers
      simp [differ]
  | true =>
      rw [looked] at standing
      rcases (ready.step apart).holds_run between standing with
        ⟨keptOn, holds⟩ | ⟨⟨request, member, reset⟩, spent⟩
      · obtain ⟨same, object⟩ := holds.returns later.keyed lowers
        refine ⟨?_, object⟩
        rw [same, Expr.same_iff_canonical free]
        exact ⟨fun ⟨looked', equal⟩ => ⟨rfl, looked', equal, keptOn⟩,
          fun ⟨_, looked', equal, _⟩ => ⟨looked', equal⟩⟩
      · have differ := spent.returns lowers
        refine ⟨iff_of_false differ ?_, fun same => absurd same differ⟩
        rintro ⟨_, _, _, none_⟩
        rw [none_ request member] at reset
        cases reset

/-- A run is continued from the session that its first requests leave. -/
theorem run_append (s : Session) (front back : List Request) :
    s.run (front ++ back) =
      ((s.run front).1 ++ ((s.run front).2.run back).1, ((s.run front).2.run back).2) := by
  induction front generalizing s with
  | nil => rfl
  | cons request front ih =>
      have rest := ih (s.step request).2
      simp only [List.cons_append, run, rest]

/-- The lowering that a request is when a new session has answered others. -/
def loweringAfter? (settings : Settings) (past : List Request) (request : Request) :
    Option Lowering :=
  lowering? request (((start settings).run past).2.step request).1

/-- Of two requests in a run whose trees have no NaN, both get the same graph exactly if kept
graphs are good enough for both, the trees are equal, and no reset stands between them. So a graph
that is not to be kept, and the first one for its tree since a reset, is none of the earlier ones.
Texts that are accepted always get a graph, the same one exactly if their trees are written in the
same way, however many texts are remembered. -/
theorem same_graph_iff_same_tree (settings : Settings) (keeps : settings.keepsGraphs = true)
    (front middle : List Request) (first second : Request)
    (apart : ∀ request ∈ front ++ first :: middle ++ [second], request.HasNoNaN) :
    (∀ a b, loweringAfter? settings front first = some a →
      loweringAfter? settings (front ++ first :: middle) second = some b →
      (a.object.identity = b.object.identity ↔
        a.useCache = true ∧ b.useCache = true ∧ a.tree.same b.tree = true ∧
          ∀ request ∈ middle, request.isReset = false) ∧
      (a.object.identity = b.object.identity → a.object = b.object)) ∧
    (∀ text text' e e', first.source? = some (true, .text text) →
      second.source? = some (true, .text text') →
      Parser.parse text = .ok e → Parser.parse text' = .ok e' →
      (∀ request ∈ middle, request.isReset = false) →
      ∃ a b, loweringAfter? settings front first = some a ∧
        loweringAfter? settings (front ++ first :: middle) second = some b ∧
        (a.object.identity = b.object.identity ↔ e.prefixText = e'.prefixText)) := by
  simp only [List.mem_append, List.mem_cons, List.not_mem_nil, or_false] at apart
  have ready := (ready_start settings).run fun request member =>
    apart request (Or.inl (Or.inl member))
  have apartFirst := apart first (Or.inl (Or.inr (Or.inl rfl)))
  have apartSecond := apart second (Or.inr rfl)
  have between : ∀ request ∈ middle, request.HasNoNaN := fun request member =>
    apart request (Or.inl (Or.inr (Or.inr member)))
  have past : ((start settings).run (front ++ first :: middle)).2 =
      ((((start settings).run front).2.step first).2.run middle).2 := by
    rw [run_append]
    rfl
  unfold loweringAfter?
  rw [past]
  have pair := fun a b => ready.same_graph_iff (a := a) (b := b) keeps apartFirst apartSecond between
  refine ⟨pair, ?_⟩
  intro text text' e e' asks asks' accepted accepted' none_
  obtain ⟨object, given⟩ := ready.lowering_of_text asks accepted
  obtain ⟨object', given'⟩ :=
    ((ready.step apartFirst).run between).lowering_of_text asks' accepted'
  refine ⟨_, _, given, given', ?_⟩
  rw [(pair _ _ given given').1, ← Parser.same_iff_prefixText accepted accepted']
  exact ⟨fun ⟨_, _, same, _⟩ => same, fun same => ⟨rfl, rfl, same, none_⟩⟩

/-- A text gets its graph back in another layout and after the text was forgotten, and an equal
tree gets a new graph after a reset. -/
theorem same_graph_iff_same_tree_forgotten :
    (∃ a b, loweringAfter? ⟨1, true, true⟩ [] (.lower true (.text "x")) = some a ∧
      loweringAfter? ⟨1, true, true⟩ [.lower true (.text "x"), .lower true (.text "y")]
        (.compile true (.text " x")) = some b ∧
      a.object.identity = b.object.identity) ∧
    ∃ a b, loweringAfter? ⟨1, true, true⟩ [] (.lower true (.tree (.const (.integer 1)))) = some a ∧
      loweringAfter? ⟨1, true, true⟩ [.lower true (.tree (.const (.integer 1))), .graphCounts true]
        (.lower true (.tree (.const (.truth true)))) = some b ∧
      a.tree.same b.tree = true ∧ a.object.identity ≠ b.object.identity := by
  constructor
  · have plain : Parser.parse "x" = .ok (.var .x) := by
      have tokens : Token.ofText "x" = [⟨"x", 0, 1⟩] := by decide +kernel
      rw [Parser.parse_eq_outcome, tokens]
      rfl
    have spaced : Parser.parse " x" = .ok (.var .x) := by
      have tokens : Token.ofText " x" = [⟨"x", 1, 2⟩] := by decide +kernel
      rw [Parser.parse_eq_outcome, tokens]
      rfl
    obtain ⟨a, b, first, second, same⟩ := (same_graph_iff_same_tree ⟨1, true, true⟩ rfl []
      [.lower true (.text "y")] (.lower true (.text "x")) (.compile true (.text " x"))
      (by simp [Request.HasNoNaN, Request.source?, Source.HasNoNaN])).2 "x" " x" _ _ rfl rfl
      plain spaced (by simp [Request.isReset])
    exact ⟨a, b, first, second, same.mpr rfl⟩
  · have one : loweringAfter? ⟨1, true, true⟩ [] (.lower true (.tree (.const (.integer 1)))) =
        some ⟨true, .const (.integer 1), 0,
          ⟨[⟨0, .constant (.double (.ofInt .double 1))⟩], 0⟩⟩ := rfl
    have yes : loweringAfter? ⟨1, true, true⟩
        ([] ++ .lower true (.tree (.const (.integer 1))) :: [.graphCounts true])
        (.lower true (.tree (.const (.truth true)))) = some ⟨true, .const (.truth true), 1,
          ⟨[⟨0, .constant (.double (.ofInt .double 1))⟩], 0⟩⟩ := rfl
    have differ := ((same_graph_iff_same_tree ⟨1, true, true⟩ rfl [] [.graphCounts true] _ _
      (by simp [Request.HasNoNaN, Request.source?, Source.HasNoNaN, Expr.HasNoNaN, Expr.labels])).1
      _ _ one yes).1
    refine ⟨_, _, one, yes, by decide, fun same => ?_⟩
    have none_ := (differ.mp same).2.2.2 (.graphCounts true) (by simp)
    cases none_

end Session

end Polish
