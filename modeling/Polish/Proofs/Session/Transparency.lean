import Polish.Proofs.Expr.Rereading
import Polish.Proofs.Session.Steps

set_option autoImplicit false

namespace Polish

/-- A text, or a tree of registered operators with no NaN and no negative zero in it. -/
def Source.Ordinary : Source → Prop
  | .text _ => True
  | .tree e => e.Registered ∧ ∀ value, .constant value ∈ e.labels → value.Ordinary

def Request.Ordinary (request : Request) : Prop :=
  ∀ asked ∈ request.source?, asked.2.Ordinary

/-- The graph that a reply gives, or the error; nothing for replies to other requests. -/
def Reply.graph? (reply : Reply) : Option (Except SourceError Graph) :=
  reply.result?.map fun result => result.map (·.graph)

def Source.graph (sharing : Bool) (source : Source) : Except SourceError Graph :=
  match source.read with
  | .error rejection => .error (.rejected rejection)
  | .ok e => (e.lowerWritten sharing).mapError .lowering

def Request.graph? (sharing : Bool) (request : Request) : Option (Except SourceError Graph) :=
  request.source?.map fun asked => asked.2.graph sharing

theorem Source.ordinary_of_read {source : Source} (ordinary : source.Ordinary) {e : Expr}
    (read : source.read = .ok e) : e.Ordinary := by
  cases source with
  | text text => exact Parser.ordinary_of_parse read
  | tree built =>
      cases read
      exact Expr.Over.mono ordinary.1.supported.covered ordinary.2

namespace Shelf

variable {settings : Settings} {t after : Shelf}

/-- Every kept graph is the one of its tree. -/
def Sound (sharing : Bool) (t : Shelf) : Prop :=
  ∀ entry ∈ t.graphs, entry.1.Ordinary ∧ entry.1.lowerWritten sharing = .ok entry.2.graph

theorem Lowers.graph {sharing looked : Bool} {e : Expr} {result : Except LoweringError GraphObject}
    (lowers : t.Lowers sharing e looked result after) (sound : t.Sound sharing)
    (ordinary : e.Ordinary) :
    result.map (·.graph) = e.lowerWritten sharing ∧ after.Sound sharing := by
  cases lowers with
  | refused found =>
      rw [Expr.unhashable?_of_over ordinary] at found
      cases found
  | recalled kept same =>
      obtain ⟨ordinary', lowered⟩ := sound _ kept
      rw [Expr.lowerWritten_of_same sharing ordinary ordinary' same, lowered]
      exact ⟨rfl, sound⟩
  | failed failed => exact ⟨failed.symm, sound⟩
  | added new lowered =>
      exact ⟨lowered.symm, List.forall_mem_cons.mpr ⟨⟨ordinary, lowered⟩, sound⟩⟩
  | passed lowered => exact ⟨lowered.symm, sound⟩

theorem Moves.graph {request : Request} {result : Option (Except SourceError GraphObject)}
    (moves : t.Moves settings request result after) (sound : t.Sound settings.sharing)
    (ordinary : request.Ordinary) :
    (result.map fun result => result.map (·.graph)) = request.graph? settings.sharing ∧
      after.Sound settings.sharing := by
  cases moves with
  | idle other keeps => exact ⟨by rw [Request.graph?, other]; rfl, sound⟩
  | cleared other reset => exact ⟨by rw [Request.graph?, other]; rfl, by simp [Sound]⟩
  | rejected asks read =>
      refine ⟨?_, sound⟩
      rw [Request.graph?, asks, Option.map_some, Option.map_some, Source.graph, read]
      rfl
  | lowers asks read lowers =>
      obtain ⟨graph, sound'⟩ := lowers.graph sound (Source.ordinary_of_read (ordinary _ asks) read)
      refine ⟨?_, sound'⟩
      rw [Request.graph?, asks, Option.map_some, Option.map_some, Source.graph, read]
      simp only [← graph]
      rename_i result
      cases result <;> rfl

end Shelf

namespace Session

variable {s : Session}

theorem graph?_step (faithful : Faithful s.texts) (sound : s.shelf.Sound s.settings.sharing)
    {request : Request} (ordinary : request.Ordinary) :
    (s.step request).1.graph? = request.graph? s.settings.sharing ∧
      Faithful (s.step request).2.texts ∧ (s.step request).2.settings = s.settings ∧
      (s.step request).2.shelf.Sound s.settings.sharing := by
  obtain ⟨moves, faithful', settings⟩ := step_moves faithful request
  obtain ⟨graph, sound'⟩ := moves.graph sound ordinary
  exact ⟨graph, faithful', settings, sound'⟩

/-- Every request of a run gets the graph it is for. -/
theorem graph?_run {requests : List Request} (faithful : Faithful s.texts)
    (sound : s.shelf.Sound s.settings.sharing)
    (ordinary : ∀ request ∈ requests, request.Ordinary) :
    (s.run requests).1.map Reply.graph? =
      requests.map (Request.graph? s.settings.sharing) := by
  induction requests generalizing s with
  | nil => rfl
  | cons request requests ih =>
      obtain ⟨graph, faithful', settings, sound'⟩ :=
        graph?_step faithful sound (ordinary request (by simp))
      rw [← settings] at sound'
      have rest := ih faithful' sound' fun request member =>
        ordinary request (List.mem_cons_of_mem _ member)
      rw [settings] at rest
      rw [run, List.map_cons, List.map_cons, graph, rest]

/-- In every run each request gets the graph, or the error, that a new session gives with the same
choice on sharing, however many texts it remembers and whether it keeps graphs or not. -/
theorem graphs_as_in_new_session (settings new : Settings) (requests : List Request)
    (ordinary : ∀ request ∈ requests, request.Ordinary) (likewise : new.sharing = settings.sharing) :
    ((start settings).run requests).1.map Reply.graph? =
      requests.map fun request => ((start new).step request).1.graph? := by
  have faithful : ∀ settings, Faithful (start settings).texts := by simp [Faithful, start, Recent.empty]
  have sound : ∀ settings sharing, (start settings).shelf.Sound sharing := by
    simp [Shelf.Sound, shelf, start]
  rw [graph?_run (faithful settings) (sound _ _) ordinary]
  refine List.map_congr_left fun request member => ?_
  rw [(graph?_step (faithful new) (sound _ _) (ordinary request member)).1]
  exact congrArg (Request.graph? · request) likewise.symm

/-- An equal tree gets the kept graph, which is also the graph it has where none is kept. -/
theorem graphs_as_in_new_session_truth :
    ((start ⟨1, true, true⟩).run [.lower true (.tree (.const (.integer 1))),
      .compile true (.tree (.const (.truth true))), .graphCounts true,
      .lower true (.text "x")]).1.map Reply.graph? =
    [some (.ok ⟨[⟨0, .constant (.double (.ofInt .double 1))⟩], 0⟩),
      some (.ok ⟨[⟨0, .constant (.double (.ofInt .double 1))⟩], 0⟩), none,
      some (.ok ⟨[⟨0, .argument (some "x")⟩], 0⟩)] := by
  have read : Parser.parse "x" = .ok (.var .x) := by
    have tokens : Token.ofText "x" = [⟨"x", 0, 1⟩] := by decide +kernel
    rw [Parser.parse_eq_outcome, tokens]
    rfl
  have named : ((start ⟨512, false, true⟩).step (.lower true (.text "x"))).1.graph? =
      some (.ok ⟨[⟨0, .argument (some "x")⟩], 0⟩) := by
    simp only [step, lower, tree, read]
    rfl
  have one : (Source.tree (.const (.integer 1))).Ordinary :=
    ⟨.const _, by simp [Expr.labels, Number.Ordinary]⟩
  have yes : (Source.tree (.const (.truth true))).Ordinary :=
    ⟨.const _, by simp [Expr.labels, Number.Ordinary]⟩
  have word : (Source.text "x").Ordinary := trivial
  rw [graphs_as_in_new_session ⟨1, true, true⟩ ⟨512, false, true⟩ _ ?_ rfl]
  · rw [List.map_cons, List.map_cons, List.map_cons, List.map_cons, List.map_nil, named]
    rfl
  · simp [Request.Ordinary, Request.source?, one, yes, word]

end Session

end Polish
