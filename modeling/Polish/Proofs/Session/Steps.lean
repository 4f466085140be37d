import Polish.Session.Run

set_option autoImplicit false

namespace Polish

/-- The tree of a source, read without a table. -/
def Source.read : Source → Except Rejection Expr
  | .text written => Parser.parse written
  | .tree e => .ok e

/-- The source of a request for a graph, and whether a kept graph will do. -/
def Request.source? : Request → Option (Bool × Source)
  | .lower useCache source => some (useCache, source)
  | .compile useCache source => some (useCache, source)
  | _ => none

def Request.isReset : Request → Bool
  | .graphCounts reset => reset
  | _ => false

/-- The graph in a reply to a request for one, or why there is none. -/
def Reply.result? : Reply → Option (Except SourceError GraphObject)
  | .lowered object => some (.ok object)
  | .compiled _ c => some (.ok c.graph)
  | .failed error => some (.error error)
  | _ => none

namespace Recent

variable {κ α : Type} {t : Recent κ α}

theorem mem_of_find? [DecidableEq κ] {key : κ} {value : α} (found : t.find? key = some value) :
    (key, value) ∈ t.entries := by
  obtain ⟨front, back, split, _⟩ := List.lookup_eq_some_iff.mp found
  simp [split]

theorem mem_of_mem_use [DecidableEq κ] {key : κ} {value : α} {entry : κ × α}
    (member : entry ∈ (t.use key value).entries) : entry = (key, value) ∨ entry ∈ t.entries := by
  rcases List.mem_cons.mp member with here | there
  · exact Or.inl here
  · exact Or.inr (List.mem_filter.mp there).1

theorem mem_of_mem_store {key : κ} {value : α} {entry : κ × α}
    (member : entry ∈ (t.store key value).entries) : entry = (key, value) ∨ entry ∈ t.entries :=
  List.mem_cons.mp (List.mem_of_mem_take member)

end Recent

/-- Every text in the table has the tree that reading it gives. -/
def Faithful (texts : Recent String Expr) : Prop :=
  ∀ entry ∈ texts.entries, Parser.parse entry.1 = .ok entry.2

/-- The kept graphs with their trees, and the identity of the next graph. -/
structure Shelf where
  graphs : List (Expr × GraphObject)
  next : Nat

namespace Shelf

/-- What lowering a tree gives and leaves. The flag says whether kept graphs are looked at. -/
inductive Lowers (sharing : Bool) (t : Shelf) (e : Expr) :
    Bool → Except LoweringError GraphObject → Shelf → Prop where
  | refused {value : Datum} (found : e.unhashable? = some value) :
      Lowers sharing t e true (.error (.unhashable value.kindName)) t
  | recalled {key : Expr} {object : GraphObject} (kept : (key, object) ∈ t.graphs)
      (same : e.same key = true) : Lowers sharing t e true (.ok object) t
  | failed {looked : Bool} {error : LoweringError}
      (failed : e.lowerWritten sharing = .error error) :
      Lowers sharing t e looked (.error error) t
  | added {graph : Graph} (new : ∀ entry ∈ t.graphs, e.same entry.1 = false)
      (lowered : e.lowerWritten sharing = .ok graph) :
      Lowers sharing t e true (.ok ⟨t.next, graph⟩)
        ⟨(e, ⟨t.next, graph⟩) :: t.graphs, t.next + 1⟩
  | passed {graph : Graph} (lowered : e.lowerWritten sharing = .ok graph) :
      Lowers sharing t e false (.ok ⟨t.next, graph⟩) ⟨t.graphs, t.next + 1⟩

/-- What a request gives and leaves. -/
inductive Moves (settings : Settings) (t : Shelf) (request : Request) :
    Option (Except SourceError GraphObject) → Shelf → Prop where
  | idle (other : request.source? = none) (keeps : request.isReset = false) :
      Moves settings t request none t
  | cleared (other : request.source? = none) (reset : request.isReset = true) :
      Moves settings t request none ⟨[], t.next⟩
  | rejected {useCache : Bool} {source : Source} {rejection : Rejection}
      (asks : request.source? = some (useCache, source)) (read : source.read = .error rejection) :
      Moves settings t request (some (.error (.rejected rejection))) t
  | lowers {useCache : Bool} {source : Source} {e : Expr}
      {result : Except LoweringError GraphObject} {after : Shelf}
      (asks : request.source? = some (useCache, source)) (read : source.read = .ok e)
      (lowers : t.Lowers settings.sharing e (useCache && settings.keepsGraphs) result after) :
      Moves settings t request (some (result.mapError .lowering)) after

end Shelf

namespace Session

variable {s : Session}

def shelf (s : Session) : Shelf := ⟨s.graphs, s.nextGraph⟩

theorem tree_eq (faithful : Faithful s.texts) (source : Source) :
    ∃ texts, Faithful texts ∧ s.tree source = (source.read, { s with texts }) := by
  cases source with
  | tree e => exact ⟨s.texts, faithful, rfl⟩
  | text text =>
      rw [tree, Source.read]
      cases found : s.texts.find? text with
      | some e =>
          have same : Parser.parse text = .ok e := faithful _ (Recent.mem_of_find? found)
          refine ⟨s.texts.use text e, ?_, by simp only [same]⟩
          intro entry member
          rcases Recent.mem_of_mem_use member with rfl | before
          · exact same
          · exact faithful entry before
      | none =>
          cases parsed : Parser.parse text with
          | error rejection => exact ⟨s.texts.miss, faithful, rfl⟩
          | ok e =>
              refine ⟨s.texts.miss.store text e, ?_, rfl⟩
              intro entry member
              rcases Recent.mem_of_mem_store member with rfl | before
              · exact parsed
              · exact faithful entry before

theorem kept?_eq_some {e : Expr} {object : GraphObject} (found : s.kept? e = some object) :
    ∃ key, (key, object) ∈ s.graphs ∧ e.same key = true := by
  obtain ⟨entry, there, rfl⟩ := Option.map_eq_some_iff.mp found
  exact ⟨entry.1, List.mem_of_find?_eq_some there, by simpa using List.find?_some there⟩

theorem kept?_eq_none {e : Expr} (missing : s.kept? e = none) :
    ∀ entry ∈ s.graphs, e.same entry.1 = false := by
  simpa [kept?] using missing

theorem create_eq (s : Session) (e : Expr) :
    (∃ error, e.lowerWritten s.settings.sharing = .error error ∧ s.create e = (.error error, s)) ∨
    ∃ graph, e.lowerWritten s.settings.sharing = .ok graph ∧
      s.create e = (.ok ⟨s.nextGraph, graph⟩, { s with nextGraph := s.nextGraph + 1 }) := by
  unfold create
  cases e.lowerWritten s.settings.sharing with
  | error error => exact Or.inl ⟨error, rfl, rfl⟩
  | ok graph => exact Or.inr ⟨graph, rfl, rfl⟩

theorem lowerTree_lowers (s : Session) (useCache : Bool) (e : Expr) :
    s.shelf.Lowers s.settings.sharing e (useCache && s.settings.keepsGraphs)
      (s.lowerTree useCache e).1 (s.lowerTree useCache e).2.shelf := by
  unfold lowerTree
  cases useCache && s.settings.keepsGraphs with
  | false =>
      rcases s.create_eq e with ⟨error, failed, created⟩ | ⟨graph, lowered, created⟩
      · simpa [created] using .failed failed
      · simpa [created] using .passed lowered
  | true =>
      cases found : e.unhashable? with
      | some value => exact .refused found
      | none =>
          cases known : s.kept? e with
          | some object =>
              obtain ⟨key, kept, same⟩ := kept?_eq_some known
              exact .recalled kept same
          | none =>
              have new := kept?_eq_none known
              rcases ({ s with misses := s.misses + 1 } : Session).create_eq e with
                ⟨error, failed, created⟩ | ⟨graph, lowered, created⟩
              · simpa [known, created] using .failed failed
              · simpa [known, created] using .added new lowered

/-- The tree of a source is lowered when there is one. -/
theorem lower_eq (faithful : Faithful s.texts) (useCache : Bool) (source : Source) :
    ∃ texts, Faithful texts ∧
      ((∃ rejection, source.read = .error rejection ∧
        s.lower useCache source = (.error (.rejected rejection), { s with texts })) ∨
      ∃ e, source.read = .ok e ∧
        (s.lower useCache source).1.map (·.2) =
          (({ s with texts } : Session).lowerTree useCache e).1.mapError .lowering ∧
        (s.lower useCache source).2 = (({ s with texts } : Session).lowerTree useCache e).2) := by
  obtain ⟨texts, faithful', read⟩ := tree_eq faithful source
  refine ⟨texts, faithful', ?_⟩
  unfold lower
  rw [read]
  cases source.read with
  | error rejection => exact Or.inl ⟨rejection, rfl, rfl⟩
  | ok e =>
      refine Or.inr ⟨e, rfl, ?_⟩
      dsimp only
      split <;> rename_i lowered <;> rw [lowered] <;> exact ⟨rfl, rfl⟩

theorem create_frame (s : Session) (e : Expr) :
    (s.create e).2.settings = s.settings ∧ (s.create e).2.texts = s.texts := by
  rcases s.create_eq e with ⟨_, _, created⟩ | ⟨_, _, created⟩ <;> simp [created]

/-- Lowering a tree does not touch the settings and the recent texts. -/
theorem lowerTree_frame (s : Session) (useCache : Bool) (e : Expr) :
    (s.lowerTree useCache e).2.settings = s.settings ∧
      (s.lowerTree useCache e).2.texts = s.texts := by
  unfold lowerTree
  split
  · split
    · exact ⟨rfl, rfl⟩
    · split
      · exact ⟨rfl, rfl⟩
      · have frame := create_frame { s with misses := s.misses + 1 } e
        split <;> rename_i made <;> rw [made] at frame <;> exact frame
  · exact s.create_frame e

/-- A request for a graph is answered by lowering its source. -/
theorem step_of_source {request : Request} {useCache : Bool} {source : Source}
    (asks : request.source? = some (useCache, source)) (s : Session) :
    (s.step request).1.result? = some ((s.lower useCache source).1.map (·.2)) ∧
      ∃ compiled, (s.step request).2 = { (s.lower useCache source).2 with compiled } := by
  cases request with
  | lower use asked =>
      cases asks
      rw [step]
      split <;> rename_i lowered <;> rw [lowered] <;> exact ⟨rfl, _, rfl⟩
  | compile use asked =>
      cases asks
      rw [step, compile]
      rcases s.lower useCache source with ⟨_ | ⟨e, object⟩, after⟩ <;> exact ⟨rfl, _, rfl⟩
  | _ => cases asks

/-- Other requests give functions and counts, and a reset clears what is kept. -/
theorem step_of_other {request : Request} (other : request.source? = none) (s : Session) :
    (s.step request).1.result? = none ∧
      ∃ compiled nextFunction, (s.step request).2 =
        { (if request.isReset then s.reset else s) with compiled, nextFunction } := by
  cases request with
  | lower use asked => cases other
  | compile use asked => cases other
  | graphCounts reset => cases reset <;> exact ⟨rfl, _, _, rfl⟩
  | textCounts => exact ⟨rfl, _, _, rfl⟩
  | jit index =>
      rw [step]
      cases s.compiled[index]? with
      | none => exact ⟨rfl, _, _, rfl⟩
      | some c =>
          simp only [jit]
          cases c.jit <;> exact ⟨rfl, _, _, rfl⟩
  | mapped index inAxes outAxes =>
      rw [step]
      cases s.compiled[index]? with
      | none => exact ⟨rfl, _, _, rfl⟩
      | some c =>
          simp only [mapped]
          split
          · split <;> exact ⟨rfl, _, _, rfl⟩
          · exact ⟨rfl, _, _, rfl⟩
  | gradient index selection =>
      rw [step]
      cases s.compiled[index]? with
      | none => exact ⟨rfl, _, _, rfl⟩
      | some c =>
          simp only [gradient]
          split <;> exact ⟨rfl, _, _, rfl⟩

/-- Every request moves the shelf, and leaves the settings and faithful texts. -/
theorem step_moves (faithful : Faithful s.texts) (request : Request) :
    s.shelf.Moves s.settings request (s.step request).1.result? (s.step request).2.shelf ∧
      Faithful (s.step request).2.texts ∧ (s.step request).2.settings = s.settings := by
  cases asks : request.source? with
  | none =>
      obtain ⟨result, _, _, after⟩ := step_of_other asks s
      rw [result, after]
      cases reset : request.isReset with
      | true => exact ⟨.cleared asks reset, faithful, rfl⟩
      | false => exact ⟨.idle asks reset, faithful, rfl⟩
  | some asked =>
      obtain ⟨useCache, source⟩ := asked
      obtain ⟨result, _, answered⟩ := step_of_source asks s
      rw [result, answered]
      obtain ⟨known, faithful', rejected | ⟨e, read, lowered, after⟩⟩ :=
        lower_eq faithful useCache source
      · obtain ⟨rejection, read, lowered⟩ := rejected
        rw [lowered]
        exact ⟨.rejected asks read, faithful', rfl⟩
      · obtain ⟨settings', texts'⟩ := lowerTree_frame { s with texts := known } useCache e
        rw [lowered, after]
        refine ⟨.lowers asks read (lowerTree_lowers { s with texts := known } useCache e), ?_,
          settings'⟩
        exact texts' ▸ faithful'

end Session

end Polish
