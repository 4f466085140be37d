import Mathlib.Data.List.DropRight
import Mathlib.Data.List.Perm.Subperm
import Polish.Proofs.Session.Identity

set_option autoImplicit false

namespace Polish

/-- A request that looked for a kept graph of its tree, and whether it ended in an error. -/
structure LookUp where
  tree : Expr
  failed : Bool

/-- The look-up in a request and the reply to it. A text that is not accepted has no tree to look
up, and a tree with a list or a table in it is refused before. -/
def lookUp? (request : Request) (reply : Reply) : Option LookUp :=
  match request.source?, reply.result? with
  | some (true, source), some result =>
      match source.read with
      | .ok tree => if tree.unhashable?.isNone then some ⟨tree, !result.isOk⟩ else none
      | .error _ => none
  | _, _ => none

namespace LookUp

def lowered (lookUps : List LookUp) : List Expr :=
  (lookUps.filter fun lookUp => !lookUp.failed).map (·.tree)

theorem lowered_concat (lookUps : List LookUp) (last : LookUp) :
    lowered (lookUps ++ [last]) =
      lowered lookUps ++ if last.failed then [] else [last.tree] := by
  cases failed : last.failed <;> simp [lowered, failed]

end LookUp

/-- The kept trees are trees of the list, no two of them equal, and each of the list equals one. -/
structure Represents (kept trees : List Expr) : Prop where
  among : ∀ key ∈ kept, key ∈ trees
  unequal : kept.Pairwise fun a b => a.same b = false
  covers : ∀ e ∈ trees, ∃ key ∈ kept, e.same key = true

namespace Represents

variable {kept other trees : List Expr}

/-- A tree that equals one without a NaN has none either. -/
theorem naNFree (represents : Represents kept trees) (free : ∀ key ∈ kept, key.NaNFree) :
    ∀ e ∈ trees, e.NaNFree := by
  intro e member
  obtain ⟨key, kept, same⟩ := represents.covers e member
  have equal := (Expr.same_iff_canonical (free key kept)).mp same
  rw [← Expr.naNFree_canonical, equal, Expr.naNFree_canonical]
  exact free key kept

theorem nodup_canonical (represents : Represents kept trees) (free : ∀ e ∈ trees, e.NaNFree) :
    (kept.map Expr.canonical).Nodup := by
  refine List.pairwise_map.mpr (represents.unequal.imp_of_mem ?_)
  intro a b _ member unequal equal
  have same := (Expr.same_iff_canonical (free b (represents.among b member))).mpr equal
  rw [unequal] at same
  cases same

theorem length_le (represents : Represents kept trees) (others : Represents other trees)
    (free : ∀ e ∈ trees, e.NaNFree) : kept.length ≤ other.length := by
  have inside : kept.map Expr.canonical ⊆ other.map Expr.canonical := by
    intro form member
    obtain ⟨key, here, rfl⟩ := List.mem_map.mp member
    obtain ⟨key', there, same⟩ := others.covers key (represents.among key here)
    have free' := free key' (others.among key' there)
    exact List.mem_map.mpr ⟨key', there, ((Expr.same_iff_canonical free').mp same).symm⟩
  have shorter := (List.subperm_of_subset (represents.nodup_canonical free) inside).length_le
  simpa using shorter

/-- However the trees are represented, it takes as many. -/
theorem length_eq (represents : Represents kept trees) (others : Represents other trees)
    (free : ∀ e ∈ trees, e.NaNFree) : kept.length = other.length :=
  Nat.le_antisymm (represents.length_le others free) (others.length_le represents free)

/-- A tree that equals a kept one needs no other. -/
theorem concat_known (represents : Represents kept trees) {e key : Expr} (member : key ∈ kept)
    (same : e.same key = true) : Represents kept (trees ++ [e]) where
  among := fun key member => List.mem_append_left _ (represents.among key member)
  unequal := represents.unequal
  covers := by
    intro e' member'
    rcases List.mem_append.mp member' with before | last
    · exact represents.covers e' before
    · rw [List.mem_singleton.mp last]
      exact ⟨key, member, same⟩

/-- A tree that equals no kept one is kept. -/
theorem concat_new (represents : Represents kept trees) {e : Expr} (free : e.NaNFree)
    (new : ∀ key ∈ kept, e.same key = false) : Represents (e :: kept) (trees ++ [e]) where
  among := by
    intro key member
    rcases List.mem_cons.mp member with rfl | before
    · exact List.mem_append_right _ (List.mem_singleton_self _)
    · exact List.mem_append_left _ (represents.among key before)
  unequal := List.pairwise_cons.mpr ⟨new, represents.unequal⟩
  covers := by
    intro e' member'
    rcases List.mem_append.mp member' with before | last
    · obtain ⟨key, member, same⟩ := represents.covers e' before
      exact ⟨key, List.mem_cons_of_mem _ member, same⟩
    · rw [List.mem_singleton.mp last]
      exact ⟨e, List.mem_cons_self, (Expr.same_iff_canonical free).mpr rfl⟩

end Represents

/-- The counts of a session, and the trees whose graphs are kept. -/
structure Tally where
  hits : Nat
  misses : Nat
  trees : List Expr

namespace Tally

def zero : Tally := ⟨0, 0, []⟩

/-- What a look-up does to the counts. -/
inductive LooksUp (t : Tally) : LookUp → Tally → Prop where
  | hit {e key : Expr} (kept : key ∈ t.trees) (same : e.same key = true) :
      LooksUp t ⟨e, false⟩ { t with hits := t.hits + 1 }
  | added {e : Expr} (new : ∀ key ∈ t.trees, e.same key = false) :
      LooksUp t ⟨e, false⟩ { t with misses := t.misses + 1, trees := e :: t.trees }
  | failed {e : Expr} : LooksUp t ⟨e, true⟩ { t with misses := t.misses + 1 }

/-- What a request does to the counts. The first flag says whether graphs are kept at all, the
second whether the request is a reset. -/
inductive Moves (keeps : Bool) (t : Tally) : Bool → Option LookUp → Tally → Prop where
  | cleared : Moves keeps t true none zero
  | uncounted : Moves keeps t false none t
  | unkept {lookUp? : Option LookUp} (off : keeps = false) : Moves keeps t false lookUp? t
  | counted {lookUp : LookUp} {after : Tally} (on : keeps = true)
      (looksUp : t.LooksUp lookUp after) : Moves keeps t false (some lookUp) after

/-- The counts agree with the look-ups. -/
structure Balanced (t : Tally) (lookUps : List LookUp) : Prop where
  looked : t.hits + t.misses = lookUps.length
  missed : t.misses = t.trees.length + lookUps.countP (·.failed)
  kept : Represents t.trees (LookUp.lowered lookUps)

variable {t after : Tally} {lookUps : List LookUp}

/-- Counts of zero stay when no graphs are kept. -/
theorem Moves.of_off {reset : Bool} {lookUp? : Option LookUp}
    (moves : zero.Moves false reset lookUp? after) : after = zero := by
  cases moves with
  | cleared => rfl
  | uncounted => rfl
  | unkept off => rfl
  | counted on looksUp => cases on

theorem balanced_zero : zero.Balanced [] :=
  ⟨rfl, rfl, by simp [zero], by simp [zero], by simp [LookUp.lowered]⟩

theorem Balanced.looksUp (balanced : t.Balanced lookUps) {last : LookUp}
    (looksUp : t.LooksUp last after) (free : ∀ key ∈ after.trees, key.NaNFree) :
    after.Balanced (lookUps ++ [last]) := by
  obtain ⟨looked, missed, kept⟩ := balanced
  cases looksUp with
  | hit member same =>
      refine ⟨?_, ?_, ?_⟩
      · simp only [List.length_append, List.length_singleton]
        omega
      · simpa using missed
      · rw [LookUp.lowered_concat]
        exact kept.concat_known member same
  | added new =>
      refine ⟨?_, ?_, ?_⟩
      · simp only [List.length_append, List.length_singleton]
        omega
      · simp only [List.length_cons, List.countP_append, List.countP_singleton]
        simp only [Bool.false_eq_true, ↓reduceIte]
        omega
      · rw [LookUp.lowered_concat]
        exact kept.concat_new (free _ List.mem_cons_self) new
  | failed =>
      refine ⟨?_, ?_, ?_⟩
      · simp only [List.length_append, List.length_singleton]
        omega
      · simp only [List.countP_append, List.countP_singleton, ↓reduceIte]
        omega
      · rw [LookUp.lowered_concat]
        simpa using kept

theorem Balanced.moves (balanced : t.Balanced lookUps) {reset : Bool} {last? : Option LookUp}
    (moves : t.Moves true reset last? after) (free : ∀ key ∈ after.trees, key.NaNFree) :
    after.Balanced (if reset then [] else lookUps ++ last?.toList) := by
  cases moves with
  | cleared => exact balanced_zero
  | uncounted => simpa using balanced
  | unkept off => cases off
  | counted on looksUp => exact balanced.looksUp looksUp free

end Tally

namespace Shelf

variable {t after : Shelf}

theorem Lowers.eq_of_error {sharing looked : Bool} {e : Expr} {error : LoweringError}
    (lowers : t.Lowers sharing e looked (.error error) after) : after = t := by
  cases lowers with
  | refused found => rfl
  | failed failed => rfl

/-- A request that fails leaves the kept graphs as they are. -/
theorem Moves.eq_of_error {settings : Settings} {request : Request} {error : SourceError}
    (moves : t.Moves settings request (some (.error error)) after) : after = t := by
  generalize reply : some (Except.error error) = result at moves
  cases moves with
  | idle other keeps => rfl
  | cleared other reset => cases reply
  | rejected asks read => rfl
  | @lowers _ _ _ result _ asks read lowers =>
      cases result with
      | error error => exact lowers.eq_of_error
      | ok object => cases reply

end Shelf

namespace Session

variable {s : Session} {settings : Settings}

def tally (s : Session) : Tally := ⟨s.hits, s.misses, s.graphs.map (·.1)⟩

theorem tally_create (s : Session) (e : Expr) : (s.create e).2.tally = s.tally := by
  rcases s.create_eq e with ⟨_, _, created⟩ | ⟨_, _, created⟩ <;> simp only [created, tally]

/-- Without kept graphs, and for a tree that no table is keyed by, nothing is counted. -/
theorem tally_lowerTree (s : Session) (useCache : Bool) (e : Expr)
    (passes : (useCache && s.settings.keepsGraphs) = false ∨ e.unhashable?.isSome) :
    (s.lowerTree useCache e).2.tally = s.tally := by
  rw [lowerTree]
  cases looks : useCache && s.settings.keepsGraphs with
  | false => exact s.tally_create e
  | true =>
      rw [looks] at passes
      obtain ⟨value, found⟩ := Option.isSome_iff_exists.mp (passes.resolve_left (by decide))
      rw [found]
      rfl

theorem looksUp_lowerTree (keeps : s.settings.keepsGraphs = true) {e : Expr}
    (hashable : e.unhashable? = none) :
    s.tally.LooksUp ⟨e, !(s.lowerTree true e).1.isOk⟩ (s.lowerTree true e).2.tally := by
  rw [lowerTree, keeps, hashable]
  cases known : s.kept? e with
  | some object =>
      obtain ⟨key, kept, same⟩ := kept?_eq_some known
      exact .hit (List.mem_map_of_mem kept) same
  | none =>
      have new : ∀ key ∈ s.tally.trees, e.same key = false :=
        List.forall_mem_map.mpr (kept?_eq_none known)
      rcases ({ s with misses := s.misses + 1 } : Session).create_eq e with
        ⟨error, _, created⟩ | ⟨graph, _, created⟩
      · simp only [created]
        exact .failed
      · simp only [created]
        exact .added new

/-- A request that asks for no graph counts as no look-up. -/
theorem lookUp?_of_other {request : Request} (other : request.source? = none) (reply : Reply) :
    lookUp? request reply = none := by
  rw [lookUp?, other]

/-- The look-up in a request for a graph whose source has a tree. -/
theorem lookUp?_of_read {request : Request} {useCache : Bool} {source : Source} {e : Expr}
    {reply : Reply} {result : Except LoweringError GraphObject}
    (asks : request.source? = some (useCache, source)) (read : source.read = .ok e)
    (replied : reply.result? = some (result.mapError .lowering)) :
    lookUp? request reply =
      if useCache && e.unhashable?.isNone then some ⟨e, !result.isOk⟩ else none := by
  rw [lookUp?, asks, replied]
  cases useCache with
  | false => rfl
  | true =>
      simp only [read, Bool.true_and]
      cases result <;> rfl

/-- Every request moves the counts by its look-up. -/
theorem tally_step (faithful : Faithful s.texts) (request : Request) :
    s.tally.Moves s.settings.keepsGraphs request.isReset (lookUp? request (s.step request).1)
      (s.step request).2.tally := by
  cases asks : request.source? with
  | none =>
      obtain ⟨_, _, _, after⟩ := step_of_other asks s
      rw [lookUp?_of_other asks, after]
      cases request.isReset with
      | true => exact .cleared
      | false => exact .uncounted
  | some asked =>
      obtain ⟨useCache, source⟩ := asked
      obtain ⟨result, _, answered⟩ := step_of_source asks s
      rw [Shelf.isReset_of_asks asks, answered]
      obtain ⟨known, _, ⟨rejection, read, lowered⟩ | ⟨e, read, lowered, after⟩⟩ :=
        lower_eq faithful useCache source
      · have uncounted : lookUp? request (s.step request).1 = none := by
          rw [lookUp?, asks, result]
          cases useCache <;> simp only [read]
        rw [uncounted, lowered]
        exact .uncounted
      · rw [lowered] at result
        rw [lookUp?_of_read asks read result, after]
        -- The texts that are remembered by now are not counted.
        have frame : ({ s with texts := known } : Session).tally = s.tally := rfl
        have passes := tally_lowerTree { s with texts := known } useCache e
        rw [frame] at passes
        cases keeps : s.settings.keepsGraphs with
        | false =>
            have same := passes (Or.inl (by simp [keeps]))
            exact same ▸ .unkept rfl
        | true =>
            by_cases looks : useCache && e.unhashable?.isNone
            · rw [if_pos looks]
              rw [Bool.and_eq_true, Option.isNone_iff_eq_none] at looks
              obtain ⟨rfl, hashable⟩ := looks
              have looksUp := looksUp_lowerTree (s := { s with texts := known }) keeps hashable
              exact .counted rfl looksUp
            · rw [if_neg looks]
              have same := passes (by
                cases useCache with
                | false => exact Or.inl rfl
                | true =>
                    rw [Bool.true_and, Option.isNone_iff_eq_none] at looks
                    exact Or.inr (Option.isSome_iff_ne_none.mpr looks))
              exact same ▸ .uncounted

/-- The requests that a new session has answered, each with its reply. -/
def answered (settings : Settings) (requests : List Request) : List (Request × Reply) :=
  requests.zip ((start settings).run requests).1

/-- The look-ups in a run since the last reset. -/
def lookUps (settings : Settings) (requests : List Request) : List LookUp :=
  ((answered settings requests).rtakeWhile fun pair => !pair.1.isReset).filterMap
    fun pair => lookUp? pair.1 pair.2

theorem length_run (s : Session) (requests : List Request) :
    (s.run requests).1.length = requests.length := by
  induction requests generalizing s with
  | nil => rfl
  | cons request requests ih => simp only [run, List.length_cons, ih]

theorem answered_concat (settings : Settings) (requests : List Request) (last : Request) :
    answered settings (requests ++ [last]) =
      answered settings requests ++ [(last, (((start settings).run requests).2.step last).1)] := by
  rw [answered, run_append, List.zip_append (length_run _ _).symm]
  rfl

theorem lookUps_concat (settings : Settings) (requests : List Request) (last : Request) :
    lookUps settings (requests ++ [last]) =
      if last.isReset then []
      else lookUps settings requests ++
        (lookUp? last (((start settings).run requests).2.step last).1).toList := by
  rw [lookUps, answered_concat, List.rtakeWhile_concat]
  cases reset : last.isReset with
  | true => simp
  | false =>
      simp only [Bool.not_false, ↓reduceIte, List.filterMap_append, Bool.false_eq_true, lookUps]
      cases found : lookUp? last (((start settings).run requests).2.step last).1 <;> simp [found]

/-- Whatever is asked, the settings stay and the recent texts have their trees. -/
theorem run_faithful (faithful : Faithful s.texts) (requests : List Request) :
    Faithful (s.run requests).2.texts ∧ (s.run requests).2.settings = s.settings := by
  induction requests generalizing s with
  | nil => exact ⟨faithful, rfl⟩
  | cons request requests ih =>
      obtain ⟨_, faithful', settings⟩ := step_moves faithful request
      obtain ⟨faithful'', settings'⟩ := ih faithful'
      exact ⟨faithful'', settings'.trans settings⟩

theorem balanced_run (keeps : settings.keepsGraphs = true) (requests : List Request)
    (apart : ∀ request ∈ requests, request.HasNoNaN) :
    ((start settings).run requests).2.tally.Balanced (lookUps settings requests) := by
  induction requests using List.reverseRecOn with
  | nil => exact Tally.balanced_zero
  | append_singleton requests last ih =>
      have before : ∀ request ∈ requests, request.HasNoNaN := fun request member =>
        apart request (List.mem_append_left _ member)
      have ready := (ready_start settings).run before
      have moves := tally_step ready.faithful last
      have free := (ready.step (apart last (by simp))).keyed.free
      rw [ready.settings, keeps] at moves
      rw [run_append, lookUps_concat]
      exact (ih before).moves moves (List.forall_mem_map.mpr free)

/-- Without kept graphs nothing is ever counted. -/
theorem tally_run_of_off (off : settings.keepsGraphs = false) (requests : List Request) :
    ((start settings).run requests).2.tally = .zero := by
  induction requests using List.reverseRecOn with
  | nil => rfl
  | append_singleton requests last ih =>
      obtain ⟨faithful, same⟩ := run_faithful (ready_start settings).faithful requests
      have moves := tally_step faithful last
      have none_ : (start settings).settings.keepsGraphs = false := off
      rw [same, none_, ih] at moves
      rw [run_append]
      exact moves.of_off

/-- The counts that a session reports agree with the look-ups. -/
structure CountsBalance (lookUps : List LookUp) (hits misses entries : Nat) : Prop where
  looked : hits + misses = lookUps.length
  represented : ∃ kept, Represents kept (LookUp.lowered lookUps)
  unequal : ∀ kept, Represents kept (LookUp.lowered lookUps) → entries = kept.length
  missed : misses = entries + lookUps.countP (·.failed)

/-- In every run without a NaN the counts of kept graphs agree with the look-ups since the last
reset: each is a hit or a miss, there is an entry for each of the unequal trees that have a graph,
and the other misses ended in errors. A request that fails leaves the kept graphs as they are.
Where no graphs are kept the counts are zero. -/
theorem counts_balance (settings : Settings) (requests : List Request) :
    (settings.keepsGraphs = true → (∀ request ∈ requests, request.HasNoNaN) →
      ∃ hits misses entries, CountsBalance (lookUps settings requests) hits misses entries ∧
        ∀ reset, (((start settings).run requests).2.step (.graphCounts reset)).1 =
          .graphCounts hits misses entries) ∧
    (∀ request error,
      (((start settings).run requests).2.step request).1 = .failed error →
      (((start settings).run requests).2.step request).2.graphs =
        ((start settings).run requests).2.graphs) ∧
    (settings.keepsGraphs = false →
      ∀ reset, (((start settings).run requests).2.step (.graphCounts reset)).1 =
        .graphCounts 0 0 0) := by
  refine ⟨?_, ?_, ?_⟩
  · intro keeps apart
    have balanced := balanced_run keeps requests apart
    have ready := (ready_start settings).run apart
    have free := balanced.kept.naNFree (List.forall_mem_map.mpr ready.keyed.free)
    have counted : ((start settings).run requests).2.tally.trees.length =
        ((start settings).run requests).2.graphs.length := List.length_map _
    refine ⟨_, _, _, ⟨balanced.looked, ⟨_, balanced.kept⟩, ?_, ?_⟩, fun reset => rfl⟩
    · intro kept represents
      rw [← counted]
      exact balanced.kept.length_eq represents free
    · rw [← counted]
      exact balanced.missed
  · intro request error failed
    obtain ⟨faithful, _⟩ := run_faithful (ready_start settings).faithful requests
    have moves := (step_moves faithful request).1
    rw [failed] at moves
    exact congrArg Shelf.graphs moves.eq_of_error
  · intro off reset
    have zero := tally_run_of_off off requests
    have hits : ((start settings).run requests).2.hits = 0 := congrArg Tally.hits zero
    have misses : ((start settings).run requests).2.misses = 0 := congrArg Tally.misses zero
    have trees : ((start settings).run requests).2.graphs = [] :=
      List.map_eq_nil_iff.mp (congrArg Tally.trees zero)
    rw [step, hits, misses, trees, List.length_nil]

/-- An equal tree is a hit, and a plain value is a miss that keeps nothing. -/
theorem counts_balance_plain_value :
    CountsBalance
      [⟨.const (.integer 1), false⟩, ⟨.const (.truth true), false⟩, ⟨.foreign .nothing, true⟩]
      1 2 1 ∧
    (((start ⟨1, true, true⟩).run [.lower true (.tree (.const (.integer 1)))]).2.step
      (.compile true (.tree (.foreign .nothing)))).2.graphs.length = 1 ∧
    (((start ⟨1, false, true⟩).run [.lower true (.tree (.var .x))]).2.step
      (.graphCounts false)).1 = .graphCounts 0 0 0 := by
  refine ⟨?_, ?_, ?_⟩
  · obtain ⟨hits, misses, entries, balance, counts⟩ := (counts_balance ⟨1, true, true⟩
      [.lower true (.tree (.const (.integer 1))), .compile true (.tree (.const (.truth true))),
        .lower true (.tree (.foreign .nothing))]).1 rfl (by
      simp [Request.HasNoNaN, Request.source?, Source.HasNoNaN, Expr.HasNoNaN, Expr.labels])
    have reported : Reply.graphCounts 1 2 1 = .graphCounts hits misses entries := counts false
    cases reported
    exact balance
  · rw [(counts_balance ⟨1, true, true⟩ [.lower true (.tree (.const (.integer 1)))]).2.1
      (.compile true (.tree (.foreign .nothing))) _ rfl]
    rfl
  · exact (counts_balance ⟨1, false, true⟩ [.lower true (.tree (.var .x))]).2.2 rfl false

end Session

end Polish
