import Mathlib.Data.Set.Card
import Polish.Proofs.Session.Balance
import Polish.Proofs.Session.Keys

set_option autoImplicit false

namespace Polish

/-- How a function is derived from a compiled expression. -/
inductive Transform where
  | jit
  | mapped (inAxes outAxes : Axes)
  | gradient (selection : Selection)

/-- Whether the function can be looked up; mapped ones are kept by the texts of their axes. -/
def Transform.isWritable : Transform → Bool
  | .mapped inAxes outAxes => inAxes.isWritable && outAxes.isWritable
  | _ => true

/-- The index of the compiled expression to derive a function from, and how. -/
def Request.transform? : Request → Option (Nat × Transform)
  | .jit index => some (index, .jit)
  | .mapped index inAxes outAxes => some (index, .mapped inAxes outAxes)
  | .gradient index selection => some (index, .gradient selection)
  | _ => none

def Reply.identity? : Reply → Option Nat
  | .function identity => some identity
  | .derived identity _ => some identity
  | _ => none

def Transform.reply (c : Compiled) (identity : Nat) : Transform → Reply
  | .jit => .function identity
  | .mapped _ _ => .derived identity c.mapped.length
  | .gradient _ => .derived identity c.gradients.length

structure Derivation where
  index : Nat
  transform : Transform
  identity : Nat

def derivation? (request : Request) (reply : Reply) : Option Derivation :=
  match request.transform?, reply.identity? with
  | some (index, transform), some identity => some ⟨index, transform, identity⟩
  | _, _ => none

/-- A table without repeated keys has an entry for each choice that it has a value for. -/
theorem encard_eq_length {κ α γ : Type} [BEq κ] [LawfulBEq κ] {table : List (κ × α)}
    (nodup : (table.map (·.1)).Nodup) {key : γ → κ} (injective : Function.Injective key)
    (made : ∀ entry ∈ table, ∃ choice, key choice = entry.1) :
    {choice | (table.lookup (key choice)).isSome}.encard = table.length := by
  classical
  have keys : key '' {choice | (table.lookup (key choice)).isSome} =
      ((table.map (·.1)).toFinset : Set κ) := by
    ext k
    simp only [Set.mem_image, Set.mem_ofPred_eq, List.lookup_isSome_iff, beq_iff_eq,
      Finset.mem_coe, List.mem_toFinset, List.mem_map]
    constructor
    · rintro ⟨choice, ⟨entry, member, same⟩, rfl⟩
      exact ⟨entry, member, same.symm⟩
    · rintro ⟨entry, member, rfl⟩
      obtain ⟨choice, same⟩ := made entry member
      exact ⟨choice, ⟨entry, member, same⟩, same⟩
  rw [← injective.encard_image, keys, Set.encard_coe_eq_coe_finsetCard,
    List.toFinset_card_of_nodup nodup, List.length_map]

namespace Compiled

def key (axes : Axes × Axes) : String × String := (axes.1.text, axes.2.text)

theorem key_injective : Function.Injective key := by
  intro axes axes' same
  obtain ⟨first, second⟩ := Prod.mk.inj same
  exact Prod.ext (Axes.text_inj.mp first) (Axes.text_inj.mp second)

def function? (c : Compiled) : Transform → Option Nat
  | .jit => c.jit
  | .mapped inAxes outAxes => c.mapped.lookup (key (inAxes, outAxes))
  | .gradient selection => c.gradients.lookup selection

def remember (c : Compiled) (identity : Nat) : Transform → Compiled
  | .jit => { c with jit := some identity }
  | .mapped inAxes outAxes =>
      { c with mapped := (key (inAxes, outAxes), identity) :: c.mapped }
  | .gradient selection => { c with gradients := (selection, identity) :: c.gradients }

/-- The tables have no key twice, and only texts of axes are keys. -/
structure WellKept (c : Compiled) : Prop where
  mapped : (c.mapped.map (·.1)).Nodup
  written : ∀ entry ∈ c.mapped, ∃ axes, key axes = entry.1
  gradients : (c.gradients.map (·.1)).Nodup

variable {c : Compiled} {transform transform' : Transform} {identity identity' : Nat}

theorem lookup_cons_eq_some_iff {κ : Type} [BEq κ] [LawfulBEq κ] {table : List (κ × Nat)}
    {k : κ} (new : table.lookup k = none) (k' : κ) :
    ((k, identity) :: table).lookup k' = some identity' ↔
      table.lookup k' = some identity' ∨ (k' = k ∧ identity' = identity) := by
  rw [List.lookup_cons]
  cases same : k' == k with
  | true =>
      obtain rfl := eq_of_beq same
      simp [new, eq_comm]
  | false =>
      have other : k' ≠ k := by simpa using same
      simp [other]

/-- What is remembered for one transform does not touch the others. -/
theorem function?_remember (new : c.function? transform = none) :
    (c.remember identity transform).function? transform' = some identity' ↔
      c.function? transform' = some identity' ∨
        (transform' = transform ∧ identity' = identity) := by
  cases transform with
  | jit =>
      cases transform' with
      | jit =>
          rw [function?] at new
          simp [function?, remember, new, eq_comm]
      | mapped inAxes outAxes => simp [function?, remember]
      | gradient selection => simp [function?, remember]
  | mapped inAxes outAxes =>
      cases transform' with
      | jit => simp [function?, remember]
      | mapped inAxes' outAxes' =>
          have same := key_injective.eq_iff (a := (inAxes', outAxes')) (b := (inAxes, outAxes))
          rw [function?] at new
          rw [function?, remember, lookup_cons_eq_some_iff new, same, function?, Prod.mk.injEq,
            Transform.mapped.injEq]
      | gradient selection => simp [function?, remember]
  | gradient selection =>
      cases transform' with
      | jit => simp [function?, remember]
      | mapped inAxes outAxes => simp [function?, remember]
      | gradient selection' =>
          rw [function?] at new
          rw [function?, remember, lookup_cons_eq_some_iff new, function?, Transform.gradient.injEq]

theorem not_mem_keys {κ : Type} [BEq κ] [LawfulBEq κ] {table : List (κ × Nat)} {k : κ}
    (new : table.lookup k = none) : k ∉ table.map (·.1) := by
  intro member
  obtain ⟨entry, there, rfl⟩ := List.mem_map.mp member
  simpa using List.lookup_eq_none_iff.mp new entry there

theorem WellKept.remember (kept : c.WellKept) (new : c.function? transform = none) :
    (c.remember identity transform).WellKept := by
  obtain ⟨mapped, written, gradients⟩ := kept
  cases transform with
  | jit => exact ⟨mapped, written, gradients⟩
  | mapped inAxes outAxes =>
      exact ⟨List.nodup_cons.mpr ⟨not_mem_keys new, mapped⟩,
        List.forall_mem_cons.mpr ⟨⟨_, rfl⟩, written⟩, gradients⟩
  | gradient selection =>
      exact ⟨mapped, written, List.nodup_cons.mpr ⟨not_mem_keys new, gradients⟩⟩

theorem WellKept.encard_mapped (kept : c.WellKept) :
    {axes : Axes × Axes | (c.function? (.mapped axes.1 axes.2)).isSome}.encard = c.mapped.length :=
  encard_eq_length kept.mapped key_injective kept.written

theorem WellKept.encard_gradients (kept : c.WellKept) :
    {selection | (c.function? (.gradient selection)).isSome}.encard = c.gradients.length :=
  encard_eq_length kept.gradients Function.injective_id fun entry _ => ⟨entry.1, rfl⟩

end Compiled

/-- The compiled expressions, and the identity of the next function. -/
structure Bench where
  compiled : List Compiled
  next : Nat

namespace Bench

def Holds (t : Bench) (d : Derivation) : Prop :=
  ∃ c, t.compiled[d.index]? = some c ∧ c.function? d.transform = some d.identity

/-- What a request does, and the function that it gets. -/
inductive Moves (t : Bench) : Option Derivation → Bench → Prop where
  | idle : Moves t none t
  | compiled (object : GraphObject) (source : String) :
      Moves t none ⟨t.compiled ++ [⟨object, source, none, [], []⟩], t.next⟩
  | recalled {d : Derivation} (holds : t.Holds d) : Moves t (some d) t
  | added {index : Nat} {transform : Transform} {c : Compiled}
      (there : t.compiled[index]? = some c) (new : c.function? transform = none) :
      Moves t (some ⟨index, transform, t.next⟩)
        ⟨t.compiled.set index (c.remember t.next transform), t.next + 1⟩

/-- What is remembered are the functions of the list, each derived in one way. -/
structure Records (t : Bench) (made : List Derivation) : Prop where
  known : ∀ d, t.Holds d ↔ d ∈ made
  below : ∀ d ∈ made, d.identity < t.next
  unique : ∀ d ∈ made, ∀ d' ∈ made, d.identity = d'.identity → d = d'
  kept : ∀ c ∈ t.compiled, c.WellKept

variable {t after : Bench} {made : List Derivation} {d d' : Derivation}

/-- Nothing is remembered of an expression that is just compiled. -/
theorem holds_compiled (object : GraphObject) (source : String) :
    Holds ⟨t.compiled ++ [⟨object, source, none, [], []⟩], t.next⟩ d ↔ t.Holds d := by
  constructor
  · rintro ⟨c, there, known⟩
    rw [List.getElem?_append] at there
    split at there
    · exact ⟨c, there, known⟩
    · obtain rfl := List.mem_singleton.mp (List.mem_of_getElem? there)
      cases shape : d.transform <;> rw [shape] at known <;> cases known
  · rintro ⟨c, there, known⟩
    obtain ⟨inside, _⟩ := List.getElem?_eq_some_iff.mp there
    exact ⟨c, by rw [List.getElem?_append, if_pos inside, there], known⟩

/-- A new function is remembered beside the others. -/
theorem holds_added {index : Nat} {transform : Transform} {c : Compiled}
    (there : t.compiled[index]? = some c) (new : c.function? transform = none) :
    Holds ⟨t.compiled.set index (c.remember t.next transform), t.next + 1⟩ d ↔
      t.Holds d ∨ d = ⟨index, transform, t.next⟩ := by
  obtain ⟨inside, _⟩ := List.getElem?_eq_some_iff.mp there
  obtain ⟨index', transform', identity⟩ := d
  by_cases here : index' = index
  · subst here
    simp only [Holds, List.getElem?_set_self inside, there, Option.some.injEq, exists_eq_left',
      Compiled.function?_remember new, Derivation.mk.injEq, true_and]
  · simp only [Holds, List.getElem?_set_ne (Ne.symm here), Derivation.mk.injEq, here, false_and,
      or_false]

theorem records_start : Records ⟨[], 0⟩ [] where
  known := by simp [Holds]
  below := nofun
  unique := nofun
  kept := nofun

theorem Records.compiled (records : t.Records made) (object : GraphObject) (source : String) :
    Records ⟨t.compiled ++ [⟨object, source, none, [], []⟩], t.next⟩ made where
  known := fun d => (holds_compiled object source).trans (records.known d)
  below := records.below
  unique := records.unique
  kept := by
    intro c member
    rcases List.mem_append.mp member with before | last
    · exact records.kept c before
    · rw [List.mem_singleton.mp last]
      exact ⟨.nil, nofun, .nil⟩

/-- A function that comes back is in the list already, so the list says the same. -/
theorem Records.recalled (records : t.Records made) (holds : t.Holds d) :
    t.Records (made ++ [d]) := by
  have member := (records.known d).mp holds
  have same : ∀ d', d' ∈ made ++ [d] ↔ d' ∈ made := fun d' => by
    rw [List.mem_append, List.mem_singleton]
    exact or_iff_left_of_imp fun equal => equal ▸ member
  refine ⟨fun d' => (records.known d').trans (same d').symm,
    fun d' there => records.below d' ((same d').mp there), ?_, records.kept⟩
  intro d' there d'' there'
  exact records.unique d' ((same d').mp there) d'' ((same d'').mp there')

/-- The next identity is no function's yet, so a new function differs from all others. -/
theorem Records.added (records : t.Records made) {index : Nat} {transform : Transform}
    {c : Compiled} (there : t.compiled[index]? = some c) (new : c.function? transform = none) :
    Records ⟨t.compiled.set index (c.remember t.next transform), t.next + 1⟩
      (made ++ [⟨index, transform, t.next⟩]) where
  known := fun d => by
    rw [holds_added there new, records.known, List.mem_append, List.mem_singleton]
  below := by
    intro d member
    rcases List.mem_append.mp member with before | last
    · exact Nat.lt_succ_of_lt (records.below d before)
    · rw [List.mem_singleton.mp last]
      exact Nat.lt_succ_self _
  unique := by
    have fresh : ∀ d ∈ made, d.identity ≠ t.next := fun d member =>
      Nat.ne_of_lt (records.below d member)
    intro d member d' member' same
    rcases List.mem_append.mp member with before | last
    · rcases List.mem_append.mp member' with before' | last'
      · exact records.unique d before d' before' same
      · rw [List.mem_singleton.mp last'] at same
        exact absurd same (fresh d before)
    · rcases List.mem_append.mp member' with before' | last'
      · rw [List.mem_singleton.mp last] at same
        exact absurd same.symm (fresh d' before')
      · rw [List.mem_singleton.mp last, List.mem_singleton.mp last']
  kept := by
    intro c' member
    rcases List.mem_or_eq_of_mem_set member with before | rfl
    · exact records.kept c' before
    · exact (records.kept c (List.mem_of_getElem? there)).remember new

theorem Records.moves (records : t.Records made) {made? : Option Derivation}
    (moves : t.Moves made? after) : after.Records (made ++ made?.toList) := by
  cases moves with
  | idle => rwa [Option.toList_none, List.append_nil]
  | compiled object source =>
      rw [Option.toList_none, List.append_nil]
      exact records.compiled object source
  | recalled holds => exact records.recalled holds
  | added there new => exact records.added there new

/-- A choice made again gets the same function. -/
theorem Records.identity_eq (records : t.Records made) (member : d ∈ made) (member' : d' ∈ made)
    (index : d.index = d'.index) (transform : d.transform = d'.transform) :
    d.identity = d'.identity := by
  obtain ⟨c, there, known⟩ := (records.known d).mpr member
  obtain ⟨c', there', known'⟩ := (records.known d').mpr member'
  rw [index, there'] at there
  rw [transform, ← Option.some.inj there, known'] at known
  exact (Option.some.inj known).symm

theorem Records.isSome_function?_iff (records : t.Records made) {index : Nat} {c : Compiled}
    (there : t.compiled[index]? = some c) (transform : Transform) :
    (c.function? transform).isSome ↔ ∃ identity, ⟨index, transform, identity⟩ ∈ made := by
  rw [Option.isSome_iff_exists]
  refine exists_congr fun identity => ?_
  rw [← records.known]
  exact ⟨fun known => ⟨c, there, known⟩, fun ⟨c', there', known⟩ => by
    rw [there] at there'
    exact Option.some.inj there' ▸ known⟩

end Bench

namespace Session

variable {s : Session}

def bench (s : Session) : Bench := ⟨s.compiled, s.nextFunction⟩

/-- A request for a function of a compiled expression gets the remembered one, or a new one. -/
theorem step_of_transform {request : Request} {index : Nat} {transform : Transform}
    (asks : request.transform? = some (index, transform)) {c : Compiled}
    (there : s.compiled[index]? = some c) (writable : transform.isWritable = true) :
    s.step request =
      match c.function? transform with
      | some identity => (transform.reply c identity, s)
      | none =>
          (transform.reply (c.remember s.nextFunction transform) s.nextFunction,
            s.newFunction index (c.remember s.nextFunction transform)) := by
  cases request with
  | jit index' =>
      cases asks
      simp only [step, there, jit, Compiled.function?]
      cases c.jit <;> rfl
  | mapped index' inAxes outAxes =>
      cases asks
      simp only [Transform.isWritable] at writable
      simp only [step, there, writable, ↓reduceIte, mapped, Compiled.function?, Compiled.key]
      cases c.mapped.lookup (inAxes.text, outAxes.text) <;> rfl
  | gradient index' selection =>
      cases asks
      simp only [step, there, gradient, Compiled.function?]
      cases c.gradients.lookup selection <;> rfl
  | _ => cases asks

/-- Without a compiled expression, or with axes that cannot be written, there is no function. -/
theorem step_of_refused {request : Request} {index : Nat} {transform : Transform}
    (asks : request.transform? = some (index, transform))
    (refused : s.compiled[index]? = none ∨ transform.isWritable = false) :
    (s.step request).1.identity? = none ∧ (s.step request).2 = s := by
  have answer : s.step request = (.absent, s) ∨ s.step request = (.unwritable, s) := by
    cases there : s.compiled[index]? with
    | none => cases request <;> cases asks <;> simp [step, there]
    | some c =>
        rw [there] at refused
        have long := refused.resolve_left (Option.some_ne_none c)
        cases request with
        | mapped index' inAxes outAxes =>
            cases asks
            rw [Transform.isWritable] at long
            simp [step, there, long]
        | jit index' =>
            cases asks
            cases long
        | gradient index' selection =>
            cases asks
            cases long
        | _ => cases asks
  rcases answer with absent | unwritable
  · rw [absent]
    exact ⟨rfl, rfl⟩
  · rw [unwritable]
    exact ⟨rfl, rfl⟩

theorem bench_tree (s : Session) (source : Source) : (s.tree source).2.bench = s.bench := by
  cases source with
  | tree e => rfl
  | text text =>
      rw [tree]
      split
      · rfl
      · split <;> rfl

theorem bench_create (s : Session) (e : Expr) : (s.create e).2.bench = s.bench := by
  rcases s.create_eq e with ⟨_, _, created⟩ | ⟨_, _, created⟩ <;>
    simp only [created, bench]

theorem bench_lowerTree (s : Session) (useCache : Bool) (e : Expr) :
    (s.lowerTree useCache e).2.bench = s.bench := by
  rw [lowerTree]
  split
  · split
    · rfl
    · split
      · rfl
      · have same := bench_create { s with misses := s.misses + 1 } e
        split <;> rename_i created <;> rw [created] at same <;> exact same
  · exact s.bench_create e

/-- Lowering a source derives nothing. -/
theorem bench_lower (s : Session) (useCache : Bool) (source : Source) :
    (s.lower useCache source).2.bench = s.bench := by
  have read := s.bench_tree source
  rw [lower]
  generalize s.tree source = made at read ⊢
  rcases made with ⟨_ | e, after⟩
  · exact read
  · have lowered := after.bench_lowerTree useCache e
    dsimp only
    generalize after.lowerTree useCache e = made at lowered ⊢
    rcases made with ⟨_ | object, after'⟩ <;> exact lowered.trans read

/-- A request for something else gets no function, and compiles at most one expression. -/
theorem moves_of_other {request : Request} (other : request.transform? = none) (s : Session) :
    s.bench.Moves none (s.step request).2.bench := by
  have idle : ∀ {after : Bench}, after = s.bench → s.bench.Moves none after := by
    rintro _ rfl
    exact .idle
  cases request with
  | lower useCache source =>
      have same := s.bench_lower useCache source
      rw [step]
      generalize s.lower useCache source = lowered at same ⊢
      rcases lowered with ⟨_ | object, after⟩ <;> exact idle same
  | compile useCache source =>
      have same := s.bench_lower useCache source
      rw [step, compile]
      generalize s.lower useCache source = lowered at same ⊢
      rcases lowered with ⟨_ | ⟨e, object⟩, after⟩
      · exact idle same
      · rw [← same]
        exact .compiled object _
  | graphCounts reset => cases reset <;> exact .idle
  | textCounts => exact .idle
  | _ => cases other

/-- A request for a function of what is compiled gets one, if its axes can be written. -/
theorem exists_reply {request : Request} {index : Nat} {transform : Transform} {c : Compiled}
    (asks : request.transform? = some (index, transform)) (there : s.compiled[index]? = some c)
    (writable : transform.isWritable = true) :
    ∃ c' identity, (s.step request).2.compiled[index]? = some c' ∧
      (s.step request).1 = transform.reply c' identity := by
  rw [step_of_transform asks there writable]
  cases c.function? transform with
  | some identity => exact ⟨c, identity, there, rfl⟩
  | none =>
      obtain ⟨inside, _⟩ := List.getElem?_eq_some_iff.mp there
      exact ⟨_, _, List.getElem?_set_self inside, rfl⟩

/-- What is compiled gets an index of its own, and nothing is derived from it yet. -/
theorem step_of_compiled {useCache : Bool} {source : Source} {index : Nat} {c : Compiled}
    (replied : (s.step (.compile useCache source)).1 = .compiled index c) :
    s.compiled[index]? = none ∧
      (s.step (.compile useCache source)).2.compiled[index]? = some c ∧
      (∀ transform, c.function? transform = none) ∧
      ∀ (other : Nat) (c' : Compiled), s.compiled[other]? = some c' →
        (s.step (.compile useCache source)).2.compiled[other]? = some c' := by
  have same := s.bench_lower useCache source
  rw [step, compile] at replied ⊢
  generalize s.lower useCache source = lowered at same replied ⊢
  rcases lowered with ⟨_ | ⟨e, object⟩, after⟩
  · cases replied
  · have kept : after.compiled = s.compiled := congrArg Bench.compiled same
    cases replied
    dsimp only
    rw [kept]
    refine ⟨List.getElem?_eq_none (Nat.le_refl _), List.getElem?_concat_length, ?_, ?_⟩
    · rintro (_ | _ | _) <;> rfl
    · intro other c' there
      obtain ⟨inside, _⟩ := List.getElem?_eq_some_iff.mp there
      rw [List.getElem?_append_left inside, there]

theorem identity?_reply (c : Compiled) (identity : Nat) (transform : Transform) :
    (transform.reply c identity).identity? = some identity := by
  cases transform <;> rfl

/-- Every request moves the bench by the function that it gets. -/
theorem bench_step (s : Session) (request : Request) :
    s.bench.Moves (derivation? request (s.step request).1) (s.step request).2.bench := by
  cases asks : request.transform? with
  | none =>
      have none_ : derivation? request (s.step request).1 = none := by rw [derivation?, asks]
      rw [none_]
      exact moves_of_other asks s
  | some asked =>
      obtain ⟨index, transform⟩ := asked
      by_cases refused : s.compiled[index]? = none ∨ transform.isWritable = false
      · obtain ⟨none_, same⟩ := step_of_refused asks refused
        rw [derivation?, asks, none_, same]
        exact .idle
      · obtain ⟨present, writable⟩ := not_or.mp refused
        obtain ⟨c, there⟩ := Option.ne_none_iff_exists'.mp present
        rw [step_of_transform asks there (by simpa using writable)]
        cases known : c.function? transform with
        | some identity =>
            simp only [derivation?, asks, identity?_reply]
            exact .recalled ⟨c, there, known⟩
        | none =>
            simp only [derivation?, asks, identity?_reply]
            exact .added there known

/-- The functions that the requests to a new session have got. -/
def derivations (settings : Settings) (requests : List Request) : List Derivation :=
  (answered settings requests).filterMap fun answer => derivation? answer.1 answer.2

theorem derivations_concat (settings : Settings) (requests : List Request) (last : Request) :
    derivations settings (requests ++ [last]) = derivations settings requests ++
      (derivation? last (((start settings).run requests).2.step last).1).toList := by
  rw [derivations, answered_concat, List.filterMap_append, derivations]
  cases made : derivation? last (((start settings).run requests).2.step last).1 <;> simp [made]

theorem records_run (settings : Settings) (requests : List Request) :
    ((start settings).run requests).2.bench.Records (derivations settings requests) := by
  induction requests using List.reverseRecOn with
  | nil => exact Bench.records_start
  | append_singleton requests last ih =>
      rw [run_append, derivations_concat]
      exact ih.moves (bench_step _ last)

/-- The ways in which requests have derived functions from a compiled expression. -/
def choices (settings : Settings) (requests : List Request) (index : Nat) : Set Transform :=
  {transform | ∃ identity, ⟨index, transform, identity⟩ ∈ derivations settings requests}

theorem choices_of_absent {settings : Settings} {requests : List Request} {index : Nat}
    (absent : ((start settings).run requests).2.compiled[index]? = none) :
    choices settings requests index = ∅ := by
  refine Set.eq_empty_of_forall_notMem fun transform => ?_
  rintro ⟨identity, member⟩
  obtain ⟨c, there, _⟩ := ((records_run settings requests).known _).mpr member
  exact Option.some_ne_none c (there.symm.trans absent)

/-- In every run, requests get the same function just where they derive it from one compiled
expression with one transform and the same parameters. The tables of a compiled expression have an
entry for each choice of parameters made so far. A request gets a function and the number of these
entries, unless nothing is compiled under its index or axes cannot be written, when it leaves
everything as it is. What is compiled stands under a new index, with nothing derived from it, and
leaves what was compiled before as it is. -/
theorem functions_are_remembered (settings : Settings) (requests : List Request) :
    (∀ d ∈ derivations settings requests, ∀ d' ∈ derivations settings requests,
      d.identity = d'.identity ↔ d.index = d'.index ∧ d.transform = d'.transform) ∧
    (∀ index c, ((start settings).run requests).2.compiled[index]? = some c →
      {axes : Axes × Axes | .mapped axes.1 axes.2 ∈ choices settings requests index}.encard =
        c.mapped.length ∧
      {selection | .gradient selection ∈ choices settings requests index}.encard =
        c.gradients.length) ∧
    (∀ request index transform, request.transform? = some (index, transform) →
      (∀ c, ((start settings).run requests).2.compiled[index]? = some c →
        transform.isWritable = true →
        ∃ c' identity,
          (((start settings).run requests).2.step request).2.compiled[index]? = some c' ∧
          (((start settings).run requests).2.step request).1 = transform.reply c' identity) ∧
      (((start settings).run requests).2.compiled[index]? = none ∨
          transform.isWritable = false →
        (((start settings).run requests).2.step request).1.identity? = none ∧
        (((start settings).run requests).2.step request).2 =
          ((start settings).run requests).2)) ∧
    ∀ (useCache : Bool) (source : Source) (index : Nat) (c : Compiled),
      (((start settings).run requests).2.step (.compile useCache source)).1 = .compiled index c →
      ((start settings).run requests).2.compiled[index]? = none ∧
      (((start settings).run requests).2.step (.compile useCache source)).2.compiled[index]? =
        some c ∧
      (∀ transform, c.function? transform = none ∧ transform ∉ choices settings requests index) ∧
      ∀ (other : Nat) (c' : Compiled),
        ((start settings).run requests).2.compiled[other]? = some c' →
        (((start settings).run requests).2.step (.compile useCache source)).2.compiled[other]? =
          some c' := by
  have records := records_run settings requests
  refine ⟨?_, ?_, ?_, ?_⟩
  · intro d member d' member'
    constructor
    · intro same
      rw [records.unique d member d' member' same]
      exact ⟨rfl, rfl⟩
    · rintro ⟨index, transform⟩
      exact records.identity_eq member member' index transform
  · intro index c there
    have kept := records.kept c (List.mem_of_getElem? there)
    have made := records.isSome_function?_iff there
    rw [← kept.encard_mapped, ← kept.encard_gradients]
    simp only [made]
    exact ⟨rfl, rfl⟩
  · intro request index transform asks
    exact ⟨fun c there writable => exists_reply asks there writable, step_of_refused asks⟩
  · intro useCache source index c replied
    obtain ⟨absent, there, underived, others⟩ := step_of_compiled replied
    have unchosen : choices settings requests index = ∅ := choices_of_absent absent
    refine ⟨absent, there, fun transform => ⟨underived transform, ?_⟩, others⟩
    rw [unchosen]
    exact Set.notMem_empty transform

def twinRequests : List Request :=
  [.compile true (.tree (.var .x)), .compile true (.tree (.var .x)), .mapped 0 (.axis 0) (.axis 0),
    .mapped 1 (.axis 0) (.axis 0), .mapped 0 (.each [.axis 0]) (.axis 0),
    .mapped 0 (.axis 0) (.axis 0), .gradient 0 (.one 0), .gradient 0 (.several [0])]

/-- The twins have functions of their own, and an axis differs from the list of that one. The next
expression is compiled under an index of its own. -/
theorem functions_are_remembered_twins :
    ((start ⟨1, true, true⟩).run twinRequests).1.map Reply.identity? =
      [none, none, some 0, some 1, some 2, some 0, some 3, some 4] ∧
    {axes : Axes × Axes | .mapped axes.1 axes.2 ∈ choices ⟨1, true, true⟩ twinRequests 0}.encard =
      2 ∧
    {axes : Axes × Axes | .mapped axes.1 axes.2 ∈ choices ⟨1, true, true⟩ twinRequests 1}.encard =
      1 ∧
    {selection | .gradient selection ∈ choices ⟨1, true, true⟩ twinRequests 0}.encard = 2 ∧
    ∃ c, (((start ⟨1, true, true⟩).run twinRequests).2.step
        (.compile true (.tree (.var .x)))).2.compiled[2]? = some c ∧ c.jit = none := by
  obtain ⟨_, tables, _, compiles⟩ := functions_are_remembered ⟨1, true, true⟩ twinRequests
  have first := tables 0 _ rfl
  have second := tables 1 _ rfl
  obtain ⟨_, there, underived, _⟩ := compiles true (.tree (.var .x)) 2 _ rfl
  exact ⟨by decide +kernel, first.1, second.1, first.2, _, there, (underived .jit).1⟩

end Session

end Polish
