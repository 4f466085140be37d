import Polish.Graph.Lowering

set_option autoImplicit false

namespace Polish

namespace Builder

variable {b : Builder} {sharing : Bool}

/-- A shared node is known for an equal expression. -/
theorem exists_known_of_seen {e : Expr} {id : Nat} (found : b.seen? sharing e = some id) :
    sharing = true ∧ ∃ entry ∈ b.known, e.same entry.1 = true ∧ entry.2 = id := by
  unfold seen? find? at found
  split at found
  · rename_i wanted
    obtain ⟨entry, there, rfl⟩ := Option.map_eq_some_iff.mp found
    have same : e.same entry.1 = true := by simpa using List.find?_some there
    exact ⟨wanted, entry, List.mem_of_find?_eq_some there, same, rfl⟩
  · cases found

theorem seen?_empty (e : Expr) : empty.seen? sharing e = none := by
  cases sharing <;> rfl

/-- The argument node of a variable is there, or it is added and noted. -/
theorem argument_cases (b : Builder) (v : Variable) :
    (∃ id, b.arguments.lookup v = some id ∧ b.argument v = (id, b)) ∨
    (b.arguments.lookup v = none ∧ b.argument v = (b.nodes.length,
      { b with
        nodes := b.nodes ++ [⟨b.nodes.length, .argument (some v.name)⟩]
        arguments := (v, b.nodes.length) :: b.arguments })) := by
  cases there : b.arguments.lookup v with
  | some id => exact Or.inl ⟨id, rfl, by simp only [argument, there]⟩
  | none => exact Or.inr ⟨rfl, by simp only [argument, there, add]⟩

end Builder

namespace Expr

variable {sharing : Bool} {b b' : Builder}

theorem ok_of_bind {ε α β : Type} {first : Except ε α} {next : α → Except ε β} {result : β}
    (ran : (first >>= next) = .ok result) :
    ∃ value, first = .ok value ∧ next value = .ok result := by
  cases first with
  | error error => cases ran
  | ok value => exact ⟨value, rfl, ran⟩

/-- How an expression that is not shared gets its node. -/
inductive Makes (sharing : Bool) (b : Builder) : Expr → Nat → Builder → Prop where
  | constant (value : Number) :
      Makes sharing b (.const value) b.nodes.length (b.add (.constant (.double value.toDouble))).2
  | argument (v : Variable) : Makes sharing b (.var v) (b.argument v).1 (b.argument v).2
  | kernel (op : Operator) (args : List Expr) (inputs : List Nat) (b₁ : Builder)
      (computed : hasKernel op.symbol = true)
      (lowered : lowerListInto sharing b args = .ok (inputs, b₁)) :
      Makes sharing b (.apply op args) b₁.nodes.length (b₁.add (.kernel op.symbol inputs)).2

/-- An expression shares a node, or its own is noted. -/
theorem lowerInto_cases {e : Expr} {id : Nat} (lowered : lowerInto sharing b e = .ok (id, b')) :
    (b.seen? sharing e = some id ∧ b' = b) ∨
    (b.seen? sharing e = none ∧ ∃ b₁, Makes sharing b e id b₁ ∧ b' = b₁.remember e id) := by
  cases found : b.seen? sharing e with
  | some known =>
      left
      cases e with
      | foreign value => cases lowered
      | _ =>
          simp only [lowerInto, found] at lowered
          cases lowered
          exact ⟨rfl, rfl⟩
  | none =>
      refine Or.inr ⟨rfl, ?_⟩
      cases e with
      | foreign value => cases lowered
      | const value =>
          rw [lowerInto, found] at lowered
          cases lowered
          exact ⟨_, .constant value, rfl⟩
      | var v =>
          rw [lowerInto, found] at lowered
          cases lowered
          exact ⟨_, .argument v, rfl⟩
      | apply op args =>
          simp only [lowerInto, found] at lowered
          split at lowered
          · rename_i computed
            obtain ⟨⟨inputs, b₁⟩, arguments, lowered⟩ := ok_of_bind lowered
            cases lowered
            exact ⟨_, .kernel op args inputs b₁ computed arguments, rfl⟩
          · cases lowered

theorem lowerListInto_cons {e : Expr} {es : List Expr} {ids : List Nat}
    (lowered : lowerListInto sharing b (e :: es) = .ok (ids, b')) :
    ∃ id b₁ others, lowerInto sharing b e = .ok (id, b₁) ∧
      lowerListInto sharing b₁ es = .ok (others, b') ∧ ids = id :: others := by
  rw [lowerListInto] at lowered
  obtain ⟨⟨id, b₁⟩, first, lowered⟩ := ok_of_bind lowered
  obtain ⟨⟨others, b₂⟩, rest, lowered⟩ := ok_of_bind lowered
  cases lowered
  exact ⟨id, b₁, others, first, rest, rfl⟩

theorem lowerInto_of_lower {e : Expr} {nodes : List Node} {output : Nat}
    (lowered : e.lower sharing = .ok ⟨nodes, output⟩) :
    ∃ b, lowerInto sharing .empty e = .ok (output, b) ∧ b.nodes = nodes := by
  rw [lower] at lowered
  split at lowered
  · cases lowered
  · obtain ⟨⟨id, b⟩, made, lowered⟩ := ok_of_bind lowered
    cases lowered
    exact ⟨b, made, rfl⟩

end Expr

end Polish
