import Mathlib.Data.List.Induction

set_option autoImplicit false

namespace Polish

variable {α : Type} {good : α → Prop} {alike : α → α → Bool} {all xs ys : List α} {x y : α}

/-- Being alike is an equivalence among the good elements. -/
structure Groups (good : α → Prop) (alike : α → α → Bool) : Prop where
  refl : ∀ a, good a → alike a a = true
  symm : ∀ a b, good a → good b → alike a b = true → alike b a = true
  trans : ∀ a b c, good a → good b → good c → alike a b = true → alike b c = true →
    alike a c = true

/-- The place of the first member of its class among all first members. -/
def classNumber (alike : α → α → Bool) (xs : List α) (x : α) : Nat :=
  (xs.eraseDupsBy alike).findIdx (alike x)

theorem eraseDupsBy_loop_concat (alike : α → α → Bool) (xs kept : List α) (x : α) :
    List.eraseDupsBy.loop alike (xs ++ [x]) kept =
      if (List.eraseDupsBy.loop alike xs kept).any (alike x) then
        List.eraseDupsBy.loop alike xs kept
      else List.eraseDupsBy.loop alike xs kept ++ [x] := by
  induction xs generalizing kept with
  | nil =>
      simp only [List.nil_append, List.eraseDupsBy.loop, List.any_reverse]
      cases kept.any (alike x) <;> simp
  | cons y ys ih =>
      rw [List.cons_append, List.eraseDupsBy.loop, List.eraseDupsBy.loop]
      cases kept.any (alike y) <;> exact ih _

/-- A last element is kept if nothing alike is kept before it. -/
theorem eraseDupsBy_concat (alike : α → α → Bool) (xs : List α) (x : α) :
    (xs ++ [x]).eraseDupsBy alike =
      if (xs.eraseDupsBy alike).any (alike x) then xs.eraseDupsBy alike
      else xs.eraseDupsBy alike ++ [x] :=
  eraseDupsBy_loop_concat alike xs [] x

theorem eraseDupsBy_concat_cases (alike : α → α → Bool) (xs : List α) (x : α) :
    ((∃ y ∈ xs.eraseDupsBy alike, alike x y = true) ∧
      (xs ++ [x]).eraseDupsBy alike = xs.eraseDupsBy alike) ∨
    ((∀ y ∈ xs.eraseDupsBy alike, alike x y = false) ∧
      (xs ++ [x]).eraseDupsBy alike = xs.eraseDupsBy alike ++ [x]) := by
  rw [eraseDupsBy_concat]
  cases found : (xs.eraseDupsBy alike).any (alike x) with
  | true => exact Or.inl ⟨List.any_eq_true.mp found, rfl⟩
  | false =>
      refine Or.inr ⟨fun y member => ?_, rfl⟩
      simpa using List.any_eq_false.mp found y member

theorem mem_of_mem_eraseDupsBy (member : x ∈ xs.eraseDupsBy alike) : x ∈ xs := by
  induction xs using List.reverseRecOn with
  | nil => exact member
  | append_singleton xs last ih =>
      rw [List.mem_append, List.mem_singleton]
      rcases eraseDupsBy_concat_cases alike xs last with ⟨_, same⟩ | ⟨_, same⟩
      · rw [same] at member
        exact Or.inl (ih member)
      · rw [same, List.mem_append, List.mem_singleton] at member
        exact member.imp_left ih

/-- The first members stay what they are in a longer list. -/
theorem eraseDupsBy_prefix (alike : α → α → Bool) (xs ys : List α) :
    xs.eraseDupsBy alike <+: (xs ++ ys).eraseDupsBy alike := by
  induction ys using List.reverseRecOn with
  | nil =>
      simp only [List.append_nil, List.prefix_rfl]
  | append_singleton ys last ih =>
      rw [← List.append_assoc]
      rcases eraseDupsBy_concat_cases alike (xs ++ ys) last with ⟨_, same⟩ | ⟨_, same⟩
      · rwa [same]
      · rw [same]
        exact ih.trans (List.prefix_append _ _)

theorem pairwise_eraseDupsBy (alike : α → α → Bool) (xs : List α) :
    (xs.eraseDupsBy alike).Pairwise fun earlier later => alike later earlier = false := by
  induction xs using List.reverseRecOn with
  | nil => exact List.Pairwise.nil
  | append_singleton xs last ih =>
      rcases eraseDupsBy_concat_cases alike xs last with ⟨_, same⟩ | ⟨new, same⟩
      · rwa [same]
      · rw [same, List.pairwise_append]
        refine ⟨ih, List.pairwise_singleton _ _, fun y member z last_ => ?_⟩
        rw [List.mem_singleton.mp last_]
        exact new y member

namespace Groups

variable (groups : Groups good alike)

include groups

theorem exists_first (fine : ∀ x ∈ xs, good x) (member : x ∈ xs) :
    ∃ y ∈ xs.eraseDupsBy alike, alike x y = true := by
  induction xs using List.reverseRecOn with
  | nil => cases member
  | append_singleton xs last ih =>
      have before := ih fun x member => fine x (List.mem_append_left _ member)
      rw [List.mem_append, List.mem_singleton] at member
      rcases eraseDupsBy_concat_cases alike xs last with ⟨known, same⟩ | ⟨_, same⟩
      · rw [same]
        rcases member with early | rfl
        · exact before early
        · exact known
      · rw [same]
        rcases member with early | rfl
        · obtain ⟨y, first, both⟩ := before early
          exact ⟨y, List.mem_append_left _ first, both⟩
        · exact ⟨x, by simp, groups.refl x (fine x (by simp))⟩

/-- Behind a list, elements that are alike to some of it are not kept. -/
theorem eraseDupsBy_absorb (fine : ∀ x ∈ xs ++ ys, good x)
    (known : ∀ y ∈ ys, ∃ x ∈ xs, alike y x = true) :
    (xs ++ ys).eraseDupsBy alike = xs.eraseDupsBy alike := by
  induction ys using List.reverseRecOn with
  | nil => rw [List.append_nil]
  | append_singleton ys last ih =>
      rw [← List.append_assoc] at fine ⊢
      have fine' : ∀ x ∈ xs ++ ys, good x := fun x member => fine x (List.mem_append_left _ member)
      have before := ih fine' fun y member => known y (List.mem_append_left _ member)
      obtain ⟨x, member, both⟩ := known last (by simp)
      have fineX := fine' x (List.mem_append_left _ member)
      obtain ⟨first, kept, both'⟩ :=
        groups.exists_first (fun x member => fine' x (List.mem_append_left _ member)) member
      have fineFirst := fine' first (List.mem_append_left _ (mem_of_mem_eraseDupsBy kept))
      have all := groups.trans last x first (fine last (by simp)) fineX fineFirst both both'
      rcases eraseDupsBy_concat_cases alike (xs ++ ys) last with ⟨_, same⟩ | ⟨new, _⟩
      · rw [same, before]
      · rw [before] at new
        rw [new first kept] at all
        cases all

/-- A member has the number of a first member that is alike, within the part that it is in. -/
theorem classNumber_lt (fine : ∀ x ∈ all, good x) (inside : xs <+: all) (member : x ∈ xs) :
    classNumber alike all x < (xs.eraseDupsBy alike).length := by
  obtain ⟨more, rfl⟩ := inside
  obtain ⟨first, kept, both⟩ :=
    groups.exists_first (fun x member => fine x (List.mem_append_left _ member)) member
  have early : (xs.eraseDupsBy alike).findIdx (alike x) < (xs.eraseDupsBy alike).length :=
    List.findIdx_lt_length.mpr ⟨first, kept, both⟩
  obtain ⟨rest, split⟩ := eraseDupsBy_prefix alike xs more
  rw [classNumber, ← split, List.findIdx_append, if_pos early]
  exact early

/-- The first member of a class is alike to all of it. -/
theorem exists_getElem_classNumber (fine : ∀ x ∈ all, good x) (member : x ∈ all) :
    ∃ first, (all.eraseDupsBy alike)[classNumber alike all x]? = some first ∧
      alike x first = true := by
  have below := groups.classNumber_lt fine List.prefix_rfl member
  exact ⟨_, List.getElem?_eq_getElem below, List.findIdx_getElem⟩

theorem classNumber_of_alike (fine : ∀ x ∈ all, good x) (goodX : good x) (goodY : good y)
    (both : alike x y = true) : classNumber alike all x = classNumber alike all y := by
  have agree : ∀ first ∈ all.eraseDupsBy alike, alike x first = alike y first := by
    intro first kept
    have goodFirst := fine first (mem_of_mem_eraseDupsBy kept)
    rw [Bool.eq_iff_iff]
    constructor
    · exact groups.trans y x first goodY goodX goodFirst (groups.symm x y goodX goodY both)
    · exact groups.trans x y first goodX goodY goodFirst both
  rw [classNumber, classNumber]
  generalize all.eraseDupsBy alike = kept at agree
  induction kept with
  | nil => rfl
  | cons first others ih =>
      rw [List.findIdx_cons, List.findIdx_cons, agree first (by simp),
        ih fun other member => agree other (List.mem_cons_of_mem first member)]

/-- Members have one number exactly if they are alike. -/
theorem classNumber_eq_iff (fine : ∀ x ∈ all, good x) (memberX : x ∈ all) (memberY : y ∈ all) :
    classNumber alike all x = classNumber alike all y ↔ alike x y = true := by
  constructor
  · intro equal
    obtain ⟨first, there, left⟩ := groups.exists_getElem_classNumber fine memberX
    obtain ⟨first', there', right⟩ := groups.exists_getElem_classNumber fine memberY
    rw [← equal, there] at there'
    cases there'
    have kept := fine first (mem_of_mem_eraseDupsBy (List.mem_of_getElem? there))
    exact groups.trans x first y (fine x memberX) kept (fine y memberY) left
      (groups.symm y first (fine y memberY) kept right)
  · exact groups.classNumber_of_alike fine (fine x memberX) (fine y memberY)

/-- A first member has the number of its place. -/
theorem classNumber_getElem (fine : ∀ x ∈ all, good x) {id : Nat}
    (there : (all.eraseDupsBy alike)[id]? = some x) : classNumber alike all x = id := by
  obtain ⟨below, rfl⟩ := List.getElem?_eq_some_iff.mp there
  refine (List.findIdx_eq below).mpr ⟨?_, fun earlier before => ?_⟩
  · exact groups.refl _ (fine _ (mem_of_mem_eraseDupsBy (List.getElem_mem below)))
  · exact List.pairwise_iff_getElem.mp (pairwise_eraseDupsBy alike all) earlier id _ below before

/-- The first of a class has the number of those kept before it. -/
theorem classNumber_of_new (fine : ∀ x ∈ all, good x) (inside : xs ++ [x] <+: all)
    (kept : (xs ++ [x]).eraseDupsBy alike = xs.eraseDupsBy alike ++ [x]) :
    classNumber alike all x = (xs.eraseDupsBy alike).length := by
  obtain ⟨more, rfl⟩ := inside
  obtain ⟨rest, split⟩ := eraseDupsBy_prefix alike (xs ++ [x]) more
  refine groups.classNumber_getElem fine ?_
  rw [← split, kept, List.append_assoc, List.getElem?_append_right (Nat.le_refl _), Nat.sub_self]
  rfl

/-- As the list is walked, new numbers appear in their order. -/
theorem eraseDups_map_classNumber (fine : ∀ x ∈ all, good x) (inside : xs <+: all) :
    (xs.map (classNumber alike all)).eraseDups = List.range (xs.eraseDupsBy alike).length := by
  induction xs using List.reverseRecOn with
  | nil => rfl
  | append_singleton xs last ih =>
      have early := (List.prefix_append xs [last]).trans inside
      have before := ih early
      rw [List.eraseDups] at before ⊢
      rw [List.map_append, List.map_singleton, eraseDupsBy_concat, before]
      rcases eraseDupsBy_concat_cases alike xs last with ⟨⟨first, kept, both⟩, same⟩ | ⟨_, same⟩
      · have member := mem_of_mem_eraseDupsBy kept
        have number : classNumber alike all last = classNumber alike all first :=
          groups.classNumber_of_alike fine (fine last (inside.subset (by simp)))
            (fine first (early.subset member)) both
        have below := groups.classNumber_lt fine early member
        rw [same, number, if_pos (by simpa using below)]
      · rw [groups.classNumber_of_new fine inside same, same, List.length_append,
          List.length_singleton, List.range_succ, if_neg (by simp)]

end Groups

end Polish
