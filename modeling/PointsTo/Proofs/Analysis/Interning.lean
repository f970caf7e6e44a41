import Mathlib.Data.List.DropRight
import Mathlib.Data.List.Induction
import Mathlib.Logic.Relation
import PointsTo.Analysis.Context

/-!
# Contexts are interned

Contexts are compared by their nodes.  This is sound because a trie never holds
two nodes with the same elements, whatever operations it has been through: the
children of a node and the origins of nodes are inverse to each other, so a
context that is looked for from the root on is found wherever it is there.

A trie only grows, and the elements of a context are read off along the origins
of nodes, which never change.
-/

namespace PointsTo

open Relation

namespace ContextTrie

variable {α : Type}

/-! ## Nodes -/

section

variable (trie : ContextTrie α) (context : Nat) (elem : α)

theorem length_nodes_addChild :
    (trie.addChild context elem).nodes.length = trie.nodes.length + 1 := by
  simp [addChild]

/-- The nodes that are there change at most their children. -/
theorem getElem?_nodes_addChild {node : Nat}
    (inside : node < trie.nodes.length) :
    (trie.addChild context elem).nodes[node]? =
      trie.nodes[node]?.map fun old =>
        if context = node then
          { old with children := (elem, trie.nodes.length) :: old.children }
        else old := by
  rw [addChild, List.getElem?_append_left (by simpa using inside),
    List.getElem?_modify]
  rfl

theorem getElem?_nodes_addChild_length :
    (trie.addChild context elem).nodes[trie.nodes.length]? =
      some { origin := some (context, elem)
             length := trie.length context + 1 } := by
  simp [addChild]

/-- Nodes keep their parents. -/
theorem origin?_addChild {node : Nat} (inside : node < trie.nodes.length) :
    (trie.addChild context elem).origin? node = trie.origin? node := by
  rw [origin?, trie.getElem?_nodes_addChild context elem inside, origin?]
  cases trie.nodes[node]? with
  | none => rfl
  | some old =>
      simp only [Option.map_some, Option.bind_some]
      split <;> rfl

/-- The new node is a child of the one that it was added to. -/
theorem origin?_addChild_length :
    (trie.addChild context elem).origin? trie.nodes.length =
      some (context, elem) := by
  rw [origin?, getElem?_nodes_addChild_length]
  rfl

theorem length_addChild {node : Nat} (inside : node < trie.nodes.length) :
    (trie.addChild context elem).length node = trie.length node := by
  rw [length, trie.getElem?_nodes_addChild context elem inside, length]
  cases trie.nodes[node]? with
  | none => rfl
  | some old =>
      simp only [Option.map_some, Option.getD_some]
      split <;> rfl

/-- The new node is one element further from the root. -/
theorem length_addChild_length :
    (trie.addChild context elem).length trie.nodes.length =
      trie.length context + 1 := by
  rw [length, getElem?_nodes_addChild_length]
  rfl

theorem lt_of_origin? {node : Nat} {origin : Nat × α}
    (found : trie.origin? node = some origin) : node < trie.nodes.length := by
  rcases Option.bind_eq_some_iff.mp found with ⟨old, present, _⟩
  exact (List.getElem?_eq_some_iff.mp present).1

end

section

variable [DecidableEq α] (trie : ContextTrie α)

/-- Only nodes that exist have children. -/
theorem lt_of_child? {context child : Nat} {elem : α}
    (found : trie.child? context elem = some child) :
    context < trie.nodes.length := by
  rcases Option.bind_eq_some_iff.mp found with ⟨old, present, _⟩
  exact (List.getElem?_eq_some_iff.mp present).1

/-- A context that is created is the only new child. -/
theorem child?_addChild {context : Nat} {elem : α}
    (inside : context < trie.nodes.length) (parent : Nat) (other : α) :
    (trie.addChild context elem).child? parent other =
      if parent = context ∧ other = elem then some trie.nodes.length
      else trie.child? parent other := by
  rcases Nat.lt_trichotomy parent trie.nodes.length with old | rfl | beyond
  · rw [child?, trie.getElem?_nodes_addChild context elem old, child?,
      List.getElem?_eq_getElem old]
    by_cases same : context = parent
    · by_cases named : other = elem
      · simp [same, named]
      · have different : (other == elem) = false := by simpa using named
        simp [same, named, List.lookup_cons, different]
    · have elsewhere : ¬ parent = context := fun equal => same equal.symm
      simp [same, elsewhere]
  · have different : trie.nodes.length ≠ context := Nat.ne_of_gt inside
    rw [child?, getElem?_nodes_addChild_length, child?,
      List.getElem?_eq_none (Nat.le_refl _)]
    simp [different]
  · have different : parent ≠ context := by omega
    have outside : (trie.addChild context elem).nodes.length ≤ parent := by
      rw [length_nodes_addChild]
      exact beyond
    rw [child?, List.getElem?_eq_none outside, child?,
      List.getElem?_eq_none (Nat.le_of_lt beyond)]
    simp [different]

end

/-! ## Well-formed tries -/

/-- The children of nodes and the origins of nodes are inverse to each other,
and all nodes but the root have an origin. -/
structure Linked [DecidableEq α] (trie : ContextTrie α) : Prop where
  rooted : root < trie.nodes.length
  top : trie.origin? root = none
  empty : trie.length root = 0
  inverse : ∀ {context child : Nat} {elem : α},
    trie.child? context elem = some child ↔
      trie.origin? child = some (context, elem)
  measured : ∀ {context parent : Nat} {elem : α},
    trie.origin? context = some (parent, elem) →
      trie.length context = trie.length parent + 1
  only : ∀ {context : Nat}, context < trie.nodes.length →
    trie.origin? context = none → context = root

/-- A trie has grown into another one: the contexts that were there have kept
their origins. -/
structure Grown (before after : ContextTrie α) : Prop where
  nodes : before.nodes.length ≤ after.nodes.length
  origins : ∀ {context : Nat}, context < before.nodes.length →
    after.origin? context = before.origin? context
  lengths : ∀ {context : Nat}, context < before.nodes.length →
    after.length context = before.length context

namespace Grown

variable {before middle after : ContextTrie α}

theorem refl (trie : ContextTrie α) : Grown trie trie :=
  ⟨Nat.le_refl _, fun _ => rfl, fun _ => rfl⟩

theorem trans (first : Grown before middle) (second : Grown middle after) :
    Grown before after where
  nodes := Nat.le_trans first.nodes second.nodes
  origins inside :=
    (second.origins (Nat.lt_of_lt_of_le inside first.nodes)).trans
      (first.origins inside)
  lengths inside :=
    (second.lengths (Nat.lt_of_lt_of_le inside first.nodes)).trans
      (first.lengths inside)

/-- Adding a child keeps all nodes. -/
theorem addChild (trie : ContextTrie α) (context : Nat) (elem : α) :
    Grown trie (trie.addChild context elem) where
  nodes := by
    rw [length_nodes_addChild]
    exact Nat.le_succ _
  origins inside := trie.origin?_addChild context elem inside
  lengths inside := trie.length_addChild context elem inside

end Grown

namespace Linked

variable [DecidableEq α] {trie : ContextTrie α}

/-- The trie that has only a root is linked. -/
theorem start : Linked ({} : ContextTrie α) where
  rooted := Nat.zero_lt_one
  top := rfl
  empty := rfl
  inverse := by
    intro context child elem
    constructor
    · intro found
      rcases context with _ | context <;> cases found
    · intro found
      rcases child with _ | child <;> cases found
  measured := by
    intro context parent elem found
    rcases context with _ | context <;> cases found
  only := by
    intro context inside _
    exact Nat.lt_one_iff.mp inside

/-- The parents of nodes are nodes. -/
theorem parent_lt (linked : trie.Linked) {context parent : Nat} {elem : α}
    (found : trie.origin? context = some (parent, elem)) :
    parent < trie.nodes.length :=
  trie.lt_of_child? (linked.inverse.mpr found)

/-- A child may be added for an element that has none. -/
theorem addChild (linked : trie.Linked) {context : Nat} {elem : α}
    (inside : context < trie.nodes.length)
    (absent : trie.child? context elem = none) :
    (trie.addChild context elem).Linked := by
  have grown := Grown.addChild trie context elem
  have old_or_new : ∀ {node : Nat},
      node < (trie.addChild context elem).nodes.length →
        node < trie.nodes.length ∨ node = trie.nodes.length := by
    intro node listed
    rw [length_nodes_addChild] at listed
    exact Nat.lt_or_eq_of_le (Nat.le_of_lt_succ listed)
  constructor
  · exact Nat.lt_of_lt_of_le linked.rooted grown.nodes
  · rw [grown.origins linked.rooted]
    exact linked.top
  · rw [grown.lengths linked.rooted]
    exact linked.empty
  · intro parent child other
    rw [trie.child?_addChild inside]
    -- The new node is the child of `context` alone; all others are unchanged.
    by_cases here : parent = context ∧ other = elem
    · rcases here with ⟨rfl, rfl⟩
      rw [if_pos ⟨rfl, rfl⟩]
      constructor
      · rintro ⟨⟩
        exact trie.origin?_addChild_length _ _
      · intro found
        rcases old_or_new (lt_of_origin? _ found) with old | rfl
        · rw [grown.origins old, ← linked.inverse, absent] at found
          cases found
        · rfl
    · rw [if_neg here, linked.inverse]
      constructor
      · intro found
        rwa [grown.origins (trie.lt_of_origin? found)]
      · intro found
        rcases old_or_new (lt_of_origin? _ found) with old | rfl
        · rwa [grown.origins old] at found
        · rw [origin?_addChild_length] at found
          cases found
          exact (here ⟨rfl, rfl⟩).elim
  · intro node parent other found
    rcases old_or_new (lt_of_origin? _ found) with old | rfl
    · rw [grown.origins old] at found
      rw [grown.lengths old, grown.lengths (linked.parent_lt found)]
      exact linked.measured found
    · rw [origin?_addChild_length] at found
      cases found
      rw [length_addChild_length, grown.lengths inside]
  · intro node listed none
    rcases old_or_new listed with old | rfl
    · rw [grown.origins old] at none
      exact linked.only old none
    · rw [origin?_addChild_length] at none
      cases none

/-! ## Elements -/

theorem elems_root (linked : trie.Linked) : trie.elems root = [] := by
  rw [elems, linked.empty]
  rfl

/-- A context has the elements of the context that it extends, and one more. -/
theorem elems_of_origin? (linked : trie.Linked) {context parent : Nat}
    {elem : α} (found : trie.origin? context = some (parent, elem)) :
    trie.elems context = trie.elems parent ++ [elem] := by
  rw [elems, linked.measured found, climb, found]
  rfl

/-- What holds at the root and carries over to children holds of all
contexts. -/
theorem induct (linked : trie.Linked) {holds : Nat → Prop}
    (top : holds root)
    (child : ∀ {context parent : Nat} {elem : α},
      trie.origin? context = some (parent, elem) → holds parent →
        holds context)
    {context : Nat} (inside : context < trie.nodes.length) :
    holds context := by
  induction size : trie.length context generalizing context with
  | zero =>
      cases found : trie.origin? context with
      | none => exact linked.only inside found ▸ top
      | some origin =>
          have longer := linked.measured found
          omega
  | succ size ih =>
      cases found : trie.origin? context with
      | none => exact linked.only inside found ▸ top
      | some origin =>
          have longer := linked.measured found
          apply child found
          apply ih (linked.parent_lt found)
          omega

/-- The length of a node counts its elements. -/
theorem length_elems (linked : trie.Linked) {context : Nat}
    (inside : context < trie.nodes.length) :
    (trie.elems context).length = trie.length context := by
  apply linked.induct ?_ ?_ inside
  · rw [linked.elems_root, linked.empty]
    rfl
  · intro context parent elem found same
    rw [linked.elems_of_origin? found, linked.measured found,
      List.length_append, same]
    rfl

/-- The elements of a context do not change. -/
theorem elems_of_grown (linked : trie.Linked) {later : ContextTrie α}
    (laterLinked : later.Linked) (grown : Grown trie later) {context : Nat}
    (inside : context < trie.nodes.length) :
    later.elems context = trie.elems context := by
  apply linked.induct ?_ ?_ inside
  · rw [laterLinked.elems_root, linked.elems_root]
  · intro context parent elem found same
    have kept := grown.origins (trie.lt_of_origin? found)
    rw [linked.elems_of_origin? found,
      laterLinked.elems_of_origin? (kept.trans found), same]

/-- There are no two contexts with the same elements. -/
theorem elems_injective (linked : trie.Linked) {first second : Nat}
    (firstInside : first < trie.nodes.length)
    (secondInside : second < trie.nodes.length)
    (same : trie.elems first = trie.elems second) : first = second := by
  have unique : ∀ {context : Nat}, context < trie.nodes.length →
      ∀ other, other < trie.nodes.length →
        trie.elems context = trie.elems other → context = other := by
    intro context inside
    apply linked.induct ?_ ?_ inside
    · intro other otherInside same
      cases found : trie.origin? other with
      | none => exact (linked.only otherInside found).symm
      | some origin =>
          rw [linked.elems_root, linked.elems_of_origin? found] at same
          simp at same
    · intro context parent elem found ih other otherInside same
      cases foundOther : trie.origin? other with
      | none =>
          rw [linked.only otherInside foundOther, linked.elems_root,
            linked.elems_of_origin? found] at same
          simp at same
      | some origin =>
          rw [linked.elems_of_origin? found,
            linked.elems_of_origin? foundOther] at same
          rcases List.append_inj' same rfl with ⟨parents, elements⟩
          -- Both contexts extend one context by one element.
          have sameParent := ih _ (linked.parent_lt foundOther) parents
          have child := linked.inverse.mpr found
          have otherChild := linked.inverse.mpr foundOther
          rw [← sameParent, ← List.singleton_inj.mp elements, child]
            at otherChild
          exact Option.some.inj otherChild
  exact unique firstInside second secondInside same

end Linked

/-! ## Operations -/

section

variable [DecidableEq α]

/-- What an operation leaves and returns: a larger trie, and a context of it
with the given elements. -/
structure Answers (trie : ContextTrie α) (result : ContextTrie α × Nat)
    (elems : List α) : Prop where
  linked : result.1.Linked
  grown : Grown trie result.1
  inside : result.2 < result.1.nodes.length
  elems : result.1.elems result.2 = elems

variable {trie : ContextTrie α}

/-- A context may be returned as it is. -/
theorem Linked.answers (linked : trie.Linked) {context : Nat}
    (inside : context < trie.nodes.length) :
    Answers trie (trie, context) (trie.elems context) :=
  ⟨linked, .refl trie, inside, rfl⟩

/-- The child for an element is found, or it is added. -/
theorem Linked.child_answers (linked : trie.Linked) {context : Nat}
    (inside : context < trie.nodes.length) (elem : α) :
    Answers trie (trie.child context elem) (trie.elems context ++ [elem]) := by
  rw [child]
  split
  · rename_i child found
    have origin := linked.inverse.mp found
    rw [← linked.elems_of_origin? origin]
    exact linked.answers (trie.lt_of_origin? origin)
  · rename_i absent
    have grown := Grown.addChild trie context elem
    have extended := linked.addChild inside absent
    constructor
    · exact extended
    · exact grown
    · show trie.nodes.length < _
      rw [length_nodes_addChild]
      exact Nat.lt_succ_self _
    · show (trie.addChild context elem).elems trie.nodes.length = _
      rw [extended.elems_of_origin? (trie.origin?_addChild_length _ _),
        linked.elems_of_grown extended grown inside]

theorem Linked.descend_answers (linked : trie.Linked) {context : Nat}
    (inside : context < trie.nodes.length) (elems : List α) :
    Answers trie (trie.descend context elems)
      (trie.elems context ++ elems) := by
  induction elems generalizing trie context with
  | nil =>
      rw [List.append_nil]
      exact linked.answers inside
  | cons elem rest ih =>
      have first := linked.child_answers inside elem
      have later := ih first.linked first.inside
      rw [first.elems, List.append_assoc] at later
      exact ⟨later.linked, first.grown.trans later.grown, later.inside,
        later.elems⟩

/-- A list of elements is followed from the root. -/
theorem Linked.get_answers (linked : trie.Linked) (elems : List α) :
    Answers trie (trie.get elems) elems := by
  have answers := linked.descend_answers linked.rooted elems
  rwa [linked.elems_root] at answers

theorem Linked.root_answers (linked : trie.Linked) :
    Answers trie (trie, root) [] := by
  have answers := linked.answers linked.rooted
  rwa [linked.elems_root] at answers

/-- Elements beyond the limit are dropped at the front. -/
theorem Linked.append_answers (linked : trie.Linked) (context : Nat)
    (elem : α) (limit : Int) :
    Answers trie (trie.append context elem limit)
      (recent limit (trie.elems context ++ [elem])) := by
  rw [append]
  split
  · rename_i nonpositive
    rw [recent_of_nonpos nonpositive]
    exact linked.root_answers
  · exact linked.get_answers _

theorem Linked.truncate_answers (linked : trie.Linked) {context : Nat}
    (inside : context < trie.nodes.length) (limit : Int) :
    Answers trie (trie.truncate context limit)
      (recent limit (trie.elems context)) := by
  rw [truncate]
  split
  · rename_i enough
    rw [← linked.length_elems inside] at enough
    rw [recent_of_length_le enough]
    exact linked.answers inside
  · split
    · rename_i nonpositive
      rw [recent_of_nonpos nonpositive]
      exact linked.root_answers
    · exact linked.get_answers _

end

/-! ## Sequences of operations -/

/-- A trie in use, with the contexts that it has returned; the empty context is
known from the start. -/
structure Session (α : Type) where
  trie : ContextTrie α := {}
  returned : List Nat := [root]

/-- The elements of the context that an operation has returned. -/
def returnedElems (result : ContextTrie α × Nat) : List α :=
  result.1.elems result.2

namespace Session

/-- Go on after an operation. -/
def after (session : Session α) (result : ContextTrie α × Nat) : Session α where
  trie := result.1
  returned := result.2 :: session.returned

variable [DecidableEq α]

/-- One operation.  It may be given the contexts that have been returned. -/
inductive Operation : Session α → Session α → Prop where
  | get (session : Session α) (elems : List α) :
      Operation session (session.after (session.trie.get elems))
  | append (session : Session α) (context : Nat)
      (known : context ∈ session.returned) (elem : α) (limit : Int) :
      Operation session
        (session.after (session.trie.append context elem limit))
  | truncate (session : Session α) (context : Nat)
      (known : context ∈ session.returned) (limit : Int) :
      Operation session (session.after (session.trie.truncate context limit))

/-- What users of a trie rely on. -/
structure Interned (session : Session α) : Prop where
  /-- Contexts may be compared by their nodes. -/
  canonical : ∀ first ∈ session.returned, ∀ second ∈ session.returned,
    first = second ↔ session.trie.elems first = session.trie.elems second
  measured : ∀ context ∈ session.returned,
    session.trie.length context = (session.trie.elems context).length
  got : ∀ elems, returnedElems (session.trie.get elems) = elems
  appended : ∀ context ∈ session.returned, ∀ elem limit,
    returnedElems (session.trie.append context elem limit) =
      if limit ≤ 0 then []
      else (session.trie.elems context ++ [elem]).rtake limit.toNat
  truncated : ∀ context ∈ session.returned, ∀ limit,
    returnedElems (session.trie.truncate context limit) =
      (session.trie.elems context).rtake (max limit 0).toNat
  /-- No operation changes a context. -/
  kept : ∀ later, ReflTransGen Operation session later →
    ∀ context ∈ session.returned,
      later.trie.elems context = session.trie.elems context

/-- The trie is well-formed and holds the contexts that have been returned. -/
structure Sound (session : Session α) : Prop where
  linked : session.trie.Linked
  inside : ∀ context ∈ session.returned,
    context < session.trie.nodes.length

variable {session next : Session α}

theorem Sound.after (sound : session.Sound)
    {result : ContextTrie α × Nat} {elems : List α}
    (answers : Answers session.trie result elems) :
    (session.after result).Sound where
  linked := answers.linked
  inside := by
    intro context known
    rcases List.mem_cons.mp known with rfl | earlier
    · exact answers.inside
    · exact Nat.lt_of_lt_of_le (sound.inside context earlier)
        answers.grown.nodes

/-- Every operation keeps a session sound and the trie growing. -/
theorem Sound.operation (sound : session.Sound)
    (operation : Operation session next) :
    next.Sound ∧ Grown session.trie next.trie := by
  cases operation with
  | get elems =>
      have answers := sound.linked.get_answers elems
      exact ⟨sound.after answers, answers.grown⟩
  | append context known elem limit =>
      have answers := sound.linked.append_answers context elem limit
      exact ⟨sound.after answers, answers.grown⟩
  | truncate context known limit =>
      have answers :=
        sound.linked.truncate_answers (sound.inside context known) limit
      exact ⟨sound.after answers, answers.grown⟩

theorem Sound.operations (sound : session.Sound)
    (operations : ReflTransGen Operation session next) :
    next.Sound ∧ Grown session.trie next.trie := by
  induction operations with
  | refl => exact ⟨sound, .refl _⟩
  | tail _ operation ih =>
      rcases ih with ⟨middle, grown⟩
      rcases middle.operation operation with ⟨last, grownLast⟩
      exact ⟨last, grown.trans grownLast⟩

theorem Sound.start : ({} : Session α).Sound where
  linked := .start
  inside := by
    intro context known
    rw [List.mem_singleton.mp known]
    exact Linked.start.rooted

end Session

end ContextTrie

open ContextTrie

/--
Whatever operations a trie has been through, the contexts that it has returned
are the same exactly if they have the same elements, and the operations return
the contexts with the elements that are asked for.  Later operations do not
change the contexts that have been returned before.
-/
theorem contexts_interned {α : Type} [DecidableEq α] {session : Session α}
    (history : ReflTransGen Session.Operation {} session) :
    session.Interned := by
  rcases Session.Sound.start.operations history with ⟨sound, _⟩
  have linked := sound.linked
  constructor
  · intro first firstKnown second secondKnown
    constructor
    · exact congrArg session.trie.elems
    · exact linked.elems_injective (sound.inside first firstKnown)
        (sound.inside second secondKnown)
  · intro context known
    exact (linked.length_elems (sound.inside context known)).symm
  · intro elems
    exact (linked.get_answers elems).elems
  · intro context known elem limit
    have answers := linked.append_answers context elem limit
    rw [returnedElems, answers.elems]
    split
    · rename_i nonpositive
      exact recent_of_nonpos nonpositive _
    · rfl
  · intro context known limit
    have answers := linked.truncate_answers (sound.inside context known) limit
    rw [returnedElems, answers.elems, recent, List.rtake]
    congr 2
    omega
  · intro later continued context known
    rcases sound.operations continued with ⟨laterSound, grown⟩
    exact linked.elems_of_grown laterSound.linked grown
      (sound.inside context known)

/-- Contexts that are built in two ways are one node, also after the trie has
been entered again from the root with their last elements. -/
theorem contexts_interned_rebuilt :
    ∃ session : Session String,
      ReflTransGen Session.Operation {} session ∧
        session.returned = [3, 2, 4, 5, 3, 0] ∧
        session.returned.map session.trie.elems =
          [["a", "b", "c"], ["a", "b"], ["c"], ["c", "d"], ["a", "b", "c"],
            []] ∧
        session.Interned := by
  have built : Session.Operation ({} : Session String) _ :=
    .get _ ["a", "b", "c"]
  have history := ReflTransGen.single built
    |>.tail (.append _ 3 (by decide) "d" 2)
    |>.tail (.truncate _ 3 (by decide) 1)
    |>.tail (.get _ ["a", "b"])
    |>.tail (.append _ 2 (by decide) "c" 3)
  exact ⟨_, history, by decide, by decide, contexts_interned history⟩

end PointsTo
