import Mathlib.Data.List.Nodup
import Mathlib.Data.List.Perm.Basic
import Mathlib.Logic.Relation
import PointsTo.Graph.Reach

/-!
# Groups of nodes that reach each other

The search finds exactly the nodes to which a path leads.  It follows the edges
of a node only once, so a path may have lost edges that it uses; then it has
passed through a node whose successors are searched anyway.

The nodes that reach themselves are grouped by mutual reachability, which is an
equivalence between them.  The groups are its classes: each node is in one
group, and both the nodes of a group and the groups keep the order of the nodes.
-/

namespace PointsTo.Graph

open Relation

variable {α : Type}

/-- An edge leads from one node to another. -/
def Link (edges : List (α × α)) (source target : α) : Prop :=
  (source, target) ∈ edges

theorem reflTransGen_mono {fewer edges : List (α × α)}
    (included : fewer ⊆ edges) {source target : α}
    (path : ReflTransGen (Link fewer) source target) :
    ReflTransGen (Link edges) source target :=
  ReflTransGen.mono (fun _ _ link => included link) _ _ path

/-- Each of two nodes reaches the other along one or more edges. -/
def Mutual (edges : List (α × α)) (first second : α) : Prop :=
  TransGen (Link edges) first second ∧ TransGen (Link edges) second first

theorem Mutual.symm {edges : List (α × α)} {first second : α}
    (both : Mutual edges first second) :
    Mutual edges second first :=
  And.symm both

theorem Mutual.trans {edges : List (α × α)} {first second third : α}
    (left : Mutual edges first second) (right : Mutual edges second third) :
    Mutual edges first third :=
  ⟨left.1.trans right.1, right.2.trans left.2⟩

variable [DecidableEq α]

/-! ## The search -/

section Search

variable {edges : List (α × α)} {node : α}

theorem mem_successors {target : α} :
    target ∈ successors edges node ↔ Link edges node target := by
  simp [successors, Link]

theorem mem_others {source target : α} :
    (source, target) ∈ others edges node ↔
      Link edges source target ∧ source ≠ node := by
  simp [others, Link]

theorem others_subset : others edges node ⊆ edges :=
  List.filter_subset_self _

/-- A path either does without the edges of `node`, or it ends at `node`, or it
can be replaced by a path from a successor of `node` that does without them. -/
theorem path_avoiding {source target : α}
    (path : ReflTransGen (Link edges) source target) :
    target = node ∨ ReflTransGen (Link (others edges node)) source target ∨
      ∃ next ∈ successors edges node,
        ReflTransGen (Link (others edges node)) next target := by
  induction path with
  | refl => exact Or.inr (Or.inl .refl)
  | @tail middle target _ link ih =>
      by_cases last : middle = node
      · subst last
        exact Or.inr (Or.inr ⟨target, mem_successors.mpr link, .refl⟩)
      · have kept : Link (others edges node) middle target :=
          mem_others.mpr ⟨link, last⟩
        rcases ih with here | direct | ⟨next, listed, detour⟩
        · exact absurd here last
        · exact Or.inr (Or.inl (direct.tail kept))
        · exact Or.inr (Or.inr ⟨next, listed, detour.tail kept⟩)

/-- The search finds the nodes to which a path leads. -/
theorem mem_explore {todo : List α} {target : α} :
    target ∈ explore edges todo ↔
      ∃ source ∈ todo, ReflTransGen (Link edges) source target := by
  fun_induction explore edges todo with
  | case1 edges => simp
  | case2 edges node rest ih =>
      rw [List.mem_cons, ih]
      constructor
      · rintro (rfl | ⟨source, listed, path⟩)
        · exact ⟨target, .head _, .refl⟩
        · have whole := reflTransGen_mono others_subset path
          rcases List.mem_append.mp listed with next | later
          · exact ⟨node, .head _, whole.head (mem_successors.mp next)⟩
          · exact ⟨source, .tail _ later, whole⟩
      · rintro ⟨source, listed, path⟩
        rcases path_avoiding path with here | direct | ⟨next, found, detour⟩
        · exact Or.inl here
        · rcases List.mem_cons.mp listed with rfl | later
          · -- Without its edges, a node reaches only itself.
            rcases direct.cases_head with here | ⟨next, link, _⟩
            · exact Or.inl here.symm
            · exact absurd rfl (mem_others.mp link).2
          · exact Or.inr ⟨source, List.mem_append_right _ later, direct⟩
        · exact Or.inr ⟨next, List.mem_append_left _ found, detour⟩

/-- The nodes after a node are those that it reaches along one or more edges. -/
theorem mem_after {target : α} :
    target ∈ after edges node ↔ TransGen (Link edges) node target := by
  rw [after, mem_explore, TransGen.head'_iff]
  simp only [mem_successors]

end Search

/-! ## Groups -/

section Groups

variable {entries : List (α × List α)}

/-- Each node is in one group. -/
theorem flatten_groupMutual_perm (entries : List (α × List α)) :
    (groupMutual entries).flatten.Perm (entries.map Prod.fst) := by
  fun_induction groupMutual entries with
  | case1 => exact .nil
  | case2 first rest ih =>
      have split : (together first rest ++ apart first rest).Perm rest :=
        List.filter_append_perm ..
      rw [List.flatten_cons, List.cons_append, List.map_cons]
      apply List.Perm.cons
      apply (ih.append_left _).trans
      rw [← List.map_append]
      exact split.map Prod.fst

/-- The nodes of a group keep their order. -/
theorem sublist_of_mem_groupMutual {group : List α}
    (member : group ∈ groupMutual entries) :
    group.Sublist (entries.map Prod.fst) := by
  fun_induction groupMutual entries with
  | case1 => cases member
  | case2 first rest ih =>
      rw [List.map_cons]
      rcases List.mem_cons.mp member with rfl | later
      · exact (List.filter_sublist.map Prod.fst).cons_cons first.1
      · exact ((ih later).trans (List.filter_sublist.map Prod.fst)).cons _

theorem ne_nil_of_mem_groupMutual {group : List α}
    (member : group ∈ groupMutual entries) : group ≠ [] := by
  fun_induction groupMutual entries with
  | case1 => cases member
  | case2 first rest ih =>
      rcases List.mem_cons.mp member with rfl | later
      · exact List.cons_ne_nil _ _
      · exact ih later

/-- The groups keep the order of their first nodes. -/
theorem heads_groupMutual_sublist (entries : List (α × List α)) :
    ((groupMutual entries).filterMap List.head?).Sublist
      (entries.map Prod.fst) := by
  fun_induction groupMutual entries with
  | case1 => exact .slnil
  | case2 first rest ih =>
      rw [List.filterMap_cons, List.head?_cons, List.map_cons]
      apply List.Sublist.cons_cons
      exact ih.trans (List.filter_sublist.map Prod.fst)

section Told

variable {edges : List (α × α)}

/-- The group of an entry consists of the nodes mutual with its node. -/
theorem mem_together_iff {entry : α × List α} {rest : List (α × List α)}
    (told : ∀ other ∈ rest,
      mutually entry other = true ↔ Mutual edges entry.1 other.1)
    (self : Mutual edges entry.1 entry.1) {node : α} :
    node ∈ entry.1 :: (together entry rest).map Prod.fst ↔
      node ∈ (entry :: rest).map Prod.fst ∧ Mutual edges entry.1 node := by
  rw [List.map_cons, List.mem_cons, List.mem_cons]
  constructor
  · rintro (rfl | listed)
    · exact ⟨Or.inl rfl, self⟩
    · rcases List.mem_map.mp listed with ⟨other, kept, rfl⟩
      rcases List.mem_filter.mp kept with ⟨member, linked⟩
      exact ⟨Or.inr (List.mem_map_of_mem member),
        (told other member).mp linked⟩
  · rintro ⟨rfl | listed, linked⟩
    · exact Or.inl rfl
    · rcases List.mem_map.mp listed with ⟨other, member, rfl⟩
      exact Or.inr (List.mem_map_of_mem
        (List.mem_filter.mpr ⟨member, (told other member).mpr linked⟩))

/-- The other groups consist of the nodes that are not. -/
theorem mem_apart_iff {entry : α × List α} {rest : List (α × List α)}
    (told : ∀ other ∈ rest,
      mutually entry other = true ↔ Mutual edges entry.1 other.1) {node : α} :
    node ∈ (apart entry rest).map Prod.fst ↔
      node ∈ rest.map Prod.fst ∧ ¬ Mutual edges entry.1 node := by
  constructor
  · intro listed
    rcases List.mem_map.mp listed with ⟨other, kept, rfl⟩
    rcases List.mem_filter.mp kept with ⟨member, separate⟩
    rw [Bool.not_eq_true', ← Bool.not_eq_true, told other member] at separate
    exact ⟨List.mem_map_of_mem member, separate⟩
  · rintro ⟨listed, separate⟩
    rcases List.mem_map.mp listed with ⟨other, member, rfl⟩
    rw [← told other member, Bool.not_eq_true, ← Bool.not_eq_true'] at separate
    exact List.mem_map_of_mem (List.mem_filter.mpr ⟨member, separate⟩)

/-- If the entries tell which nodes are mutual, nodes share a group exactly if
they are. -/
theorem shared_groupMutual_iff
    (told : ∀ first ∈ entries, ∀ second ∈ entries,
      mutually first second = true ↔ Mutual edges first.1 second.1)
    (self : ∀ entry ∈ entries, Mutual edges entry.1 entry.1)
    {first second : α} :
    (∃ group ∈ groupMutual entries, first ∈ group ∧ second ∈ group) ↔
      first ∈ entries.map Prod.fst ∧ second ∈ entries.map Prod.fst ∧
        Mutual edges first second := by
  fun_induction groupMutual entries with
  | case1 => simp
  | case2 entry rest ih =>
      have toldHere : ∀ other ∈ rest,
          mutually entry other = true ↔ Mutual edges entry.1 other.1 :=
        fun other member => told entry (.head _) other (.tail _ member)
      have remaining : ∀ other ∈ apart entry rest, other ∈ entry :: rest :=
        fun other kept => .tail _ (List.mem_of_mem_filter kept)
      have later := ih
        (fun one oneKept other otherKept =>
          told one (remaining one oneKept) other (remaining other otherKept))
        (fun one kept => self one (remaining one kept))
      rw [List.exists_mem_cons_iff, later,
        mem_together_iff toldHere (self entry (.head _)),
        mem_together_iff toldHere (self entry (.head _)),
        mem_apart_iff toldHere, mem_apart_iff toldHere]
      constructor
      · rintro (⟨⟨one, linked⟩, other, linkedToo⟩ |
          ⟨⟨one, _⟩, ⟨other, _⟩, linked⟩)
        · exact ⟨one, other, linked.symm.trans linkedToo⟩
        · exact ⟨.tail _ one, .tail _ other, linked⟩
      · rintro ⟨one, other, linked⟩
        by_cases here : Mutual edges entry.1 first
        · exact Or.inl ⟨⟨one, here⟩, other, here.trans linked⟩
        · -- A node mutual with one elsewhere is elsewhere, too.
          have elsewhere : ¬ Mutual edges entry.1 second :=
            fun there => here (there.trans linked.symm)
          have inRest : ∀ {node : α}, ¬ Mutual edges entry.1 node →
              node ∈ (entry :: rest).map Prod.fst →
              node ∈ rest.map Prod.fst := by
            intro node separate listed
            rcases List.mem_cons.mp listed with rfl | member
            · exact absurd (self entry (.head _)) separate
            · exact member
          exact Or.inr ⟨⟨inRest here one, here⟩,
            ⟨inRest elsewhere other, elsewhere⟩, linked⟩

end Told

end Groups

/-! ## Components -/

section Components

variable {nodes : List α} {edges : List (α × α)}

/-- The nodes that reach themselves, with the nodes after them. -/
def cyclic (nodes : List α) (edges : List (α × α)) : List (α × List α) :=
  (nodes.map fun node => (node, after edges node)).filter
    fun entry => entry.2.contains entry.1

theorem mem_cyclic {entry : α × List α} :
    entry ∈ cyclic nodes edges ↔
      entry.1 ∈ nodes ∧ TransGen (Link edges) entry.1 entry.1 ∧
        entry.2 = after edges entry.1 := by
  rw [cyclic, List.mem_filter, List.mem_map]
  constructor
  · rintro ⟨⟨node, listed, rfl⟩, loops⟩
    exact ⟨listed, mem_after.mp (List.contains_iff_mem.mp loops), rfl⟩
  · rintro ⟨listed, loops, same⟩
    refine ⟨⟨entry.1, listed, Prod.ext rfl same.symm⟩, ?_⟩
    rw [same]
    exact List.contains_iff_mem.mpr (mem_after.mpr loops)

theorem cyclic_sublist (nodes : List α) (edges : List (α × α)) :
    ((cyclic nodes edges).map Prod.fst).Sublist nodes := by
  have whole : (nodes.map fun node => (node, after edges node)).map Prod.fst =
      nodes := by
    rw [List.map_map]
    exact List.map_id _
  have kept := (List.filter_sublist
    (l := nodes.map fun node => (node, after edges node))
    (p := fun entry => entry.2.contains entry.1)).map Prod.fst
  rwa [whole] at kept

theorem mem_cyclic_nodes {node : α} :
    node ∈ (cyclic nodes edges).map Prod.fst ↔
      node ∈ nodes ∧ TransGen (Link edges) node node := by
  rw [List.mem_map]
  constructor
  · rintro ⟨entry, member, rfl⟩
    rcases mem_cyclic.mp member with ⟨listed, loops, _⟩
    exact ⟨listed, loops⟩
  · rintro ⟨listed, loops⟩
    exact ⟨(node, after edges node), mem_cyclic.mpr ⟨listed, loops, rfl⟩, rfl⟩

/-- Nodes share a group exactly if each reaches the other along one or more
edges. -/
theorem shared_groups_iff {first second : α} :
    (∃ group ∈ groups nodes edges, first ∈ group ∧ second ∈ group) ↔
      first ∈ nodes ∧ second ∈ nodes ∧ Mutual edges first second := by
  have told : ∀ one ∈ cyclic nodes edges, ∀ other ∈ cyclic nodes edges,
      mutually one other = true ↔ Mutual edges one.1 other.1 := by
    intro one oneMember other otherMember
    rcases mem_cyclic.mp oneMember with ⟨_, _, oneAfter⟩
    rcases mem_cyclic.mp otherMember with ⟨_, _, otherAfter⟩
    rw [mutually, Bool.and_eq_true, List.contains_iff_mem,
      List.contains_iff_mem, oneAfter, otherAfter, mem_after, mem_after, Mutual]
  have self : ∀ entry ∈ cyclic nodes edges, Mutual edges entry.1 entry.1 := by
    intro entry member
    have loops := (mem_cyclic.mp member).2.1
    exact ⟨loops, loops⟩
  have shared : (∃ group ∈ groups nodes edges, first ∈ group ∧ second ∈ group) ↔
      first ∈ (cyclic nodes edges).map Prod.fst ∧
        second ∈ (cyclic nodes edges).map Prod.fst ∧
          Mutual edges first second :=
    shared_groupMutual_iff told self
  rw [shared, mem_cyclic_nodes, mem_cyclic_nodes]
  constructor
  · rintro ⟨⟨firstListed, _⟩, ⟨secondListed, _⟩, both⟩
    exact ⟨firstListed, secondListed, both⟩
  · rintro ⟨firstListed, secondListed, both⟩
    exact ⟨⟨firstListed, both.1.trans both.2⟩,
      ⟨secondListed, both.2.trans both.1⟩, both⟩

/-- Groups list nodes in order. -/
theorem sublist_of_mem_groups {group : List α}
    (member : group ∈ groups nodes edges) : group.Sublist nodes :=
  (sublist_of_mem_groupMutual member).trans (cyclic_sublist nodes edges)

theorem heads_groups_sublist (nodes : List α) (edges : List (α × α)) :
    ((groups nodes edges).filterMap List.head?).Sublist nodes :=
  (heads_groupMutual_sublist _).trans (cyclic_sublist nodes edges)

theorem nodup_flatten_groups (distinct : nodes.Nodup)
    (edges : List (α × α)) : (groups nodes edges).flatten.Nodup :=
  (flatten_groupMutual_perm _).nodup_iff.mpr
    ((cyclic_sublist nodes edges).nodup distinct)

end Components

end PointsTo.Graph
