import Mathlib.Data.Set.Card
import Mathlib.Data.Setoid.Partition
import PointsTo.Graph.Flow
import PointsTo.Proofs.Graph.Components

/-!
# The shape of a flow graph

A summary of a flow graph counts the entries in the rows of its table, node by
node, and the groups that a search along them finds.  Both say something about
the edges as a set: every edge is in one row, and the groups with more than one
node are the classes of mutual reachability with more than one member.
-/

namespace PointsTo

open Relation

variable {α : Type}

/-! ## Counting -/

/-- A list without repetitions counts its members. -/
theorem encard_listed {items : List α} (distinct : items.Nodup) :
    { item | item ∈ items }.encard = items.length := by
  classical
  rw [← List.coe_toFinset, Set.encard_coe_eq_coe_finsetCard,
    List.toFinset_card_of_nodup distinct]

theorem encard_counted {items : List α} (distinct : items.Nodup)
    (test : α → Bool) :
    { item | item ∈ items ∧ test item = true }.encard =
      items.countP test := by
  have kept := encard_listed (distinct.filter test)
  simp only [List.mem_filter] at kept
  rw [kept, List.countP_eq_length_filter]

/-- The greatest of an initial number and those in a list. -/
theorem isGreatest_foldl_max (numbers : List Nat) (initial : Nat) :
    IsGreatest (insert initial { number | number ∈ numbers })
      (numbers.foldl max initial) := by
  induction numbers generalizing initial with
  | nil => simp
  | cons number rest ih =>
      have greatest := ih (max initial number)
      rw [List.foldl_cons]
      constructor
      · rcases greatest.1 with first | later
        · rw [first]
          rcases max_choice initial number with left | right
          · exact Or.inl left
          · exact Or.inr (by simp [right])
        · exact Or.inr (List.mem_cons_of_mem _ later)
      · have above := greatest.2 (Set.mem_insert _ _)
        rintro other (rfl | listed)
        · exact (le_max_left _ _).trans above
        · rcases List.mem_cons.mp listed with rfl | later
          · exact (le_max_right _ _).trans above
          · exact greatest.2 (Or.inr later)

/-! ## Classes of mutual reachability -/

namespace Graph

/-- Nodes are connected if each is reached from the other; no edge is needed to
reach a node from itself. -/
def connection (edges : Set (α × α)) : Setoid α where
  r first second :=
    ReflTransGen (fun source target => (source, target) ∈ edges) first second ∧
      ReflTransGen (fun source target => (source, target) ∈ edges) second first
  iseqv :=
    { refl := fun _ => ⟨.refl, .refl⟩
      symm := And.symm
      trans := fun left right =>
        ⟨left.1.trans right.1, right.2.trans left.2⟩ }

/-- The classes of connected nodes with more than one member. -/
def cycles (edges : Set (α × α)) : Set (Set α) :=
  { nodes ∈ (connection edges).classes | nodes.Nontrivial }

/-- The sizes of the cycles, and zero in case there are none. -/
def cycleSizes (edges : Set (α × α)) : Set ENat :=
  insert 0 (Set.encard '' cycles edges)

/-- Connected nodes are the same or lie on a common cycle. -/
theorem connection_iff {edges : List (α × α)} {first second : α} :
    connection { edge | edge ∈ edges } first second ↔
      first = second ∨ Mutual edges first second := by
  constructor
  · rintro ⟨there, back⟩
    rcases reflTransGen_iff_eq_or_transGen.mp there with same | leads
    · exact Or.inl same.symm
    rcases reflTransGen_iff_eq_or_transGen.mp back with same | returns
    · exact Or.inl same
    · exact Or.inr ⟨leads, returns⟩
  · rintro (rfl | ⟨leads, returns⟩)
    · exact ⟨.refl, .refl⟩
    · exact ⟨leads.to_reflTransGen, returns.to_reflTransGen⟩

/-- Only what edges connect lies on cycles. -/
theorem Mutual.listed {nodes : List α} {edges : List (α × α)}
    (closed : ∀ edge ∈ edges, edge.1 ∈ nodes ∧ edge.2 ∈ nodes)
    {first second : α} (both : Mutual edges first second) :
    first ∈ nodes ∧ second ∈ nodes := by
  rcases TransGen.head'_iff.mp both.1 with ⟨_, leaves, _⟩
  rcases TransGen.head'_iff.mp both.2 with ⟨_, returns, _⟩
  exact ⟨(closed _ leaves).1, (closed _ returns).1⟩

section Groups

variable [DecidableEq α] {nodes : List α} {edges : List (α × α)}
  (distinct : nodes.Nodup)

include distinct

/-- Groups do not overlap. -/
theorem eq_of_shared {group other : List α}
    (member : group ∈ groups nodes edges)
    (otherMember : other ∈ groups nodes edges) {node : α}
    (here : node ∈ group) (there : node ∈ other) : group = other := by
  have apart := (List.nodup_flatten.mp (nodup_flatten_groups distinct edges)).2
  have symmetric : Std.Symm (List.Disjoint (α := α)) :=
    ⟨fun _ _ => List.disjoint_symm⟩
  by_contra differ
  exact apart.forall member otherMember differ here there

theorem nodup_groups : (groups nodes edges).Nodup := by
  have apart := (List.nodup_flatten.mp (nodup_flatten_groups distinct edges)).2
  refine apart.imp_of_mem ?_
  rintro group _ member _ disjoint rfl
  rcases List.exists_mem_of_ne_nil _ (ne_nil_of_mem_groupMutual member) with
    ⟨node, listed⟩
  exact disjoint listed listed

/-- Groups with the same members are the same. -/
theorem injOn_groups :
    Set.InjOn (fun group : List α => { node | node ∈ group })
      { group | group ∈ groups nodes edges } := by
  intro group member other otherMember same
  rcases List.exists_mem_of_ne_nil _ (ne_nil_of_mem_groupMutual member) with
    ⟨node, listed⟩
  have shared : node ∈ other := (Set.ext_iff.mp same node).mp listed
  exact eq_of_shared distinct member otherMember listed shared

theorem encard_group {group : List α} (member : group ∈ groups nodes edges) :
    { node | node ∈ group }.encard = group.length :=
  encard_listed ((sublist_of_mem_groups member).nodup distinct)

theorem nontrivial_group_iff {group : List α}
    (member : group ∈ groups nodes edges) :
    { node | node ∈ group }.Nontrivial ↔ 1 < group.length := by
  rw [← Set.one_lt_encard_iff_nontrivial, encard_group distinct member,
    Nat.one_lt_cast]

variable (closed : ∀ edge ∈ edges, edge.1 ∈ nodes ∧ edge.2 ∈ nodes)

include closed

/-- A group is the class of each of its members. -/
theorem group_eq_class {group : List α} (member : group ∈ groups nodes edges)
    {node : α} (listed : node ∈ group) :
    { other | other ∈ group } =
      { other | connection { edge | edge ∈ edges } other node } := by
  ext other
  rw [Set.mem_ofPred_eq, Set.mem_ofPred_eq, connection_iff]
  constructor
  · intro here
    exact Or.inr (shared_groups_iff.mp ⟨group, member, here, listed⟩).2.2
  · rintro (rfl | both)
    · exact listed
    · have ends := both.listed closed
      rcases shared_groups_iff.mpr ⟨ends.1, ends.2, both⟩ with
        ⟨shared, sharedMember, otherListed, nodeListed⟩
      rwa [eq_of_shared distinct member sharedMember listed nodeListed]

/-- The groups with more than one node are the cycles. -/
theorem mem_cycles_iff {cycle : Set α} :
    cycle ∈ cycles { edge | edge ∈ edges } ↔
      ∃ group ∈ groups nodes edges, 1 < group.length ∧
        { node | node ∈ group } = cycle := by
  constructor
  · rintro ⟨⟨node, rfl⟩, several⟩
    -- A second member lies on a common cycle with the node that names the class.
    rcases several.exists_ne node with ⟨other, connected, differ⟩
    have both := (connection_iff.mp connected).resolve_left differ
    have ends := both.listed closed
    rcases shared_groups_iff.mpr ⟨ends.1, ends.2, both⟩ with
      ⟨group, member, _, listed⟩
    have whole := group_eq_class distinct closed member listed
    refine ⟨group, member, (nontrivial_group_iff distinct member).mp ?_, whole⟩
    rw [whole]
    exact several
  · rintro ⟨group, member, long, rfl⟩
    rcases List.exists_mem_of_length_pos (Nat.zero_lt_of_lt long) with
      ⟨node, listed⟩
    exact ⟨⟨node, group_eq_class distinct closed member listed⟩,
      (nontrivial_group_iff distinct member).mpr long⟩

end Groups

end Graph

/-! ## Summaries -/

/-- A summary says how many pointers were created and how many edges added, how
many of the pointers have no outgoing edge and how many of the edges lead from a
pointer to itself, how many cycles there are and how large the largest is. -/
structure FlowStats.Exact (stats : FlowStats) (created : Set α)
    (added : Set (α × α)) : Prop where
  pointers : created.encard = stats.pointers
  edges : added.encard = stats.edges
  isolated : { pointer ∈ created |
    ∀ target, (pointer, target) ∉ added }.encard = stats.isolated
  selfLoops : { edge ∈ added | edge.1 = edge.2 }.encard = stats.selfLoops
  cycles : (Graph.cycles added).encard = stats.cycles
  largestCycle : IsGreatest (Graph.cycleSizes added) stats.largestCycle

namespace FlowGraph

theorem nodup_succs (graph : FlowGraph α) (source : Numbered α) :
    (graph.succs source).Nodup := by
  rw [succs_eq]
  refine (graph.distinct.of_map.filter _).map_on ?_
  intro first firstLeaves second secondLeaves same
  rw [List.mem_filter, decide_eq_true_eq] at firstLeaves secondLeaves
  apply List.inj_on_of_nodup_map graph.distinct firstLeaves.1 secondLeaves.1
  rw [Arc.numbers, Arc.numbers, firstLeaves.2, secondLeaves.2, same]

variable {graph : FlowGraph α} {nodes : List (Numbered α)}
  (apart : ToldApart nodes) (within : graph.Within nodes)

include apart within

theorem mem_leaving {edge : α × α} :
    edge ∈ graph.leaving nodes ↔ edge ∈ graph.edges := by
  simp only [leaving, edges, List.mem_flatMap, List.mem_map]
  constructor
  · rintro ⟨node, listed, target, member, rfl⟩
    exact ⟨_, (mem_succs apart within listed).mp member, rfl⟩
  · rintro ⟨arc, member, rfl⟩
    have listed := (within arc member).1
    exact ⟨_, listed, _, (mem_succs apart within listed).mpr member, rfl⟩

theorem setOf_mem_leaving :
    { edge | edge ∈ graph.leaving nodes } = { edge | edge ∈ graph.edges } := by
  ext edge
  exact mem_leaving apart within

variable (distinct : (nodes.map Numbered.item).Nodup)

include distinct

/-- Every edge is in one row. -/
theorem nodup_leaving : (graph.leaving nodes).Nodup := by
  rw [leaving, List.nodup_flatMap]
  constructor
  · intro node listed
    refine (graph.nodup_succs node).map_on ?_
    intro first here second there same
    have firstArc := (mem_succs apart within listed).mp here
    have secondArc := (mem_succs apart within listed).mp there
    exact List.inj_on_of_nodup_map distinct (within _ firstArc).2
      (within _ secondArc).2 (congrArg Prod.snd same)
  · refine (List.pairwise_map.mp distinct).imp fun {first second} differ => ?_
    intro edge here there
    rcases List.mem_map.mp here with ⟨_, _, rfl⟩
    rcases List.mem_map.mp there with ⟨_, _, same⟩
    exact differ (congrArg Prod.fst same).symm

theorem encard_isolated :
    { pointer | pointer ∈ nodes.map Numbered.item ∧
        ∀ target, (pointer, target) ∉ graph.edges }.encard =
      nodes.countP fun node => (graph.succs node).isEmpty := by
  have counted := encard_listed
    ((List.filter_sublist (p := fun node => (graph.succs node).isEmpty)
      (l := nodes)).map Numbered.item |>.nodup distinct)
  rw [List.length_map, ← List.countP_eq_length_filter] at counted
  rw [← counted]
  congr 1
  ext pointer
  simp only [Set.mem_ofPred_eq, List.mem_map, List.mem_filter,
    List.isEmpty_iff, List.eq_nil_iff_forall_not_mem, edges]
  constructor
  · rintro ⟨⟨node, listed, rfl⟩, none⟩
    refine ⟨node, ⟨listed, fun target member => ?_⟩, rfl⟩
    exact none target.item ⟨_, (mem_succs apart within listed).mp member, rfl⟩
  · rintro ⟨node, ⟨listed, none⟩, rfl⟩
    refine ⟨⟨node, listed, rfl⟩, ?_⟩
    rintro target ⟨arc, member, same⟩
    have source : arc.source = node :=
      List.inj_on_of_nodup_map distinct (within arc member).1 listed
        (congrArg Prod.fst same)
    exact none arc.target
      ((mem_succs apart within listed).mpr (source ▸ member))

variable [DecidableEq α]

/-- The cycles that the summary counts are all the cycles. -/
theorem cycles_eq_image :
    Graph.cycles { edge | edge ∈ graph.edges } =
      (fun group => { node | node ∈ group }) ''
        { group | group ∈ graph.cycles nodes } := by
  have closed : ∀ edge ∈ graph.leaving nodes,
      edge.1 ∈ nodes.map Numbered.item ∧ edge.2 ∈ nodes.map Numbered.item := by
    intro edge member
    rcases List.mem_map.mp ((mem_leaving apart within).mp member) with
      ⟨arc, listed, rfl⟩
    have ends := within arc listed
    exact ⟨List.mem_map_of_mem ends.1, List.mem_map_of_mem ends.2⟩
  rw [← setOf_mem_leaving apart within]
  ext cycle
  rw [Graph.mem_cycles_iff distinct closed]
  simp [cycles, and_assoc]

theorem encard_cycles :
    (Graph.cycles { edge | edge ∈ graph.edges }).encard =
      (graph.cycles nodes).length := by
  have once : (graph.cycles nodes).Nodup :=
    (Graph.nodup_groups distinct).filter _
  have kept : { group | group ∈ graph.cycles nodes } ⊆
      { group | group ∈
        Graph.groups (nodes.map Numbered.item) (graph.leaving nodes) } :=
    fun group member => (List.mem_filter.mp member).1
  rw [cycles_eq_image apart within distinct,
    ((Graph.injOn_groups distinct).mono kept).encard_image, encard_listed once]

theorem isGreatest_cycleSizes :
    IsGreatest (Graph.cycleSizes { edge | edge ∈ graph.edges })
      (graph.stats nodes).largestCycle := by
  have sizes : Graph.cycleSizes { edge | edge ∈ graph.edges } =
      Nat.cast '' Insert.insert 0
        { size | size ∈ (graph.cycles nodes).map List.length } := by
    have long : ∀ group ∈ { group | group ∈ graph.cycles nodes },
        Set.encard { node | node ∈ group } = (group.length : ENat) :=
      fun group kept =>
        Graph.encard_group distinct (List.mem_filter.mp kept).1
    rw [Graph.cycleSizes, cycles_eq_image apart within distinct,
      Set.image_image, Set.image_congr long, Set.image_insert_eq,
      Nat.cast_zero]
    congr 1
    ext size
    simp
  rw [sizes]
  exact Nat.mono_cast.map_isGreatest
    (isGreatest_foldl_max ((graph.cycles nodes).map List.length) 0)

/-- The summary of a graph is exact if its edges connect the given nodes. -/
theorem exact_stats :
    (graph.stats nodes).Exact { node | node ∈ nodes.map Numbered.item }
      { edge | edge ∈ graph.edges } := by
  constructor
  case pointers =>
    rw [encard_listed distinct, List.length_map]
    rfl
  case edges =>
    rw [← setOf_mem_leaving apart within]
    exact encard_listed (nodup_leaving apart within distinct)
  case isolated => exact encard_isolated apart within distinct
  case selfLoops =>
    have counted := encard_counted (nodup_leaving apart within distinct)
      fun edge => edge.1 = edge.2
    rw [← setOf_mem_leaving apart within]
    simpa [stats] using counted
  case cycles => exact encard_cycles apart within distinct
  case largestCycle => exact isGreatest_cycleSizes apart within distinct

end FlowGraph

end PointsTo
