import PointsTo.Graph.Reach
import PointsTo.Numbering

/-!
# Flow graphs

The edges along which objects flow between pointers.  Nodes are told apart by
their numbers.  Edges are only ever added, and adding an edge a second time
changes nothing.  A graph keeps the set of its edges and a table of successors
in which the row of a node is at the position of its number; the table is made
longer when a node beyond its end gets its first edge.  The two are always in
step.
-/

namespace PointsTo

namespace Graph

variable {α : Type}

/-- The row at a position; there is nothing in rows that are missing. -/
def rowAt (rows : List (List α)) (position : Nat) : List α :=
  (rows[position]?).getD []

/-- Append `item` to the row at a position.  Rows that are missing up to there
are begun. -/
def extendAt (rows : List (List α)) (position : Nat) (item : α) :
    List (List α) :=
  (rows ++ List.replicate (position + 1 - rows.length) []).modify position
    (· ++ [item])

/-- Beginning rows fills none of them. -/
theorem rowAt_append_replicate (rows : List (List α)) (more position : Nat) :
    rowAt (rows ++ List.replicate more []) position = rowAt rows position := by
  simp only [rowAt, List.getElem?_append, List.getElem?_replicate]
  split
  · rfl
  · rename_i beyond
    rw [List.getElem?_eq_none (Nat.le_of_not_lt beyond)]
    split <;> rfl

theorem rowAt_extendAt (rows : List (List α)) (position other : Nat)
    (item : α) :
    rowAt (extendAt rows position item) other =
      if position = other then rowAt rows other ++ [item]
      else rowAt rows other := by
  let longer := rows ++ List.replicate (position + 1 - rows.length) []
  have same : rowAt longer other = rowAt rows other :=
    rowAt_append_replicate rows _ other
  have modified : rowAt (extendAt rows position item) other =
      (longer[other]?.map fun row =>
        if position = other then row ++ [item] else row).getD [] := by
    simp [rowAt, extendAt, longer, List.getElem?_modify]
  rw [modified, ← same, rowAt]
  by_cases here : position = other
  · have bound : other < longer.length := by
      simp only [longer, List.length_append, List.length_replicate]
      omega
    simp [here, List.getElem?_eq_getElem bound]
  · simp [here]

end Graph

/-- An edge between two nodes with numbers. -/
structure Arc (α : Type) where
  source : Numbered α
  target : Numbered α
deriving DecidableEq, Repr

namespace Arc

variable {α : Type}

/-- The numbers of the two ends, which tell edges apart. -/
def numbers (arc : Arc α) : Nat × Nat :=
  (arc.source.number, arc.target.number)

/-- What an edge connects. -/
def items (arc : Arc α) : α × α :=
  (arc.source.item, arc.target.item)

end Arc

/-- A graph with its edges in the order of their insertion. -/
structure FlowGraph (α : Type) where
  arcs : List (Arc α)
  /-- The targets of the edges that leave a node, at the position of its
  number. -/
  rows : List (List (Numbered α))
  distinct : (arcs.map Arc.numbers).Nodup
  tabled : ∀ number, Graph.rowAt rows number =
    (arcs.filter fun arc => arc.source.number = number).map Arc.target

/-- A summary of the shape of a flow graph. -/
structure FlowStats where
  pointers : Nat
  edges : Nat
  /-- Pointers without outgoing edges. -/
  isolated : Nat
  selfLoops : Nat
  /-- Groups of more than one pointer that reach each other. -/
  cycles : Nat
  largestCycle : Nat
deriving DecidableEq, Repr

namespace FlowGraph

variable {α : Type}

/-- The graph without edges. -/
def empty : FlowGraph α :=
  { arcs := [], rows := [], distinct := List.nodup_nil
    tabled := fun _ => rfl }

/-- What the edges connect. -/
def edges (graph : FlowGraph α) : List (α × α) :=
  graph.arcs.map Arc.items

/-- Whether the graph has an edge. -/
def has (graph : FlowGraph α) (source target : Numbered α) : Bool :=
  graph.arcs.any fun arc => arc.numbers = (source.number, target.number)

/-- Edges are found by their numbers. -/
theorem has_iff_mem_numbers (graph : FlowGraph α) (source target : Numbered α) :
    graph.has source target = true ↔
      (source.number, target.number) ∈ graph.arcs.map Arc.numbers := by
  simp [has]

/-- Add an edge unless the graph has it. -/
def insert (graph : FlowGraph α) (source target : Numbered α) : FlowGraph α :=
  if present : graph.has source target then graph
  else
    { arcs := graph.arcs ++ [⟨source, target⟩]
      rows := Graph.extendAt graph.rows source.number target
      distinct := by
        rw [has_iff_mem_numbers] at present
        rw [List.map_append]
        exact nodup_concat graph.distinct present
      tabled := fun number => by
        rw [Graph.rowAt_extendAt, graph.tabled]
        by_cases leaves : source.number = number <;> simp [leaves] }

/-- Add an edge and say whether it is new. -/
def add (graph : FlowGraph α) (source target : Numbered α) :
    Bool × FlowGraph α :=
  (!graph.has source target, graph.insert source target)

/-- The targets of the edges that leave `source`, oldest first. -/
def succs (graph : FlowGraph α) (source : Numbered α) : List (Numbered α) :=
  Graph.rowAt graph.rows source.number

/-- The number of edges. -/
def size (graph : FlowGraph α) : Nat :=
  graph.arcs.length

/-- The edges that leave the given nodes, node by node. -/
def leaving (graph : FlowGraph α) (nodes : List (Numbered α)) :
    List (α × α) :=
  nodes.flatMap fun node =>
    (graph.succs node).map fun target => (node.item, target.item)

section

variable [DecidableEq α]

/-- The cycles among `nodes`. -/
def cycles (graph : FlowGraph α) (nodes : List (Numbered α)) :
    List (List α) :=
  (Graph.groups (nodes.map Numbered.item) (graph.leaving nodes)).filter
    fun group => 1 < group.length

/-- The shape of the graph as it is seen from the given nodes. -/
def stats (graph : FlowGraph α) (nodes : List (Numbered α)) : FlowStats :=
  let leaving := graph.leaving nodes
  let cycles := graph.cycles nodes
  { pointers := nodes.length
    edges := leaving.length
    isolated := nodes.countP fun node => (graph.succs node).isEmpty
    selfLoops := leaving.countP fun edge => edge.1 = edge.2
    cycles := cycles.length
    largestCycle := (cycles.map List.length).foldl max 0 }

end

@[simp]
theorem edges_empty : (empty : FlowGraph α).edges = [] := rfl

theorem arcs_insert {graph : FlowGraph α} {source target : Numbered α}
    (absent : graph.has source target = false) :
    (graph.insert source target).arcs = graph.arcs ++ [⟨source, target⟩] := by
  rw [insert, dif_neg (by simp [absent])]

theorem insert_of_has {graph : FlowGraph α} {source target : Numbered α}
    (present : graph.has source target = true) :
    graph.insert source target = graph :=
  dif_pos present

theorem edges_insert {graph : FlowGraph α} {source target : Numbered α}
    (absent : graph.has source target = false) :
    (graph.insert source target).edges =
      graph.edges ++ [(source.item, target.item)] := by
  rw [edges, arcs_insert absent, List.map_append]
  rfl

/-- Adding edges only extends their list. -/
theorem edges_isPrefix_insert (graph : FlowGraph α)
    (source target : Numbered α) :
    graph.edges <+: (graph.insert source target).edges := by
  cases present : graph.has source target with
  | true =>
      have same := congrArg edges (insert_of_has present)
      exact same ▸ List.prefix_rfl
  | false =>
      rw [edges_insert present]
      exact List.prefix_append _ _

/-- No edge is added but the given one. -/
theorem mem_arcs_of_mem_insert {graph : FlowGraph α}
    {source target : Numbered α} {arc : Arc α}
    (member : arc ∈ (graph.insert source target).arcs) :
    arc ∈ graph.arcs ∨ arc = ⟨source, target⟩ := by
  cases present : graph.has source target with
  | true =>
      rw [insert_of_has present] at member
      exact Or.inl member
  | false =>
      rw [arcs_insert present] at member
      simpa using member

theorem mem_edges_of_mem_insert {graph : FlowGraph α}
    {source target : Numbered α} {edge : α × α}
    (member : edge ∈ (graph.insert source target).edges) :
    edge ∈ graph.edges ∨ edge = (source.item, target.item) := by
  rcases List.mem_map.mp member with ⟨arc, listed, rfl⟩
  rcases mem_arcs_of_mem_insert listed with old | rfl
  · exact Or.inl (List.mem_map_of_mem old)
  · exact Or.inr rfl

theorem succs_eq (graph : FlowGraph α) (source : Numbered α) :
    graph.succs source =
      (graph.arcs.filter fun arc =>
        arc.source.number = source.number).map Arc.target :=
  graph.tabled source.number

/-! ## Graphs on nodes of one numbering -/

/-- Nodes are told apart by their numbers. -/
def ToldApart (nodes : List (Numbered α)) : Prop :=
  ∀ first ∈ nodes, ∀ second ∈ nodes, first.number = second.number →
    first = second

/-- All edges are between the given nodes. -/
def Within (graph : FlowGraph α) (nodes : List (Numbered α)) : Prop :=
  ∀ arc ∈ graph.arcs, arc.source ∈ nodes ∧ arc.target ∈ nodes

section

variable {graph : FlowGraph α} {nodes : List (Numbered α)}
  (apart : ToldApart nodes) (within : graph.Within nodes)

include apart within

theorem has_iff {source target : Numbered α} (here : source ∈ nodes)
    (there : target ∈ nodes) :
    graph.has source target = true ↔ ⟨source, target⟩ ∈ graph.arcs := by
  rw [has_iff_mem_numbers, List.mem_map]
  constructor
  · rintro ⟨⟨first, second⟩, member, same⟩
    have ends := within _ member
    obtain rfl := apart first ends.1 source here (congrArg Prod.fst same)
    obtain rfl := apart second ends.2 target there (congrArg Prod.snd same)
    exact member
  · exact fun member => ⟨_, member, rfl⟩

theorem mem_succs {source target : Numbered α} (here : source ∈ nodes) :
    target ∈ graph.succs source ↔ ⟨source, target⟩ ∈ graph.arcs := by
  simp only [succs_eq, List.mem_map, List.mem_filter, decide_eq_true_eq]
  constructor
  · rintro ⟨⟨first, second⟩, ⟨member, same⟩, rfl⟩
    obtain rfl := apart first (within _ member).1 source here same
    exact member
  · exact fun member => ⟨_, ⟨member, rfl⟩, rfl⟩

end

end FlowGraph

end PointsTo
