/-!
# Reachability in finite graphs

A graph is a list of edges.  `Graph.explore` collects the nodes that are
reached from a list of nodes along edges; every edge is followed at most once,
which bounds the search.  `Graph.groups` collects the nodes that lie on cycles
into groups of nodes that reach each other.
-/

namespace PointsTo.Graph

variable {α : Type} [DecidableEq α]

/-- The targets of the edges that leave `node`, in order. -/
def successors (edges : List (α × α)) (node : α) : List α :=
  (edges.filter fun edge => edge.1 = node).map Prod.snd

/-- The edges that do not leave `node`. -/
def others (edges : List (α × α)) (node : α) : List (α × α) :=
  edges.filter fun edge => edge.1 ≠ node

/-- Every edge leaves `node` or is among the others. -/
theorem length_successors_add_length_others (edges : List (α × α))
    (node : α) :
    (successors edges node).length + (others edges node).length =
      edges.length := by
  induction edges with
  | nil => rfl
  | cons edge rest ih =>
      by_cases leaves : edge.1 = node <;>
        simp_all [successors, others] <;> omega

/--
The nodes in `todo` and all nodes that they reach along the edges.  A node
whose edges have been followed before is listed again without them.
-/
def explore (edges : List (α × α)) (todo : List α) : List α :=
  match todo with
  | [] => []
  | node :: rest =>
      node :: explore (others edges node) (successors edges node ++ rest)
termination_by edges.length + todo.length
decreasing_by
  have total := length_successors_add_length_others edges node
  simp only [List.length_append, List.length_cons]
  omega

/-- The nodes that `node` reaches along one or more edges. -/
def after (edges : List (α × α)) (node : α) : List α :=
  explore edges (successors edges node)

/-- Whether two nodes, each given with the nodes after it, reach each other. -/
def mutually (first second : α × List α) : Bool :=
  first.2.contains second.1 && second.2.contains first.1

/-- The entries whose nodes are mutually reachable with that of `first`. -/
def together (first : α × List α) (entries : List (α × List α)) :
    List (α × List α) :=
  entries.filter (mutually first)

/-- The entries that are not together with `first`. -/
def apart (first : α × List α) (entries : List (α × List α)) :
    List (α × List α) :=
  entries.filter fun entry => !mutually first entry

theorem length_apart_le (first : α × List α)
    (entries : List (α × List α)) :
    (apart first entries).length ≤ entries.length :=
  List.length_filter_le _ _

/--
Group nodes, each given with the nodes after it, by mutual reachability.  The
nodes in a group and the groups themselves keep their order.
-/
def groupMutual : List (α × List α) → List (List α)
  | [] => []
  | first :: rest =>
      (first.1 :: (together first rest).map Prod.fst) ::
        groupMutual (apart first rest)
termination_by nodes => nodes.length
decreasing_by
  exact Nat.lt_succ_of_le (length_apart_le first rest)

/--
The groups of nodes that reach each other, among the nodes that reach
themselves.
-/
def groups (nodes : List α) (edges : List (α × α)) : List (List α) :=
  groupMutual ((nodes.map fun node => (node, after edges node)).filter
    fun entry => entry.2.contains entry.1)

end PointsTo.Graph
