import PointsTo.Analysis.Context
import PointsTo.Graph.Reach

/-!
# Call graphs

The methods that the analysis reaches and the calls between them, all under
contexts and in the order of their discovery.  A graph also keeps tables: which
methods are marked as reachable and which of them has a number, the edges by
call sites and callees, and the callees and callers of methods.  The tables are
always in step with the lists.
-/

namespace PointsTo

/-- A call edge. -/
structure CallEdge where
  kind : CallKind
  site : ContextSite
  callee : ContextMethod
deriving DecidableEq, Repr

namespace CallEdge

/-- The method that contains the call site. -/
def caller (edge : CallEdge) : ContextMethod :=
  ContextSite.container edge.site

/-- What tells the edge apart from others. -/
def key (edge : CallEdge) : ContextSite × ContextMethod :=
  (edge.site, edge.callee)

end CallEdge

/-! ## Tables of edges -/

/-- The edges of a call graph, found by their ends. -/
structure EdgeTables where
  /-- The edges by their call sites and callees. -/
  keys : Table (ContextSite × ContextMethod) CallEdge
  /-- The edges that leave call sites, oldest first. -/
  leaving : Table ContextSite (List CallEdge)
  /-- The edges that enter methods, oldest first. -/
  entering : Table ContextMethod (List CallEdge)
  /-- The methods that methods call. -/
  callees : Table ContextMethod (Table ContextMethod Bool)
  /-- The methods that call methods. -/
  callers : Table ContextMethod (Table ContextMethod Bool)

namespace EdgeTables

/-- The tables of no edges. -/
def empty : EdgeTables :=
  { keys := .empty, leaving := .empty, entering := .empty
    callees := .empty, callers := .empty }

/-- Enter an edge into the tables. -/
def insert (tables : EdgeTables) (edge : CallEdge) : EdgeTables :=
  { keys := tables.keys.set edge.key edge
    leaving := tables.leaving.extend edge.site edge
    entering := tables.entering.extend edge.callee edge
    callees := tables.callees.markFor edge.caller edge.callee
    callers := tables.callers.markFor edge.callee edge.caller }

/-- The tables have the edges of a list and no others. -/
structure InStep (tables : EdgeTables) (edges : List CallEdge) : Prop where
  keys : ∀ key, (tables.keys.find? key).isSome = true ↔
    key ∈ edges.map CallEdge.key
  leaving : ∀ site, tables.leaving.row site =
    edges.filter fun edge => edge.site = site
  entering : ∀ method, tables.entering.row method =
    edges.filter fun edge => edge.callee = method
  callees : ∀ caller callee,
    (tables.callees.marksOf caller).marked callee = true ↔
      ∃ edge ∈ edges, edge.caller = caller ∧ edge.callee = callee
  callers : ∀ caller callee,
    (tables.callers.marksOf callee).marked caller = true ↔
      ∃ edge ∈ edges, edge.caller = caller ∧ edge.callee = callee

theorem inStep_empty : empty.InStep [] := by
  constructor <;> simp [empty, Table.marksOf]

/-- An edge that is put at the end of the list is entered into the tables. -/
theorem InStep.insert {tables : EdgeTables} {edges : List CallEdge}
    (inStep : tables.InStep edges) (edge : CallEdge) :
    (tables.insert edge).InStep (edges ++ [edge]) where
  keys key := by
    by_cases same : edge.key = key
    · simp [EdgeTables.insert, same]
    · simp [EdgeTables.insert, same, Ne.symm same, inStep.keys]
  leaving site := by
    rw [EdgeTables.insert, Table.row_extend, inStep.leaving]
    by_cases leaves : edge.site = site <;> simp [leaves]
  entering method := by
    rw [EdgeTables.insert, Table.row_extend, inStep.entering]
    by_cases enters : edge.callee = method <;> simp [enters]
  callees caller callee := by
    rw [EdgeTables.insert, Table.marked_markFor, inStep.callees]
    simp [or_and_right, exists_or, or_comm]
  callers caller callee := by
    rw [EdgeTables.insert, Table.marked_markFor, inStep.callers]
    simp [or_and_right, exists_or, or_comm, and_comm]

end EdgeTables

/-! ## Graphs -/

/-- A call graph. -/
structure CallGraph where
  entries : List ContextMethod
  /-- The reachable methods with their numbers. -/
  members : List (Numbered ContextMethod)
  /-- The methods that are marked as reachable. -/
  marks : Table ContextMethod Bool
  /-- The reachable methods by their numbers. -/
  byNumber : Table Nat ContextMethod
  edges : List CallEdge
  tables : EdgeTables
  starts : entries.Nodup
  listed : (members.map Numbered.item).Nodup
  reached : ∀ method, marks.marked method = true ↔
    method ∈ members.map Numbered.item
  numbered : ∀ number, byNumber.find? number =
    (members.reverse.find? fun node => node.number = number).map Numbered.item
  distinct : (edges.map CallEdge.key).Nodup
  inStep : tables.InStep edges

namespace CallGraph

/-- The call graph of nothing. -/
def empty : CallGraph :=
  { entries := [], members := [], marks := .empty, byNumber := .empty
    edges := [], tables := .empty, starts := List.nodup_nil
    listed := List.nodup_nil, reached := by simp, numbered := by simp
    distinct := List.nodup_nil, inStep := EdgeTables.inStep_empty }

/-- The reachable methods. -/
def reachable (graph : CallGraph) : List ContextMethod :=
  graph.members.map Numbered.item

/-- Whether a method is reachable. -/
def contains (graph : CallGraph) (method : ContextMethod) : Bool :=
  graph.marks.marked method

theorem contains_iff (graph : CallGraph) (method : ContextMethod) :
    graph.contains method = true ↔ method ∈ graph.reachable :=
  graph.reached method

/-- Mark a method as an entry. -/
def addEntry (graph : CallGraph) (method : ContextMethod) : CallGraph :=
  if present : method ∈ graph.entries then graph
  else
    { graph with
      entries := graph.entries ++ [method]
      starts := nodup_concat graph.starts present }

/-- Mark a method as reachable. -/
def addReachable (graph : CallGraph) (method : Numbered ContextMethod) :
    CallGraph :=
  if present : graph.contains method.item then graph
  else
    { graph with
      members := graph.members ++ [method]
      marks := graph.marks.mark method.item
      byNumber := graph.byNumber.set method.number method.item
      listed := by
        rw [contains_iff] at present
        rw [List.map_append]
        exact nodup_concat graph.listed present
      reached := fun other => by
        rw [Table.marked_mark, graph.reached, List.map_append,
          List.mem_append, List.map_singleton, List.mem_singleton, or_comm,
          eq_comm (b := other)]
      numbered := fun number => by
        rw [Table.find?_set, graph.numbered]
        by_cases same : method.number = number <;> simp [same] }

/-- Whether a call site has an edge to a method. -/
def hasEdge (graph : CallGraph) (site : ContextSite)
    (callee : ContextMethod) : Bool :=
  (graph.tables.keys.find? (site, callee)).isSome

theorem hasEdge_iff_mem_keys (graph : CallGraph) (site : ContextSite)
    (callee : ContextMethod) :
    graph.hasEdge site callee = true ↔
      (site, callee) ∈ graph.edges.map CallEdge.key :=
  graph.inStep.keys (site, callee)

/-- Add an edge unless the call site has one to the same method. -/
def addEdge (graph : CallGraph) (edge : CallEdge) : CallGraph :=
  if present : graph.hasEdge edge.site edge.callee then graph
  else
    { graph with
      edges := graph.edges ++ [edge]
      tables := graph.tables.insert edge
      distinct := by
        rw [hasEdge_iff_mem_keys] at present
        rw [List.map_append]
        exact nodup_concat graph.distinct present
      inStep := graph.inStep.insert edge }

/-- The edges that enter a method. -/
def into (graph : CallGraph) (method : ContextMethod) : List CallEdge :=
  graph.tables.entering.row method

/-- The edges that leave a call site. -/
def outOf (graph : CallGraph) (site : ContextSite) : List CallEdge :=
  graph.tables.leaving.row site

/-- The methods called from a call site. -/
def callees (graph : CallGraph) (site : ContextSite) : List ContextMethod :=
  (graph.outOf site).map CallEdge.callee

/-- Callers with their callees. -/
def links (graph : CallGraph) : List (ContextMethod × ContextMethod) :=
  graph.edges.map fun edge => (edge.caller, edge.callee)

/-- The reachable method with a number. -/
def node? (graph : CallGraph) (number : Nat) : Option ContextMethod :=
  graph.byNumber.find? number

/-- Whether one reachable method calls another reachable method; both are given
by their numbers. -/
def hasLink (graph : CallGraph) (caller callee : Nat) : Bool :=
  match graph.node? caller, graph.node? callee with
  | some caller, some callee =>
      (graph.tables.callees.marksOf caller).marked callee
  | _, _ => false

/-- Whether one of two reachable methods calls the other one. -/
def hasLinkBetween (graph : CallGraph) (first second : Nat) : Bool :=
  graph.hasLink first second || graph.hasLink second first

/-- The caller and the callee, if one reachable method calls another one; a
single link stands for all the edges between the two. -/
def link? (graph : CallGraph) (caller callee : Nat) :
    Option (ContextMethod × ContextMethod) :=
  if graph.hasLink caller callee then
    (graph.node? caller).bind fun first =>
      (graph.node? callee).map fun second => (first, second)
  else none

/-- The reachable methods in the order in which `methods` lists them. -/
def nodes (graph : CallGraph) (methods : List ContextMethod) :
    List ContextMethod :=
  methods.filter graph.contains

/--
The methods that the reachable method with a number calls, in the order in
which `methods` lists them.
-/
def calledBy (graph : CallGraph) (methods : List ContextMethod)
    (caller : Nat) : List ContextMethod :=
  match graph.node? caller with
  | none => []
  | some caller =>
      methods.filter (graph.tables.callees.marksOf caller).marked

/--
The methods that call the reachable method with a number, in the order in
which `methods` lists them.
-/
def callersOf (graph : CallGraph) (methods : List ContextMethod)
    (callee : Nat) : List ContextMethod :=
  match graph.node? callee with
  | none => []
  | some callee =>
      methods.filter (graph.tables.callers.marksOf callee).marked

/--
The groups of reachable methods that call each other, directly or through
others; a method that calls itself is a group of its own.
-/
def recursive (graph : CallGraph) (methods : List ContextMethod) :
    List (List ContextMethod) :=
  Graph.groups (graph.nodes methods)
    (graph.links.filter fun link => graph.contains link.1)

end CallGraph

end PointsTo
