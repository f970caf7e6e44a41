import PointsTo.Proofs.Analysis.Inference
import PointsTo.Proofs.Checked

/-!
# What states hold

A state holds the facts that it has found out, and it meets those facts whose
objects are still on their way.  The lemmas below say what the elementary
operations on states do to pointers, objects and queues; the proofs about the
solver go through them.
-/

namespace PointsTo

/-! ## Queues and stores -/

theorem Queue.toList_of_pop? {α : Type} [Inhabited α] {queue rest : Queue α}
    {element : α}
    (popped : queue.pop? = some (element, rest)) :
    queue.toList = element :: rest.toList :=
  (queue.pop?_eq_some_iff element rest.toList).mp ⟨rest, popped, rfl⟩

namespace Store

@[simp]
theorem pointers_empty : empty.pointers = [] := rfl

@[simp]
theorem get_empty (pointer : Pointer) : empty.get pointer = [] := by
  cases pointer <;> rfl

/-- A pointer is found where it is listed. -/
theorem places_find?_eq_some_iff (store : Store) (pointer : Pointer)
    (place : Nat) :
    store.places.find? pointer = some place ↔
      store.pointers[place]? = some pointer :=
  store.located pointer place

theorem nodup_pointers (store : Store) : store.pointers.Nodup :=
  store.located.nodup

theorem find?_eq_some_iff (store : Store) (pointer : Pointer) (cell : Cell) :
    store.find? pointer = some cell ↔
      cell ∈ store.cells ∧ cell.pointer = pointer :=
  store.located.bind_eq_some_iff pointer cell

theorem mem_pointers_iff (store : Store) (pointer : Pointer) :
    pointer ∈ store.pointers ↔ ∃ cell, store.find? pointer = some cell := by
  simp only [find?_eq_some_iff, pointers, List.mem_map]

theorem find?_touch_of_ne (store : Store) {pointer other : Pointer}
    (differ : pointer ≠ other) :
    (store.touch pointer).find? other = store.find? other := by
  unfold touch
  split
  · rfl
  · simp only [find?, PointerPlaces.find?_set, if_neg differ]
    cases found : store.places.find? other with
    | none => rfl
    | some place =>
        have listed := (store.places_find?_eq_some_iff other place).mp found
        have bound : place < store.cells.length := by
          have short := (List.getElem?_eq_some_iff.mp listed).1
          rwa [pointers, List.length_map] at short
        simp only [Option.bind_some]
        rw [List.getElem?_append_left bound]

@[simp]
theorem get_touch (store : Store) (pointer other : Pointer) :
    (store.touch pointer).get other = store.get other := by
  by_cases same : pointer = other
  · subst same
    unfold touch
    split
    · rfl
    · rename_i absent
      rw [has, Option.not_isSome_iff_eq_none] at absent
      simp [get, find?, PointerPlaces.find?_set, absent, size]
  · rw [get, get, store.find?_touch_of_ne same]

@[simp]
theorem mem_pointers_touch (store : Store) (pointer other : Pointer) :
    other ∈ (store.touch pointer).pointers ↔
      other ∈ store.pointers ∨ other = pointer := by
  unfold touch
  split
  · rename_i present
    rw [has_iff] at present
    constructor
    · exact Or.inl
    · rintro (old | rfl) <;> assumption
  · simp [pointers]

/-- Only the cell of a pointer that gains objects changes. -/
theorem find?_add (store : Store) (pointer other : Pointer)
    (objects : ObjSet) :
    (store.add pointer objects).find? other =
      (store.find? other).map fun cell =>
        if other = pointer then cell.gain objects else cell := by
  unfold add
  split
  · rename_i absent
    by_cases same : other = pointer
    · simp [find?, same, absent]
    · simp [same]
  · rename_i place found
    simp only [find?]
    cases here : store.places.find? other with
    | none => rfl
    | some position =>
        -- Two pointers are found at one place only if they are the same.
        have apart : place = position ↔ other = pointer := by
          rw [places_find?_eq_some_iff] at found here
          constructor
          · rintro rfl
            exact Option.some.inj (here.symm.trans found)
          · rintro rfl
            rw [← places_find?_eq_some_iff] at found here
            exact Option.some.inj (found.symm.trans here)
        simp only [Option.bind_some, List.getElem?_modify, apart]
        rfl

/-- Only pointers that have been created gain objects. -/
theorem mem_get_add (store : Store) (pointer other : Pointer)
    (objects : ObjSet) (obj : ContextObj) :
    obj ∈ (store.add pointer objects).get other ↔
      obj ∈ store.get other ∨
        (other = pointer ∧ pointer ∈ store.pointers ∧ obj ∈ objects) := by
  have created := store.mem_pointers_iff other
  rw [get, get, find?_add]
  cases found : store.find? other with
  | none =>
      simp only [Option.map_none, List.not_mem_nil, false_or, false_iff]
      rintro ⟨rfl, present, _⟩
      rcases created.mp present with ⟨cell, here⟩
      cases found.symm.trans here
  | some cell =>
      by_cases same : other = pointer
      · subst same
        simp [Cell.gain, created, found]
      · simp [same]

/-! ## Numbers of pointers -/

theorem items_nodes (store : Store) :
    store.nodes.map Numbered.item = store.pointers := by
  rw [nodes, pointers, List.map_map]
  rfl

theorem dense_nodes (store : Store) :
    store.nodes.map Numbered.number = List.range store.nodes.length := by
  rw [nodes, List.map_map, List.length_map]
  exact store.dense

/-- The number of a pointer is its position. -/
theorem mem_nodes_iff (store : Store) (node : Numbered Pointer) :
    node ∈ store.nodes ↔ store.pointers[node.number]? = some node.item := by
  rw [← items_nodes]
  exact mem_iff_of_dense store.dense_nodes node

theorem toldApart_nodes (store : Store) : FlowGraph.ToldApart store.nodes := by
  intro first here second there same
  rw [mem_nodes_iff] at here there
  rw [same] at here
  exact Numbered.ext same (Option.some.inj (here.symm.trans there))

theorem node_mem_nodes (store : Store) {pointer : Pointer}
    (created : pointer ∈ store.pointers) :
    store.node pointer ∈ store.nodes := by
  rcases (store.mem_pointers_iff pointer).mp created with ⟨cell, found⟩
  rcases (store.find?_eq_some_iff pointer cell).mp found with ⟨member, rfl⟩
  rw [node, numberOf, found]
  exact List.mem_map_of_mem member

/-- A pointer has one number. -/
theorem node_eq_of_mem_nodes (store : Store) {node : Numbered Pointer}
    (listed : node ∈ store.nodes) : store.node node.item = node := by
  rcases List.mem_map.mp listed with ⟨cell, member, rfl⟩
  have found := (store.find?_eq_some_iff _ _).mpr ⟨member, rfl⟩
  rw [node, numberOf, found]

/-- A pointer that has not been created has none of the numbers. -/
theorem number_eq_iff (store : Store) {node : Numbered Pointer}
    (listed : node ∈ store.nodes) (pointer : Pointer) :
    node.number = store.numberOf pointer ↔ node.item = pointer := by
  constructor
  · intro same
    by_cases created : pointer ∈ store.pointers
    · exact congrArg Numbered.item (store.toldApart_nodes node listed _
        (store.node_mem_nodes created) same)
    · rw [mem_pointers_iff, ← Option.isSome_iff_exists,
        Option.not_isSome_iff_eq_none] at created
      rw [mem_nodes_iff, same, numberOf, created] at listed
      have bound := (List.getElem?_eq_some_iff.mp listed).1
      rw [pointers, List.length_map] at bound
      exact absurd bound (Nat.lt_irrefl _)
  · rintro rfl
    exact (congrArg Numbered.number (store.node_eq_of_mem_nodes listed)).symm

/-- A pointer keeps its number when others are created. -/
theorem mem_nodes_of_prefix {before after : Store}
    (longer : before.pointers <+: after.pointers) {node : Numbered Pointer}
    (listed : node ∈ before.nodes) : node ∈ after.nodes := by
  rw [mem_nodes_iff] at listed ⊢
  rcases longer with ⟨more, joined⟩
  rw [← joined,
    List.getElem?_append_left (List.getElem?_eq_some_iff.mp listed).1]
  exact listed

end Store

namespace State

/-! ## Flow edges between pointers -/

theorem length_succs_le (state : State) (source : Pointer) :
    (state.succs source).length ≤ state.flow.edges.length := by
  simp only [succs, FlowGraph.succs_eq, FlowGraph.edges, List.length_map]
  exact List.length_filter_le ..

section

variable {state : State} (within : state.flow.Within state.store.nodes)

include within

/-- An edge between pointers is one between the nodes that they have. -/
theorem mem_flow_edges_iff (source target : Pointer) :
    (source, target) ∈ state.flow.edges ↔
      ⟨state.store.node source, state.store.node target⟩ ∈
        state.flow.arcs := by
  constructor
  · intro member
    rcases List.mem_map.mp member with ⟨arc, listed, same⟩
    have ends := within arc listed
    have first := state.store.node_eq_of_mem_nodes ends.1
    have second := state.store.node_eq_of_mem_nodes ends.2
    cases same
    rwa [first, second]
  · exact fun listed => List.mem_map_of_mem listed

/-- Pointers that have been created are not taken for others. -/
theorem flow_has_iff {source target : Pointer}
    (here : source ∈ state.store.pointers)
    (there : target ∈ state.store.pointers) :
    state.flow.has (state.store.node source) (state.store.node target) =
        true ↔
      (source, target) ∈ state.flow.edges := by
  rw [mem_flow_edges_iff within]
  exact FlowGraph.has_iff state.store.toldApart_nodes within
    (state.store.node_mem_nodes here) (state.store.node_mem_nodes there)

/-- The successors of a pointer are in the order of the edges. -/
theorem succs_eq (source : Pointer) :
    state.succs source =
      (state.flow.edges.filter fun edge => edge.1 = source).map Prod.snd := by
  have kept : (state.flow.arcs.filter fun arc =>
      arc.source.number = (state.store.node source).number) =
      state.flow.arcs.filter fun arc => arc.source.item = source := by
    refine List.filter_congr fun arc listed => ?_
    rw [decide_eq_decide]
    exact state.store.number_eq_iff (within arc listed).1 source
  rw [succs, FlowGraph.succs_eq, kept, FlowGraph.edges, List.filter_map,
    List.map_map, List.map_map]
  rfl

theorem mem_succs (source target : Pointer) :
    target ∈ state.succs source ↔ (source, target) ∈ state.flow.edges := by
  rw [succs_eq within, List.mem_map]
  constructor
  · rintro ⟨⟨first, second⟩, member, rfl⟩
    rw [List.mem_filter, decide_eq_true_eq] at member
    obtain ⟨listed, rfl⟩ := member
    exact listed
  · intro listed
    exact ⟨_, List.mem_filter.mpr ⟨listed, decide_eq_true rfl⟩, rfl⟩

theorem within_touch (pointer : Pointer) :
    (state.touch pointer).flow.Within (state.touch pointer).store.nodes := by
  intro arc listed
  have longer := state.store.pointers_isPrefix_touch pointer
  exact (within arc listed).imp (Store.mem_nodes_of_prefix longer)
    (Store.mem_nodes_of_prefix longer)

end

/-! ## Facts of a state -/

/-- The facts that a state has found out. -/
def Holds (state : State) : Fact → Prop
  | .reached method => method ∈ state.calls.reachable
  | .called edge => edge ∈ state.calls.edges
  | .flows source target => (source, target) ∈ state.flow.edges
  | .points pointer obj => obj ∈ state.store.get pointer
  | .retags edge => edge ∈ state.taintEdges
  | .sinks call => call ∈ state.sinkCalls

/-- The facts that hold once everything on its way has arrived. -/
def Awaits (state : State) (fact : Fact) : Prop :=
  ∃ work ∈ state.worklist.toList, ∃ obj ∈ work.payload.objects state.store,
    fact = .points work.target obj

/-- The facts that a state holds or awaits. -/
def Meets (state : State) (fact : Fact) : Prop :=
  state.Holds fact ∨ state.Awaits fact

/-- When nothing is on its way, what is met is held. -/
theorem Meets.holds {state : State} {fact : Fact}
    (quiet : state.worklist.toList = []) (meets : state.Meets fact) :
    state.Holds fact := by
  rcases meets with holds | ⟨work, queued, _⟩
  · exact holds
  · rw [quiet] at queued
    cases queued

/-! ## Sending -/

/-- A payload that is sent is put at the end of the worklist. -/
theorem push_eq_or (state : State) (target : Pointer) (payload : Payload) :
    state.push target payload = state ∧
        (∀ obj, obj ∉ payload.objects state.store) ∨
      state.push target payload =
        { state with worklist := state.worklist.push ⟨target, payload⟩ } := by
  unfold push
  split
  · rename_i empty
    refine Or.inl ⟨rfl, fun obj member => ?_⟩
    rw [List.isEmpty_iff] at empty
    rw [empty] at member
    cases member
  · exact Or.inr rfl

section

variable (state : State) (target : Pointer) (payload : Payload)

@[simp]
theorem store_push : (state.push target payload).store = state.store := by
  unfold push
  split <;> rfl

@[simp]
theorem objects_push :
    (state.push target payload).objects = state.objects := by
  unfold push
  split <;> rfl

@[simp]
theorem methods_push :
    (state.push target payload).methods = state.methods := by
  unfold push
  split <;> rfl

@[simp]
theorem sites_push : (state.push target payload).sites = state.sites := by
  unfold push
  split <;> rfl

@[simp]
theorem calls_push : (state.push target payload).calls = state.calls := by
  unfold push
  split <;> rfl

@[simp]
theorem pending_push :
    (state.push target payload).pending = state.pending := by
  unfold push
  split <;> rfl

@[simp]
theorem flow_push : (state.push target payload).flow = state.flow := by
  unfold push
  split <;> rfl

@[simp]
theorem taintEdges_push :
    (state.push target payload).taintEdges = state.taintEdges := by
  unfold push
  split <;> rfl

@[simp]
theorem sinkCalls_push :
    (state.push target payload).sinkCalls = state.sinkCalls := by
  unfold push
  split <;> rfl

/-- Sending changes no facts. -/
@[simp]
theorem holds_push (fact : Fact) :
    (state.push target payload).Holds fact ↔ state.Holds fact := by
  cases fact <;> simp [Holds]

end

/-- What is sent is on its way. -/
theorem meets_push (state : State) (target : Pointer) (payload : Payload)
    {obj : ContextObj} (sent : obj ∈ payload.objects state.store) :
    (state.push target payload).Meets (.points target obj) := by
  rcases state.push_eq_or target payload with ⟨_, none⟩ | pushed
  · exact absurd sent (none obj)
  · rw [pushed]
    exact Or.inr ⟨⟨target, payload⟩, by simp, obj, sent, rfl⟩

/-! ## Meeting objects -/

theorem foldl_meetObj (objects : List ContextObj) (state : State) :
    objects.foldl meetObj state =
      { state with
        objects := objects.foldl Numbering.request state.objects } := by
  induction objects generalizing state with
  | nil => rfl
  | cons first rest ih => exact ih (state.meetObj first)

theorem mem_foldl_request {α : Type} [DecidableEq α] (items : List α)
    (numbering : Numbering α) (item : α) :
    item ∈ (items.foldl Numbering.request numbering).items ↔
      item ∈ numbering.items ∨ item ∈ items := by
  induction items generalizing numbering with
  | nil => simp
  | cons first rest ih =>
      rw [List.foldl_cons, ih, Numbering.mem_request, List.mem_cons, or_assoc]

theorem mem_foldl_insert (objects : List ContextObj) (set : ObjSet)
    (obj : ContextObj) :
    obj ∈ objects.foldl ObjSet.insert set ↔ obj ∈ set ∨ obj ∈ objects := by
  induction objects generalizing set with
  | nil => simp
  | cons first rest ih =>
      rw [List.foldl_cons, ih, ObjSet.mem_insert, List.mem_cons, or_assoc]

/-- The ordered objects of a set are its numbered ones. -/
@[simp]
theorem mem_ordered (state : State) (set : ObjSet) (obj : ContextObj) :
    obj ∈ state.ordered set ↔ obj ∈ state.objects.items ∧ obj ∈ set := by
  simp [ordered, ObjSet.inOrder]

@[simp]
theorem mem_ordinary (objects : List ContextObj) (obj : ContextObj) :
    obj ∈ ObjSet.ordinary objects ↔
      obj ∈ objects ∧ ContextObj.isTaint obj = false := by
  simp [ObjSet.ordinary]

@[simp]
theorem mem_taints (objects : List ContextObj) (obj : ContextObj) :
    obj ∈ ObjSet.taints objects ↔
      obj ∈ objects ∧ ContextObj.isTaint obj = true := by
  simp [ObjSet.taints]

end State

namespace CallGraph

theorem entries_addEntry (graph : CallGraph) (method : ContextMethod) :
    (graph.addEntry method).entries =
      if method ∈ graph.entries then graph.entries
      else graph.entries ++ [method] := by
  unfold addEntry
  split <;> rfl

@[simp]
theorem members_addEntry (graph : CallGraph) (method : ContextMethod) :
    (graph.addEntry method).members = graph.members := by
  unfold addEntry
  split <;> rfl

@[simp]
theorem reachable_addEntry (graph : CallGraph) (method : ContextMethod) :
    (graph.addEntry method).reachable = graph.reachable := by
  rw [reachable, members_addEntry, reachable]

@[simp]
theorem edges_addEntry (graph : CallGraph) (method : ContextMethod) :
    (graph.addEntry method).edges = graph.edges := by
  unfold addEntry
  split <;> rfl

theorem addReachable_of_mem {graph : CallGraph}
    {method : Numbered ContextMethod}
    (present : method.item ∈ graph.reachable) :
    graph.addReachable method = graph := by
  rw [← contains_iff] at present
  rw [addReachable, dif_pos present]

theorem members_addReachable {graph : CallGraph}
    {method : Numbered ContextMethod}
    (absent : method.item ∉ graph.reachable) :
    (graph.addReachable method).members = graph.members ++ [method] := by
  rw [← contains_iff] at absent
  rw [addReachable, dif_neg absent]

theorem reachable_addReachable {graph : CallGraph}
    {method : Numbered ContextMethod}
    (absent : method.item ∉ graph.reachable) :
    (graph.addReachable method).reachable =
      graph.reachable ++ [method.item] := by
  rw [reachable, members_addReachable absent, List.map_append]
  rfl

/-- No method becomes reachable but the given one. -/
theorem mem_members_of_addReachable {graph : CallGraph}
    {method node : Numbered ContextMethod}
    (member : node ∈ (graph.addReachable method).members) :
    node ∈ graph.members ∨ node = method := by
  by_cases present : method.item ∈ graph.reachable
  · rw [addReachable_of_mem present] at member
    exact Or.inl member
  · rw [members_addReachable present] at member
    simpa using member

@[simp]
theorem edges_addReachable (graph : CallGraph)
    (method : Numbered ContextMethod) :
    (graph.addReachable method).edges = graph.edges := by
  unfold addReachable
  split <;> rfl

@[simp]
theorem entries_addReachable (graph : CallGraph)
    (method : Numbered ContextMethod) :
    (graph.addReachable method).entries = graph.entries := by
  unfold addReachable
  split <;> rfl

theorem addEdge_of_hasEdge {graph : CallGraph} {edge : CallEdge}
    (present : graph.hasEdge edge.site edge.callee = true) :
    graph.addEdge edge = graph := by
  rw [addEdge, dif_pos present]

theorem edges_addEdge {graph : CallGraph} {edge : CallEdge}
    (absent : graph.hasEdge edge.site edge.callee = false) :
    (graph.addEdge edge).edges = graph.edges ++ [edge] := by
  rw [addEdge, dif_neg (by simp [absent])]

@[simp]
theorem members_addEdge (graph : CallGraph) (edge : CallEdge) :
    (graph.addEdge edge).members = graph.members := by
  unfold addEdge
  split <;> rfl

@[simp]
theorem reachable_addEdge (graph : CallGraph) (edge : CallEdge) :
    (graph.addEdge edge).reachable = graph.reachable := by
  rw [reachable, members_addEdge, reachable]

@[simp]
theorem entries_addEdge (graph : CallGraph) (edge : CallEdge) :
    (graph.addEdge edge).entries = graph.entries := by
  unfold addEdge
  split <;> rfl

theorem hasEdge_iff (graph : CallGraph) (site : ContextSite)
    (callee : ContextMethod) :
    graph.hasEdge site callee = true ↔
      ∃ edge ∈ graph.edges, edge.site = site ∧ edge.callee = callee := by
  rw [hasEdge_iff_mem_keys]
  simp [CallEdge.key]

/-- The edges of a call site are in the order of all edges. -/
theorem outOf_eq (graph : CallGraph) (site : ContextSite) :
    graph.outOf site = graph.edges.filter fun edge => edge.site = site :=
  graph.inStep.leaving site

/-- A call edge that is there is one between its call site and its callee. -/
theorem not_mem_edges {graph : CallGraph} {edge : CallEdge}
    (absent : graph.hasEdge edge.site edge.callee = false) :
    edge ∉ graph.edges := by
  intro member
  rw [(graph.hasEdge_iff _ _).mpr ⟨edge, member, rfl, rfl⟩] at absent
  cases absent

end CallGraph

namespace Program

theorem invoke?_eq_some_iff (program : Program) (site : Site)
    (call : Invoke) :
    program.invoke? site = some call ↔
      program.stmt? site = some (.invoke call) := by
  simp only [invoke?, stmt?, Option.bind_eq_some_iff, Method.invoke?]
  refine exists_congr fun method => and_congr_right fun _ => ?_
  cases method.body[site.index]? with
  | none => simp
  | some stmt => cases stmt <;> simp

end Program

/-- The statements of a method are those at its positions. -/
theorem Setup.getElem?_bodyOf (setup : Setup) (method : MethodId)
    (index : Nat) :
    (setup.bodyOf method)[index]? =
      setup.program.stmt? ⟨method, index⟩ := by
  unfold Setup.bodyOf Program.stmt?
  cases setup.program.method? method <;> simp

end PointsTo
