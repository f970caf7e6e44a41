import PointsTo.Proofs.Analysis.Visits

/-!
# Everything is rooted in the entries

The solver finds call edges only in methods that are reachable already, and it
makes the callee of a new edge reachable at once.  So the methods that it has
reached are those to which a chain of call edges leads from an entry, in every
state on the way and not only in the last one.  Variables and allocated objects
belong to reachable methods, and calls leave call sites that have numbers.

Each operation is done on behalf of methods that have been reached: the method
that is looked at or whose variable gains an object, and the callee.  A state
that `Covers` them is rooted and has reached them; the operations preserve this.
-/

namespace PointsTo

namespace CallGraph

/-- A chain of call edges that leads from one method to another. -/
inductive Chain (graph : CallGraph) (start : ContextMethod) :
    List CallEdge → ContextMethod → Prop where
  | nil : Chain graph start [] start
  | call {edges : List CallEdge} {edge : CallEdge}
      (earlier : Chain graph start edges edge.caller)
      (member : edge ∈ graph.edges) :
      Chain graph start (edges ++ [edge]) edge.callee

/-- Chains stay when edges are added. -/
theorem Chain.mono {graph larger : CallGraph}
    (included : graph.edges ⊆ larger.edges) {start last : ContextMethod}
    {edges : List CallEdge} (chain : graph.Chain start edges last) :
    larger.Chain start edges last := by
  induction chain with
  | nil => exact .nil
  | call _ member ih => exact .call ih (included member)

/-- The reachable methods are those that are called from the entries, and the
ends of all edges are reachable. -/
structure Rooted (graph : CallGraph) : Prop where
  entered : graph.entries ⊆ graph.reachable
  chained : ∀ method ∈ graph.reachable,
    ∃ start ∈ graph.entries, ∃ edges, graph.Chain start edges method
  linked : ∀ edge ∈ graph.edges,
    edge.caller ∈ graph.reachable ∧ edge.callee ∈ graph.reachable

/-- The reachable methods are those at the ends of chains from the entries. -/
theorem Rooted.mem_reachable_iff {graph : CallGraph} (rooted : graph.Rooted)
    (method : ContextMethod) :
    method ∈ graph.reachable ↔
      ∃ start ∈ graph.entries, ∃ edges, graph.Chain start edges method := by
  constructor
  · exact rooted.chained method
  · rintro ⟨start, listed, edges, chain⟩
    cases chain with
    | nil => exact rooted.entered listed
    | call _ member => exact (rooted.linked _ member).2

/-! ## New entries and new edges -/

/-- A method is reachable after it has been marked, and no other one becomes so.
-/
@[simp]
theorem mem_reachable_addReachable (graph : CallGraph)
    (method : Numbered ContextMethod) (other : ContextMethod) :
    other ∈ (graph.addReachable method).reachable ↔
      other ∈ graph.reachable ∨ other = method.item := by
  by_cases present : method.item ∈ graph.reachable
  · rw [addReachable_of_mem present]
    constructor
    · exact Or.inl
    · rintro (old | rfl) <;> assumption
  · simp [reachable_addReachable present]

@[simp]
theorem mem_entries_addEntry (graph : CallGraph)
    (method other : ContextMethod) :
    other ∈ (graph.addEntry method).entries ↔
      other ∈ graph.entries ∨ other = method := by
  unfold addEntry
  split
  · constructor
    · exact Or.inl
    · rintro (old | rfl) <;> assumption
  · simp

/-- An entry is reachable by a chain without edges. -/
theorem Rooted.enter {graph : CallGraph} (rooted : graph.Rooted)
    (method : Numbered ContextMethod) :
    ((graph.addEntry method.item).addReachable method).Rooted where
  entered other listed := by
    rw [entries_addReachable, mem_entries_addEntry] at listed
    rw [mem_reachable_addReachable, reachable_addEntry]
    exact listed.imp_left fun old => rooted.entered old
  chained other reached := by
    rw [mem_reachable_addReachable, reachable_addEntry] at reached
    simp only [entries_addReachable, mem_entries_addEntry]
    rcases reached with old | rfl
    · obtain ⟨start, listed, edges, chain⟩ := rooted.chained other old
      exact ⟨start, Or.inl listed, edges, chain.mono (by simp)⟩
    · exact ⟨method.item, Or.inr rfl, [], .nil⟩
  linked edge member := by
    rw [edges_addReachable, edges_addEntry] at member
    simp only [mem_reachable_addReachable, reachable_addEntry]
    exact (rooted.linked edge member).imp Or.inl Or.inl

/-- A reachable method calls another one, which becomes reachable. -/
theorem Rooted.call {graph : CallGraph} (rooted : graph.Rooted)
    {edge : CallEdge}
    (absent : graph.hasEdge edge.site edge.callee = false)
    (called : edge.caller ∈ graph.reachable) (number : Nat) :
    ((graph.addEdge edge).addReachable ⟨number, edge.callee⟩).Rooted where
  entered other listed := by
    rw [entries_addReachable, entries_addEdge] at listed
    rw [mem_reachable_addReachable, reachable_addEdge]
    exact Or.inl (rooted.entered listed)
  chained other reached := by
    rw [mem_reachable_addReachable, reachable_addEdge] at reached
    rw [entries_addReachable, entries_addEdge]
    have included : graph.edges ⊆
        ((graph.addEdge edge).addReachable ⟨number, edge.callee⟩).edges := by
      simp [edges_addEdge absent]
    rcases reached with old | rfl
    · obtain ⟨start, listed, edges, chain⟩ := rooted.chained other old
      exact ⟨start, listed, edges, chain.mono included⟩
    · obtain ⟨start, listed, edges, chain⟩ :=
        rooted.chained edge.caller called
      exact ⟨start, listed, edges ++ [edge],
        .call (chain.mono included) (by simp [edges_addEdge absent])⟩
  linked other member := by
    simp only [edges_addReachable, edges_addEdge absent, List.mem_append,
      List.mem_singleton] at member
    simp only [mem_reachable_addReachable, reachable_addEdge]
    rcases member with old | rfl
    · exact (rooted.linked other old).imp Or.inl Or.inl
    · exact ⟨Or.inl called, Or.inr rfl⟩

end CallGraph

/-! ## Rooted states -/

/-- An object is allocated by a statement of a method under a context. -/
def Setup.Allocates (setup : Setup) (method : ContextMethod)
    (obj : ContextObj) : Prop :=
  ∃ index target type,
    setup.program.stmt? ⟨method.val, index⟩ = some (.new target type) ∧
      obj = setup.allocated method index target type

/-- What a state has discovered belongs to methods that are called from the
entries. -/
structure State.Rooted (setup : Setup) (state : State) : Prop where
  graph : state.calls.Rooted
  /-- Reachable methods have the numbers of methods. -/
  numbered : state.calls.members ⊆ state.methods.entries
  /-- Call sites have numbers before calls are found there. -/
  registered : ∀ edge ∈ state.calls.edges, edge.site ∈ state.sites.items
  owned : ∀ entry : ContextVar, .var entry ∈ state.store.pointers →
    ContextVar.container entry ∈ state.calls.reachable
  allocated : ∀ obj ∈ state.objects.items, ContextObj.isTaint obj = false →
    ∃ method ∈ state.calls.reachable, setup.Allocates method obj

/-- A rooted state that has reached certain methods. -/
structure State.Covers (setup : Setup) (methods : List ContextMethod)
    (state : State) : Prop extends state.Rooted setup where
  reached : methods ⊆ state.calls.reachable

/-- If a pointer is a variable, it belongs to one of certain methods. -/
def Pointer.Within (methods : List ContextMethod) (pointer : Pointer) : Prop :=
  ∀ entry, pointer = .var entry → ContextVar.container entry ∈ methods

/-- The method that a pointer belongs to, if it is a variable. -/
def Pointer.owners (pointer : Pointer) : List ContextMethod :=
  pointer.var?.toList.map ContextVar.container

/-- A variable belongs to its method. -/
theorem Pointer.within_ofVar {methods : List ContextMethod}
    {method : ContextMethod} (listed : method ∈ methods) (name : String) :
    (Pointer.ofVar method.context method.val name).Within methods := by
  rintro entry same
  cases same
  exact listed

namespace State

/-- Only the call graph tells whether a method has been reached before. -/
@[simp]
theorem calls_reach (state : State) (method : ContextMethod) :
    (state.reach method).calls =
      state.calls.addReachable (state.methods.node method) := by
  unfold reach
  split
  · rename_i present
    rw [CallGraph.contains_iff] at present
    exact (CallGraph.addReachable_of_mem present).symm
  · rfl

@[simp]
theorem store_reach (state : State) (method : ContextMethod) :
    (state.reach method).store = state.store := by
  unfold reach
  split <;> rfl

@[simp]
theorem objects_reach (state : State) (method : ContextMethod) :
    (state.reach method).objects = state.objects := by
  unfold reach
  split <;> rfl

@[simp]
theorem methods_reach (state : State) (method : ContextMethod) :
    (state.reach method).methods = state.methods := by
  unfold reach
  split <;> rfl

@[simp]
theorem sites_reach (state : State) (method : ContextMethod) :
    (state.reach method).sites = state.sites := by
  unfold reach
  split <;> rfl

/-- A method has a number once it has been met. -/
theorem mem_methods_meetMethod (state : State) (method : ContextMethod) :
    method ∈ (state.meetMethod method).methods.items :=
  (Numbering.mem_request _ _ _).mpr (Or.inr rfl)

/-- A call site is numbered at its first request. -/
theorem sites_meetSite (state : State) (site : ContextSite) :
    (state.meetSite site).sites = state.sites.request site := by
  unfold meetSite
  split
  · rename_i present
    rcases Option.isSome_iff_exists.mp present with ⟨entry, found⟩
    rw [Numbering.find?_eq_some_iff] at found
    obtain ⟨member, rfl⟩ := found
    exact (Numbering.request_of_mem (List.mem_map_of_mem member)).symm
  · rfl

theorem mem_sites_meetSite (state : State) (site : ContextSite) :
    site ∈ (state.meetSite site).sites.items := by
  rw [sites_meetSite]
  exact (Numbering.mem_request _ _ _).mpr (Or.inr rfl)

theorem Rooted.initial {setup : Setup} : ({} : State).Rooted setup where
  graph := by constructor <;> exact nofun
  numbered := nofun
  registered := nofun
  owned := nofun
  allocated := by simp

/-- Reachable methods have numbers. -/
theorem Rooted.reachable_subset {setup : Setup} {state : State}
    (rooted : state.Rooted setup) :
    state.calls.reachable ⊆ state.methods.items :=
  List.map_subset _ rooted.numbered

/-- The variables that have been created belong to reachable methods. -/
theorem Rooted.owners_subset {setup : Setup} {state : State}
    (rooted : state.Rooted setup) {pointer : Pointer}
    (created : pointer ∈ state.store.pointers) :
    pointer.owners ⊆ state.calls.reachable := by
  cases pointer with
  | var entry => simpa [Pointer.owners, Pointer.var?] using
      rooted.owned entry created
  | _ => simp [Pointer.owners, Pointer.var?]

/-- The call graph grows. -/
theorem Rooted.extend {setup : Setup} {before after : State}
    (rooted : before.Rooted setup) (graph : after.calls.Rooted)
    (reachable : before.calls.reachable ⊆ after.calls.reachable)
    (numbered : after.calls.members ⊆ after.methods.entries)
    (registered : ∀ edge ∈ after.calls.edges, edge.site ∈ after.sites.items)
    (pointers : after.store.pointers = before.store.pointers)
    (objects : after.objects = before.objects) : after.Rooted setup where
  graph := graph
  numbered := numbered
  registered := registered
  owned entry created := by
    rw [pointers] at created
    exact reachable (rooted.owned entry created)
  allocated obj member ordinary := by
    rw [objects] at member
    obtain ⟨method, reached, allocates⟩ :=
      rooted.allocated obj member ordinary
    exact ⟨method, reachable reached, allocates⟩

namespace Covers

variable {setup : Setup} {methods : List ContextMethod} {state : State}
  (covers : state.Covers setup methods)

include covers

/-- What matters are the call graph, the pointers and what is numbered. -/
theorem same {after : State} (calls : after.calls = state.calls)
    (pointers : after.store.pointers = state.store.pointers)
    (objects : after.objects = state.objects)
    (numbered : state.methods.entries ⊆ after.methods.entries)
    (sites : state.sites.items ⊆ after.sites.items) :
    after.Covers setup methods where
  toRooted := covers.extend (calls ▸ covers.graph)
    (calls ▸ List.Subset.refl _)
    (calls ▸ List.Subset.trans covers.numbered numbered)
    (fun edge member => sites (covers.registered edge (calls ▸ member)))
    pointers objects
  reached := calls ▸ covers.reached

/-- Most operations leave the numbers of methods and of call sites alone. -/
theorem frame {after : State} (calls : after.calls = state.calls)
    (pointers : after.store.pointers = state.store.pointers)
    (objects : after.objects = state.objects)
    (numbered : after.methods = state.methods)
    (sites : after.sites = state.sites) : after.Covers setup methods :=
  covers.same calls pointers objects (numbered ▸ List.Subset.refl _)
    (sites ▸ List.Subset.refl _)

/-- A state covers fewer methods as well. -/
theorem mono {fewer : List ContextMethod} (included : fewer ⊆ methods) :
    state.Covers setup fewer :=
  { covers with reached := List.Subset.trans included covers.reached }

/-- A variable may be created if its method has been reached. -/
theorem touch {pointer : Pointer} (within : pointer.Within methods) :
    (state.touch pointer).Covers setup methods :=
  { covers with
    owned := by
      intro entry created
      rw [State.touch, Store.mem_pointers_touch] at created
      rcases created with old | rfl
      · exact covers.owned entry old
      · exact covers.reached (within entry rfl) }

theorem push (target : Pointer) (payload : Payload) :
    (state.push target payload).Covers setup methods :=
  covers.frame (by simp) (by simp) (by simp) (by simp) (by simp)

theorem meetMethod (method : ContextMethod) :
    (state.meetMethod method).Covers setup methods :=
  covers.same rfl rfl rfl
    (state.methods.entries_isPrefix_request method).subset (List.Subset.refl _)

/-- Call sites are numbered on behalf of their methods. -/
theorem meetSite (site : ContextSite) :
    (state.meetSite site).Covers setup methods := by
  unfold State.meetSite
  split
  · exact covers
  · refine (covers.meetMethod _).same rfl rfl rfl (List.Subset.refl _) ?_
    exact (Numbering.items_isPrefix_request _ _).subset

/-- An allocated object has to belong to a method that has been reached. -/
theorem meetObj {obj : ContextObj}
    (known : ContextObj.isTaint obj = false →
      ∃ method ∈ methods, setup.Allocates method obj) :
    (state.meetObj obj).Covers setup methods :=
  { covers with
    allocated := by
      intro other numbered ordinary
      rw [State.meetObj, Numbering.mem_request] at numbered
      rcases numbered with old | rfl
      · exact covers.allocated other old ordinary
      · obtain ⟨method, listed, allocates⟩ := known ordinary
        exact ⟨method, covers.reached listed, allocates⟩ }

/-- Taint belongs to no method. -/
theorem meetTaint (source : Site) (type : Ty) :
    (state.meetObj (taintObj source type)).Covers setup methods :=
  covers.meetObj fun ordinary => by cases ordinary

/-- Operations that are done one after the other keep what each of them keeps.
-/
theorem foldl {α : Type} {step : State → α → State} {items : List α}
    (each : ∀ item ∈ items, ∀ {state : State}, state.Covers setup methods →
      (step state item).Covers setup methods) :
    (items.foldl step state).Covers setup methods :=
  List.foldlRecOn items step covers
    fun _ kept item member => each item member kept

/-- Both ends of a flow edge belong to methods that have been reached. -/
theorem addFlow {source target : Pointer} (sourced : source.Within methods)
    (targeted : target.Within methods) :
    (state.addFlow source target).Covers setup methods := by
  have touched := (covers.touch sourced).touch targeted
  unfold State.addFlow
  simp only
  split
  · apply push
    exact touched.frame rfl rfl rfl rfl rfl
  · exact touched

theorem sendTaint (taints : List ContextObj) (edge : TaintEdge) :
    (state.sendTaint taints edge).Covers setup methods := by
  refine (covers.foldl fun obj member _ kept => ?_).push _ _
  obtain ⟨original, _, rfl⟩ := List.mem_map.mp member
  exact kept.meetTaint _ _

theorem addTaintEdge (edge : TaintEdge) :
    (state.addTaintEdge edge).Covers setup methods := by
  unfold State.addTaintEdge
  split
  · exact covers
  · apply sendTaint
    exact covers.frame rfl rfl rfl rfl rfl

theorem addSinkCall (call : SinkCall) :
    (state.addSinkCall call).Covers setup methods := by
  unfold State.addSinkCall
  split
  · exact covers
  · exact covers.frame rfl rfl rfl rfl rfl

end Covers

end State

/-! ## Calls -/

namespace Setup

section Call

variable {setup : Setup} {methods : List ContextMethod} {site : ContextSite}
  (call : Invoke) (calling : ContextSite.container site ∈ methods)

include calling

theorem applySources_covers (rules : Rules) (callee : MethodId)
    {state : State} (covers : state.Covers setup methods) :
    (applySources rules site call callee state).Covers setup methods := by
  unfold applySources
  split
  · exact covers
  · refine covers.foldl fun rule _ _ kept => ?_
    exact ((kept.touch (Pointer.within_ofVar calling _)).meetTaint _ _).push
      _ _

/-- The variables in the slots of a call belong to the caller. -/
theorem slotPointer_within {slot : Slot} {pointer : Pointer}
    (found : slotPointer site call slot = some pointer) :
    pointer.Within methods := by
  obtain ⟨name, _, rfl⟩ := Option.map_eq_some_iff.mp found
  exact Pointer.within_ofVar calling name

theorem applyTransfer_covers (rule : Transfer) {state : State}
    (covers : state.Covers setup methods) :
    (applyTransfer site call state rule).Covers setup methods := by
  have touched : (((slotPointer site call rule.source).toList ++
      (slotPointer site call rule.target).toList).foldl State.touch
        state).Covers setup methods := by
    refine covers.foldl fun pointer member _ kept => kept.touch ?_
    rcases List.mem_append.mp member with source | target
    · exact slotPointer_within call calling (Option.mem_toList.mp source)
    · exact slotPointer_within call calling (Option.mem_toList.mp target)
  unfold applyTransfer
  simp only
  split
  · exact touched.addTaintEdge _
  · exact touched

/-- Taint rules concern the variables of the caller only. -/
theorem applyRules_covers {callee : MethodId} {state : State}
    (covers : state.Covers setup methods) :
    (setup.applyRules site call callee state).Covers setup methods := by
  unfold applyRules
  split
  · exact covers
  · rename_i rules _
    have sources : (applySources rules site call callee state).Covers setup
        methods := applySources_covers call calling rules callee covers
    have transfers : (applyTransfers rules site call callee
        (applySources rules site call callee state)).Covers setup methods :=
      sources.foldl fun rule _ _ kept =>
        applyTransfer_covers call calling rule kept
    refine transfers.foldl fun rule _ _ kept => ?_
    unfold applySink
    split
    · exact kept.addSinkCall _
    · exact kept.frame rfl rfl rfl rfl rfl

section Values

variable {callee : Method} {context : Context}
  (called : ⟨context, callee.id⟩ ∈ methods)

include called

/-- Arguments connect variables of the caller with variables of the callee. -/
theorem passArguments_covers {state : State}
    (covers : state.Covers setup methods) :
    (passArguments site call callee context state).Covers setup methods :=
  covers.foldl fun _ _ _ kept =>
    kept.addFlow (Pointer.within_ofVar calling _)
      (Pointer.within_ofVar called _)

theorem passResult_covers {state : State}
    (covers : state.Covers setup methods) :
    (passResult site call callee context state).Covers setup methods := by
  unfold passResult
  split
  · exact covers
  · exact (covers.touch (Pointer.within_ofVar calling _)).foldl
      fun _ _ _ kept => kept.addFlow (Pointer.within_ofVar called _)
        (Pointer.within_ofVar calling _)

end Values

end Call

/-- A new edge makes its callee reachable. -/
theorem reach_covers {setup : Setup} (edge : CallEdge) {state : State}
    (absent : state.calls.hasEdge edge.site edge.callee = false)
    (covers : state.Covers setup [edge.caller])
    (numbered : edge.callee ∈ state.methods.items)
    (registered : edge.site ∈ state.sites.items) :
    ((state.withEdge edge).reach edge.callee).Covers setup
      [edge.caller, edge.callee] := by
  have called : edge.caller ∈ state.calls.reachable :=
    covers.reached (List.mem_singleton.mpr rfl)
  have grown : ∀ method,
      method ∈ ((state.withEdge edge).reach edge.callee).calls.reachable ↔
        method ∈ state.calls.reachable ∨ method = edge.callee := by
    intro method
    rw [State.calls_reach, CallGraph.mem_reachable_addReachable,
      State.reachable_withEdge]
    rfl
  constructor
  · refine covers.extend ?_ (fun method old => (grown method).mpr (.inl old))
      (fun node reached => ?_) (fun other member => ?_)
      (by simp [State.withEdge]) (by simp [State.withEdge])
    · rw [State.calls_reach]
      exact covers.graph.call absent called _
    · rw [State.calls_reach] at reached
      rw [State.methods_reach]
      rcases CallGraph.mem_members_of_addReachable reached with old | rfl
      · rw [State.withEdge, CallGraph.members_addEdge] at old
        exact covers.numbered old
      · exact Numbering.node_mem_entries numbered
    · rw [State.calls_reach, CallGraph.edges_addReachable,
        State.edges_withEdge absent, List.mem_append,
        List.mem_singleton] at member
      rw [State.sites_reach]
      rcases member with old | rfl
      · exact covers.registered other old
      · exact registered
  · intro method listed
    simp only [List.mem_cons, List.not_mem_nil, or_false] at listed
    rcases listed with rfl | rfl
    · exact (grown _).mpr (Or.inl called)
    · exact (grown _).mpr (Or.inr rfl)

/-- The receiver variable is bound before the callee becomes reachable; it
makes no difference. -/
theorem reach_bindThis (callee : Method) (context : Context)
    (receiver : ContextObj) (edge : CallEdge) (method : ContextMethod)
    (state : State) :
    ((bindThis callee context receiver state).withEdge edge).reach method =
      bindThis callee context receiver
        ((state.withEdge edge).reach method) := by
  unfold bindThis
  split
  · rfl
  · simp only [State.reach, State.touch, State.push, State.withEdge,
      Payload.objects, List.isEmpty_cons, Bool.false_eq_true, if_false]
    split <;> simp only [*] <;> rfl

theorem bindThis_covers {setup : Setup} {methods : List ContextMethod}
    {callee : Method} {context : Context}
    (called : ⟨context, callee.id⟩ ∈ methods) (receiver : ContextObj)
    {state : State} (covers : state.Covers setup methods) :
    (bindThis callee context receiver state).Covers setup methods := by
  unfold bindThis
  split
  · exact covers
  · exact (covers.touch (Pointer.within_ofVar called _)).push _ _

@[simp]
theorem calls_bindThis (callee : Method) (context : Context)
    (receiver : ContextObj) (state : State) :
    (bindThis callee context receiver state).calls = state.calls := by
  unfold bindThis
  split <;> simp [State.touch]

section Connect

variable {setup : Setup} {site : ContextSite} (call : Invoke)
  {callee : Method} {context : Context} {state : State}

/-- What is done for a new edge concerns its two ends. -/
theorem link_covers
    (covers : state.Covers setup
      [ContextSite.container site, ⟨context, callee.id⟩]) :
    (setup.applyRules site call callee.id
      (passResult site call callee context
        (passArguments site call callee context state))).Covers setup
      [ContextSite.container site] := by
  have calling : ContextSite.container site ∈
      [ContextSite.container site, ⟨context, callee.id⟩] := by simp
  have called : (⟨context, callee.id⟩ : ContextMethod) ∈
      [ContextSite.container site, ⟨context, callee.id⟩] := by simp
  have passed := passArguments_covers call calling called covers
  have returned := passResult_covers call calling called passed
  exact (applyRules_covers call calling returned).mono (by simp)

variable (covers : state.Covers setup [ContextSite.container site])
  (numbered : ⟨context, callee.id⟩ ∈ state.methods.items)
  (registered : site ∈ state.sites.items)

include covers numbered registered

/-- The callee of a static call gets nothing before it is reachable. -/
theorem connect_covers :
    (setup.connect site call callee context state).Covers setup
      [ContextSite.container site] := by
  by_cases present : state.calls.hasEdge site ⟨context, callee.id⟩ = true
  · rw [connect_of_hasEdge present]
    exact covers
  · obtain ⟨fresh, unfolded⟩ := connect_of_not_hasEdge setup call present
    rw [unfolded]
    exact link_covers call (reach_covers
      (.ofCall site call callee context) fresh covers numbered registered)

theorem connect_bindThis_covers (receiver : ContextObj) :
    (setup.connect site call callee context
      (bindThis callee context receiver state)).Covers setup
      [ContextSite.container site] := by
  by_cases present : state.calls.hasEdge site ⟨context, callee.id⟩ = true
  · rw [connect_of_hasEdge (by rw [calls_bindThis]; exact present)]
    obtain ⟨edge, member, _, calls⟩ :=
      (CallGraph.hasEdge_iff _ _ _).mp present
    have called := (covers.graph.linked edge member).2
    rw [calls] at called
    have both : state.Covers setup
        [ContextSite.container site, ⟨context, callee.id⟩] :=
      { covers with reached := by simpa [called] using covers.reached }
    exact (bindThis_covers (by simp) receiver both).mono (by simp)
  · rw [(connect_of_not_hasEdge setup call
      (by rw [calls_bindThis]; exact present)).2, reach_bindThis]
    have fresh := (connect_of_not_hasEdge setup call present).1
    exact link_covers call (bindThis_covers (by simp) receiver (reach_covers
      (.ofCall site call callee context) fresh covers numbered
      registered))

end Connect

/-! ## Statements -/

section Site

variable {setup : Setup} {site : ContextSite} {state : State}
  (covers : state.Covers setup [ContextSite.container site])

include covers

theorem callStatic_covers (call : Invoke) :
    (setup.callStatic site call state).Covers setup
      [ContextSite.container site] := by
  unfold callStatic
  split
  · exact covers.frame rfl rfl rfl rfl rfl
  · exact connect_covers call ((covers.meetSite _).meetMethod _)
      (State.mem_methods_meetMethod ..) (state.mem_sites_meetSite site)

/-- Call sites and callees are numbered before the edge is added. -/
theorem callInstance_covers (call : Invoke) (receiver : ContextObj) :
    (setup.callInstance site call receiver state).Covers setup
      [ContextSite.container site] := by
  unfold callInstance
  split
  · exact covers.frame rfl rfl rfl rfl rfl
  · exact connect_bindThis_covers call ((covers.meetSite _).meetMethod _)
      (State.mem_methods_meetMethod ..) (state.mem_sites_meetSite site)
      receiver

end Site

section Method

variable {setup : Setup} {method : ContextMethod} {index : Nat}
  {state : State} (covers : state.Covers setup [method])

include covers

/-- A statement concerns the variables of its method. -/
theorem lookAt_covers {stmt : Stmt}
    (here : setup.program.stmt? ⟨method.val, index⟩ = some stmt)
    {next : State}
    (looked : setup.lookAt method state stmt index = .ok next) :
    next.Covers setup [method] := by
  have inside : ∀ name, (Pointer.ofVar method.context method.val name).Within
      [method] := Pointer.within_ofVar (List.mem_singleton.mpr rfl)
  have inSite : state.Covers setup
      [ContextSite.container (method.site index)] := covers
  cases stmt with
  | new target type =>
      cases looked
      refine ((covers.touch (inside target)).meetObj fun _ => ?_).push _ _
      exact ⟨method, by simp, index, target, type, here, rfl⟩
  | copy target source =>
      cases looked
      exact covers.addFlow (inside source) (inside target)
  | loadStatic target field =>
      cases looked
      exact covers.addFlow nofun (inside target)
  | storeStatic field source =>
      cases looked
      exact covers.addFlow (inside source) nofun
  | invoke call =>
      simp only [lookAt] at looked
      split at looked
      · cases looked
        exact callStatic_covers inSite call
      · cases looked
      all_goals
        cases looked
        exact covers
  | _ =>
      cases looked
      exact covers

/-- So does the use of an object that a variable has begun to point to. -/
theorem use_covers (obj : ContextObj) (stmt : Stmt) :
    (setup.use method.context method.val obj stmt index state).Covers setup
      [method] := by
  have inside : ∀ name, (Pointer.ofVar method.context method.val name).Within
      [method] := Pointer.within_ofVar (List.mem_singleton.mpr rfl)
  have inSite : state.Covers setup
      [ContextSite.container (method.site index)] := covers
  cases stmt with
  | storeField base field source => exact covers.addFlow (inside source) nofun
  | loadField target base field => exact covers.addFlow nofun (inside target)
  | storeArray base source => exact covers.addFlow (inside source) nofun
  | loadArray target base => exact covers.addFlow nofun (inside target)
  | invoke call => exact callInstance_covers inSite call obj
  | _ => exact covers

end Method

theorem lookAtAll_covers {setup : Setup} {method : ContextMethod}
    {stmts : List Stmt} {start : Nat}
    (stand : setup.Stand method.val start stmts) {state next : State}
    (covers : state.Covers setup [method])
    (looked : setup.lookAtAll method start stmts state = .ok next) :
    next.Covers setup [method] := by
  induction stmts generalizing start state with
  | nil =>
      cases looked
      exact covers
  | cons stmt rest ih =>
      rw [lookAtAll, Checked.bind_eq_ok] at looked
      obtain ⟨middle, first, others⟩ := looked
      exact ih stand.tail (lookAt_covers covers (stand 0 stmt rfl) first)
        others

theorem useAll_covers {setup : Setup} {entry : ContextVar} {state : State}
    (covers : state.Covers setup [ContextVar.container entry])
    (obj : ContextObj) :
    (setup.useAll entry state obj).Covers setup
      [ContextVar.container entry] := by
  unfold useAll
  split
  · exact covers
  · split
    · exact covers
    · refine covers.foldl fun index _ _ kept => ?_
      split
      · exact use_covers kept obj _
      · exact kept

theorem useNew_covers {setup : Setup} {target : Pointer} {state : State}
    (covers : state.Covers setup target.owners)
    (objects : List ContextObj) :
    (setup.useNew target objects state).Covers setup target.owners := by
  unfold useNew
  split
  · exact covers.foldl fun obj _ _ kept => useAll_covers kept obj
  · exact covers

/-! ## Steps -/

/-- A delivery is done on behalf of the method of the variable that it reaches.
-/
theorem deliver_covers {setup : Setup} {work : Work} {state : State}
    (covers : state.Covers setup work.target.owners) :
    (setup.deliver work state).Covers setup work.target.owners := by
  by_cases new : delta work state = []
  · rw [deliver_of_eq_nil new]
    exact covers
  · rw [deliver_of_ne_nil new]
    have received : (state.receive work.target (delta work state)).Covers
        setup work.target.owners :=
      covers.frame rfl (state.store.pointers_add _ _) rfl rfl rfl
    have forwarded : (forward work.target (delta work state)
        (state.receive work.target (delta work state))).Covers setup
        work.target.owners :=
      received.foldl fun successor _ _ kept => kept.push successor _
    exact useNew_covers (forwarded.foldl fun edge _ _ kept =>
      kept.sendTaint _ edge) _

/-- Entries are reachable from the start. -/
theorem enter_rooted {setup : Setup} {ids : List MethodId}
    {state next : State} (rooted : state.Rooted setup)
    (entered : setup.enter ids state = .ok next) : next.Rooted setup := by
  induction ids generalizing state with
  | nil =>
      cases entered
      exact rooted
  | cons id rest ih =>
      rw [enter] at entered
      split at entered
      · cases entered
      · refine ih (rooted.extend ?_ ?_ ?_ ?_ ?_ ?_) entered
        · rw [State.calls_reach]
          exact rooted.graph.enter _
        · intro method old
          simp [State.meetMethod, old]
        · intro node reached
          rw [State.calls_reach] at reached
          rw [State.methods_reach]
          rcases CallGraph.mem_members_of_addReachable reached with old | rfl
          · rw [CallGraph.members_addEntry] at old
            exact (state.methods.entries_isPrefix_request _).subset
              (rooted.numbered old)
          · exact Numbering.node_mem_entries (state.mem_methods_meetMethod _)
        · intro edge member
          rw [State.calls_reach, CallGraph.edges_addReachable,
            CallGraph.edges_addEntry] at member
          rw [State.sites_reach]
          exact rooted.registered edge member
        · simp [State.meetMethod]
        · simp [State.meetMethod]

/-- One step preserves that a state is rooted. -/
theorem step_rooted {setup : Setup} {entries : List MethodId}
    {state next : State} (proper : state.Proper setup entries)
    (rooted : state.Rooted setup)
    (stepped : setup.step state = .advanced next) : next.Rooted setup := by
  rcases step_eq_advanced stepped with
    ⟨method, pending, popped, looked⟩ | ⟨work, worklist, _, popped, rfl⟩
  · have waiting := proper.justified.waiting method (by simp [popped])
    have covers : { state with pending }.Covers setup [method] :=
      { rooted with reached := by simpa using waiting }
    exact (lookAtAll_covers stand_bodyOf covers looked).toRooted
  · have created := (proper.supported.ready work (by simp [popped])).1
    have covers : { state with worklist }.Covers setup work.target.owners :=
      { rooted with reached := rooted.owners_subset created }
    exact (deliver_covers covers).toRooted

end Setup

/-- Every state that the solver visits is rooted. -/
theorem Visits.rooted {setup : Setup} {entries : List MethodId}
    {state : State} (coherent : setup.program.Coherent)
    (visits : Visits setup entries state) : state.Rooted setup := by
  induction visits with
  | start entered => exact Setup.enter_rooted .initial entered
  | step earlier stepped ih =>
      exact Setup.step_rooted (earlier.proper coherent) ih stepped

end PointsTo
