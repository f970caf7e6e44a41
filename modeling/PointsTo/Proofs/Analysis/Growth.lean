import PointsTo.Proofs.Analysis.Effect

/-!
# States only grow

While the solver looks at statements or uses objects, nothing that a state has
is lost: all its lists are extended at their ends, and pointers keep their
objects.  What is new is taken care of at once: new methods are scheduled, new
edges pass on the objects that are there, and what follows from a new call edge
is met.
-/

namespace PointsTo

/-- A later state extends an earlier one and owes nothing for what is new. -/
structure Growth (setup : Setup) (entries : List MethodId)
    (before after : State) : Prop where
  get : ∀ pointer, after.store.get pointer = before.store.get pointer
  pointers : before.store.pointers <+: after.store.pointers
  objects : before.objects.items <+: after.objects.items
  methods : before.methods.items <+: after.methods.items
  worklist : before.worklist.toList <+: after.worklist.toList
  pending : before.pending.toList <+: after.pending.toList
  reachable : before.calls.reachable <+: after.calls.reachable
  edges : before.calls.edges <+: after.calls.edges
  flow : before.flow.edges <+: after.flow.edges
  taintEdges : before.taintEdges <+: after.taintEdges
  sinkCalls : before.sinkCalls <+: after.sinkCalls
  reached : ∀ method ∈ after.calls.reachable,
    method ∈ before.calls.reachable ∨ method ∈ after.pending.toList
  linked : ∀ edge ∈ after.calls.edges,
    edge ∈ before.calls.edges ∨ after.Links setup entries edge
  forwarded : ∀ edge ∈ after.flow.edges,
    edge ∈ before.flow.edges ∨ after.Forwards edge.1 edge.2
  retagged : ∀ edge ∈ after.taintEdges,
    edge ∈ before.taintEdges ∨ after.Retags edge

namespace Growth

variable {setup : Setup} {entries : List MethodId}
  {before middle after : State}

theorem refl (state : State) : Growth setup entries state state where
  get _ := rfl
  pointers := List.prefix_rfl
  objects := List.prefix_rfl
  methods := List.prefix_rfl
  worklist := List.prefix_rfl
  pending := List.prefix_rfl
  reachable := List.prefix_rfl
  edges := List.prefix_rfl
  flow := List.prefix_rfl
  taintEdges := List.prefix_rfl
  sinkCalls := List.prefix_rfl
  reached _ := Or.inl
  linked _ := Or.inl
  forwarded _ := Or.inl
  retagged _ := Or.inl

theorem objects_eq (growth : Growth setup entries before after)
    (payload : Payload) :
    payload.objects after.store = payload.objects before.store := by
  cases payload with
  | fixed objects => rfl
  | current source => exact growth.get source

theorem holds (growth : Growth setup entries before after) {fact : Fact}
    (holds : before.Holds fact) : after.Holds fact := by
  cases fact with
  | reached method => exact growth.reachable.subset holds
  | called edge => exact growth.edges.subset holds
  | flows source target => exact growth.flow.subset holds
  | points pointer obj =>
      rw [State.Holds, growth.get]
      exact holds
  | retags edge => exact growth.taintEdges.subset holds
  | sinks call => exact growth.sinkCalls.subset holds

/-- What a state holds or awaits stays held or awaited. -/
theorem meets (growth : Growth setup entries before after) {fact : Fact}
    (meets : before.Meets fact) : after.Meets fact := by
  rcases meets with holds | ⟨work, queued, obj, sent, equal⟩
  · exact Or.inl (growth.holds holds)
  · refine Or.inr ⟨work, growth.worklist.subset queued, obj, ?_, equal⟩
    rw [growth.objects_eq]
    exact sent

theorem forwards (growth : Growth setup entries before after)
    {source target : Pointer} (forwards : before.Forwards source target) :
    after.Forwards source target := by
  intro obj member
  rw [growth.get] at member
  exact growth.meets (forwards obj member)

theorem retags (growth : Growth setup entries before after)
    {edge : TaintEdge} (retags : before.Retags edge) :
    after.Retags edge := by
  intro obj member taint
  rw [growth.get] at member
  exact growth.meets (retags obj member taint)

theorem trans (earlier : Growth setup entries before middle)
    (later : Growth setup entries middle after) :
    Growth setup entries before after where
  get pointer := (later.get pointer).trans (earlier.get pointer)
  pointers := earlier.pointers.trans later.pointers
  objects := earlier.objects.trans later.objects
  methods := earlier.methods.trans later.methods
  worklist := earlier.worklist.trans later.worklist
  pending := earlier.pending.trans later.pending
  reachable := earlier.reachable.trans later.reachable
  edges := earlier.edges.trans later.edges
  flow := earlier.flow.trans later.flow
  taintEdges := earlier.taintEdges.trans later.taintEdges
  sinkCalls := earlier.sinkCalls.trans later.sinkCalls
  reached method member := by
    rcases later.reached method member with old | scheduled
    · exact (earlier.reached method old).imp_right
        fun scheduled => later.pending.subset scheduled
    · exact Or.inr scheduled
  linked edge member := by
    rcases later.linked edge member with old | links
    · exact (earlier.linked edge old).imp_right
        fun links _ rule => later.meets (links rule)
    · exact Or.inr links
  forwarded edge member := by
    rcases later.forwarded edge member with old | forwards
    · exact (earlier.forwarded edge old).imp_right later.forwards
    · exact Or.inr forwards
  retagged edge member := by
    rcases later.retagged edge member with old | retags
    · exact (earlier.retagged edge old).imp_right later.retags
    · exact Or.inr retags

/-- Growth that adds no methods to look at and no edges. -/
theorem quiet
    (get : ∀ pointer, after.store.get pointer = before.store.get pointer)
    (pointers : before.store.pointers <+: after.store.pointers)
    (objects : before.objects.items <+: after.objects.items)
    (methods : before.methods.items <+: after.methods.items)
    (worklist : before.worklist.toList <+: after.worklist.toList)
    (pending : after.pending = before.pending)
    (reachable : after.calls.reachable = before.calls.reachable)
    (edges : after.calls.edges = before.calls.edges)
    (flow : after.flow = before.flow)
    (taintEdges : after.taintEdges = before.taintEdges)
    (sinkCalls : before.sinkCalls <+: after.sinkCalls) :
    Growth setup entries before after where
  get := get
  pointers := pointers
  objects := objects
  methods := methods
  worklist := worklist
  pending := pending ▸ List.prefix_rfl
  reachable := reachable ▸ List.prefix_rfl
  edges := edges ▸ List.prefix_rfl
  flow := flow ▸ List.prefix_rfl
  taintEdges := taintEdges ▸ List.prefix_rfl
  sinkCalls := sinkCalls
  reached _ member := Or.inl (reachable ▸ member)
  linked _ member := Or.inl (edges ▸ member)
  forwarded _ member := Or.inl (flow ▸ member)
  retagged _ member := Or.inl (taintEdges ▸ member)

end Growth

/-! ## Effects -/

variable {setup : Setup} {entries : List MethodId}

namespace State

/-- Sending a payload adds at most one entry to the worklist. -/
theorem growth_push (state : State) (target : Pointer) (payload : Payload) :
    Growth setup entries state (state.push target payload) := by
  rcases state.push_eq_or target payload with ⟨same, _⟩ | pushed
  · rw [same]
    exact Growth.refl state
  · rw [pushed]
    exact .quiet (fun _ => rfl) List.prefix_rfl List.prefix_rfl
      List.prefix_rfl (by simp) rfl rfl rfl rfl rfl List.prefix_rfl

end State

/-- A new flow edge passes on what its source points to. -/
theorem Growth.addFlow (state : State) (source target : Pointer) :
    Growth setup entries state
      ({ state with
          flow := state.flow.insert (state.store.node source)
            (state.store.node target) }.push target (.current source)) := by
  let inserted : State :=
    { state with
      flow := state.flow.insert (state.store.node source)
        (state.store.node target) }
  have sent : Growth setup entries inserted
      (inserted.push target (.current source)) :=
    inserted.growth_push target (.current source)
  exact
    { sent with
      flow := (state.flow.edges_isPrefix_insert _ _).trans sent.flow
      forwarded := by
        intro edge member
        rw [State.flow_push] at member
        rcases FlowGraph.mem_edges_of_mem_insert member with old | new
        · exact Or.inl old
        · refine Or.inr fun obj here => ?_
          rw [new] at here ⊢
          rw [sent.get] at here
          exact inserted.meets_push target (.current source) here }

/-- A new taint edge passes on the taint that its source points to. -/
theorem Growth.addTaintEdge (state : State) (edge : TaintEdge)
    {retagged : ObjSet}
    (complete : ∀ obj ∈ state.store.get edge.source,
      ContextObj.isTaint obj = true →
        State.taintObj obj.val.site edge.type ∈ retagged) :
    Growth setup entries state
      ({ state with taintEdges := state.taintEdges ++ [edge] }.push
        edge.target (.fixed retagged)) := by
  let inserted : State :=
    { state with taintEdges := state.taintEdges ++ [edge] }
  have sent : Growth setup entries inserted
      (inserted.push edge.target (.fixed retagged)) :=
    inserted.growth_push edge.target (.fixed retagged)
  exact
    { sent with
      taintEdges := (List.prefix_append _ _).trans sent.taintEdges
      retagged := by
        intro other member
        rw [State.taintEdges_push] at member
        rcases List.mem_append.mp member with old | new
        · exact Or.inl old
        · refine Or.inr fun obj here taint => ?_
          rw [List.mem_singleton.mp new] at here ⊢
          rw [sent.get] at here
          exact inserted.meets_push edge.target (.fixed retagged)
            (complete obj here taint) }

/-- A new reachable method is scheduled. -/
theorem Growth.reach {state : State} {method : ContextMethod}
    (absent : method ∉ state.calls.reachable) :
    Growth setup entries state
      { state with
        calls := state.calls.addReachable (state.methods.node method)
        pending := state.pending.push method } where
  get _ := rfl
  pointers := List.prefix_rfl
  objects := List.prefix_rfl
  methods := List.prefix_rfl
  worklist := List.prefix_rfl
  pending := by simp
  reachable := by
    rw [CallGraph.reachable_addReachable absent]
    exact List.prefix_append _ _
  edges := by simp
  flow := List.prefix_rfl
  taintEdges := List.prefix_rfl
  sinkCalls := List.prefix_rfl
  reached other member := by
    rw [CallGraph.reachable_addReachable absent] at member
    rcases List.mem_append.mp member with old | new
    · exact Or.inl old
    · rw [List.mem_singleton.mp new]
      exact Or.inr (by simp [Numbering.node])
  linked _ member := Or.inl (by simpa using member)
  forwarded _ := Or.inl
  retagged _ := Or.inl

theorem Effect.growth {cost : Nat} {before after : State}
    (effect : Effect setup entries cost before after) :
    Growth setup entries before after := by
  cases effect with
  | report entry =>
      exact .quiet (fun _ => rfl) List.prefix_rfl List.prefix_rfl
        List.prefix_rfl List.prefix_rfl rfl rfl rfl rfl rfl List.prefix_rfl
  | entry member =>
      exact .quiet (fun _ => rfl) List.prefix_rfl List.prefix_rfl
        List.prefix_rfl List.prefix_rfl rfl
        (before.calls.reachable_addEntry _) (before.calls.edges_addEntry _)
        rfl rfl List.prefix_rfl
  | touch founded =>
      exact .quiet (before.store.get_touch _)
        (before.store.pointers_isPrefix_touch _) List.prefix_rfl
        List.prefix_rfl List.prefix_rfl rfl rfl rfl rfl rfl List.prefix_rfl
  | meetObj derivable =>
      exact .quiet (fun _ => rfl) List.prefix_rfl
        (before.objects.items_isPrefix_request _) List.prefix_rfl
        List.prefix_rfl rfl rfl rfl rfl rfl List.prefix_rfl
  | meetMethod derivable =>
      exact .quiet (fun _ => rfl) List.prefix_rfl List.prefix_rfl
        (before.methods.items_isPrefix_request _) List.prefix_rfl rfl rfl
        rfl rfl rfl List.prefix_rfl
  | meetSite met =>
      exact .quiet (fun _ => rfl) List.prefix_rfl List.prefix_rfl
        List.prefix_rfl List.prefix_rfl rfl rfl rfl rfl rfl List.prefix_rfl
  | send ready justified =>
      exact .quiet (fun _ => rfl) List.prefix_rfl List.prefix_rfl
        List.prefix_rfl (by simp) rfl rfl rfl rfl rfl List.prefix_rfl
  | reach absent derivable => exact .reach absent
  | addFlow new absent derivable created => exact .addFlow before _ _
  | addTaintEdge absent derivable ready justified complete =>
      exact .addTaintEdge before _ complete
  | addSinkCall absent derivable =>
      exact .quiet (fun _ => rfl) List.prefix_rfl List.prefix_rfl
        List.prefix_rfl List.prefix_rfl rfl rfl rfl rfl rfl
        (List.prefix_append _ _)

theorem Effects.growth {sent : Nat} {before after : State}
    (effects : Effects setup entries sent before after) :
    Growth setup entries before after := by
  induction effects with
  | refl => exact Growth.refl _
  | tail _ effect _ ih => exact ih.trans effect.growth

theorem Moves.growth {sent : Nat} {before after : State}
    (moves : Moves setup entries sent before after) :
    Growth setup entries before after := by
  induction moves with
  | refl => exact Growth.refl _
  | effect _ effect _ ih => exact ih.trans effect.growth
  | @link _ _ _ _ middle last edge _ absent derivable effects few links _ ih =>
      have rest := effects.growth
      have extended := State.edges_withEdge absent
      refine ih.trans { rest with
        reachable := by simpa using rest.reachable
        reached := by simpa using rest.reached
        edges := (extended ▸ List.prefix_append _ _).trans rest.edges
        linked := fun other member => ?_ }
      rcases rest.linked other member with old | new
      · rw [extended] at old
        rcases List.mem_append.mp old with older | same
        · exact Or.inl older
        · rw [List.mem_singleton.mp same]
          exact Or.inr links
      · exact Or.inr new

end PointsTo
