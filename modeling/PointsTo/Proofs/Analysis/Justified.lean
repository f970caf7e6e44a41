import Mathlib.Data.List.Nodup
import PointsTo.Proofs.Analysis.Growth

/-!
# Justified states

Everything in a justified state has a derivation: the facts that it holds, the
objects on their way, and whatever has been numbered or created.  A payload
that stands for whatever its source points to is justified by the flow edge, so
that it stays justified while the source gains objects.

In a supported state, the targets of edges and payloads have been created and
all objects are numbered, so that delivered objects find their place and none
is overlooked.
-/

namespace PointsTo

namespace State

/-- Everything in a state has a derivation. -/
structure Justified (setup : Setup) (entries : List MethodId)
    (state : State) : Prop where
  facts : ∀ {fact : Fact}, state.Holds fact → Derivable setup entries fact
  queued : ∀ work ∈ state.worklist.toList, work.Justified setup entries
  waiting : ∀ method ∈ state.pending.toList, method ∈ state.calls.reachable
  pointers : ∀ pointer ∈ state.store.pointers, pointer.Founded setup entries
  objects : ∀ obj ∈ state.objects.items,
    ∃ pointer, Derivable setup entries (.points pointer obj)
  methods : ∀ method ∈ state.methods.items,
    Derivable setup entries (.reached method)
  starts : ∀ method ∈ state.calls.entries,
    ∃ id ∈ entries, method = ⟨[], id⟩

/-- What edges connect has been created and has its number there, and objects
and the methods of call sites are numbered. -/
structure Supported (state : State) : Prop where
  numbered : ∀ pointer, ∀ obj ∈ state.store.get pointer,
    obj ∈ state.objects.items
  contained : ∀ site ∈ state.sites.items,
    ContextSite.container site ∈ state.methods.items
  ready : ∀ work ∈ state.worklist.toList, state.Ready work
  within : state.flow.Within state.store.nodes
  retags : ∀ edge ∈ state.taintEdges, edge.target ∈ state.store.pointers

/-- No taint edge and no call of a sink is listed twice. -/
structure Distinct (state : State) : Prop where
  taintEdges : state.taintEdges.Nodup
  sinkCalls : state.sinkCalls.Nodup

/-- A state as the solver builds it. -/
structure Proper (setup : Setup) (entries : List MethodId)
    (state : State) : Prop where
  justified : state.Justified setup entries
  supported : state.Supported
  distinct : state.Distinct

/-- Edges connect pointers that have been created. -/
theorem Supported.flows {state : State} (supported : state.Supported) :
    ∀ edge ∈ state.flow.edges,
      edge.1 ∈ state.store.pointers ∧ edge.2 ∈ state.store.pointers := by
  intro edge member
  rcases List.mem_map.mp member with ⟨arc, listed, rfl⟩
  have ends := supported.within arc listed
  rw [← state.store.items_nodes]
  exact ⟨List.mem_map_of_mem ends.1, List.mem_map_of_mem ends.2⟩

/-- The objects that are on their way are numbered. -/
theorem Supported.numbered_of_ready {state : State}
    (supported : state.Supported) {work : Work} (ready : state.Ready work)
    {obj : ContextObj} (sent : obj ∈ work.payload.objects state.store) :
    obj ∈ state.objects.items := by
  rcases work with ⟨target, objects | source⟩
  · exact ready.2 obj sent
  · exact supported.numbered source obj sent

/-- No two edges connect the same pointers. -/
theorem Supported.nodup_flow {state : State} (supported : state.Supported) :
    state.flow.edges.Nodup := by
  refine (List.Nodup.of_map _ state.flow.distinct).map_on ?_
  intro first here second there same
  obtain ⟨sources, targets⟩ := Prod.mk.inj same
  have ends := supported.within first here
  have others := supported.within second there
  have source : first.source = second.source := by
    rw [← state.store.node_eq_of_mem_nodes ends.1, sources,
      state.store.node_eq_of_mem_nodes others.1]
  have target : first.target = second.target := by
    rw [← state.store.node_eq_of_mem_nodes ends.2, targets,
      state.store.node_eq_of_mem_nodes others.2]
  cases first
  cases second
  cases source
  cases target
  rfl

/-- Methods that wait to be looked at are reachable. -/
theorem Justified.derivable_of_waiting {setup : Setup}
    {entries : List MethodId} {state : State}
    (justified : state.Justified setup entries) {method : ContextMethod}
    (waiting : method ∈ state.pending.toList) :
    Derivable setup entries (.reached method) := by
  apply justified.facts
  exact justified.waiting method waiting

theorem Ready.grow {setup : Setup} {entries : List MethodId}
    {before after : State} {work : Work} (ready : before.Ready work)
    (growth : Growth setup entries before after) : after.Ready work := by
  refine ⟨growth.pointers.subset ready.1, ?_⟩
  obtain ⟨target, payload⟩ := work
  cases payload with
  | fixed objects =>
      exact fun obj member => growth.objects.subset (ready.2 obj member)
  | current source => trivial

end State

variable {setup : Setup} {entries : List MethodId}

/-- An effect adds derivable facts only. -/
theorem Effect.holds_cases {cost : Nat} {before after : State}
    (effect : Effect setup entries cost before after) {fact : Fact}
    (holds : after.Holds fact) :
    before.Holds fact ∨ Derivable setup entries fact := by
  cases effect with
  | report entry => cases fact <;> exact Or.inl holds
  | entry member =>
      cases fact <;>
        simp only [State.Holds, CallGraph.reachable_addEntry,
          CallGraph.edges_addEntry] at holds <;>
        exact Or.inl holds
  | touch founded =>
      cases fact with
      | points pointer obj =>
          rw [State.Holds, State.touch, Store.get_touch] at holds
          exact Or.inl holds
      | _ => exact Or.inl holds
  | meetObj derivable => cases fact <;> exact Or.inl holds
  | meetMethod derivable => cases fact <;> exact Or.inl holds
  | meetSite met => cases fact <;> exact Or.inl holds
  | send ready justified => cases fact <;> exact Or.inl holds
  | reach absent derivable =>
      cases fact with
      | reached other =>
          rw [State.Holds, CallGraph.reachable_addReachable absent] at holds
          rcases List.mem_append.mp holds with old | new
          · exact Or.inl old
          · rw [List.mem_singleton.mp new]
            exact Or.inr derivable
      | called edge =>
          rw [State.Holds, CallGraph.edges_addReachable] at holds
          exact Or.inl holds
      | _ => exact Or.inl holds
  | addFlow new absent derivable created =>
      rw [State.holds_push] at holds
      cases fact with
      | flows source target =>
          rcases FlowGraph.mem_edges_of_mem_insert holds with old | new
          · exact Or.inl old
          · cases new
            exact Or.inr derivable
      | _ => exact Or.inl holds
  | addTaintEdge absent derivable ready justified complete =>
      rw [State.holds_push] at holds
      cases fact with
      | retags edge =>
          rcases List.mem_append.mp holds with old | new
          · exact Or.inl old
          · rw [List.mem_singleton.mp new]
            exact Or.inr derivable
      | _ => exact Or.inl holds
  | addSinkCall absent derivable =>
      cases fact with
      | sinks call =>
          rcases List.mem_append.mp holds with old | new
          · exact Or.inl old
          · rw [List.mem_singleton.mp new]
            exact Or.inr derivable
      | _ => exact Or.inl holds

/-- An effect puts at most one entry on the worklist, which is justified and
ready. -/
theorem Effect.worklist_cases {cost : Nat} {before after : State}
    (effect : Effect setup entries cost before after) {work : Work}
    (queued : work ∈ after.worklist.toList) :
    work ∈ before.worklist.toList ∨
      work.Justified setup entries ∧ after.Ready work := by
  have pushed : ∀ {state : State} {target : Pointer} {payload : Payload},
      state.worklist = before.worklist →
      Work.Justified setup entries ⟨target, payload⟩ →
      (state.push target payload).Ready ⟨target, payload⟩ →
      work ∈ (state.push target payload).worklist.toList →
      work ∈ before.worklist.toList ∨
        work.Justified setup entries ∧
          (state.push target payload).Ready work := by
    intro state target payload same justified ready queued
    rcases state.push_eq_or target payload with ⟨unchanged, _⟩ | sent
    · rw [unchanged, same] at queued
      exact Or.inl queued
    · rw [sent] at queued
      simp only [Queue.toList_push, List.mem_append, List.mem_singleton,
        same] at queued
      rcases queued with old | rfl
      · exact Or.inl old
      · exact Or.inr ⟨justified, ready⟩
  have grown := effect.growth
  cases effect with
  | send ready justified =>
      simp only [Queue.toList_push, List.mem_append, List.mem_singleton]
        at queued
      rcases queued with old | rfl
      · exact Or.inl old
      · exact Or.inr ⟨justified, ready⟩
  | addFlow new absent derivable created =>
      refine pushed rfl derivable ⟨?_, trivial⟩ queued
      exact grown.pointers.subset created.2
  | addTaintEdge absent derivable ready justified complete =>
      exact pushed rfl justified (ready.grow grown) queued
  | _ => exact Or.inl queued

/-- An effect creates founded pointers only. -/
theorem Effect.pointers_cases {cost : Nat} {before after : State}
    (effect : Effect setup entries cost before after) {pointer : Pointer}
    (created : pointer ∈ after.store.pointers) :
    pointer ∈ before.store.pointers ∨ pointer.Founded setup entries := by
  cases effect with
  | touch founded =>
      rw [State.touch, Store.mem_pointers_touch] at created
      rcases created with old | rfl
      · exact Or.inl old
      · exact Or.inr founded
  | addFlow new absent derivable _ =>
      rw [State.store_push] at created
      exact Or.inl created
  | addTaintEdge absent derivable ready justified complete =>
      rw [State.store_push] at created
      exact Or.inl created
  | _ => exact Or.inl created

/-- An effect numbers objects that something points to. -/
theorem Effect.objects_cases {cost : Nat} {before after : State}
    (effect : Effect setup entries cost before after) {obj : ContextObj}
    (numbered : obj ∈ after.objects.items) :
    obj ∈ before.objects.items ∨
      ∃ pointer, Derivable setup entries (.points pointer obj) := by
  cases effect with
  | meetObj derivable =>
      rw [State.meetObj, Numbering.mem_request] at numbered
      rcases numbered with old | rfl
      · exact Or.inl old
      · exact Or.inr ⟨_, derivable⟩
  | addFlow new absent derivable created =>
      rw [State.objects_push] at numbered
      exact Or.inl numbered
  | addTaintEdge absent derivable ready justified complete =>
      rw [State.objects_push] at numbered
      exact Or.inl numbered
  | _ => exact Or.inl numbered

/-- An effect numbers reachable methods. -/
theorem Effect.methods_cases {cost : Nat} {before after : State}
    (effect : Effect setup entries cost before after)
    {method : ContextMethod} (numbered : method ∈ after.methods.items) :
    method ∈ before.methods.items ∨
      Derivable setup entries (.reached method) := by
  cases effect with
  | meetMethod derivable =>
      rw [State.meetMethod, Numbering.mem_request] at numbered
      rcases numbered with old | rfl
      · exact Or.inl old
      · exact Or.inr derivable
  | addFlow new absent derivable created =>
      rw [State.methods_push] at numbered
      exact Or.inl numbered
  | addTaintEdge absent derivable ready justified complete =>
      rw [State.methods_push] at numbered
      exact Or.inl numbered
  | _ => exact Or.inl numbered

/-! ## Preservation -/

namespace State.Justified

theorem effect {cost : Nat} {before after : State}
    (justified : before.Justified setup entries)
    (effect : Effect setup entries cost before after) :
    after.Justified setup entries where
  facts holds := (effect.holds_cases holds).elim justified.facts id
  queued work queued :=
    (effect.worklist_cases queued).elim (justified.queued work) And.left
  waiting := by
    cases effect with
    | entry member => simpa using justified.waiting
    | reach absent derivable =>
        intro method member
        rw [Queue.toList_push] at member
        rw [CallGraph.reachable_addReachable absent]
        rcases List.mem_append.mp member with old | new
        · exact List.mem_append_left _ (justified.waiting method old)
        · exact List.mem_append_right _ new
    | addFlow new absent derivable created => simpa using justified.waiting
    | addTaintEdge absent derivable ready sound complete =>
        simpa using justified.waiting
    | _ => exact justified.waiting
  pointers pointer created :=
    (effect.pointers_cases created).elim (justified.pointers pointer) id
  objects obj numbered :=
    (effect.objects_cases numbered).elim (justified.objects obj) id
  methods method numbered :=
    (effect.methods_cases numbered).elim (justified.methods method) id
  starts := by
    cases effect with
    | @entry _ id member =>
        intro method listed
        unfold CallGraph.addEntry at listed
        split at listed
        · exact justified.starts method listed
        · rcases List.mem_append.mp listed with old | new
          · exact justified.starts method old
          · exact ⟨id, member, List.mem_singleton.mp new⟩
    | reach absent derivable => simpa using justified.starts
    | addFlow new absent derivable created => simpa using justified.starts
    | addTaintEdge absent derivable ready sound complete =>
        simpa using justified.starts
    | _ => exact justified.starts

theorem addEdge {state : State} {edge : CallEdge}
    (justified : state.Justified setup entries)
    (absent : state.calls.hasEdge edge.site edge.callee = false)
    (derivable : Derivable setup entries (.called edge)) :
    (state.withEdge edge).Justified setup entries :=
  { justified with
    facts := by
      intro fact holds
      cases fact with
      | reached other =>
          rw [State.Holds, State.reachable_withEdge] at holds
          exact justified.facts (show state.Holds (.reached other) from holds)
      | called other =>
          rw [State.Holds, State.edges_withEdge absent] at holds
          rcases List.mem_append.mp holds with old | new
          · exact justified.facts (show state.Holds (.called other) from old)
          · rw [List.mem_singleton.mp new]
            exact derivable
      | _ => exact justified.facts holds
    waiting := by simpa [State.withEdge] using justified.waiting
    starts := by simpa [State.withEdge] using justified.starts }

end State.Justified

namespace State.Supported

theorem effect {cost : Nat} {before after : State}
    (supported : before.Supported)
    (effect : Effect setup entries cost before after) :
    after.Supported := by
  have growth := effect.growth
  have nodes : ∀ node ∈ before.store.nodes, node ∈ after.store.nodes :=
    fun node => Store.mem_nodes_of_prefix growth.pointers
  refine ⟨?_, ?_, ?_, ?_, ?_⟩
  · intro pointer obj member
    rw [growth.get] at member
    exact growth.objects.subset (supported.numbered pointer obj member)
  · intro site met
    apply growth.methods.subset
    cases effect with
    | meetSite contained =>
        rcases (Numbering.mem_request _ _ _).mp met with old | rfl
        · exact supported.contained site old
        · exact contained
    | addFlow new absent derivable created =>
        rw [State.sites_push] at met
        exact supported.contained site met
    | addTaintEdge absent derivable ready sound complete =>
        rw [State.sites_push] at met
        exact supported.contained site met
    | _ => exact supported.contained site met
  · intro work queued
    rcases effect.worklist_cases queued with old | new
    · exact (supported.ready work old).grow growth
    · exact new.2
  · intro arc member
    refine (?_ : _ ∧ _).imp (nodes _) (nodes _)
    cases effect with
    | addFlow new absent derivable created =>
        rw [State.flow_push] at member
        rcases FlowGraph.mem_arcs_of_mem_insert member with old | rfl
        · exact supported.within arc old
        · exact ⟨before.store.node_mem_nodes created.1,
            before.store.node_mem_nodes created.2⟩
    | addTaintEdge absent derivable ready sound complete =>
        rw [State.flow_push] at member
        exact supported.within arc member
    | _ => exact supported.within arc member
  · intro edge member
    apply growth.pointers.subset
    cases effect with
    | addFlow new absent derivable created =>
        rw [State.taintEdges_push] at member
        exact supported.retags edge member
    | addTaintEdge absent derivable ready sound complete =>
        rw [State.taintEdges_push] at member
        rcases List.mem_append.mp member with old | new
        · exact supported.retags edge old
        · rw [List.mem_singleton.mp new]
          exact ready.1
    | _ => exact supported.retags edge member

end State.Supported

theorem State.Distinct.push {state : State} (distinct : state.Distinct)
    (target : Pointer) (payload : Payload) :
    (state.push target payload).Distinct := by
  rcases state.push_eq_or target payload with ⟨same, _⟩ | pushed
  · rw [same]
    exact distinct
  · rw [pushed]
    exact { distinct with }

theorem State.Distinct.effect {cost : Nat} {before after : State}
    (distinct : before.Distinct)
    (effect : Effect setup entries cost before after) : after.Distinct := by
  cases effect with
  | addFlow new absent derivable created =>
      refine State.Distinct.push ?_ _ _
      exact { distinct with }
  | addTaintEdge absent derivable ready justified complete =>
      refine State.Distinct.push ?_ _ _
      exact { distinct with
        taintEdges := by simpa using distinct.taintEdges.concat absent }
  | addSinkCall absent derivable =>
      exact { distinct with
        sinkCalls := by simpa using distinct.sinkCalls.concat absent }
  | _ => exact { distinct with }

namespace State.Proper

theorem effect {cost : Nat} {before after : State}
    (proper : before.Proper setup entries)
    (effect : Effect setup entries cost before after) :
    after.Proper setup entries where
  justified := proper.justified.effect effect
  supported := proper.supported.effect effect
  distinct := proper.distinct.effect effect

theorem addEdge {state : State} {edge : CallEdge}
    (proper : state.Proper setup entries)
    (absent : state.calls.hasEdge edge.site edge.callee = false)
    (derivable : Derivable setup entries (.called edge)) :
    (state.withEdge edge).Proper setup entries where
  justified := proper.justified.addEdge absent derivable
  supported := { proper.supported with }
  distinct := { proper.distinct with }

theorem effects {sent : Nat} {before after : State}
    (proper : before.Proper setup entries)
    (effects : Effects setup entries sent before after) :
    after.Proper setup entries :=
  effects.preserves (fun single kept => kept.effect single) proper

theorem moves {sent : Nat} {before after : State}
    (proper : before.Proper setup entries)
    (moves : Moves setup entries sent before after) :
    after.Proper setup entries :=
  moves.preserves (fun single kept => kept.effect single)
    (fun absent derivable kept => kept.addEdge absent derivable) proper

end State.Proper

end PointsTo
