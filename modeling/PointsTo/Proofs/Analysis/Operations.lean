import PointsTo.Proofs.Analysis.Justified
import PointsTo.Proofs.Program.Built

/-!
# What the operations of the solver do

Each operation on states that the solver uses is a sequence of effects, and
afterwards the facts that it is meant to establish are met.  Folds of such
operations are again sequences of effects and keep what their steps achieve.
-/

namespace PointsTo

variable {setup : Setup} {entries : List MethodId}

/-! ## Folds -/

/-- Costs add up over a series of operations. -/
theorem Effects.foldl {α : Type} {step : State → α → State} {items : List α}
    {cost : Nat}
    (each : ∀ item ∈ items, ∀ {state : State}, state.Proper setup entries →
      Effects setup entries cost state (step state item))
    {state : State} (proper : state.Proper setup entries) :
    Effects setup entries (cost * items.length) state
      (items.foldl step state) := by
  induction items generalizing state with
  | nil => exact .refl
  | cons item rest ih =>
      have head := each item (List.mem_cons_self ..) proper
      have tail := ih (fun other member =>
        each other (List.mem_cons_of_mem _ member)) (proper.effects head)
      refine (head.trans tail).weaken (Nat.le_of_eq ?_)
      rw [List.length_cons, Nat.mul_add, Nat.mul_one, Nat.add_comm]

/-- Steps that send nothing without a new fact. -/
theorem Effects.foldl_free {α : Type} {step : State → α → State}
    {items : List α}
    (each : ∀ item ∈ items, ∀ {state : State}, state.Proper setup entries →
      Effects setup entries 0 state (step state item))
    {state : State} (proper : state.Proper setup entries) :
    Effects setup entries 0 state (items.foldl step state) := by
  have folded := Effects.foldl each proper
  rwa [Nat.zero_mul] at folded

namespace Moves

variable {keeps : State → Prop}
  (stays : ∀ {sent : Nat} {before after : State}, keeps before →
    Moves setup entries sent before after → keeps after)
  {α : Type} {step : State → α → State} {items : List α} {cost : Nat}

include stays

/-- For moves, any property that each of them keeps may be assumed on the way.
-/
theorem foldl
    (each : ∀ item ∈ items, ∀ {state : State}, keeps state →
      Moves setup entries cost state (step state item))
    {state : State} (kept : keeps state) :
    Moves setup entries (cost * items.length) state
      (items.foldl step state) := by
  induction items generalizing state with
  | nil => exact .refl
  | cons item rest ih =>
      have head := each item (List.mem_cons_self ..) kept
      have tail := ih (fun other member =>
        each other (List.mem_cons_of_mem _ member)) (stays kept head)
      refine (head.trans tail).weaken (Nat.le_of_eq ?_)
      rw [List.length_cons, Nat.mul_add, Nat.mul_one, Nat.add_comm]

/-- What the step for one item achieves, the rest of a fold keeps. -/
theorem foldl_meets
    (each : ∀ item ∈ items, ∀ {state : State}, keeps state →
      Moves setup entries cost state (step state item))
    {state : State} (kept : keeps state) {item : α}
    (member : item ∈ items) {fact : Fact}
    (meets : ∀ {state : State}, keeps state →
      (step state item).Meets fact) :
    (items.foldl step state).Meets fact := by
  induction items generalizing state with
  | nil => cases member
  | cons first rest ih =>
      have head := each first (List.mem_cons_self ..) kept
      have others : ∀ other ∈ rest, ∀ {state : State}, keeps state →
          Moves setup entries cost state (step state other) :=
        fun other listed => each other (List.mem_cons_of_mem _ listed)
      rcases List.mem_cons.mp member with rfl | later
      · exact (foldl stays others (stays kept head)).growth.meets (meets kept)
      · exact ih others (stays kept head) later

end Moves

theorem Effects.foldl_meets {α : Type} {step : State → α → State}
    {items : List α} {cost : Nat}
    (each : ∀ item ∈ items, ∀ {state : State}, state.Proper setup entries →
      Effects setup entries cost state (step state item))
    {state : State} (proper : state.Proper setup entries) {item : α}
    (member : item ∈ items) {fact : Fact}
    (meets : ∀ {state : State}, state.Proper setup entries →
      (step state item).Meets fact) :
    (items.foldl step state).Meets fact :=
  Moves.foldl_meets State.Proper.moves
    (fun item member _ proper => .ofEffects (each item member proper))
    proper member meets

namespace State

/-! ## Operations on states -/

/-- Founded pointers may be created at any time. -/
theorem touch_effects {pointer : Pointer}
    (founded : pointer.Founded setup entries) (state : State) :
    Effects setup entries 0 state (state.touch pointer) :=
  .single (.touch founded)

/-- A payload that is sent has to be ready and justified. -/
theorem push_effects {target : Pointer} {payload : Payload} {state : State}
    (ready : state.Ready ⟨target, payload⟩)
    (justified : Work.Justified setup entries ⟨target, payload⟩) :
    Effects setup entries 1 state (state.push target payload) := by
  rcases state.push_eq_or target payload with ⟨same, _⟩ | pushed
  · rw [same]
    exact .refl
  · rw [pushed]
    exact .single (.send ready justified)

/-- An object is numbered and sent to a pointer that is created for it. -/
theorem place_effects {target : Pointer} {obj : ContextObj}
    (derivable : Derivable setup entries (.points target obj))
    (state : State) :
    Effects setup entries 1 state
      (((state.touch target).meetObj obj).push target (.fixed [obj])) := by
  have touched := touch_effects derivable.founded state
  have met : Effects setup entries 0 state
      ((state.touch target).meetObj obj) :=
    .tail touched (.meetObj derivable) (Nat.le_refl 0)
  have ready : ((state.touch target).meetObj obj).Ready
      ⟨target, .fixed [obj]⟩ := by
    refine ⟨?_, fun other member => ?_⟩
    · simp [State.touch, State.meetObj]
    · rw [List.mem_singleton.mp member]
      exact (Numbering.mem_request _ _ _).mpr (Or.inr rfl)
  have sent := push_effects ready fun other member => by
    rw [List.mem_singleton.mp member]
    exact derivable
  exact (met.trans sent).weaken (Nat.le_refl 1)

/-- A method that becomes reachable is scheduled without cost. -/
theorem reach_effects {method : ContextMethod}
    (derivable : Derivable setup entries (.reached method)) (state : State) :
    Effects setup entries 0 state (state.reach method) := by
  unfold State.reach
  split
  · exact .refl
  · rename_i absent
    rw [CallGraph.contains_iff] at absent
    exact .tail (.single (.report _)) (.reach absent derivable)
      (Nat.le_refl 0)

theorem holds_reach (state : State) (method : ContextMethod) :
    (state.reach method).Holds (.reached method) := by
  unfold State.reach
  split
  · rename_i present
    exact (CallGraph.contains_iff _ _).mp present
  · rename_i absent
    rw [CallGraph.contains_iff] at absent
    rw [Holds, CallGraph.reachable_addReachable absent]
    exact List.mem_append_right _ (List.mem_singleton.mpr rfl)

/-- A new flow edge pays for the payload along it. -/
theorem addFlow_effects {source target : Pointer}
    (derivable : Derivable setup entries (.flows source target))
    {state : State} (proper : state.Proper setup entries) :
    Effects setup entries 0 state (state.addFlow source target) := by
  have founded := derivable.founded
  have touched : Effects setup entries 0 state
      ((state.touch source).touch target) :=
    (touch_effects founded.1 state).trans (touch_effects founded.2 _)
  have created : source ∈ ((state.touch source).touch target).store.pointers ∧
      target ∈ ((state.touch source).touch target).store.pointers := by
    simp [State.touch]
  have known := flow_has_iff (proper.effects touched).supported.within
    created.1 created.2
  unfold State.addFlow
  simp only [FlowGraph.add, Bool.not_eq_true']
  split
  · rename_i new
    rw [new] at known
    exact .tail touched (.addFlow new (by simpa using known) derivable created)
      (Nat.le_refl 0)
  · exact touched

/-- The edge is there afterwards, new or not. -/
theorem holds_addFlow {state : State}
    (within : state.flow.Within state.store.nodes)
    (source target : Pointer) :
    (state.addFlow source target).Holds (.flows source target) := by
  have created : source ∈ ((state.touch source).touch target).store.pointers ∧
      target ∈ ((state.touch source).touch target).store.pointers := by
    simp [State.touch]
  have known := flow_has_iff (within_touch (within_touch within source) target)
    created.1 created.2
  unfold State.addFlow
  simp only [FlowGraph.add, Bool.not_eq_true']
  split
  · rename_i new
    rw [holds_push, Holds, FlowGraph.edges_insert new]
    exact List.mem_append_right _ (List.mem_singleton.mpr rfl)
  · rename_i present
    exact known.mp (by simpa using present)

section Taint

variable {target : Pointer} {objects : List ContextObj}

theorem meetAll_effects
    (derivable : ∀ obj ∈ objects,
      Derivable setup entries (.points target obj))
    {state : State} (proper : state.Proper setup entries) :
    Effects setup entries 0 state (objects.foldl meetObj state) :=
  Effects.foldl_free (fun obj member _ _ =>
    .single (.meetObj (derivable obj member))) proper

/-- Objects that have been numbered may be sent. -/
theorem ready_meetAll (objects : List ContextObj) {state : State}
    (created : target ∈ state.store.pointers) :
    (objects.foldl meetObj state).Ready
      ⟨target, .fixed (objects.foldl ObjSet.insert [])⟩ := by
  rw [foldl_meetObj]
  refine ⟨created, fun obj member => ?_⟩
  rw [mem_foldl_insert] at member
  rw [mem_foldl_request]
  exact Or.inr (member.resolve_left List.not_mem_nil)

theorem justified_insertAll
    (derivable : ∀ obj ∈ objects,
      Derivable setup entries (.points target obj)) :
    Work.Justified setup entries
      ⟨target, .fixed (objects.foldl ObjSet.insert [])⟩ := by
  intro obj member
  rw [mem_foldl_insert] at member
  exact derivable obj (member.resolve_left List.not_mem_nil)

variable {edge : TaintEdge} {taints : List ContextObj}

/-- Taint that is sent along an edge flows there. -/
theorem derivable_retagged
    (derivable : Derivable setup entries (.retags edge))
    (arrived : ∀ obj ∈ taints, ContextObj.isTaint obj = true ∧
      Derivable setup entries (.points edge.source obj)) :
    ∀ obj ∈ taints.map fun obj => taintObj obj.val.site edge.type,
      Derivable setup entries (.points edge.target obj) := by
  intro obj member
  obtain ⟨original, listed, rfl⟩ := List.mem_map.mp member
  obtain ⟨taint, points⟩ := arrived original listed
  exact .of_two (.retag taint) derivable points

theorem sendTaint_effects
    (derivable : Derivable setup entries (.retags edge))
    (arrived : ∀ obj ∈ taints, ContextObj.isTaint obj = true ∧
      Derivable setup entries (.points edge.source obj))
    {state : State} (proper : state.Proper setup entries)
    (created : edge.target ∈ state.store.pointers) :
    Effects setup entries 1 state (state.sendTaint taints edge) := by
  have retagged := derivable_retagged derivable arrived
  exact ((meetAll_effects retagged proper).trans
    (push_effects (ready_meetAll _ created)
      (justified_insertAll retagged))).weaken (Nat.le_refl 1)

/-- Taint is sent with the type of the edge. -/
theorem meets_sendTaint (state : State) {obj : ContextObj}
    (member : obj ∈ taints) :
    (state.sendTaint taints edge).Meets
      (.points edge.target (taintObj obj.val.site edge.type)) := by
  apply meets_push
  refine (mem_foldl_insert _ _ _).mpr (Or.inr ?_)
  exact List.mem_map_of_mem member

/-- A new taint edge pays for the taint that is sent along it. -/
theorem addTaintEdge_effects
    (derivable : Derivable setup entries (.retags edge)) {state : State}
    (proper : state.Proper setup entries)
    (created : edge.target ∈ state.store.pointers) :
    Effects setup entries 0 state (state.addTaintEdge edge) := by
  unfold State.addTaintEdge
  split
  · exact .refl
  · rename_i absent
    have present : ∀ obj,
        obj ∈ ObjSet.taints (state.ordered (state.store.get edge.source)) ↔
          obj ∈ state.store.get edge.source ∧
            ContextObj.isTaint obj = true := by
      intro obj
      rw [mem_taints, mem_ordered]
      exact and_congr_left fun _ => and_iff_right_of_imp
        (proper.supported.numbered edge.source obj)
    have retagged := derivable_retagged derivable fun obj member =>
      have here := (present obj).mp member
      ⟨here.2, proper.justified.facts here.1⟩
    -- The objects are numbered before the edge is added.
    have met := meetAll_effects retagged proper
    rw [foldl_meetObj] at met
    rw [sendTaint, foldl_meetObj]
    refine .tail met (.addTaintEdge absent derivable ?_
      (justified_insertAll retagged) ?_) (Nat.le_refl 0)
    · rw [← foldl_meetObj]
      exact ready_meetAll _ created
    · intro obj here taint
      refine (mem_foldl_insert _ _ _).mpr (Or.inr ?_)
      exact List.mem_map_of_mem ((present obj).mpr ⟨here, taint⟩)

theorem holds_addTaintEdge (state : State) (edge : TaintEdge) :
    (state.addTaintEdge edge).Holds (.retags edge) := by
  unfold State.addTaintEdge
  split
  · assumption
  · rw [sendTaint, holds_push, foldl_meetObj]
    exact List.mem_append_right _ (List.mem_singleton.mpr rfl)

theorem addSinkCall_effects {call : SinkCall}
    (derivable : Derivable setup entries (.sinks call)) (state : State) :
    Effects setup entries 0 state (state.addSinkCall call) := by
  unfold State.addSinkCall
  split
  · exact .refl
  · rename_i absent
    exact .single (.addSinkCall absent derivable)

theorem holds_addSinkCall (state : State) (call : SinkCall) :
    (state.addSinkCall call).Holds (.sinks call) := by
  unfold State.addSinkCall
  split
  · assumption
  · exact List.mem_append_right _ (List.mem_singleton.mpr rfl)

end Taint

end State

end PointsTo
