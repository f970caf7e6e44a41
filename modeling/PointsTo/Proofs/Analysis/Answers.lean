import PointsTo.Analysis.Query
import PointsTo.Proofs.Analysis.Noninterference

/-!
# What the answers of an analysis say

The questions about a result are answered by looking through lists of pointers,
numbered objects, edges and recorded calls.  Here each answer is read off the
derivable facts instead, so that results can be compared without regard to the
order in which they were found.
-/

namespace PointsTo

variable {setup : Setup} {entries : List MethodId}

/-! ## Lists of flows -/

@[simp]
theorem TaintFlow.mem_insertInto (flow other : TaintFlow)
    (flows : List TaintFlow) :
    other ∈ flow.insertInto flows ↔ other = flow ∨ other ∈ flows := by
  induction flows with
  | nil => simp [insertInto]
  | cons first rest ih =>
      rw [insertInto]
      split
      · rename_i same
        subst same
        simp
      · split
        · simp
        · rw [List.mem_cons, ih, List.mem_cons]
          exact or_left_comm

/-- Flows that are inserted one by one are all there. -/
theorem TaintFlow.mem_foldl_insertInto (found flows : List TaintFlow)
    (flow : TaintFlow) :
    flow ∈ found.foldl (fun flows flow => flow.insertInto flows) flows ↔
      flow ∈ flows ∨ flow ∈ found := by
  induction found generalizing flows with
  | nil => simp
  | cons first rest ih =>
      rw [List.foldl_cons, ih, mem_insertInto, List.mem_cons, or_assoc]
      exact or_left_comm

namespace State

/-- A call of a sink has a flow for each taint object at its argument. -/
theorem mem_flowsInto {state : State} {program : Program} {call : SinkCall}
    {flow : TaintFlow} :
    flow ∈ state.flowsInto program call ↔
      (call.site.val = flow.sink ∧ call.index = flow.index) ∧
        ∃ invoke arg obj, program.invoke? flow.sink = some invoke ∧
          invoke.argument? flow.index = some arg ∧
          obj ∈ state.store.get
            (.ofVar call.site.context flow.sink.method arg) ∧
          ContextObj.isTaint obj = true ∧ obj.val.site = flow.source := by
  obtain ⟨⟨context, site⟩, index⟩ := call
  obtain ⟨source, sink, position⟩ := flow
  unfold flowsInto
  constructor
  · intro member
    split at member
    · cases member
    · rename_i pointer located
      simp only [sinkPointer?, Option.bind_eq_some_iff,
        Option.map_eq_some_iff] at located
      obtain ⟨invoke, here, arg, taken, rfl⟩ := located
      obtain ⟨obj, arrived, same⟩ := List.mem_map.mp member
      obtain ⟨there, taint⟩ := (mem_taints _ _).mp arrived
      cases same
      exact ⟨⟨rfl, rfl⟩, invoke, arg, obj, here, taken, there, taint, rfl⟩
  · rintro ⟨⟨rfl, rfl⟩, invoke, arg, obj, here, taken, there, taint, rfl⟩
    have located : sinkPointer? program ⟨⟨context, site⟩, index⟩ =
        some (.ofVar context site.method arg) := by
      simp [sinkPointer?, here, taken]
    rw [located]
    exact List.mem_map.mpr ⟨obj, (mem_taints _ _).mpr ⟨there, taint⟩, rfl⟩

theorem mem_taintFlows {state : State} {program : Program}
    {flow : TaintFlow} :
    flow ∈ state.taintFlows program ↔
      ∃ call ∈ state.sinkCalls, flow ∈ state.flowsInto program call := by
  rw [taintFlows, TaintFlow.mem_foldl_insertInto]
  simp only [List.not_mem_nil, false_or, List.mem_flatMap]

/-- Collecting the flows creates pointers of reachable methods only. -/
theorem Proper.result {state : State} (proper : state.Proper setup entries) :
    (setup.result state).state.Proper setup entries := by
  rw [Setup.result]
  cases setup.rules with
  | none => exact proper
  | some rules =>
      refine proper.effects (Effects.foldl_free ?_ proper)
      intro pointer listed later _
      rcases List.mem_filterMap.mp listed with ⟨call, member, found⟩
      rcases Option.bind_eq_some_iff.mp found with ⟨invoke, _, argument⟩
      rcases Option.map_eq_some_iff.mp argument with ⟨name, _, rfl⟩
      have sinks : Derivable setup entries (.sinks call) :=
        proper.justified.facts member
      have founded : (Pointer.ofVar call.site.context call.site.val.method
          name).Founded setup entries := sinks.founded
      exact touch_effects founded later

end State

/-! ## Variables under contexts -/

/-- What the creation of pointers does not change is the same in the result. -/
theorem Setup.result_keeps {α : Type} (view : State → α)
    (kept : ∀ state pointer, view (state.touch pointer) = view state)
    (state : State) : view (setup.result state).state = view state := by
  rw [result]
  cases setup.rules with
  | none => rfl
  | some rules =>
      exact List.foldlRecOn (motive := fun later => view later = view state)
        _ State.touch rfl
        fun later same pointer _ => (kept later pointer).trans same

/-- Only pointers that have been created point to something. -/
theorem Store.mem_pointers_of_mem_get {store : Store} {pointer : Pointer}
    {obj : ContextObj} (member : obj ∈ store.get pointer) :
    pointer ∈ store.pointers := by
  unfold get at member
  split at member
  · rename_i cell found
    exact (store.mem_pointers_iff pointer).mpr ⟨cell, found⟩
  · cases member

theorem Pointer.var?_eq_some_iff {pointer : Pointer} {entry : ContextVar} :
    pointer.var? = some entry ↔ pointer = .var entry := by
  cases pointer <;> simp [Pointer.var?]

theorem Store.mem_contextVars {store : Store} {entry : ContextVar} :
    entry ∈ store.contextVars ↔ .var entry ∈ store.pointers := by
  simp [contextVars, Pointer.var?_eq_some_iff]

namespace Result

/-- The tables of a result agree with what its pointers point to: the objects
are numbered, and the variables are listed. -/
structure Tabled (result : Result) : Prop where
  numbered : ∀ pointer, ∀ obj ∈ result.state.store.get pointer,
    obj ∈ result.state.objects.items
  listed : ∀ entry, ∀ obj ∈ result.state.store.get (.var entry),
    entry ∈ result.vars

theorem mem_instances {result : Result} {var : Var} {entry : ContextVar} :
    entry ∈ result.instances var ↔ entry ∈ result.vars ∧ entry.val = var := by
  simp [instances]

/-- The objects of a variable are those of its instances. -/
theorem Tabled.mem_pointsToAnywhere {result : Result}
    (tabled : result.Tabled) {var : Var} {obj : ContextObj} :
    obj ∈ result.pointsToAnywhere var ↔
      ∃ context, obj ∈ result.state.store.get (.var ⟨context, var⟩) := by
  rw [pointsToAnywhere, State.mem_ordered, List.mem_flatMap]
  constructor
  · rintro ⟨_, ⟨context, _⟩, instanced, member⟩
    obtain ⟨_, rfl⟩ := mem_instances.mp instanced
    exact ⟨context, member⟩
  · rintro ⟨context, member⟩
    refine ⟨tabled.numbered _ obj member, ⟨context, var⟩, ?_, member⟩
    exact mem_instances.mpr ⟨tabled.listed _ obj member, rfl⟩

end Result

/-! ## Answers as facts -/

namespace Setup

section Answers

variable (coherent : setup.program.Coherent) {result : Result} {log : Log}
  (analyzed : setup.analyze entries = .success result log)

include coherent analyzed

theorem proper_of_success :
    result.state.Proper setup (setup.starts entries) := by
  rcases exists_final_of_success coherent analyzed with ⟨final, visits, _, rfl⟩
  exact (visits.proper coherent).result

theorem tabled_of_success : result.Tabled := by
  constructor
  case numbered =>
    exact (proper_of_success coherent analyzed).supported.numbered
  case listed =>
    intro entry obj member
    rcases exists_final_of_success coherent analyzed with ⟨final, _, _, rfl⟩
    have same : (setup.result final).state.store.get (.var entry) =
        final.store.get (.var entry) :=
      result_keeps (fun state => state.store.get (.var entry))
        (fun _ _ => Store.get_touch ..) final
    rw [same] at member
    exact Store.mem_contextVars.mpr (Store.mem_pointers_of_mem_get member)

theorem mem_pointsToAnywhere_iff {var : Var} {obj : ContextObj} :
    obj ∈ result.pointsToAnywhere var ↔
      ∃ context, Derivable setup (setup.starts entries)
        (.points (.var ⟨context, var⟩) obj) := by
  rw [(tabled_of_success coherent analyzed).mem_pointsToAnywhere]
  exact exists_congr fun context =>
    holds_iff_of_success coherent analyzed (.points _ obj)

theorem mem_pointsToInsensitive_iff {var : Var} {obj : Obj} :
    obj ∈ result.pointsToInsensitive var ↔
      ∃ context heap, Derivable setup (setup.starts entries)
        (.points (.var ⟨context, var⟩) ⟨heap, obj⟩) := by
  rw [Result.pointsToInsensitive, List.mem_eraseDups, List.mem_map]
  constructor
  · rintro ⟨⟨heap, _⟩, member, rfl⟩
    obtain ⟨context, derivable⟩ :=
      (mem_pointsToAnywhere_iff coherent analyzed).mp member
    exact ⟨context, heap, derivable⟩
  · rintro ⟨context, heap, derivable⟩
    exact ⟨⟨heap, obj⟩, (mem_pointsToAnywhere_iff coherent analyzed).mpr
      ⟨context, derivable⟩, rfl⟩

theorem mayAlias_iff {first second : Var} :
    result.mayAlias first second = true ↔
      ∃ obj,
        (∃ context, Derivable setup (setup.starts entries)
          (.points (.var ⟨context, first⟩) obj)) ∧
        ∃ context, Derivable setup (setup.starts entries)
          (.points (.var ⟨context, second⟩) obj) := by
  simp only [Result.mayAlias, List.any_eq_true, List.contains_iff_mem,
    mem_pointsToAnywhere_iff coherent analyzed]

theorem mem_reachableMethods_iff {id : MethodId} :
    id ∈ result.reachableMethods ↔
      ∃ context, Derivable setup (setup.starts entries)
        (.reached ⟨context, id⟩) := by
  rw [Result.reachableMethods, List.mem_eraseDups, List.mem_map]
  constructor
  · rintro ⟨⟨context, _⟩, member, rfl⟩
    exact ⟨context, (holds_iff_of_success coherent analyzed _).mp member⟩
  · rintro ⟨context, derivable⟩
    exact ⟨⟨context, id⟩,
      (holds_iff_of_success coherent analyzed _).mpr derivable, rfl⟩

theorem mem_callees_iff {site : Site} {id : MethodId} :
    id ∈ result.callees site ↔
      ∃ edge : CallEdge,
        Derivable setup (setup.starts entries) (.called edge) ∧
          edge.site.val = site ∧ edge.callee.val = id := by
  rw [Result.callees, List.mem_eraseDups, List.mem_map]
  simp only [List.mem_filter, decide_eq_true_eq, and_assoc]
  refine exists_congr fun edge => and_congr_left fun _ => ?_
  exact holds_iff_of_success coherent analyzed (.called edge)

/-- Calls of sinks are recorded only if taint is tracked, so that it makes no
difference whether flows are looked for otherwise. -/
theorem mem_flows_iff {flow : TaintFlow} :
    flow ∈ result.flows ↔
      ∃ context invoke arg obj,
        Derivable setup (setup.starts entries)
          (.sinks ⟨⟨context, flow.sink⟩, flow.index⟩) ∧
        setup.program.invoke? flow.sink = some invoke ∧
        invoke.argument? flow.index = some arg ∧
        Derivable setup (setup.starts entries)
          (.points (.ofVar context flow.sink.method arg) obj) ∧
        ContextObj.isTaint obj = true ∧ obj.val.site = flow.source := by
  have complete := holds_iff_of_success coherent analyzed
  obtain ⟨final, _, _, rfl⟩ := exists_final_of_success coherent analyzed
  simp only [holds_result] at complete
  show flow ∈ setup.flows final ↔ _
  unfold flows
  cases tracked : setup.rules with
  | none =>
      constructor
      · intro member
        cases member
      · rintro ⟨context, _, _, _, recorded, _⟩
        obtain ⟨_, _, _, _, present, _⟩ := Derivable.sinks_iff.mp recorded
        cases tracked.symm.trans present
  | some rules =>
      simp only [State.mem_taintFlows, State.mem_flowsInto, ← complete]
      constructor
      · rintro ⟨⟨⟨context, _⟩, _⟩, recorded, ⟨rfl, rfl⟩, invoke, arg, obj,
          here, taken, there⟩
        exact ⟨context, invoke, arg, obj, recorded, here, taken, there⟩
      · rintro ⟨context, invoke, arg, obj, recorded, here, taken, there⟩
        exact ⟨_, recorded, ⟨rfl, rfl⟩, invoke, arg, obj, here, taken, there⟩

end Answers

end Setup

end PointsTo
