import PointsTo.Proofs.Analysis.Answers
import PointsTo.Proofs.Analysis.Runs
import PointsTo.Proofs.Graph.Shape

/-!
# The flow graph of a result

The summary of the flow graph in a result is about the whole run: it counts the
pointers that were created and the edges that were added at any time, and the
cycles that these edges form.
-/

namespace PointsTo

variable {setup : Setup} {entries : List MethodId}

namespace Setup

/-- The flow edges that the solver adds at some time. -/
def added (setup : Setup) (entries : List MethodId) :
    Set (Pointer × Pointer) :=
  { edge | ∃ state, Visits setup entries state ∧ edge ∈ state.flow.edges }

/-- The pointers that are created at some time, by the solver or for the
sensitive arguments of the calls that it has met. -/
def created (setup : Setup) (entries : List MethodId) : Set Pointer :=
  { pointer | ∃ state, Visits setup entries state ∧
    (pointer ∈ state.store.pointers ∨ setup.rules.isSome = true ∧
      ∃ call ∈ state.sinkCalls,
        State.sinkPointer? setup.program call = some pointer) }

end Setup

theorem State.mem_pointers_foldl_touch {state : State}
    {pointers : List Pointer} {pointer : Pointer} :
    pointer ∈ (pointers.foldl touch state).store.pointers ↔
      pointer ∈ state.store.pointers ∨ pointer ∈ pointers := by
  induction pointers generalizing state with
  | nil => simp
  | cons first rest ih =>
      rw [List.foldl_cons, ih, touch, Store.mem_pointers_touch,
        List.mem_cons, or_assoc]

namespace Setup

/-- A result has the pointers of its final state and those of the sensitive
arguments. -/
theorem mem_pointers_result {state : State} {pointer : Pointer} :
    pointer ∈ (setup.result state).state.store.pointers ↔
      pointer ∈ state.store.pointers ∨ setup.rules.isSome = true ∧
        ∃ call ∈ state.sinkCalls,
          State.sinkPointer? setup.program call = some pointer := by
  rw [result]
  cases setup.rules with
  | none => simp
  | some rules =>
      simp only [State.touchSinks, State.mem_pointers_foldl_touch,
        List.mem_filterMap, Option.isSome_some, true_and]

theorem flow_result (state : State) :
    (setup.result state).state.flow = state.flow :=
  result_keeps State.flow (fun _ _ => rfl) state

section Final

variable (coherent : setup.program.Coherent) {final : State}
  (visits : Visits setup entries final)
  (finished : setup.step final = .finished)

include coherent visits finished

theorem added_eq : setup.added entries =
    { edge | edge ∈ (setup.result final).state.flow.edges } := by
  ext edge
  rw [flow_result]
  constructor
  · rintro ⟨state, earlier, member⟩
    exact (earlier.extends_final coherent visits finished).flow.subset member
  · exact fun member => ⟨final, visits, member⟩

theorem created_eq : setup.created entries =
    { pointer | pointer ∈ (setup.result final).state.store.pointers } := by
  ext pointer
  rw [Set.mem_ofPred_eq, mem_pointers_result]
  constructor
  · rintro ⟨state, earlier, found⟩
    have kept := earlier.extends_final coherent visits finished
    rcases found with listed | ⟨tracked, call, met, argument⟩
    · exact Or.inl (kept.pointers.subset listed)
    · exact Or.inr ⟨tracked, call, kept.sinkCalls.subset met, argument⟩
  · exact fun found => ⟨final, visits, found⟩

end Final

end Setup

/--
In every result, the summary of the flow graph is exact.  It has the numbers of
the pointers ever created, of the edges ever added, of the pointers without
outgoing edges and of the edges from a pointer to itself, the number of classes
of mutually reachable pointers with more than one member, and the size of the
largest of them.
-/
theorem flow_stats_exact (made : setup.program.Made) {result : Result}
    {log : Log} (analyzed : setup.analyze entries = .success result log) :
    result.stats.Exact (setup.created (setup.starts entries))
      (setup.added (setup.starts entries)) := by
  have proper := Setup.proper_of_success made.coherent analyzed
  rcases Setup.exists_final_of_success made.coherent analyzed with
    ⟨final, visits, finished, rfl⟩
  rw [Setup.created_eq made.coherent visits finished,
    Setup.added_eq made.coherent visits finished]
  let store := (setup.result final).state.store
  have items := store.items_nodes
  have distinct : (store.nodes.map Numbered.item).Nodup := by
    rw [items]
    exact store.nodup_pointers
  have summed := FlowGraph.exact_stats store.toldApart_nodes
    proper.supported.within distinct
  rwa [items] at summed

/-- A run with a self-loop and a cycle of two pointers. -/
theorem flow_stats_exact_cyclic :
    Cyclic.tracked.program.Made ∧ ∃ result log,
      Cyclic.tracked.analyze [Cyclic.main] = .success result log ∧
      result.stats =
        { pointers := 5, edges := 5, isolated := 1, selfLoops := 1,
          cycles := 1, largestCycle := 2 } ∧
      result.stats.Exact
        (Cyclic.tracked.created (Cyclic.tracked.starts [Cyclic.main]))
        (Cyclic.tracked.added (Cyclic.tracked.starts [Cyclic.main])) := by
  have counted : (Cyclic.tracked.analyze [Cyclic.main]).result?.map
      Result.stats = some
        { pointers := 5, edges := 5, isolated := 1, selfLoops := 1,
          cycles := 1, largestCycle := 2 } := by
    decide +kernel
  obtain ⟨result, log, analyzed, found⟩ := Answer.exists_success counted
  exact ⟨Cyclic.made, result, log, analyzed, found,
    flow_stats_exact Cyclic.made analyzed⟩

end PointsTo
