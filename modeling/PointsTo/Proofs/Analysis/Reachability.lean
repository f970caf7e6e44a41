import Mathlib.Data.List.Count
import PointsTo.Proofs.Analysis.Fixpoint
import PointsTo.Proofs.Analysis.Rooted

/-!
# Which methods are reached and looked at

In every state that the solver visits, the reachable methods are those that
chains of call edges lead to from the entries.  A method is scheduled when it
becomes reachable, and only then; so each reachable method either waits or has
been looked at, once.
-/

namespace PointsTo

variable {setup : Setup} {entries : List MethodId}

/-! ## Scheduling -/

/-- The methods that become reachable are scheduled in the same order. -/
def State.Schedules (before after : State) : Prop :=
  ∃ added, after.calls.reachable = before.calls.reachable ++ added ∧
    after.pending.toList = before.pending.toList ++ added

namespace State.Schedules

theorem same {before after : State}
    (reachable : after.calls.reachable = before.calls.reachable)
    (pending : after.pending = before.pending) : before.Schedules after :=
  ⟨[], by simp [reachable], by simp [pending]⟩

theorem trans {before middle after : State}
    (earlier : before.Schedules middle) (later : middle.Schedules after) :
    before.Schedules after := by
  obtain ⟨first, reached, waits⟩ := earlier
  obtain ⟨second, reachedLater, waitsLater⟩ := later
  exact ⟨first ++ second, by simp [reachedLater, reached],
    by simp [waitsLater, waits]⟩

end State.Schedules

theorem Effect.schedules {cost : Nat} {before after : State}
    (effect : Effect setup entries cost before after) :
    before.Schedules after := by
  cases effect with
  | reach absent derivable =>
      exact ⟨_, CallGraph.reachable_addReachable absent,
        Queue.toList_push _ _⟩
  | entry member => exact .same (CallGraph.reachable_addEntry _ _) rfl
  | addFlow new absent derivable created => exact .same (by simp) (by simp)
  | addTaintEdge absent derivable ready justified complete =>
      exact .same (by simp) (by simp)
  | _ => exact .same rfl rfl

theorem Effects.schedules {sent : Nat} {before after : State}
    (effects : Effects setup entries sent before after) :
    before.Schedules after := by
  induction effects with
  | refl => exact .same rfl rfl
  | tail _ effect _ ih => exact ih.trans effect.schedules

theorem Moves.schedules {sent : Nat} {before after : State}
    (moves : Moves setup entries sent before after) :
    before.Schedules after := by
  induction moves with
  | refl => exact .same rfl rfl
  | effect _ effect _ ih => exact ih.trans effect.schedules
  | link _ _ _ effects _ _ _ ih =>
      exact ih.trans (.trans (.same (State.reachable_withEdge _ _) rfl)
        effects.schedules)

theorem Setup.deliver_schedules (coherent : setup.program.Coherent)
    {state : State} (proper : state.Proper setup entries) {work : Work}
    {worklist : Queue Work}
    (popped : state.worklist.toList = work :: worklist.toList) :
    state.Schedules (setup.deliver work { state with worklist }) := by
  have queued : work ∈ state.worklist.toList := by simp [popped]
  by_cases new : delta work { state with worklist } = []
  · rw [deliver_of_eq_nil new]
    exact .same rfl rfl
  · have delivers := deliver_delivers coherent (proper.popWork popped)
      (proper.supported.ready work queued)
      (proper.justified.queued work queued) new
    exact .trans (.same rfl rfl) delivers.moves.schedules

/-! ## Histories -/

/-- How the solver comes to a state, with the methods whose statements it has
looked at on the way. -/
inductive History (setup : Setup) (entries : List MethodId) :
    List ContextMethod → State → Prop where
  | start {state : State} (entered : setup.enter entries {} = .ok state) :
      History setup entries [] state
  | look {looked : List ContextMethod} {state next : State}
      {method : ContextMethod} {pending : Queue ContextMethod}
      (earlier : History setup entries looked state)
      (popped : state.pending.pop? = some (method, pending))
      (done : setup.lookAtAll method 0 (setup.bodyOf method.val)
        { state with pending } = .ok next) :
      History setup entries (looked ++ [method]) next
  | deliver {looked : List ContextMethod} {state : State} {work : Work}
      {worklist : Queue Work} (earlier : History setup entries looked state)
      (idle : state.pending.pop? = none)
      (popped : state.worklist.pop? = some (work, worklist)) :
      History setup entries looked (setup.deliver work { state with worklist })

/-- The visited states are those that have a history. -/
theorem visits_iff_history {state : State} :
    Visits setup entries state ↔
      ∃ looked, History setup entries looked state := by
  constructor
  · intro visits
    induction visits with
    | start entered => exact ⟨[], .start entered⟩
    | @step state next _ stepped ih =>
        obtain ⟨looked, history⟩ := ih
        unfold Setup.step at stepped
        split at stepped
        · rename_i method pending popped
          split at stepped
          · rename_i done
            cases stepped
            exact ⟨looked ++ [method], history.look popped done⟩
          · cases stepped
        · rename_i idle
          split at stepped
          · rename_i work worklist popped
            cases stepped
            exact ⟨looked, history.deliver idle popped⟩
          · cases stepped
  · rintro ⟨looked, history⟩
    induction history with
    | start entered => exact .start entered
    | look _ popped done ih =>
        exact ih.step (by simp [Setup.step, popped, done])
    | deliver _ idle popped ih =>
        exact ih.step (by simp [Setup.step, idle, popped])

/-- Methods are looked at in the order in which they become reachable; the
others wait. -/
theorem History.reachable_eq (coherent : setup.program.Coherent)
    {looked : List ContextMethod} {state : State}
    (history : History setup entries looked state) :
    state.calls.reachable = looked ++ state.pending.toList := by
  induction history with
  | start entered =>
      obtain ⟨added, reached, waits⟩ :=
        (Setup.enter_effects (fun _ member => member) entered).schedules
      simpa using reached.trans waits.symm
  | @look looked state next method pending earlier popped done ih =>
      have proper := (visits_iff_history.mpr ⟨looked, earlier⟩).proper coherent
      have first := Queue.toList_of_pop? popped
      obtain ⟨added, reached, waits⟩ :=
        (Setup.look_moves coherent proper first done).2.schedules
      rw [reached, waits, ih, first]
      simp
  | @deliver looked state work worklist earlier idle popped ih =>
      have proper := (visits_iff_history.mpr ⟨looked, earlier⟩).proper coherent
      have first := Queue.toList_of_pop? popped
      obtain ⟨added, reached, waits⟩ :=
        Setup.deliver_schedules coherent proper first
      rw [reached, waits, ih]
      simp

/-! ## Some steps -/

/-- The state after a number of steps from the entries on; fewer if nothing is
left to do. -/
def Setup.after? (setup : Setup) (entries : List MethodId) (steps : Nat) :
    Option State :=
  match setup.enter entries {} with
  | .error _ => none
  | .ok start =>
      match setup.advance steps start with
      | .finished state | .suspended state => some state
      | .failed .. => none

/-- A state on the way that can be measured is visited. -/
theorem Setup.exists_visits {α : Type} {steps : Nat} {measure : State → α}
    {value : α}
    (measured : (setup.after? entries steps).map measure = some value) :
    ∃ state, Visits setup entries state ∧ measure state = value := by
  obtain ⟨state, reached, measures⟩ := Option.map_eq_some_iff.mp measured
  refine ⟨state, ?_, measures⟩
  unfold after? at reached
  split at reached
  · cases reached
  · rename_i start entered
    have visited := (Visits.start entered).advance steps
    split at reached
    · rename_i outcome
      cases reached
      rw [outcome] at visited
      exact visited.1
    · rename_i outcome
      cases reached
      rwa [outcome] at visited
    · cases reached

/-! ## Reachable methods -/

theorem Numbering.existsUnique_get? {α : Type} [DecidableEq α]
    {numbering : Numbering α} {item : α} (member : item ∈ numbering.items) :
    ∃! number, numbering.get? number = some item := by
  simp only [get?_eq_getElem?]
  obtain ⟨number, found⟩ := List.mem_iff_getElem?.mp member
  refine ⟨number, found, fun other foundToo => ?_⟩
  obtain ⟨bound, _⟩ := List.getElem?_eq_some_iff.mp foundToo
  exact (List.getElem?_inj bound numbering.nodup_items).mp
    (foundToo.trans found.symm)

/-- How the call graph of a state is traced back to the entries. -/
structure State.Traced (setup : Setup) (entries : List MethodId)
    (state : State) : Prop where
  /-- An edge leaves a call of its kind, from a call site that has been numbered
  once, in the one method that contains it. -/
  sites : ∀ edge ∈ state.calls.edges,
    (∃ call, setup.program.invoke? edge.site.val = some call ∧
      edge.kind = call.kind) ∧
    (∃! number, state.sites.get? number = some edge.site) ∧
    edge.caller = ⟨edge.site.context, edge.site.val.method⟩ ∧
    ∃! number, state.methods.get? number = some edge.caller
  /-- Every call site that has a number is in a method that has one. -/
  contained : ∀ site ∈ state.sites.items,
    ∃! number, state.methods.get? number =
      some ⟨site.context, site.val.method⟩
  ends : ∀ edge ∈ state.calls.edges,
    edge.caller ∈ state.calls.reachable ∧ edge.callee ∈ state.calls.reachable
  owned : ∀ entry : ContextVar, .var entry ∈ state.store.pointers →
    ⟨entry.context, entry.val.method⟩ ∈ state.calls.reachable
  reachable : ∀ method, method ∈ state.calls.reachable ↔
    ∃ start ∈ state.calls.entries, ∃ edges,
      state.calls.Chain start edges method
  /-- A reachable method has been looked at or waits, once. -/
  once : ∀ looked, History setup entries looked state → ∀ method,
    looked.count method + state.pending.toList.count method =
      if method ∈ state.calls.reachable then 1 else 0

/--
In every state that the solver visits, the reachable methods are those that are
called from the entries, directly or through others.  Call edges leave numbered
call sites of numbered methods; their ends are reachable, and so are the methods
of all variables.  Each reachable method either waits to be looked at or has
been looked at, exactly once.
-/
theorem traced_of_visits (made : setup.program.Made) {state : State}
    (visits : Visits setup entries state) :
    (∃ looked, History setup entries looked state) ∧
      state.Traced setup entries := by
  have coherent := made.coherent
  have proper := visits.proper coherent
  have rooted := visits.rooted coherent
  refine ⟨visits_iff_history.mp visits, ?_⟩
  constructor
  · intro edge member
    have derivable := proper.justified.facts
      (show state.Holds (.called edge) from member)
    exact ⟨derivable.called_invoke,
      Numbering.existsUnique_get? (rooted.registered edge member), rfl,
      Numbering.existsUnique_get?
        (rooted.reachable_subset (rooted.graph.linked edge member).1)⟩
  · intro site numbered
    exact Numbering.existsUnique_get?
      (proper.supported.contained site numbered)
  · exact rooted.graph.linked
  · exact rooted.owned
  · exact rooted.graph.mem_reachable_iff
  · intro looked history method
    rw [← List.count_append, ← history.reachable_eq coherent]
    exact state.calls.listed.count

/-- One method has been looked at, and the one that it calls waits. -/
theorem traced_of_visits_cyclic :
    Cyclic.tracked.program.Made ∧ ∃ state,
      Visits Cyclic.tracked [Cyclic.main] state ∧
      state.calls.reachable.length = 2 ∧ state.calls.edges.length = 1 ∧
      state.sites.items.length = 1 ∧ state.pending.toList.length = 1 ∧
      (∃ looked, History Cyclic.tracked [Cyclic.main] looked state) ∧
      state.Traced Cyclic.tracked [Cyclic.main] := by
  have measured : (Cyclic.tracked.after? [Cyclic.main] 2).map
      (fun state => (state.calls.reachable.length, state.calls.edges.length,
        state.sites.items.length, state.pending.toList.length)) =
      some (2, 1, 1, 1) := by decide +kernel
  obtain ⟨state, visits, sizes⟩ := Setup.exists_visits measured
  simp only [Prod.mk.injEq] at sizes
  obtain ⟨reachable, edges, sites, waiting⟩ := sizes
  exact ⟨Cyclic.made, state, visits, reachable, edges, sites, waiting,
    traced_of_visits Cyclic.made visits⟩

end PointsTo
