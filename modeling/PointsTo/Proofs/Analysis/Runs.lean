import Mathlib.Logic.Relation
import PointsTo.Proofs.Analysis.Visits

/-!
# Runs only add

A step takes an entry from a queue and loses nothing else: all other lists are
extended at their ends, and pointers keep their objects.  Since a state has at
most one next state, the states of a run lie in a row.  So each of them is
extended by the state in which the solver stops, which has whatever was there
at any time.
-/

namespace PointsTo

open Relation

variable {setup : Setup} {entries : List MethodId}

/-- A later state has all that an earlier one has, apart from its queues. -/
structure State.Extends (earlier later : State) : Prop where
  pointers : earlier.store.pointers <+: later.store.pointers
  get : ∀ pointer, earlier.store.get pointer ⊆ later.store.get pointer
  objects : earlier.objects.items <+: later.objects.items
  methods : earlier.methods.items <+: later.methods.items
  reachable : earlier.calls.reachable <+: later.calls.reachable
  edges : earlier.calls.edges <+: later.calls.edges
  flow : earlier.flow.edges <+: later.flow.edges
  taintEdges : earlier.taintEdges <+: later.taintEdges
  sinkCalls : earlier.sinkCalls <+: later.sinkCalls

namespace State.Extends

variable {first second third : State}

theorem refl (state : State) : state.Extends state where
  pointers := List.prefix_rfl
  get _ := List.Subset.refl _
  objects := List.prefix_rfl
  methods := List.prefix_rfl
  reachable := List.prefix_rfl
  edges := List.prefix_rfl
  flow := List.prefix_rfl
  taintEdges := List.prefix_rfl
  sinkCalls := List.prefix_rfl

theorem trans (earlier : first.Extends second)
    (later : second.Extends third) : first.Extends third where
  pointers := earlier.pointers.trans later.pointers
  get pointer := List.Subset.trans (earlier.get pointer) (later.get pointer)
  objects := earlier.objects.trans later.objects
  methods := earlier.methods.trans later.methods
  reachable := earlier.reachable.trans later.reachable
  edges := earlier.edges.trans later.edges
  flow := earlier.flow.trans later.flow
  taintEdges := earlier.taintEdges.trans later.taintEdges
  sinkCalls := earlier.sinkCalls.trans later.sinkCalls

end State.Extends

theorem Growth.extended {before after : State}
    (growth : Growth setup entries before after) : before.Extends after where
  pointers := growth.pointers
  get pointer := by
    rw [growth.get]
    exact List.Subset.refl _
  objects := growth.objects
  methods := growth.methods
  reachable := growth.reachable
  edges := growth.edges
  flow := growth.flow
  taintEdges := growth.taintEdges
  sinkCalls := growth.sinkCalls

theorem State.extends_receive {state : State} {target : Pointer}
    {delta : ObjSet} (created : target ∈ state.store.pointers) :
    state.Extends (state.receive target delta) :=
  { Extends.refl state with
    pointers := by simp [receive]
    get := fun pointer obj member =>
      (mem_get_receive created pointer obj).mpr (Or.inl member) }

/-- A step extends the state. -/
theorem Setup.step_extends (coherent : setup.program.Coherent)
    {state next : State} (proper : state.Proper setup entries)
    (stepped : setup.step state = .advanced next) : state.Extends next := by
  rcases step_eq_advanced stepped with
    ⟨method, pending, popped, looked⟩ | ⟨work, worklist, _, popped, rfl⟩
  · have taken : state.Extends { state with pending } :=
      { State.Extends.refl state with }
    exact taken.trans (look_moves coherent proper popped looked).2.growth.extended
  · have taken : state.Extends { state with worklist } :=
      { State.Extends.refl state with }
    have queued : work ∈ state.worklist.toList := by simp [popped]
    have ready := proper.supported.ready work queued
    have justified := proper.justified.queued work queued
    by_cases new : delta work { state with worklist } = []
    · rw [deliver_of_eq_nil new]
      exact taken
    · have stored : State.Extends { state with worklist }
          (State.receive { state with worklist } work.target
            (delta work { state with worklist })) :=
        State.extends_receive ready.1
      have delivers := deliver_delivers coherent (proper.popWork popped) ready
        justified new
      exact taken.trans (stored.trans delivers.moves.growth.extended)

/-! ## Runs -/

/-- One state is the next after another. -/
def Setup.Next (setup : Setup) (state next : State) : Prop :=
  setup.step state = .advanced next

theorem Setup.next_rightUnique (setup : Setup) :
    Relator.RightUnique setup.Next := by
  intro state first second one other
  exact Progress.advanced.inj (one.symm.trans other)

namespace Visits

variable {state later : State}

theorem exists_start (visits : Visits setup entries state) :
    ∃ start, setup.enter entries {} = .ok start ∧
      ReflTransGen setup.Next start state := by
  induction visits with
  | start entered => exact ⟨_, entered, .refl⟩
  | step _ stepped ih =>
      rcases ih with ⟨start, entered, run⟩
      exact ⟨start, entered, run.tail stepped⟩

/-- Of two states that the solver visits, one comes after the other. -/
theorem total (one : Visits setup entries state)
    (other : Visits setup entries later) :
    ReflTransGen setup.Next state later ∨
      ReflTransGen setup.Next later state := by
  rcases one.exists_start with ⟨start, entered, run⟩
  rcases other.exists_start with ⟨again, same, longer⟩
  cases entered.symm.trans same
  exact ReflTransGen.total_of_right_unique setup.next_rightUnique run longer

theorem run_extends (coherent : setup.program.Coherent)
    (visits : Visits setup entries state)
    (run : ReflTransGen setup.Next state later) : state.Extends later := by
  -- Steps extend proper states, so the induction carries the visit along.
  have both : Visits setup entries later ∧ state.Extends later := by
    induction run with
    | refl => exact ⟨visits, .refl state⟩
    | tail _ stepped ih =>
        exact ⟨ih.1.step stepped, ih.2.trans
          (Setup.step_extends coherent (ih.1.proper coherent) stepped)⟩
  exact both.2

/-- The state in which the solver stops extends all states before. -/
theorem extends_final (coherent : setup.program.Coherent)
    (visits : Visits setup entries state) {final : State}
    (last : Visits setup entries final)
    (finished : setup.step final = .finished) : state.Extends final := by
  rcases visits.total last with run | back
  · exact visits.run_extends coherent run
  · -- The solver takes no step from the last state, so nothing comes after it.
    rcases back.cases_head with rfl | ⟨next, stepped, _⟩
    · exact .refl _
    · cases finished.symm.trans stepped

end Visits

end PointsTo
