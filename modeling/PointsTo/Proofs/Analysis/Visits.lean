import PointsTo.Proofs.Analysis.Deliver

/-!
# The states that the solver visits

The solver enters the given methods and then takes steps.  Every state on the
way is proper; in particular, whatever holds in it is derivable.
-/

namespace PointsTo

variable {setup : Setup} {entries : List MethodId}

/-- The states that the solver visits from the given methods on. -/
inductive Visits (setup : Setup) (entries : List MethodId) : State → Prop where
  | start {state : State} (entered : setup.enter entries {} = .ok state) :
      Visits setup entries state
  | step {state next : State} (earlier : Visits setup entries state)
      (stepped : setup.step state = .advanced next) :
      Visits setup entries next

/-- What an outcome says about the states that the solver visits. -/
def Outcome.Visited (setup : Setup) (entries : List MethodId) : Outcome → Prop
  | .finished state =>
      Visits setup entries state ∧ setup.step state = .finished
  | .failed fault last => ∃ state, Visits setup entries state ∧
      setup.step state = .failed fault last
  | .suspended state => Visits setup entries state

/-! ## Steps -/

/-- A step looks at a method or delivers a payload. -/
theorem Setup.step_eq_advanced {state next : State}
    (stepped : setup.step state = .advanced next) :
    (∃ method pending,
        state.pending.toList = method :: pending.toList ∧
        setup.lookAtAll method 0 (setup.bodyOf method.val)
          { state with pending } = .ok next) ∨
      ∃ work worklist, state.pending.toList = [] ∧
        state.worklist.toList = work :: worklist.toList ∧
        next = setup.deliver work { state with worklist } := by
  unfold Setup.step at stepped
  split at stepped
  · rename_i method pending popped
    split at stepped
    · rename_i looked
      cases stepped
      exact Or.inl ⟨method, pending, Queue.toList_of_pop? popped, looked⟩
    · cases stepped
  · rename_i idle
    split at stepped
    · rename_i work worklist popped
      cases stepped
      exact Or.inr ⟨work, worklist, (Queue.pop?_eq_none_iff _).mp idle,
        Queue.toList_of_pop? popped, rfl⟩
    · cases stepped

/-- The solver stops when both queues are empty. -/
theorem Setup.step_eq_finished {state : State} :
    setup.step state = .finished ↔
      state.pending.toList = [] ∧ state.worklist.toList = [] := by
  rw [← Queue.pop?_eq_none_iff, ← Queue.pop?_eq_none_iff]
  unfold Setup.step
  cases state.pending.pop? with
  | some popped =>
      simp only [reduceCtorEq, false_and, iff_false]
      split <;> simp
  | none =>
      cases state.worklist.pop? with
      | some popped => simp
      | none => simp

/-- A step fails only at a call of unknown kind. -/
theorem Setup.step_eq_failed {state last : State} {fault : Fault}
    (failed : setup.step state = .failed fault last) :
    ∃ method index call, method ∈ state.pending.toList ∧
      setup.program.stmt? ⟨method.val, index⟩ = some (.invoke call) ∧
      call.kind.isKnown = false ∧
      fault = .unexpectedCallKind call.kind ⟨method.val, index⟩ := by
  unfold Setup.step at failed
  split at failed
  · rename_i method pending popped
    split at failed
    · cases failed
    · rename_i looked
      cases failed
      obtain ⟨offset, call, found, unknown, named⟩ :=
        lookAtAll_eq_error looked
      rw [Nat.zero_add] at named
      rw [setup.getElem?_bodyOf] at found
      refine ⟨method, offset, call, ?_, found, unknown, named⟩
      rw [Queue.toList_of_pop? popped]
      exact List.mem_cons_self ..
  · split at failed <;> cases failed

/-! ## Entering -/

theorem Setup.enter_effects {ids : List MethodId}
    (given : ∀ id ∈ ids, id ∈ entries) {state next : State}
    (entered : setup.enter ids state = .ok next) :
    Effects setup entries 0 state next := by
  induction ids generalizing state with
  | nil =>
      cases entered
      exact .refl
  | cons id rest ih =>
      rw [Setup.enter] at entered
      split at entered
      · cases entered
      · have member := given id (List.mem_cons_self ..)
        have reached : Derivable setup entries (.reached ⟨[], id⟩) :=
          .infer (.entry member) (by simp)
        have met : Effects setup entries 0 state
            (state.meetMethod ⟨[], id⟩) := .single (.meetMethod reached)
        have marked := met.tail (.entry member) (Nat.le_refl 0)
        have scheduled := marked.trans (State.reach_effects reached _)
        exact scheduled.trans
          (ih (fun other listed => given other (.tail _ listed)) entered)

/-- The methods that are entered are reachable and numbered. -/
theorem Setup.enter_holds {ids : List MethodId}
    (given : ∀ id ∈ ids, id ∈ entries) {state next : State}
    (entered : setup.enter ids state = .ok next) {id : MethodId}
    (member : id ∈ ids) :
    next.Holds (.reached ⟨[], id⟩) ∧ ⟨[], id⟩ ∈ next.methods.items := by
  induction ids generalizing state with
  | nil => cases member
  | cons first rest ih =>
      have others : ∀ other ∈ rest, other ∈ entries :=
        fun other listed => given other (.tail _ listed)
      rw [Setup.enter] at entered
      split at entered
      · cases entered
      · rcases List.mem_cons.mp member with rfl | later
        · have growth := (Setup.enter_effects others entered).growth
          refine ⟨growth.holds (State.holds_reach ..),
            growth.methods.subset ?_⟩
          have reached : Derivable setup entries (.reached ⟨[], id⟩) :=
            .infer (.entry (given id member)) (by simp)
          apply (State.reach_effects reached _).growth.methods.subset
          exact (Numbering.mem_request _ _ _).mpr (Or.inr rfl)
        · exact ih others entered later

/-- Methods that are not abstract can be entered. -/
theorem Setup.exists_enter {ids : List MethodId}
    (concrete : ∀ id ∈ ids,
      (setup.program.method? id).any Method.isAbstract = false)
    (state : State) : ∃ next, setup.enter ids state = .ok next := by
  induction ids generalizing state with
  | nil => exact ⟨state, rfl⟩
  | cons id rest ih =>
      rw [Setup.enter, if_neg (by simp [concrete id (.head _)])]
      exact ih (fun other listed => concrete other (.tail _ listed)) _

/-! ## Visited states are proper -/

namespace State.Proper

theorem initial : ({} : State).Proper setup entries where
  justified :=
    { facts := by
        intro fact holds
        cases fact with
        | points pointer obj =>
            rw [State.Holds, Store.get_empty] at holds
            cases holds
        | _ => cases holds
      queued := by simp
      waiting := by simp
      pointers := by simp
      objects := by simp
      methods := by simp
      starts := by simp [CallGraph.empty] }
  supported :=
    { numbered := by simp
      contained := by simp
      ready := by simp
      within := by simp [FlowGraph.Within, FlowGraph.empty]
      retags := by simp }
  distinct := by constructor <;> exact List.nodup_nil

theorem popMethod {state : State} (proper : state.Proper setup entries)
    {method : ContextMethod} {pending : Queue ContextMethod}
    (popped : state.pending.toList = method :: pending.toList) :
    { state with pending }.Proper setup entries where
  justified := { proper.justified with
    facts := by
      intro fact holds
      cases fact <;> exact proper.justified.facts holds
    waiting := by
      intro other member
      apply proper.justified.waiting other
      rw [popped]
      exact List.mem_cons_of_mem _ member }
  supported := { proper.supported with }
  distinct := { proper.distinct with }

theorem popWork {state : State} (proper : state.Proper setup entries)
    {work : Work} {worklist : Queue Work}
    (popped : state.worklist.toList = work :: worklist.toList) :
    { state with worklist }.Proper setup entries where
  justified := { proper.justified with
    facts := by
      intro fact holds
      cases fact <;> exact proper.justified.facts holds
    queued := by
      intro other member
      apply proper.justified.queued other
      rw [popped]
      exact List.mem_cons_of_mem _ member }
  supported := { proper.supported with
    ready := by
      intro other member
      apply proper.supported.ready other
      rw [popped]
      exact List.mem_cons_of_mem _ member }
  distinct := { proper.distinct with }

end State.Proper

namespace Setup

/-- Looking at the next method moves on from the state without it. -/
theorem look_moves (coherent : setup.program.Coherent) {state next : State}
    (proper : state.Proper setup entries) {method : ContextMethod}
    {pending : Queue ContextMethod}
    (popped : state.pending.toList = method :: pending.toList)
    (looked : setup.lookAtAll method 0 (setup.bodyOf method.val)
      { state with pending } = .ok next) :
    Derivable setup entries (.reached method) ∧
      Moves setup entries (setup.bodyOf method.val).length
        { state with pending } next := by
  have waiting : method ∈ state.pending.toList := by simp [popped]
  have reached := proper.justified.derivable_of_waiting waiting
  exact ⟨reached, lookAtAll_moves coherent reached stand_bodyOf
    (proper.popMethod popped) looked⟩

theorem step_proper (coherent : setup.program.Coherent)
    {state next : State} (proper : state.Proper setup entries)
    (stepped : setup.step state = .advanced next) :
    next.Proper setup entries := by
  rcases step_eq_advanced stepped with
    ⟨method, pending, popped, looked⟩ | ⟨work, worklist, _, popped, rfl⟩
  · exact (proper.popMethod popped).moves
      (look_moves coherent proper popped looked).2
  · have queued : work ∈ state.worklist.toList := by simp [popped]
    have ready := proper.supported.ready work queued
    have justified := proper.justified.queued work queued
    have before := proper.popWork popped
    by_cases new : delta work { state with worklist } = []
    · rw [deliver_of_eq_nil new]
      exact before
    · have delivers := deliver_delivers coherent before ready justified new
      exact (before.receive ready.1 (delta_arrived before justified)
        (delta_numbered before ready)).moves delivers.moves

end Setup

namespace Visits

theorem proper (coherent : setup.program.Coherent) {state : State}
    (visits : Visits setup entries state) : state.Proper setup entries := by
  induction visits with
  | start entered =>
      exact State.Proper.initial.effects
        (Setup.enter_effects (fun _ member => member) entered)
  | step _ stepped ih => exact Setup.step_proper coherent ih stepped

theorem advance {state : State} (visits : Visits setup entries state)
    (steps : Nat) : (setup.advance steps state).Visited setup entries := by
  induction steps generalizing state with
  | zero => exact visits
  | succ steps ih =>
      rw [Setup.advance]
      split
      · rename_i finished
        exact ⟨visits, finished⟩
      · rename_i failed
        exact ⟨state, visits, failed⟩
      · rename_i next stepped
        exact ih (visits.step stepped)

end Visits

end PointsTo
