import Mathlib.Data.Finset.Card
import PointsTo.Proofs.Analysis.Universe
import PointsTo.Proofs.Analysis.Visits

/-!
# Every step uses up potential

The potential of a state weighs the facts that have not been found out yet and
the entries of its queues.  A step takes an entry from a queue; it puts entries
into the queues only for new facts, and in small number for the statements that
it looks at.  Since a missing fact weighs more than all entries that it can
cause, the potential decreases with every step, whatever order the queues are
in.
-/

namespace PointsTo

variable {setup : Setup} {entries : List MethodId}

instance State.decidableHolds (state : State) (fact : Fact) :
    Decidable (state.Holds fact) := by
  cases fact <;> exact inferInstanceAs (Decidable (_ ∈ _))

namespace Setup

/-- How many of the facts that can be found out a state does not hold. -/
@[irreducible]
def missing (setup : Setup) (entries : List MethodId)
    (state : State) : Nat :=
  ((setup.facts entries).toFinset.filter fun fact =>
    ¬ state.Holds fact).card

theorem missing_le_length (setup : Setup) (entries : List MethodId)
    (state : State) :
    setup.missing entries state ≤ (setup.facts entries).length := by
  rw [missing]
  exact Nat.le_trans (Finset.card_filter_le _ _) (List.toFinset_card_le _)

/-- New facts are no longer missing. -/
theorem missing_add_le {before after : State}
    (kept : ∀ {fact : Fact}, before.Holds fact → after.Holds fact)
    {fresh : List Fact} (distinct : fresh.Nodup)
    (new : ∀ fact ∈ fresh, fact ∈ setup.facts entries ∧
      ¬ before.Holds fact ∧ after.Holds fact) :
    setup.missing entries after + fresh.length ≤
      setup.missing entries before := by
  rw [← List.toFinset_card_of_nodup distinct, missing, missing,
    ← Finset.card_union_of_disjoint]
  · apply Finset.card_le_card
    intro fact member
    rw [Finset.mem_union, Finset.mem_filter, List.mem_toFinset,
      List.mem_toFinset] at member
    rw [Finset.mem_filter, List.mem_toFinset]
    rcases member with ⟨listed, missing⟩ | found
    · exact ⟨listed, fun held => missing (kept held)⟩
    · exact ⟨(new fact found).1, (new fact found).2.1⟩
  · apply Finset.disjoint_left.mpr
    intro fact member found
    rw [List.mem_toFinset] at found
    exact (Finset.mem_filter.mp member).2 (new fact found).2.2

theorem missing_le {before after : State}
    (kept : ∀ {fact : Fact}, before.Holds fact → after.Holds fact) :
    setup.missing entries after ≤ setup.missing entries before :=
  missing_add_le kept List.nodup_nil (by simp)

theorem missing_lt {before after : State}
    (kept : ∀ {fact : Fact}, before.Holds fact → after.Holds fact)
    {fact : Fact} (listed : fact ∈ setup.facts entries)
    (absent : ¬ before.Holds fact) (present : after.Holds fact) :
    setup.missing entries after + 1 ≤ setup.missing entries before :=
  missing_add_le kept (List.nodup_singleton fact)
    (by simpa using ⟨listed, absent, present⟩)

/-- What a missing fact weighs. -/
@[irreducible]
def stride (setup : Setup) (entries : List MethodId) : Nat :=
  2 * (setup.facts entries).length + 6 * setup.program.weight +
    setup.sourceCount + 2

/-- A bound on the number of steps from a state. -/
@[irreducible]
def potential (setup : Setup) (entries : List MethodId)
    (state : State) : Nat :=
  setup.stride entries * setup.missing entries state +
    state.worklist.size + (setup.program.weight + 1) * state.pending.size

end Setup

theorem ObjSet.length_ordinary_le (objects : List ContextObj) :
    (ObjSet.ordinary objects).length ≤ objects.length :=
  List.length_filter_le ..

theorem Queue.size_push {α : Type} (queue : Queue α) (element : α) :
    (queue.push element).size = queue.size + 1 := by
  rw [← length_toList, toList_push, List.length_append, length_toList,
    List.length_singleton]

theorem State.size_worklist_push_le (state : State) (target : Pointer)
    (payload : Payload) :
    (state.push target payload).worklist.size ≤ state.worklist.size + 1 := by
  rcases state.push_eq_or target payload with ⟨same, _⟩ | pushed
  · rw [same]
    exact Nat.le_succ _
  · rw [pushed, Queue.size_push]

namespace Setup

theorem potential_le_of_sent {before after : State} {sent : Nat}
    (less : setup.missing entries after ≤ setup.missing entries before)
    (worklist : after.worklist.size ≤ before.worklist.size + sent)
    (pending : after.pending = before.pending) :
    setup.potential entries after ≤ setup.potential entries before + sent := by
  have weighed := Nat.mul_le_mul_left (setup.stride entries) less
  rw [potential, potential, pending]
  omega

/-- A new fact pays for an entry of each queue and for all that source rules
may send. -/
theorem potential_add_le_of_new {before after : State}
    (less : setup.missing entries after + 1 ≤ setup.missing entries before)
    (worklist : after.worklist.size ≤ before.worklist.size + 1)
    (pending : after.pending.size ≤ before.pending.size + 1) :
    setup.potential entries after + setup.sourceCount ≤
      setup.potential entries before := by
  have weighed := Nat.mul_le_mul_left (setup.stride entries) less
  have heavy : setup.program.weight + 2 + setup.sourceCount ≤
      setup.stride entries := by
    rw [stride]
    omega
  have scheduled := Nat.mul_le_mul_left (setup.program.weight + 1) pending
  rw [Nat.mul_add, Nat.mul_one] at weighed scheduled
  rw [potential, potential]
  omega

end Setup

/-! ## Effects -/

section Coherent

variable (coherent : setup.program.Coherent)

include coherent

theorem Effect.potential_le {cost : Nat} {before after : State}
    (effect : Effect setup entries cost before after) :
    setup.potential entries after ≤
      setup.potential entries before + cost := by
  have kept : ∀ {fact : Fact}, before.Holds fact → after.Holds fact :=
    effect.growth.holds
  have less : setup.missing entries after ≤ setup.missing entries before :=
    Setup.missing_le kept
  cases effect with
  | send ready justified =>
      exact Setup.potential_le_of_sent less
        (Nat.le_of_eq (Queue.size_push ..)) rfl
  | reach absent derivable =>
      have fewer := Setup.missing_lt kept
        (Setup.mem_facts coherent derivable) absent (by
          rw [State.Holds, CallGraph.reachable_addReachable absent]
          exact List.mem_append_right _ (List.mem_singleton.mpr rfl))
      have paid := Setup.potential_add_le_of_new fewer (Nat.le_succ _)
        (Nat.le_of_eq (Queue.size_push ..))
      omega
  | addFlow new absent derivable created =>
      have fewer := Setup.missing_lt kept
        (Setup.mem_facts coherent derivable) absent (by
          rw [State.holds_push, State.Holds, FlowGraph.edges_insert new]
          exact List.mem_append_right _ (List.mem_singleton.mpr rfl))
      have paid := Setup.potential_add_le_of_new fewer
        (State.size_worklist_push_le ..) (by
          rw [State.pending_push]
          exact Nat.le_succ _)
      omega
  | addTaintEdge absent derivable ready justified complete =>
      have fewer := Setup.missing_lt kept
        (Setup.mem_facts coherent derivable) absent (by
          rw [State.holds_push]
          exact List.mem_append_right _ (List.mem_singleton.mpr rfl))
      have paid := Setup.potential_add_le_of_new fewer
        (State.size_worklist_push_le ..) (by
          rw [State.pending_push]
          exact Nat.le_succ _)
      omega
  | _ => exact Setup.potential_le_of_sent less (Nat.le_refl _) rfl

theorem Effects.potential_le {sent : Nat} {before after : State}
    (effects : Effects setup entries sent before after) :
    setup.potential entries after ≤
      setup.potential entries before + sent := by
  induction effects with
  | refl => exact Nat.le_add_right ..
  | tail _ effect bounded ih =>
      have last := effect.potential_le coherent
      omega

/-- Moves use up no more than the potential of what they find out. -/
theorem Moves.potential_le {sent : Nat} {before after : State}
    (moves : Moves setup entries sent before after) :
    setup.potential entries after ≤
      setup.potential entries before + sent := by
  induction moves with
  | refl => exact Nat.le_add_right ..
  | effect _ effect bounded ih =>
      have last := effect.potential_le coherent
      omega
  | @link _ _ _ _ middle _ edge _ absent derivable effects few _ bounded ih =>
      have fewer : setup.missing entries (middle.withEdge edge) + 1 ≤
          setup.missing entries middle := by
        have listed := State.edges_withEdge absent
        refine Setup.missing_lt (fun {fact} held => ?_)
          (Setup.mem_facts coherent derivable)
          (CallGraph.not_mem_edges absent) ?_
        · cases fact with
          | called other =>
              rw [State.Holds, listed]
              exact List.mem_append_left _ held
          | reached method =>
              rw [State.Holds, State.reachable_withEdge]
              exact held
          | _ => exact held
        · rw [State.Holds, listed]
          exact List.mem_append_right _ (List.mem_singleton.mpr rfl)
      have paid := Setup.potential_add_le_of_new fewer (Nat.le_succ _)
        (Nat.le_succ _)
      have rest := effects.potential_le coherent
      omega

/-! ## Steps -/

/-- There are no more derivable facts than can be found out. -/
theorem Setup.length_le_facts {facts : List Fact} (distinct : facts.Nodup)
    (derivable : ∀ fact ∈ facts, Derivable setup entries fact) :
    facts.length ≤ (setup.facts entries).length :=
  (List.subperm_of_subset distinct fun fact member =>
    Setup.mem_facts coherent (derivable fact member)).length_le

theorem State.Proper.length_flow_le {state : State}
    (proper : state.Proper setup entries) :
    state.flow.edges.length ≤ (setup.facts entries).length := by
  rw [← List.length_map fun edge : Pointer × Pointer =>
    Fact.flows edge.1 edge.2]
  refine Setup.length_le_facts coherent
    (proper.supported.nodup_flow.map fun first second same => ?_)
    fun fact member => ?_
  · obtain ⟨sources, targets⟩ := Fact.flows.inj same
    exact Prod.ext sources targets
  · obtain ⟨edge, listed, rfl⟩ := List.mem_map.mp member
    exact proper.justified.facts listed

theorem State.Proper.length_taintEdges_le {state : State}
    (proper : state.Proper setup entries) :
    state.taintEdges.length ≤ (setup.facts entries).length := by
  rw [← List.length_map Fact.retags]
  refine Setup.length_le_facts coherent
    (proper.distinct.taintEdges.map fun first second same => ?_)
    fun fact member => ?_
  · exact Fact.retags.inj same
  · obtain ⟨edge, listed, rfl⟩ := List.mem_map.mp member
    exact proper.justified.facts listed

omit coherent in
/-- What the arrival of new objects can cause, they pay for. -/
theorem Setup.delivery_cost_le {flows retags ordinary fresh : Nat}
    (fewFlows : flows ≤ (setup.facts entries).length)
    (fewRetags : retags ≤ (setup.facts entries).length)
    (fewUsed : ordinary ≤ fresh) (some : 0 < fresh) :
    flows + retags + 5 * setup.program.weight * ordinary ≤
      setup.stride entries * fresh := by
  have used := Nat.mul_le_mul_left (5 * setup.program.weight) fewUsed
  have once : 2 * (setup.facts entries).length ≤
      2 * (setup.facts entries).length * fresh :=
    Nat.le_mul_of_pos_right _ some
  have heavy : (2 * (setup.facts entries).length +
      5 * setup.program.weight) * fresh ≤ setup.stride entries * fresh := by
    apply Nat.mul_le_mul_right fresh
    rw [stride]
    omega
  rw [Nat.add_mul] at heavy
  omega

theorem Setup.look_potential_lt {state next : State}
    (proper : state.Proper setup entries) {method : ContextMethod}
    {pending : Queue ContextMethod}
    (popped : state.pending.toList = method :: pending.toList)
    (looked : setup.lookAtAll method 0 (setup.bodyOf method.val)
      { state with pending } = .ok next) :
    setup.potential entries next < setup.potential entries state := by
  have size : state.pending.size = pending.size + 1 := by
    rw [← Queue.length_toList, popped, List.length_cons,
      Queue.length_toList]
  have same : setup.missing entries { state with pending } ≤
      setup.missing entries state :=
    Setup.missing_le fun {fact} held => by cases fact <;> exact held
  have taken : setup.potential entries { state with pending } +
      (setup.program.weight + 1) ≤ setup.potential entries state := by
    have weighed := Nat.mul_le_mul_left (setup.stride entries) same
    rw [potential, potential, size, Nat.mul_add, Nat.mul_one]
    dsimp only
    omega
  have moved := (Setup.look_moves coherent proper popped looked).2.potential_le
    coherent
  have short := setup.length_bodyOf_le method.val
  omega

/-- New objects at a pointer pay for all that their arrival causes. -/
theorem Setup.receive_potential_le {state : State}
    (proper : state.Proper setup entries) {work : Work}
    (ready : state.Ready work) (justified : work.Justified setup entries) :
    let stored := state.receive work.target (delta work state)
    setup.potential entries stored + setup.stride entries *
        (stored.ordered (delta work state)).length ≤
      setup.potential entries state := by
  intro stored
  have arrived := delta_arrived proper justified
  have fewer : setup.missing entries stored +
      (stored.ordered (delta work state)).length ≤
      setup.missing entries state := by
    rw [← List.length_map (Fact.points work.target)]
    refine missing_add_le (State.holds_receive ready.1) ?_
      fun fact member => ?_
    · exact (state.objects.nodup_items.filter _).map fun _ _ same =>
        (Fact.points.inj same).2
    · obtain ⟨obj, ordered, rfl⟩ := List.mem_map.mp member
      have fresh := ((State.mem_ordered _ _ _).mp ordered).2
      refine ⟨Setup.mem_facts coherent (arrived obj fresh), ?_, ?_⟩
      · exact ((ObjSet.mem_diff _ _ _).mp fresh).2
      · exact (State.mem_get_receive ready.1 _ _).mpr (Or.inr ⟨rfl, fresh⟩)
  have weighed := Nat.mul_le_mul_left (setup.stride entries) fewer
  rw [Nat.mul_add] at weighed
  rw [potential, potential]
  have worklist : stored.worklist = state.worklist := rfl
  have pending : stored.pending = state.pending := rfl
  rw [worklist, pending]
  omega

theorem Setup.deliver_potential_le {state : State}
    (proper : state.Proper setup entries) {work : Work}
    (ready : state.Ready work) (justified : work.Justified setup entries) :
    setup.potential entries (setup.deliver work state) ≤
      setup.potential entries state := by
  by_cases new : delta work state = []
  · rw [deliver_of_eq_nil new]
  · have arrived := delta_arrived proper justified
    have numbered := delta_numbered proper ready
    have stored := proper.receive ready.1 arrived numbered
    obtain ⟨obj, fresh⟩ := List.exists_mem_of_ne_nil _ new
    have listed : obj ∈ (state.receive work.target (delta work state)).ordered
        (delta work state) :=
      (State.mem_ordered _ _ _).mpr ⟨numbered obj fresh, fresh⟩
    have paid := Setup.receive_potential_le coherent proper ready justified
    have moved := (deliver_delivers coherent proper ready justified
      new).moves.potential_le coherent
    have cost := Setup.delivery_cost_le (stored.length_flow_le coherent)
      (stored.length_taintEdges_le coherent)
      (ObjSet.length_ordinary_le _) (List.length_pos_of_mem listed)
    exact Nat.le_trans moved (Nat.le_trans (Nat.add_le_add_left cost _) paid)

omit coherent in
theorem Setup.popWork_potential_lt {state : State} {work : Work}
    {worklist : Queue Work}
    (popped : state.worklist.toList = work :: worklist.toList) :
    setup.potential entries { state with worklist } <
      setup.potential entries state := by
  have size : state.worklist.size = worklist.size + 1 := by
    rw [← Queue.length_toList, popped, List.length_cons,
      Queue.length_toList]
  have same : setup.missing entries { state with worklist } ≤
      setup.missing entries state :=
    Setup.missing_le fun {fact} held => by cases fact <;> exact held
  have weighed := Nat.mul_le_mul_left (setup.stride entries) same
  rw [potential, potential, size]
  dsimp only
  omega

theorem Setup.step_potential_lt {state next : State}
    (proper : state.Proper setup entries)
    (stepped : setup.step state = .advanced next) :
    setup.potential entries next < setup.potential entries state := by
  rcases step_eq_advanced stepped with
    ⟨method, pending, popped, looked⟩ | ⟨work, worklist, _, popped, rfl⟩
  · exact look_potential_lt coherent proper popped looked
  · have queued : work ∈ state.worklist.toList := by simp [popped]
    exact Nat.lt_of_le_of_lt
      (deliver_potential_le coherent (proper.popWork popped)
        (proper.supported.ready work queued)
        (proper.justified.queued work queued))
      (popWork_potential_lt popped)

end Coherent

end PointsTo
