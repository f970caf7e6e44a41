import Mathlib.Algebra.Order.BigOperators.Group.List
import Mathlib.Algebra.Order.Group.Nat
import PointsTo.Analysis.Run
import PointsTo.Proofs.Analysis.Statements

/-!
# What delivering a payload does

Objects that arrive at a pointer are stored, sent on along the edges that leave
the pointer and, if it is a variable, used.  The state in which they are stored
and nothing else has been done yet is `State.receive`; from there on the solver
only moves.
-/

namespace PointsTo

variable {setup : Setup} {entries : List MethodId}

/-- A state that the solver has moved on to from an initial one. -/
structure Later (setup : Setup) (entries : List MethodId)
    (initial state : State) : Prop where
  proper : state.Proper setup entries
  growth : Growth setup entries initial state

namespace Later

theorem refl {state : State} (proper : state.Proper setup entries) :
    Later setup entries state state :=
  ⟨proper, Growth.refl state⟩

/-- A move leads from a later state to a later state. -/
theorem moves {sent : Nat} {initial before after : State}
    (later : Later setup entries initial before)
    (moves : Moves setup entries sent before after) :
    Later setup entries initial after :=
  ⟨later.proper.moves moves, later.growth.trans moves.growth⟩

end Later

namespace State

/-- Store objects that arrive at a pointer. -/
def receive (state : State) (target : Pointer) (delta : ObjSet) : State :=
  { state with store := state.store.add target delta }

@[simp]
theorem pointers_receive (state : State) (target : Pointer)
    (delta : ObjSet) :
    (state.receive target delta).store.pointers = state.store.pointers :=
  state.store.pointers_add target delta

/-- Objects arrive at one pointer, and nothing else changes. -/
theorem mem_get_receive {state : State} {target : Pointer} {delta : ObjSet}
    (created : target ∈ state.store.pointers) (pointer : Pointer)
    (obj : ContextObj) :
    obj ∈ (state.receive target delta).store.get pointer ↔
      obj ∈ state.store.get pointer ∨ pointer = target ∧ obj ∈ delta := by
  rw [receive, Store.mem_get_add]
  simp only [created, true_and]

/-- No fact is lost when objects arrive. -/
theorem holds_receive {state : State} {target : Pointer} {delta : ObjSet}
    (created : target ∈ state.store.pointers) {fact : Fact}
    (holds : state.Holds fact) : (state.receive target delta).Holds fact := by
  cases fact with
  | points pointer obj =>
      exact (mem_get_receive created pointer obj).mpr (Or.inl holds)
  | _ => exact holds

/-- Storing objects that flow to a created pointer keeps a state proper. -/
theorem Proper.receive {state : State} (proper : state.Proper setup entries)
    {target : Pointer} {delta : ObjSet}
    (created : target ∈ state.store.pointers)
    (arrived : ∀ obj ∈ delta, Derivable setup entries (.points target obj))
    (numbered : ∀ obj ∈ delta, obj ∈ state.objects.items) :
    (state.receive target delta).Proper setup entries where
  justified := { proper.justified with
    facts := by
      intro fact holds
      cases fact with
      | points pointer obj =>
          rcases (mem_get_receive created pointer obj).mp holds with
            old | ⟨rfl, new⟩
          · exact proper.justified.facts
              (show state.Holds (.points pointer obj) from old)
          · exact arrived obj new
      | _ => exact proper.justified.facts holds
    pointers := by simpa using proper.justified.pointers }
  supported :=
    { numbered := by
        intro pointer obj member
        rcases (mem_get_receive created pointer obj).mp member with
          old | ⟨_, new⟩
        · exact proper.supported.numbered pointer obj old
        · exact numbered obj new
      ready := by
        intro work queued
        have ready := proper.supported.ready work queued
        exact ⟨by simpa using ready.1, ready.2⟩
      contained := proper.supported.contained
      within := by
        intro arc listed
        have same : state.store.pointers <+:
            (state.receive target delta).store.pointers := by simp
        exact (proper.supported.within arc listed).imp
          (Store.mem_nodes_of_prefix same) (Store.mem_nodes_of_prefix same)
      retags := by simpa [State.receive] using proper.supported.retags }
  distinct := { proper.distinct with }

end State

namespace Setup

theorem le_total_of_mem {size : Nat} {sizes : List Nat}
    (member : size ∈ sizes) : size ≤ total sizes :=
  List.le_sum_of_mem member

/-- The weight of the program bounds the statements of every method. -/
theorem length_bodyOf_le (setup : Setup) (id : MethodId) :
    (setup.bodyOf id).length ≤ setup.program.weight := by
  unfold bodyOf
  cases found : setup.program.method? id with
  | none => exact Nat.zero_le _
  | some method =>
      obtain ⟨cls, declared, listed⟩ := Option.bind_eq_some_iff.mp found
      have inProgram : 1 + cls.fields.length +
          total (cls.methods.map Method.weight) ≤ setup.program.weight :=
        le_total_of_mem (List.mem_map_of_mem
          (List.mem_of_find?_eq_some declared))
      have inClass := le_total_of_mem (List.mem_map_of_mem
        (f := Method.weight) (List.mem_of_find?_eq_some listed))
      simp only [Option.map_some, Option.getD_some]
      rw [Method.weight] at inClass
      omega

/-! ## Sending objects on -/

section Forward

variable {target : Pointer} {delta : ObjSet} {state : State}
  (proper : state.Proper setup entries)
  (arrived : ∀ obj ∈ delta, Derivable setup entries (.points target obj))
  (numbered : ∀ obj ∈ delta, obj ∈ state.objects.items)

include proper arrived numbered

theorem send_moves (successor : Pointer)
    (follows : successor ∈ state.succs target) {current : State}
    (later : Later setup entries state current) :
    Moves setup entries 1 current
      (current.push successor (.fixed delta)) := by
  have edge := (State.mem_succs proper.supported.within ..).mp follows
  have created := (proper.supported.flows (target, successor) edge).2
  have flows := proper.justified.facts
    (show state.Holds (.flows target successor) from edge)
  refine .ofEffects (State.push_effects ⟨?_, fun obj member => ?_⟩
    fun obj member => ?_)
  · exact later.growth.pointers.subset created
  · exact later.growth.objects.subset (numbered obj member)
  · exact .of_two .flow flows (arrived obj member)

/-- Each successor costs one payload. -/
theorem forward_moves :
    Moves setup entries (state.succs target).length state
      (forward target delta state) := by
  have sent := Moves.foldl Later.moves (send_moves proper arrived numbered)
    (Later.refl proper)
  exact sent.weaken (Nat.le_of_eq (Nat.one_mul _))

/-- The objects are on their way to every successor. -/
theorem forward_meets {successor : Pointer} {obj : ContextObj}
    (edge : (target, successor) ∈ state.flow.edges) (member : obj ∈ delta) :
    (forward target delta state).Meets (.points successor obj) :=
  Moves.foldl_meets Later.moves (send_moves proper arrived numbered)
    (Later.refl proper)
    ((State.mem_succs proper.supported.within ..).mpr edge)
    fun _ => State.meets_push _ _ _ member

omit numbered in
theorem sendTaint_moves (edge : TaintEdge)
    (leaving : edge ∈ state.taintEdges.filter fun edge =>
      edge.source = target) {current : State}
    (later : Later setup entries state current) :
    Moves setup entries 1 current
      (current.sendTaint (ObjSet.taints (current.ordered delta)) edge) := by
  rw [List.mem_filter, decide_eq_true_eq] at leaving
  obtain ⟨listed, rfl⟩ := leaving
  have retags := proper.justified.facts
    (show state.Holds (.retags edge) from listed)
  refine .ofEffects (State.sendTaint_effects retags (fun obj member => ?_)
    later.proper (later.growth.pointers.subset
      (proper.supported.retags edge listed)))
  rw [State.mem_taints, State.mem_ordered] at member
  exact ⟨member.2, arrived obj member.1.2⟩

omit numbered in
theorem forwardTaint_moves :
    Moves setup entries state.taintEdges.length state
      (forwardTaint target delta state) := by
  have sent := Moves.foldl Later.moves (sendTaint_moves proper arrived)
    (Later.refl proper)
  apply sent.weaken
  rw [Nat.one_mul]
  exact List.length_filter_le ..

/-- Taint is on its way along every taint edge that leaves the pointer. -/
theorem forwardTaint_meets {edge : TaintEdge} {obj : ContextObj}
    (listed : edge ∈ state.taintEdges) (leaves : edge.source = target)
    (member : obj ∈ delta) (taint : ContextObj.isTaint obj = true) :
    (forwardTaint target delta state).Meets
      (.points edge.target (State.taintObj obj.val.site edge.type)) := by
  refine Moves.foldl_meets Later.moves (sendTaint_moves proper arrived)
    (Later.refl proper)
    (List.mem_filter.mpr ⟨listed, decide_eq_true leaves⟩) fun later => ?_
  apply State.meets_sendTaint
  rw [State.mem_taints, State.mem_ordered]
  exact ⟨⟨later.growth.objects.subset (numbered obj member), member⟩, taint⟩

end Forward

@[simp]
theorem taintEdges_forward (target : Pointer) (delta : ObjSet)
    (state : State) :
    (forward target delta state).taintEdges = state.taintEdges := by
  unfold forward
  generalize state.succs target = successors
  induction successors generalizing state with
  | nil => rfl
  | cons successor rest ih => rw [List.foldl_cons, ih, State.taintEdges_push]

/-! ## Using objects that arrive -/

section UseNew

variable (coherent : setup.program.Coherent) {target : Pointer}
  {objects : List ContextObj} {state : State}
  (proper : state.Proper setup entries)
  (arrived : ∀ obj ∈ objects, ContextObj.isTaint obj = false ∧
    Derivable setup entries (.points target obj))
  (numbered : ∀ obj ∈ objects, obj ∈ state.objects.items)

include coherent proper arrived numbered

/-- There are five ways to use an object, and in each of them the weight of the
program bounds the statements that do. -/
theorem useNew_moves :
    Moves setup entries (5 * setup.program.weight * objects.length) state
      (setup.useNew target objects state) := by
  unfold useNew
  split
  · rename_i entry
    refine Moves.foldl Later.moves (fun obj member _ later => ?_)
      (Later.refl proper)
    have known := later.growth.objects.subset (numbered obj member)
    exact (useAll_moves coherent (arrived obj member).2
      (arrived obj member).1 ⟨later.proper, known⟩).weaken
        (Nat.mul_le_mul_left 5 (setup.length_bodyOf_le _))
  · exact .refl

/-- Every rule that needs an object at a variable has been applied to the
objects that arrive. -/
theorem useNew_meets {obj : ContextObj} (member : obj ∈ objects)
    {method : ContextMethod} {conclusion : Fact}
    (rule : Inference setup entries
      [.reached method, .points target obj] conclusion) :
    (setup.useNew target objects state).Meets conclusion := by
  obtain ⟨base, _, _, _, same, _⟩ :=
    use_meets coherent (arrived obj member).1 rule
  cases same
  have known : ∀ other ∈ objects, ∀ {current : State},
      Later setup entries state current →
      current.Proper setup entries ∧ other ∈ current.objects.items :=
    fun other listed _ later =>
      ⟨later.proper, later.growth.objects.subset (numbered other listed)⟩
  exact Moves.foldl_meets Later.moves (fun other listed _ later =>
      useAll_moves coherent (arrived other listed).2
        (arrived other listed).1 (known other listed later))
    (Later.refl proper) member fun later =>
      useAll_meets coherent (arrived obj member).2 (arrived obj member).1
        (known obj member later) rule

end UseNew

/-! ## Delivering -/

/-- The objects of a payload that its target does not point to. -/
def delta (work : Work) (state : State) : ObjSet :=
  (work.payload.objects state.store).diff (state.store.get work.target)

/-- What a payload stands for is at its target already or arrives there. -/
theorem mem_get_or_mem_delta {work : Work} {state : State}
    {obj : ContextObj} (sent : obj ∈ work.payload.objects state.store) :
    obj ∈ state.store.get work.target ∨ obj ∈ delta work state := by
  by_cases present : obj ∈ state.store.get work.target
  · exact Or.inl present
  · exact Or.inr ((ObjSet.mem_diff _ _ _).mpr ⟨sent, present⟩)

/-- A payload with nothing new is dropped. -/
theorem deliver_of_eq_nil {work : Work} {state : State}
    (empty : delta work state = []) : setup.deliver work state = state := by
  simp only [delta] at empty
  simp [deliver, empty]

theorem deliver_of_ne_nil {work : Work} {state : State}
    (new : delta work state ≠ []) :
    setup.deliver work state =
      setup.useNew work.target
        (ObjSet.ordinary
          ((state.receive work.target (delta work state)).ordered
            (delta work state)))
        (forwardTaint work.target (delta work state)
          (forward work.target (delta work state)
            (state.receive work.target (delta work state)))) := by
  simp only [deliver]
  rw [if_neg (by simpa [delta] using new)]
  rfl

/-- All that follows from a pointer pointing to an object is met, along the
edges that an earlier state has. -/
structure Serves (setup : Setup) (entries : List MethodId)
    (before next : State) (target : Pointer) (obj : ContextObj) : Prop where
  forwards : ∀ {successor : Pointer},
    (target, successor) ∈ before.flow.edges →
    next.Meets (.points successor obj)
  retags : ∀ {edge : TaintEdge}, edge ∈ before.taintEdges →
    edge.source = target → ContextObj.isTaint obj = true →
    next.Meets (.points edge.target (State.taintObj obj.val.site edge.type))
  uses : ∀ {method : ContextMethod} {conclusion : Fact},
    Inference setup entries [.reached method, .points target obj]
      conclusion →
    next.Meets conclusion

/-- What a delivery does from the state on in which the new objects have been
stored. -/
structure Delivers (setup : Setup) (entries : List MethodId)
    (target : Pointer) (delta : ObjSet) (stored next : State) : Prop where
  moves : Moves setup entries
    (stored.flow.edges.length + stored.taintEdges.length +
      5 * setup.program.weight *
        (ObjSet.ordinary (stored.ordered delta)).length)
    stored next
  serves : ∀ obj ∈ delta, Serves setup entries stored next target obj

/-- A delivery does the rest of its work once the objects have been stored. -/
theorem passOn_delivers (coherent : setup.program.Coherent)
    {target : Pointer} {delta : ObjSet} {stored : State}
    (proper : stored.Proper setup entries)
    (arrived : ∀ obj ∈ delta, Derivable setup entries (.points target obj))
    (numbered : ∀ obj ∈ delta, obj ∈ stored.objects.items) :
    Delivers setup entries target delta stored
      (setup.useNew target (ObjSet.ordinary (stored.ordered delta))
        (forwardTaint target delta (forward target delta stored))) := by
  have forwards := forward_moves proper arrived numbered
  have forwarded := proper.moves forwards
  have retags := forwardTaint_moves forwarded arrived
  have sent := (Later.refl proper).moves (forwards.trans retags)
  have fresh : ∀ obj ∈ ObjSet.ordinary (stored.ordered delta),
      ContextObj.isTaint obj = false ∧
        Derivable setup entries (.points target obj) := by
    intro obj member
    rw [State.mem_ordinary, State.mem_ordered] at member
    exact ⟨member.2, arrived obj member.1.2⟩
  have known : ∀ obj ∈ ObjSet.ordinary (stored.ordered delta),
      obj ∈ (forwardTaint target delta
        (forward target delta stored)).objects.items := by
    intro obj member
    rw [State.mem_ordinary, State.mem_ordered] at member
    exact sent.growth.objects.subset member.1.1
  have uses := useNew_moves coherent sent.proper fresh known
  refine ⟨((forwards.trans retags).trans uses).weaken ?_,
    fun obj member => ⟨?_, ?_, ?_⟩⟩
  · rw [taintEdges_forward]
    have few := State.length_succs_le stored target
    omega
  · intro successor edge
    exact (retags.trans uses).growth.meets
      (forward_meets proper arrived numbered edge member)
  · intro edge listed leaves taint
    refine uses.growth.meets (forwardTaint_meets forwarded arrived ?_ ?_
      leaves member taint)
    · intro obj member
      exact forwards.growth.objects.subset (numbered obj member)
    · exact forwards.growth.taintEdges.subset listed
  · intro method conclusion rule
    refine useNew_meets coherent sent.proper fresh known ?_ rule
    rw [State.mem_ordinary, State.mem_ordered]
    exact ⟨⟨numbered obj member, member⟩, rule.ordinary⟩

section Deliver

variable (coherent : setup.program.Coherent) {work : Work} {state : State}
  (proper : state.Proper setup entries) (ready : state.Ready work)
  (justified : work.Justified setup entries)

include proper justified in
/-- The objects that arrive flow to the target. -/
theorem delta_arrived :
    ∀ obj ∈ delta work state,
      Derivable setup entries (.points work.target obj) := by
  intro obj member
  have sent := ((ObjSet.mem_diff _ _ _).mp member).1
  obtain ⟨target, payload⟩ := work
  cases payload with
  | fixed objects => exact justified obj sent
  | current source =>
      exact .of_two .flow justified (proper.justified.facts
        (show state.Holds (.points source obj) from sent))

include proper ready in
/-- The objects that arrive are numbered. -/
theorem delta_numbered :
    ∀ obj ∈ delta work state, obj ∈ state.objects.items := by
  intro obj member
  have sent := ((ObjSet.mem_diff _ _ _).mp member).1
  exact proper.supported.numbered_of_ready ready sent

include coherent proper ready justified

/-- Delivering a payload with new objects stores them and then does all that
follows from them. -/
theorem deliver_delivers (new : delta work state ≠ []) :
    Delivers setup entries work.target (delta work state)
      (state.receive work.target (delta work state))
      (setup.deliver work state) := by
  have arrived := delta_arrived proper justified
  have numbered := delta_numbered proper ready
  have received := proper.receive ready.1 arrived numbered
  rw [deliver_of_ne_nil new]
  exact passOn_delivers coherent received arrived numbered

end Deliver

end Setup

end PointsTo
