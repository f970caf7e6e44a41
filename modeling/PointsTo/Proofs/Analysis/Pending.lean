import PointsTo.Proofs.Analysis.Reachability

/-!
# No pending work is lost

Between two steps, the solver has not caught up with everything it knows: objects
wait in the worklist, and methods wait to be looked at.  `State.LosesNothing` says
what it has done already and what the queues still hold, pointer by pointer and
statement by statement.  Every state that the solver visits is of this kind.
-/

namespace PointsTo

variable {setup : Setup} {entries : List MethodId}

namespace State

/-! ## What is in place or queued -/

/-- An object has arrived at a pointer, or it is in a queued payload for it. -/
def Expects (state : State) (target : Pointer) (obj : ContextObj) : Prop :=
  obj ∈ state.store.get target ∨
    ∃ work ∈ state.worklist.toList,
      work.target = target ∧ obj ∈ work.payload.objects state.store

/-- The effects of a statement that need no object. -/
def Performs (setup : Setup) (state : State) (method : ContextMethod)
    (index : Nat) : Stmt → Prop
  | .new target type =>
      state.Expects (method.pointer target)
        (setup.allocated method index target type)
  | .copy target source =>
      (method.pointer source, method.pointer target) ∈ state.flow.edges
  | .loadStatic target field =>
      (.static field, method.pointer target) ∈ state.flow.edges
  | .storeStatic field source =>
      (method.pointer source, .static field) ∈ state.flow.edges
  | .invoke call =>
      call.kind = .static → ∀ callee,
        setup.program.callee? none call = some callee →
        setup.staticEdge (method.site index) call callee ∈ state.calls.edges
  | .loadField .. | .storeField .. | .loadArray .. | .storeArray ..
  | .ret _ => True

/-- The effects of a statement on an object that its base or receiver, the
variable `base`, points to. -/
def Applies (setup : Setup) (state : State) (method : ContextMethod)
    (index : Nat) (base : String) (obj : ContextObj) : Stmt → Prop
  | .loadField target loaded field =>
      loaded = base →
        (.field obj field, method.pointer target) ∈ state.flow.edges
  | .storeField stored field source =>
      stored = base →
        (method.pointer source, .field obj field) ∈ state.flow.edges
  | .loadArray target loaded =>
      loaded = base → (.array obj, method.pointer target) ∈ state.flow.edges
  | .storeArray stored source =>
      stored = base → (method.pointer source, .array obj) ∈ state.flow.edges
  | .invoke call =>
      call.receiver = some base → ∀ callee,
        setup.program.callee? (some obj.val.type) call = some callee →
        let edge := setup.instanceEdge (method.site index) call obj callee
        edge ∈ state.calls.edges ∧
          ∀ this, callee.this? = some this →
            state.Expects (edge.atCallee this) obj
  | .new .. | .copy .. | .loadStatic .. | .storeStatic .. | .ret _ => True

/-- The effects of the taint rules of the callee at a call edge. -/
structure Colours (rules : Rules) (state : State) (edge : CallEdge)
    (call : Invoke) : Prop where
  source : ∀ rule ∈ rules.sourcesOf edge.callee.val,
    ∀ result, call.result = some result →
      state.Expects (edge.atCaller result)
        (taintObj edge.site.val rule.type)
  transfer : ∀ rule ∈ rules.transfersOf edge.callee.val,
    ∀ source, call.inSlot? rule.source = some source →
    ∀ target, call.inSlot? rule.target = some target →
      { source := edge.atCaller source
        target := edge.atCaller target
        type := rule.type } ∈ state.taintEdges
  sink : ∀ rule ∈ rules.sinksOf edge.callee.val,
    rule.index < call.args.length →
    ⟨edge.site, rule.index⟩ ∈ state.sinkCalls

/-- The effects of a call edge from an invocation to a method. -/
structure Wires (setup : Setup) (state : State) (edge : CallEdge)
    (call : Invoke) (callee : Method) : Prop where
  reached : edge.callee ∈ state.calls.reachable
  arguments : ∀ pair ∈ call.args.zip callee.params,
    (edge.atCaller pair.1, edge.atCallee pair.2) ∈ state.flow.edges
  results : ∀ result, call.result = some result →
    ∀ value ∈ callee.returns,
      (edge.atCallee value, edge.atCaller result) ∈ state.flow.edges
  taints : ∀ rules, setup.rules = some rules →
    state.Colours rules edge call

/-- Whatever follows from what a state holds is in place or queued. -/
structure LosesNothing (setup : Setup) (state : State) : Prop where
  /-- Objects pass along flow edges. -/
  flows : ∀ source target, (source, target) ∈ state.flow.edges →
    ∀ obj ∈ state.store.get source, state.Expects target obj
  /-- Taint passes along taint edges, and takes their types. -/
  retags : ∀ edge ∈ state.taintEdges,
    ∀ obj ∈ state.store.get edge.source, ContextObj.isTaint obj = true →
      state.Expects edge.target (taintObj obj.val.site edge.type)
  /-- Ordinary objects that a variable points to are used. -/
  uses : ∀ entry : ContextVar, ∀ obj ∈ state.store.get (.var entry),
    ContextObj.isTaint obj = false → ∀ index stmt,
    setup.program.stmt? ⟨entry.val.method, index⟩ = some stmt →
    state.Applies setup (ContextVar.container entry) index entry.val.name obj
      stmt
  /-- Reachable methods that are not waiting have been looked at. -/
  looks : ∀ method ∈ state.calls.reachable,
    method ∉ state.pending.toList → ∀ index stmt,
    setup.program.stmt? ⟨method.val, index⟩ = some stmt →
    state.Performs setup method index stmt
  /-- Call edges have taken effect. -/
  calls : ∀ edge ∈ state.calls.edges, ∃ call callee,
    setup.program.invoke? edge.site.val = some call ∧
      setup.program.method? edge.callee.val = some callee ∧
      state.Wires setup edge call callee

/-! ## From consequences to effects -/

/-- An object is met at a pointer if it is there or queued for it. -/
theorem Meets.expects {state : State} {target : Pointer} {obj : ContextObj}
    (meets : state.Meets (.points target obj)) :
    state.Expects target obj := by
  rcases meets with there | ⟨work, queued, other, sent, same⟩
  · exact Or.inl there
  · cases same
    exact Or.inr ⟨work, queued, rfl, sent⟩

/-- Only objects are queued: whatever else is met is in place. -/
theorem Meets.inPlace {state : State} {fact : Fact}
    (meets : state.Meets fact)
    (settled : ∀ pointer obj, fact ≠ .points pointer obj) :
    state.Holds fact := by
  rcases meets with holds | ⟨work, _, obj, _, same⟩
  · exact holds
  · exact absurd same (settled _ _)

namespace Accounted

variable {state : State} (accounted : state.Accounted setup entries)

include accounted

/-- The effects of the statements of a method that has been looked at. -/
theorem performs {method : ContextMethod}
    (reached : method ∈ state.calls.reachable)
    (absent : method ∉ state.pending.toList) {index : Nat} {stmt : Stmt}
    (here : setup.program.stmt? ⟨method.val, index⟩ = some stmt) :
    state.Performs setup method index stmt := by
  have looked := (accounted.looked method reached).resolve_left absent
  cases stmt with
  | new target type => exact (looked.meets (.allocate here)).expects
  | copy target source =>
      exact (looked.meets (.copy here)).inPlace (by simp)
  | loadStatic target field =>
      exact (looked.meets (.loadStatic here)).inPlace (by simp)
  | storeStatic field source =>
      exact (looked.meets (.storeStatic here)).inPlace (by simp)
  | invoke call =>
      intro isStatic callee found
      exact (looked.meets (.callStatic here isStatic found)).inPlace (by simp)
  | _ => trivial

/-- The effects of the statements with a variable as their base or receiver. -/
theorem applies {entry : ContextVar} {obj : ContextObj}
    (points : obj ∈ state.store.get (.var entry))
    (ordinary : ContextObj.isTaint obj = false) {index : Nat} {stmt : Stmt}
    (here : setup.program.stmt? ⟨entry.val.method, index⟩ = some stmt) :
    state.Applies setup (ContextVar.container entry) index entry.val.name obj
      stmt := by
  have used : ∀ {conclusion : Fact},
      Inference setup entries
        [.reached (ContextVar.container entry), .points (.var entry) obj]
        conclusion →
      state.Meets conclusion :=
    fun rule => accounted.used points rule
  cases stmt with
  | loadField target base field =>
      rintro rfl
      exact (used (.loadField here ordinary)).inPlace (by simp)
  | storeField base field source =>
      rintro rfl
      exact (used (.storeField here ordinary)).inPlace (by simp)
  | loadArray target base =>
      rintro rfl
      exact (used (.loadArray here ordinary)).inPlace (by simp)
  | storeArray base source =>
      rintro rfl
      exact (used (.storeArray here ordinary)).inPlace (by simp)
  | invoke call =>
      intro based callee found
      constructor
      · exact (used (.callInstance here based ordinary found)).inPlace (by simp)
      · intro this bound
        exact (used (.bindThis here based ordinary found bound)).expects
  | _ => trivial

/-- The effects of a call edge. -/
theorem wires (coherent : setup.program.Coherent) {edge : CallEdge}
    (called : edge ∈ state.calls.edges) {call : Invoke} {callee : Method}
    (here : setup.program.invoke? edge.site.val = some call)
    (found : setup.program.method? edge.callee.val = some callee) :
    state.Wires setup edge call callee := by
  have links : ∀ {conclusion : Fact},
      Inference setup entries [.called edge] conclusion →
      state.Meets conclusion :=
    fun rule => accounted.linked edge called rule
  constructor
  case reached => exact (links .enter).inPlace (by simp)
  case arguments =>
    intro pair paired
    exact (links (.passArgument here found paired)).inPlace (by simp)
  case results =>
    intro result taken value returned
    rcases (coherent.method found).1.mem_returns.mp returned with
      ⟨index, stmt⟩
    rw [← Program.stmt?_of_method? found] at stmt
    exact (links (.passResult here taken stmt)).inPlace (by simp)
  case taints =>
    intro rules tracked
    constructor
    case source =>
      intro rule member result taken
      exact (links (.source tracked here taken member)).expects
    case transfer =>
      intro rule member source sourced target targeted
      exact (links (.transfer tracked here member sourced targeted)).inPlace
        (by simp)
    case sink =>
      intro rule member sensitive
      exact (links (.sink tracked here member sensitive)).inPlace (by simp)

end Accounted

end State

/--
In every state that the solver visits, no pending work is lost.  What a pointer
points to, its successors point to or have queued; the accesses to and calls on
an object that a variable points to have taken effect, and so have the
statements of all reachable methods that are not waiting to be looked at.
-/
theorem loses_nothing_of_visits (made : setup.program.Made) {state : State}
    (visits : Visits setup entries state) : state.LosesNothing setup := by
  have accounted := visits.accounted made.coherent
  constructor
  case flows =>
    intro source target linked obj points
    exact (accounted.forwarded (source, target) linked obj points).expects
  case retags =>
    intro edge linked obj points taint
    exact (accounted.retagged edge linked obj points taint).expects
  case uses =>
    intro entry obj points ordinary index stmt here
    exact accounted.applies points ordinary here
  case looks =>
    intro method reached absent index stmt here
    exact accounted.performs reached absent here
  case calls =>
    intro edge called
    have derivable : Derivable setup entries (.called edge) :=
      (visits.proper made.coherent).justified.facts called
    rcases derivable.called_invoke with ⟨call, here, _⟩
    rcases derivable.called_method made.coherent with ⟨callee, found⟩
    exact ⟨call, callee, here, found,
      accounted.wires made.coherent called here found⟩

/-- After two steps, a method waits and three payloads are queued. -/
theorem loses_nothing_of_visits_cyclic :
    Cyclic.tracked.program.Made ∧ ∃ state,
      Visits Cyclic.tracked [Cyclic.main] state ∧
      state.pending.size = 1 ∧ state.worklist.size = 3 ∧
      state.calls.edges.length = 1 ∧ state.taintEdges.length = 1 ∧
      state.LosesNothing Cyclic.tracked := by
  have measured : (Cyclic.tracked.after? [Cyclic.main] 2).map
      (fun state => [state.pending.size, state.worklist.size,
        state.calls.edges.length, state.taintEdges.length]) =
      some [1, 3, 1, 1] := by
    decide +kernel
  rcases Setup.exists_visits measured with ⟨state, visits, sizes⟩
  simp only [List.cons.injEq, and_true] at sizes
  rcases sizes with ⟨pending, worklist, calls, taints⟩
  exact ⟨Cyclic.made, state, visits, pending, worklist, calls, taints,
    loses_nothing_of_visits Cyclic.made visits⟩

end PointsTo
