import PointsTo.Proofs.Analysis.Rooted

/-!
# What call edges rest on

A call edge is added for a static call when its method is looked at, or for a call
on an object when the object arrives at the receiver variable.  Nothing else adds
edges, and what a pointer points to is never taken back.  So in every state that
the solver visits, each edge still has the reason for which it was added: the
object that an instance call was dispatched on is among those that the receiver
variable points to.
-/

namespace PointsTo

open ContextMethod (pointer site)

variable {setup : Setup} {entries : List MethodId}

/-! ## Effects add no edges -/

/-- Call edges are added by moves, not by effects. -/
theorem Effect.edges_eq {cost : Nat} {before after : State}
    (effect : Effect setup entries cost before after) :
    after.calls.edges = before.calls.edges := by
  cases effect with
  | entry member => exact CallGraph.edges_addEntry ..
  | reach absent derivable => exact CallGraph.edges_addReachable ..
  | addFlow new absent derivable created => simp
  | addTaintEdge absent derivable ready justified complete => simp
  | _ => rfl

theorem Effects.edges_eq {sent : Nat} {before after : State}
    (effects : Effects setup entries sent before after) :
    after.calls.edges = before.calls.edges := by
  induction effects with
  | refl => rfl
  | tail _ effect _ ih => exact effect.edges_eq.trans ih

/-- The edges of a later state are those of an earlier one and others that have a
property. -/
def State.Adds (allowed : CallEdge → Prop) (before after : State) : Prop :=
  ∀ edge ∈ after.calls.edges, edge ∈ before.calls.edges ∨ allowed edge

namespace State.Adds

variable {allowed : CallEdge → Prop} {before middle after : State}

theorem same (edges : after.calls.edges = before.calls.edges) :
    before.Adds allowed after := by
  intro edge member
  rw [edges] at member
  exact .inl member

theorem trans (earlier : before.Adds allowed middle)
    (later : middle.Adds allowed after) : before.Adds allowed after := by
  intro edge member
  rcases later edge member with old | new
  · exact earlier edge old
  · exact .inr new

/-- More edges may be allowed. -/
theorem imp {weaker : CallEdge → Prop} (adds : before.Adds allowed after)
    (implies : ∀ edge, allowed edge → weaker edge) :
    before.Adds weaker after := by
  intro edge member
  exact (adds edge member).imp_right (implies edge)

/-- The steps of a fold add edges one after the other. -/
theorem foldl (keeps : State → Prop) {α : Type} {step : State → α → State}
    {items : List α}
    (each : ∀ item ∈ items, ∀ {state : State}, keeps state →
      keeps (step state item) ∧ state.Adds allowed (step state item))
    {state : State} (kept : keeps state) :
    state.Adds allowed (items.foldl step state) := by
  induction items generalizing state with
  | nil => exact .same rfl
  | cons item rest ih =>
      rcases each item (.head _) kept with ⟨keptNext, adds⟩
      exact adds.trans (ih (fun other member =>
        each other (.tail _ member)) keptNext)

end State.Adds

namespace Setup

/-! ## Calls -/

/-- An edge of a static call. -/
inductive StaticCall (setup : Setup) : CallEdge → Prop where
  | intro {method : ContextMethod} {index : Nat} {call : Invoke}
      {callee : Method}
      (here : setup.program.stmt? ⟨method.val, index⟩ = some (.invoke call))
      (isStatic : call.kind = .static)
      (found : setup.program.callee? none call = some callee) :
      StaticCall setup (setup.staticEdge (site method index) call callee)

/-- An edge of a call on an object at a variable. -/
inductive CallOn (setup : Setup) (target : Pointer) (receiver : ContextObj) :
    CallEdge → Prop where
  | intro {method : ContextMethod} {index : Nat} {call : Invoke}
      {base : String} {callee : Method}
      (here : setup.program.stmt? ⟨method.val, index⟩ = some (.invoke call))
      (based : call.receiver = some base)
      (located : pointer method base = target)
      (ordinary : ContextObj.isTaint receiver = false)
      (found : setup.program.callee? (some receiver.val.type) call =
        some callee) :
      CallOn setup target receiver
        (setup.instanceEdge (site method index) call receiver callee)

/-- A call adds its own edge and no other one. -/
theorem connect_adds {site : ContextSite} {call : Invoke} {callee : Method}
    {context : Context}
    (derivable : Derivable setup entries
      (.called (.ofCall site call callee context)))
    (here : setup.program.invoke? site.val = some call)
    (found : setup.program.method? callee.id = some callee)
    (coherent : callee.Coherent) {state : State}
    (proper : state.Proper setup entries) :
    state.Adds (· = .ofCall site call callee context)
      (setup.connect site call callee context state) := by
  by_cases present : state.calls.hasEdge site ⟨context, callee.id⟩ = true
  · rw [connect_of_hasEdge present]
    exact .same rfl
  · rcases connect_of_not_hasEdge setup call present with ⟨fresh, unfolded⟩
    have effects := (connect_new derivable here found coherent
      (proper.addEdge fresh derivable)).1
    rw [unfolded]
    intro edge member
    rw [effects.edges_eq, State.edges_withEdge fresh] at member
    rcases List.mem_append.mp member with old | new
    · exact .inl old
    · exact .inr (List.mem_singleton.mp new)

section Invocation

variable (coherent : setup.program.Coherent) {method : ContextMethod}
  {index : Nat} {call : Invoke}
  (reached : Derivable setup entries (.reached method))
  (here : setup.program.stmt? ⟨method.val, index⟩ = some (.invoke call))

include coherent reached here

/-- A static call adds an edge for the class that it names. -/
theorem callStatic_adds (isStatic : call.kind = .static) {state : State}
    (proper : state.Proper setup entries) :
    state.Adds setup.StaticCall
      (setup.callStatic (site method index) call state) := by
  unfold callStatic
  split
  · exact .same rfl
  · rename_i callee found
    have derivable : Derivable setup entries
        (.called (setup.staticEdge (site method index) call callee)) :=
      .of_one (.callStatic here isStatic found) reached
    have known := coherent.callee? found
    have met := meetEnds_effects derivable state
    have connected := connect_adds derivable
      ((Program.invoke?_eq_some_iff _ _ _).mpr here) known
      (coherent.method known).1 (proper.effects met)
    refine (State.Adds.same met.edges_eq).trans (connected.imp ?_)
    rintro _ rfl
    exact .intro here isStatic found

/-- A call on an object adds an edge for the type of the object. -/
theorem callInstance_adds {base : String} {receiver : ContextObj}
    (based : call.receiver = some base)
    (ordinary : ContextObj.isTaint receiver = false)
    (points : Derivable setup entries (.points (pointer method base) receiver))
    {state : State} (proper : state.Proper setup entries)
    (numbered : receiver ∈ state.objects.items) :
    state.Adds (setup.CallOn (pointer method base) receiver)
      (setup.callInstance (site method index) call receiver state) := by
  unfold callInstance
  split
  · exact .same rfl
  · rename_i callee found
    have known := coherent.callee? found
    have bound := callInstance_bound reached here based ordinary points found
      numbered
    have connected := connect_adds
      (.of_two (.callInstance here based ordinary found) reached points)
      ((Program.invoke?_eq_some_iff _ _ _).mpr here) known
      (coherent.method known).1 (proper.effects bound)
    refine (State.Adds.same bound.edges_eq).trans (connected.imp ?_)
    rintro _ rfl
    exact .intro here based rfl ordinary found

end Invocation

/-! ## Looking at methods -/

section Look

variable (coherent : setup.program.Coherent) {method : ContextMethod}
  (reached : Derivable setup entries (.reached method))

include coherent reached

/-- Static calls are the only ones that take effect when a method is looked at.
-/
theorem lookAt_adds {index : Nat} {stmt : Stmt}
    (here : setup.program.stmt? ⟨method.val, index⟩ = some stmt)
    {state next : State} (proper : state.Proper setup entries)
    (looked : setup.lookAt method state stmt index = .ok next) :
    state.Adds setup.StaticCall next := by
  have flow : ∀ {source target : Pointer},
      Inference setup entries [.reached method] (.flows source target) →
      state.Adds setup.StaticCall (state.addFlow source target) :=
    fun rule => .same (State.addFlow_effects (.of_one rule reached)
      proper).edges_eq
  cases stmt with
  | new target type =>
      cases looked
      exact .same (State.place_effects (.of_one (.allocate here) reached)
        state).edges_eq
  | copy target source =>
      cases looked
      exact flow (.copy here)
  | loadStatic target field =>
      cases looked
      exact flow (.loadStatic here)
  | storeStatic field source =>
      cases looked
      exact flow (.storeStatic here)
  | invoke call =>
      simp only [lookAt] at looked
      split at looked
      · rename_i isStatic
        cases looked
        exact callStatic_adds coherent reached here isStatic proper
      · cases looked
      all_goals
        cases looked
        exact .same rfl
  | _ =>
      cases looked
      exact .same rfl

theorem lookAtAll_adds {stmts : List Stmt} {start : Nat}
    (stand : setup.Stand method.val start stmts) {state next : State}
    (proper : state.Proper setup entries)
    (looked : setup.lookAtAll method start stmts state = .ok next) :
    state.Adds setup.StaticCall next := by
  induction stmts generalizing start state with
  | nil =>
      cases looked
      exact .same rfl
  | cons stmt rest ih =>
      rw [lookAtAll, Checked.bind_eq_ok] at looked
      rcases looked with ⟨middle, first, others⟩
      have here := stand 0 stmt rfl
      have moves := lookAt_moves coherent reached here proper first
      exact (lookAt_adds coherent reached here proper first).trans
        (ih stand.tail (proper.moves moves) others)

end Look

/-! ## Using objects -/

section Use

variable (coherent : setup.program.Coherent) {entry : ContextVar}
  {obj : ContextObj}
  (points : Derivable setup entries (.points (.var entry) obj))
  (ordinary : ContextObj.isTaint obj = false)

include coherent points ordinary

/-- The other calls take effect for each object that arrives at their receivers.
-/
theorem use_adds {index : Nat} {stmt : Stmt} {use : Use}
    (here : setup.program.stmt? ⟨entry.val.method, index⟩ = some stmt)
    (used : stmt.use? = some (use, entry.val.name)) {state : State}
    (known : state.Proper setup entries ∧ obj ∈ state.objects.items) :
    state.Adds (setup.CallOn (.var entry) obj)
      (setup.use entry.context entry.val.method obj stmt index state) := by
  have reached : Derivable setup entries
      (.reached ⟨entry.context, entry.val.method⟩) := points.founded
  have flow : ∀ {source target : Pointer},
      Inference setup entries
        [.reached ⟨entry.context, entry.val.method⟩, .points (.var entry) obj]
        (.flows source target) →
      state.Adds (setup.CallOn (.var entry) obj)
        (state.addFlow source target) :=
    fun rule => .same (State.addFlow_effects (.of_two rule reached points)
      known.1).edges_eq
  cases stmt with
  | loadField target base field =>
      cases used
      exact flow (.loadField here ordinary)
  | storeField base field source =>
      cases used
      exact flow (.storeField here ordinary)
  | loadArray target base =>
      cases used
      exact flow (.loadArray here ordinary)
  | storeArray base source =>
      cases used
      exact flow (.storeArray here ordinary)
  | invoke call =>
      rcases Option.map_eq_some_iff.mp used with ⟨receiver, based, same⟩
      cases same
      exact callInstance_adds coherent reached here based ordinary points
        known.1 known.2
  | _ => cases used

theorem useAll_adds {state : State}
    (known : state.Proper setup entries ∧ obj ∈ state.objects.items) :
    state.Adds (setup.CallOn (.var entry) obj)
      (setup.useAll entry state obj) := by
  unfold useAll
  split
  · exact .same rfl
  rename_i method found
  split
  · exact .same rfl
  rename_i uses listed
  refine State.Adds.foldl
    (fun state => state.Proper setup entries ∧ obj ∈ state.objects.items)
    (fun index member state known => ⟨?_, ?_⟩) known
  · exact stays_known known
      (useAt_moves coherent points ordinary found listed member known)
  · rcases (uses.mem_uses index).mp member with ⟨use, recorded⟩
    rcases ((coherent.method found).1.mem_positions listed).mp recorded with
      ⟨stmt, here, used⟩
    simp only [here]
    rw [← Program.stmt?_of_method? found] at here
    exact use_adds coherent points ordinary here used known

end Use

/-- Using objects that arrive at a pointer adds the edges of calls on them. -/
theorem useNew_adds (coherent : setup.program.Coherent) {target : Pointer}
    {objects : List ContextObj} {state : State}
    (proper : state.Proper setup entries)
    (arrived : ∀ obj ∈ objects, ContextObj.isTaint obj = false ∧
      Derivable setup entries (.points target obj))
    (numbered : ∀ obj ∈ objects, obj ∈ state.objects.items) :
    state.Adds (fun edge => ∃ obj ∈ objects, setup.CallOn target obj edge)
      (setup.useNew target objects state) := by
  unfold useNew
  split
  · rename_i entry
    refine State.Adds.foldl (Later setup entries state)
      (fun obj member current later => ⟨?_, ?_⟩) (Later.refl proper)
    · have known := later.growth.objects.subset (numbered obj member)
      exact later.moves (useAll_moves coherent (arrived obj member).2
        (arrived obj member).1 ⟨later.proper, known⟩)
    · have known := later.growth.objects.subset (numbered obj member)
      refine (useAll_adds coherent (arrived obj member).2
        (arrived obj member).1 ⟨later.proper, known⟩).imp ?_
      intro edge called
      exact ⟨obj, member, called⟩
  · exact .same rfl

/-! ## Delivering -/

/-- Operations that leave the call graph alone do so one after the other. -/
theorem calls_foldl {α : Type} {step : State → α → State}
    (kept : ∀ state item, (step state item).calls = state.calls)
    (items : List α) (state : State) :
    (items.foldl step state).calls = state.calls := by
  induction items generalizing state with
  | nil => rfl
  | cons item rest ih => rw [List.foldl_cons, ih, kept]

theorem calls_forward (target : Pointer) (delta : ObjSet) (state : State) :
    (forward target delta state).calls = state.calls :=
  calls_foldl (fun _ _ => State.calls_push ..) _ _

theorem calls_forwardTaint (target : Pointer) (delta : ObjSet)
    (state : State) :
    (forwardTaint target delta state).calls = state.calls := by
  apply calls_foldl
  intro state edge
  rw [State.sendTaint, State.calls_push]
  apply calls_foldl
  exact fun _ _ => rfl

/-- A delivery adds edges for the objects that are new. -/
theorem deliver_adds (coherent : setup.program.Coherent) {work : Work}
    {state : State} (proper : state.Proper setup entries)
    (ready : state.Ready work) (justified : work.Justified setup entries)
    (new : delta work state ≠ []) :
    state.Adds (fun edge => ∃ obj ∈ delta work state,
        setup.CallOn work.target obj edge)
      (setup.deliver work state) := by
  have arrived := delta_arrived proper justified
  have numbered := delta_numbered proper ready
  have received := proper.receive ready.1 arrived numbered
  have forwards := forward_moves received arrived numbered
  have retags := forwardTaint_moves (received.moves forwards) arrived
  have sent := (Later.refl received).moves (forwards.trans retags)
  rw [deliver_of_ne_nil new]
  refine State.Adds.trans (.same ?_) ((useNew_adds coherent sent.proper
    (fun obj member => ?_) (fun obj member => ?_)).imp ?_)
  · rw [calls_forwardTaint, calls_forward]
    rfl
  · rw [State.mem_ordinary, State.mem_ordered] at member
    exact ⟨member.2, arrived obj member.1.2⟩
  · rw [State.mem_ordinary, State.mem_ordered] at member
    exact sent.growth.objects.subset member.1.1
  · rintro edge ⟨obj, member, called⟩
    rw [State.mem_ordinary, State.mem_ordered] at member
    exact ⟨obj, member.1.2, called⟩

end Setup

/-! ## Visited states are grounded -/

/-- The reason that a state has for a call edge. -/
def State.Grounds (setup : Setup) (state : State) (edge : CallEdge) : Prop :=
  setup.StaticCall edge ∨
    ∃ target, ∃ receiver ∈ state.store.get target,
      setup.CallOn target receiver edge

/-- Receivers stay where they are, so grounds stay good. -/
theorem State.Grounds.mono {before after : State} {edge : CallEdge}
    (grows : ∀ pointer, before.store.get pointer ⊆ after.store.get pointer)
    (grounds : before.Grounds setup edge) : after.Grounds setup edge := by
  rcases grounds with static | ⟨target, receiver, points, called⟩
  · exact .inl static
  · exact .inr ⟨target, receiver, grows target points, called⟩

/-- Every edge that a step adds has grounds in the state after it. -/
theorem Setup.step_grounds (coherent : setup.program.Coherent)
    {state next : State} (proper : state.Proper setup entries)
    (stepped : setup.step state = .advanced next)
    (grounded : ∀ edge ∈ state.calls.edges, state.Grounds setup edge) :
    ∀ edge ∈ next.calls.edges, next.Grounds setup edge := by
  rcases step_eq_advanced stepped with
    ⟨method, pending, popped, looked⟩ | ⟨work, worklist, _, popped, rfl⟩
  · have before := proper.popMethod popped
    rcases look_moves coherent proper popped looked with ⟨reached, moves⟩
    intro edge member
    rcases lookAtAll_adds coherent reached stand_bodyOf before looked edge
      member with old | static
    · apply (grounded edge old).mono
      intro pointer
      rw [moves.growth.get]
      exact List.Subset.refl _
    · exact .inl static
  · have queued : work ∈ state.worklist.toList := by simp [popped]
    have ready := proper.supported.ready work queued
    have justified := proper.justified.queued work queued
    have before := proper.popWork popped
    by_cases new : delta work { state with worklist } = []
    · rw [deliver_of_eq_nil new]
      exact grounded
    · have moves := (deliver_delivers coherent before ready justified
        new).moves
      intro edge member
      rcases deliver_adds coherent before ready justified new edge member with
        old | ⟨receiver, arrives, called⟩
      · apply (grounded edge old).mono
        intro pointer obj points
        rw [moves.growth.get]
        exact (State.mem_get_receive ready.1 pointer obj).mpr (.inl points)
      · refine .inr ⟨work.target, receiver, ?_, called⟩
        rw [moves.growth.get]
        exact (State.mem_get_receive ready.1 _ receiver).mpr
          (.inr ⟨rfl, arrives⟩)

/-- In every state that the solver visits, each call edge has its reason. -/
theorem Visits.grounds (coherent : setup.program.Coherent) {state : State}
    (visits : Visits setup entries state) :
    ∀ edge ∈ state.calls.edges, state.Grounds setup edge := by
  induction visits with
  | start entered =>
      have effects := Setup.enter_effects (fun _ member => member) entered
      rw [effects.edges_eq]
      nofun
  | step earlier stepped ih =>
      exact Setup.step_grounds coherent (earlier.proper coherent) stepped ih

end PointsTo
