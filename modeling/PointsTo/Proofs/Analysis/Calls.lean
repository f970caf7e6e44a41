import PointsTo.Proofs.Analysis.Operations

/-!
# What calls do

A new call edge makes its callee reachable, lets arguments and results flow and
applies the taint rules.  After `Setup.connect`, the edge is there and
everything that follows from it is met.
-/

namespace PointsTo

variable {setup : Setup} {entries : List MethodId}

theorem Program.stmt?_of_method? {program : Program} {id : MethodId}
    {method : Method} (found : program.method? id = some method)
    (index : Nat) : program.stmt? ⟨id, index⟩ = method.body[index]? := by
  simp [stmt?, found]

/-- The sources of one method are among all sources. -/
theorem Setup.length_sourcesOf_le {rules : Rules}
    (tracked : setup.rules = some rules) (method : MethodId) :
    (rules.sourcesOf method).length ≤ setup.sourceCount := by
  rw [sourceCount, tracked]
  exact List.length_filter_le ..

/-- A call edge has the kind of the invocation at its site. -/
theorem Derivable.called_invoke {edge : CallEdge}
    (derivable : Derivable setup entries (.called edge)) :
    ∃ call, setup.program.invoke? edge.site.val = some call ∧
      edge.kind = call.kind := by
  cases derivable with
  | infer rule _ =>
      cases rule with
      | callStatic here isStatic found =>
          exact ⟨_, (Program.invoke?_eq_some_iff _ _ _).mpr here, rfl⟩
      | callInstance here based ordinary found =>
          exact ⟨_, (Program.invoke?_eq_some_iff _ _ _).mpr here, rfl⟩

namespace Setup

/-- A call that has been found before changes nothing. -/
theorem connect_of_hasEdge {site : ContextSite} {call : Invoke}
    {callee : Method} {context : Context} {state : State}
    (present : state.calls.hasEdge site ⟨context, callee.id⟩ = true) :
    setup.connect site call callee context state = state := by
  simp [connect, present]

/-- What is done for a new call edge. -/
theorem connect_of_not_hasEdge (setup : Setup) {site : ContextSite}
    (call : Invoke) {callee : Method} {context : Context} {state : State}
    (absent : ¬ state.calls.hasEdge site ⟨context, callee.id⟩ = true) :
    state.calls.hasEdge site ⟨context, callee.id⟩ = false ∧
      setup.connect site call callee context state =
        setup.applyRules site call callee.id
          (passResult site call callee context
            (passArguments site call callee context
              ((state.withEdge (.ofCall site call callee context)).reach
                ⟨context, callee.id⟩))) := by
  refine ⟨eq_false_of_ne_true absent, ?_⟩
  simp only [connect]
  rw [if_neg absent]
  rfl

section Call

variable {site : ContextSite} {call : Invoke} {callee : Method}
  {context : Context}
  (derivable : Derivable setup entries
    (.called (.ofCall site call callee context)))
  (here : setup.program.invoke? site.val = some call)
  (found : setup.program.method? callee.id = some callee)

include derivable

/-- The variables of the caller belong to a reachable method. -/
theorem founded_atCaller (name : String) :
    (Pointer.ofVar site.context site.val.method name).Founded
      setup entries :=
  derivable.founded

include here

/-! ## Arguments and results -/

section Values

include found

/-- An argument flows to the parameter in its place. -/
theorem argument_effects {arg param : String}
    (paired : (arg, param) ∈ call.args.zip callee.params) {state : State}
    (proper : state.Proper setup entries) :
    Effects setup entries 0 state
      (state.addFlow (.ofVar site.context site.val.method arg)
        (.ofVar context callee.id param)) :=
  State.addFlow_effects
    (.of_one (.passArgument here found paired) derivable) proper

theorem passArguments_effects {state : State}
    (proper : state.Proper setup entries) :
    Effects setup entries 0 state
      (passArguments site call callee context state) :=
  Effects.foldl_free (fun _ paired _ =>
    argument_effects derivable here found paired) proper

theorem passArguments_meets {state : State}
    (proper : state.Proper setup entries) {arg param : String}
    (paired : (arg, param) ∈ call.args.zip callee.params) :
    (passArguments site call callee context state).Meets
      (.flows (.ofVar site.context site.val.method arg)
        (.ofVar context callee.id param)) :=
  Effects.foldl_meets (fun _ paired _ =>
      argument_effects derivable here found paired)
    proper paired fun proper =>
      Or.inl (State.holds_addFlow proper.supported.within ..)

variable (coherent : callee.Coherent)

include coherent

theorem result_effects {result value : String}
    (taken : call.result = some result) (returned : value ∈ callee.returns)
    {state : State} (proper : state.Proper setup entries) :
    Effects setup entries 0 state
      (state.addFlow (.ofVar context callee.id value)
        (.ofVar site.context site.val.method result)) := by
  obtain ⟨index, stmt⟩ := coherent.mem_returns.mp returned
  rw [← Program.stmt?_of_method? found] at stmt
  exact State.addFlow_effects
    (.of_one (.passResult here taken stmt) derivable) proper

/-- The result variable is created even if nothing is returned. -/
theorem passResult_effects {state : State}
    (proper : state.Proper setup entries) :
    Effects setup entries 0 state
      (passResult site call callee context state) := by
  unfold passResult
  split
  · exact .refl
  · rename_i result taken
    have touched := State.touch_effects
      (founded_atCaller derivable result) state
    exact touched.trans (Effects.foldl_free (fun _ returned _ =>
      result_effects derivable here found coherent taken returned)
      (proper.effects touched))

theorem passResult_meets {state : State}
    (proper : state.Proper setup entries) {result value : String}
    (taken : call.result = some result)
    (returned : value ∈ callee.returns) :
    (passResult site call callee context state).Meets
      (.flows (.ofVar context callee.id value)
        (.ofVar site.context site.val.method result)) := by
  have touched := State.touch_effects
    (founded_atCaller derivable result) state
  rw [passResult, taken]
  exact Effects.foldl_meets (fun _ returned _ =>
      result_effects derivable here found coherent taken returned)
    (proper.effects touched) returned fun proper =>
      Or.inl (State.holds_addFlow proper.supported.within ..)

end Values

/-! ## Taint rules -/

section Rules

variable {rules : Rules} (tracked : setup.rules = some rules)

include tracked

/-- A source sends one payload. -/
theorem source_effects {result : String} {rule : Source}
    (taken : call.result = some result)
    (member : rule ∈ rules.sourcesOf callee.id) (state : State) :
    Effects setup entries 1 state (applySource site result state rule) :=
  State.place_effects
    (.of_one (.source tracked here taken member) derivable) state

theorem applySources_effects {state : State}
    (proper : state.Proper setup entries) :
    Effects setup entries setup.sourceCount state
      (applySources rules site call callee.id state) := by
  unfold applySources
  split
  · exact .refl
  · rename_i result taken
    have applied := Effects.foldl (fun _ member state _ =>
      source_effects derivable here tracked taken member state) proper
    apply applied.weaken
    rw [Nat.one_mul]
    exact length_sourcesOf_le tracked callee.id

theorem applySources_meets {state : State}
    (proper : state.Proper setup entries) {result : String} {rule : Source}
    (taken : call.result = some result)
    (member : rule ∈ rules.sourcesOf callee.id) :
    (applySources rules site call callee.id state).Meets
      (.points (.ofVar site.context site.val.method result)
        (State.taintObj site.val rule.type)) := by
  rw [applySources, taken]
  exact Effects.foldl_meets (fun _ member state _ =>
      source_effects derivable here tracked taken member state)
    proper member fun _ => State.meets_push _ _ _ (List.mem_singleton.mpr rfl)

/-- One transfer rule creates the pointers of the slots that the call has and,
if it has both, lets taint flow between them. -/
theorem transfer_effects {rule : Transfer}
    (member : rule ∈ rules.transfersOf callee.id) {state : State}
    (proper : state.Proper setup entries) :
    Effects setup entries 0 state
      (applyTransfer site call state rule) := by
  have founded := founded_atCaller derivable
  unfold applyTransfer slotPointer
  cases sourced : call.inSlot? rule.source with
  | none =>
      cases targeted : call.inSlot? rule.target with
      | none => exact .refl
      | some target => exact State.touch_effects (founded target) state
  | some source =>
      cases targeted : call.inSlot? rule.target with
      | none => exact State.touch_effects (founded source) state
      | some target =>
          have touched := (State.touch_effects (founded source) state).trans
            (State.touch_effects (founded target) _)
          exact touched.trans (State.addTaintEdge_effects
            (.of_one (.transfer tracked here member sourced targeted)
              derivable)
            (proper.effects touched)
            ((Store.mem_pointers_touch _ _ _).mpr (Or.inr rfl)))

theorem applyTransfers_effects {state : State}
    (proper : state.Proper setup entries) :
    Effects setup entries 0 state
      (applyTransfers rules site call callee.id state) :=
  Effects.foldl_free (fun _ member _ proper =>
    transfer_effects derivable here tracked member proper) proper

theorem applyTransfers_meets {state : State}
    (proper : state.Proper setup entries) {rule : Transfer}
    {source target : String}
    (member : rule ∈ rules.transfersOf callee.id)
    (sourced : call.inSlot? rule.source = some source)
    (targeted : call.inSlot? rule.target = some target) :
    (applyTransfers rules site call callee.id state).Meets
      (.retags
        { source := .ofVar site.context site.val.method source
          target := .ofVar site.context site.val.method target
          type := rule.type }) := by
  refine Effects.foldl_meets (fun _ member _ proper =>
      transfer_effects derivable here tracked member proper)
    proper member fun _ => Or.inl ?_
  simp only [applyTransfer, slotPointer, sourced, targeted]
  exact State.holds_addTaintEdge ..

/-- Recording a sensitive argument, or warning that there is none, sends
nothing. -/
theorem sink_effects {rule : Sink} (member : rule ∈ rules.sinksOf callee.id)
    (state : State) :
    Effects setup entries 0 state
      (applySink site call callee.id state rule) := by
  unfold applySink
  split
  · rename_i sensitive
    exact State.addSinkCall_effects
      (.of_one (.sink tracked here member sensitive) derivable) state
  · exact .single (.report _)

theorem applySinks_effects {state : State}
    (proper : state.Proper setup entries) :
    Effects setup entries 0 state
      (applySinks rules site call callee.id state) :=
  Effects.foldl_free (fun _ member state _ =>
    sink_effects derivable here tracked member state) proper

/-- Every sink rule of the callee is recorded unless its index is beyond the
arguments. -/
theorem applySinks_meets {state : State}
    (proper : state.Proper setup entries) {rule : Sink}
    (member : rule ∈ rules.sinksOf callee.id)
    (sensitive : rule.index < call.args.length) :
    (applySinks rules site call callee.id state).Meets
      (.sinks ⟨site, rule.index⟩) := by
  refine Effects.foldl_meets (fun _ member state _ =>
      sink_effects derivable here tracked member state)
    proper member fun _ => Or.inl ?_
  rw [applySink, if_pos sensitive]
  exact State.holds_addSinkCall ..

end Rules

/-- Only sources send payloads that have to be paid for. -/
theorem applyRules_effects {state : State}
    (proper : state.Proper setup entries) :
    Effects setup entries setup.sourceCount state
      (setup.applyRules site call callee.id state) := by
  unfold applyRules
  split
  · exact .refl
  · rename_i rules tracked
    have sources := applySources_effects derivable here tracked proper
    have sourced := proper.effects sources
    have transfers := applyTransfers_effects derivable here tracked sourced
    have transferred := sourced.effects transfers
    have sinks := applySinks_effects derivable here tracked transferred
    exact (sources.trans transfers).trans sinks

/-- The facts that the taint rules derive from a call edge. -/
theorem applyRules_meets {rules : Rules} (tracked : setup.rules = some rules)
    {state : State} (proper : state.Proper setup entries) :
    (∀ {result : String} {rule : Source}, call.result = some result →
      rule ∈ rules.sourcesOf callee.id →
      (setup.applyRules site call callee.id state).Meets
        (.points (.ofVar site.context site.val.method result)
          (State.taintObj site.val rule.type))) ∧
    (∀ {rule : Transfer} {source target : String},
      rule ∈ rules.transfersOf callee.id →
      call.inSlot? rule.source = some source →
      call.inSlot? rule.target = some target →
      (setup.applyRules site call callee.id state).Meets
        (.retags
          { source := .ofVar site.context site.val.method source
            target := .ofVar site.context site.val.method target
            type := rule.type })) ∧
    ∀ {rule : Sink}, rule ∈ rules.sinksOf callee.id →
      rule.index < call.args.length →
      (setup.applyRules site call callee.id state).Meets
        (.sinks ⟨site, rule.index⟩) := by
  have sources := applySources_effects derivable here tracked proper
  have sourced := proper.effects sources
  have transfers := applyTransfers_effects derivable here tracked sourced
  have transferred := sourced.effects transfers
  have sinks := applySinks_effects derivable here tracked transferred
  rw [applyRules, tracked]
  refine ⟨?_, ?_, ?_⟩
  · intro result rule taken member
    exact (transfers.trans sinks).growth.meets
      (applySources_meets derivable here tracked proper taken member)
  · intro rule source target member first second
    exact sinks.growth.meets (applyTransfers_meets derivable here tracked
      sourced member first second)
  · intro rule member sensitive
    exact applySinks_meets derivable here tracked transferred member
      sensitive

/-! ## Call edges -/

include found

variable (coherent : callee.Coherent)

include coherent

/-- What is done for a new edge sends few payloads, and afterwards everything
that follows from the edge is met. -/
theorem connect_new {state : State} (proper : state.Proper setup entries) :
    let next := setup.applyRules site call callee.id
      (passResult site call callee context
        (passArguments site call callee context
          (state.reach ⟨context, callee.id⟩)))
    Effects setup entries setup.sourceCount state next ∧
      next.Links setup entries (.ofCall site call callee context) := by
  intro next
  have reached := State.reach_effects (.of_one .enter derivable) state
  have entered := proper.effects reached
  have arguments := passArguments_effects derivable here found entered
  have passed := entered.effects arguments
  have results := passResult_effects derivable here found coherent passed
  have returned := passed.effects results
  have rules := applyRules_effects derivable here returned
  refine ⟨(((reached.trans arguments).trans results).trans rules).weaken
    (by omega), ?_⟩
  have same : ∀ {other : Invoke},
      setup.program.invoke? site.val = some other → other = call :=
    fun other => Option.some.inj (other.symm.trans here)
  intro conclusion rule
  cases rule with
  | enter =>
      exact ((arguments.trans results).trans rules).growth.meets
        (Or.inl (State.holds_reach ..))
  | passArgument there known paired =>
      cases same there
      cases found.symm.trans known
      exact (results.trans rules).growth.meets
        (passArguments_meets derivable here found entered paired)
  | passResult there taken stmt =>
      cases same there
      rw [CallEdge.ofCall, Program.stmt?_of_method? found] at stmt
      exact rules.growth.meets (passResult_meets derivable here found
        coherent passed taken (coherent.mem_returns.mpr ⟨_, stmt⟩))
  | source tracked there taken member =>
      cases same there
      exact (applyRules_meets derivable here tracked returned).1 taken member
  | transfer tracked there member sourced targeted =>
      cases same there
      exact (applyRules_meets derivable here tracked returned).2.1 member
        sourced targeted
  | sink tracked there member sensitive =>
      cases same there
      exact (applyRules_meets derivable here tracked returned).2.2 member
        sensitive

/-- The payloads that a new call edge sends are paid for by the edge. -/
theorem connect_moves {state : State} (proper : state.Proper setup entries) :
    Moves setup entries 0 state
      (setup.connect site call callee context state) := by
  by_cases present : state.calls.hasEdge site ⟨context, callee.id⟩ = true
  · rw [connect_of_hasEdge present]
    exact .refl
  · obtain ⟨fresh, unfolded⟩ := connect_of_not_hasEdge setup call present
    obtain ⟨effects, links⟩ := connect_new derivable here found coherent
      (proper.addEdge fresh derivable)
    rw [unfolded]
    exact .link .refl fresh derivable effects (Nat.le_refl _) links
      (Nat.le_refl 0)

/-- The edge is there afterwards, because all edges of a call site are of the
kind of the call. -/
theorem connect_holds {state : State} (proper : state.Proper setup entries) :
    (setup.connect site call callee context state).Holds
      (.called (.ofCall site call callee context)) := by
  by_cases present : state.calls.hasEdge site ⟨context, callee.id⟩ = true
  · rw [connect_of_hasEdge present]
    obtain ⟨⟨kind, _, _⟩, member, rfl, rfl⟩ :=
      (CallGraph.hasEdge_iff _ _ _).mp present
    obtain ⟨other, there, rfl⟩ :=
      (proper.justified.facts
        (show state.Holds (.called _) from member)).called_invoke
    cases there.symm.trans here
    exact member
  · obtain ⟨fresh, unfolded⟩ := connect_of_not_hasEdge setup call present
    obtain ⟨effects, _⟩ := connect_new derivable here found coherent
      (proper.addEdge fresh derivable)
    rw [unfolded]
    apply effects.growth.holds
    rw [State.Holds, State.edges_withEdge fresh]
    exact List.mem_append_right _ (List.mem_singleton.mpr rfl)

end Call

/-! ## Calls in a method -/

/-- The method of a call site is numbered before the call site is. -/
theorem meetSite_effects {site : ContextSite}
    (reached : Derivable setup entries
      (.reached (ContextSite.container site))) (state : State) :
    Effects setup entries 0 state (state.meetSite site) := by
  unfold State.meetSite
  split
  · exact .refl
  · have met : Effects setup entries 0 state
        (state.meetMethod (ContextSite.container site)) :=
      .single (.meetMethod reached)
    exact .tail met
      (.meetSite ((Numbering.mem_request _ _ _).mpr (Or.inr rfl)))
      (Nat.le_refl 0)

/-- The two ends of a call are numbered before the call is connected. -/
theorem meetEnds_effects {site : ContextSite} {call : Invoke}
    {callee : Method} {context : Context}
    (derivable : Derivable setup entries
      (.called (.ofCall site call callee context))) (state : State) :
    Effects setup entries 0 state
      ((state.meetSite site).meetMethod ⟨context, callee.id⟩) :=
  .tail (meetSite_effects derivable.founded state)
    (.meetMethod (.of_one .enter derivable)) (Nat.le_refl 0)

/-- The receiver is sent to the receiver variable of the callee. -/
theorem bindThis_effects {callee : Method} {context : Context}
    {receiver : ContextObj}
    (points : ∀ {this : String}, callee.this? = some this →
      Derivable setup entries
        (.points (.ofVar context callee.id this) receiver))
    {state : State} (numbered : receiver ∈ state.objects.items) :
    Effects setup entries 1 state
      (bindThis callee context receiver state) := by
  unfold bindThis
  split
  · exact .refl
  · rename_i this bound
    have founded : (Pointer.ofVar context callee.id this).Founded
        setup entries := (points bound).founded
    have touched := State.touch_effects founded state
    have ready : (state.touch (.ofVar context callee.id this)).Ready
        ⟨.ofVar context callee.id this, .fixed [receiver]⟩ := by
      refine ⟨(Store.mem_pointers_touch _ _ _).mpr (Or.inr rfl), ?_⟩
      intro obj member
      rw [List.mem_singleton.mp member]
      exact numbered
    have sent := State.push_effects ready fun obj member => by
      rw [List.mem_singleton.mp member]
      exact points bound
    exact (touched.trans sent).weaken (Nat.le_refl 1)

/-- The receiver arrives there, or it is on its way. -/
theorem bindThis_meets {callee : Method} {this : String}
    (bound : callee.this? = some this) (context : Context)
    (receiver : ContextObj) (state : State) :
    (bindThis callee context receiver state).Meets
      (.points (.ofVar context callee.id this) receiver) := by
  rw [bindThis, bound]
  exact State.meets_push _ _ _ (List.mem_singleton.mpr rfl)

section Invocation

variable (coherent : setup.program.Coherent) {method : ContextMethod}
  {index : Nat} {call : Invoke}
  (reached : Derivable setup entries (.reached method))
  (here : setup.program.stmt? ⟨method.val, index⟩ = some (.invoke call))

include coherent reached here

theorem callStatic_moves (isStatic : call.kind = .static) {state : State}
    (proper : state.Proper setup entries) :
    Moves setup entries 0 state
      (setup.callStatic (method.site index) call state) := by
  unfold callStatic
  split
  · exact .ofEffects (.single (.report _))
  · rename_i callee found
    have derivable : Derivable setup entries
        (.called (setup.staticEdge (method.site index) call callee)) :=
      .of_one (.callStatic here isStatic found) reached
    have known := coherent.callee? found
    have met := meetEnds_effects derivable state
    exact (Moves.ofEffects met).trans (connect_moves derivable
      ((Program.invoke?_eq_some_iff _ _ _).mpr here) known
      (coherent.method known).1 (proper.effects met))

/-- A static call that finds its callee has an edge to it. -/
theorem callStatic_holds (isStatic : call.kind = .static)
    {callee : Method} (found : setup.program.callee? none call = some callee)
    {state : State} (proper : state.Proper setup entries) :
    (setup.callStatic (method.site index) call state).Holds
      (.called (setup.staticEdge (method.site index) call callee)) := by
  have derivable : Derivable setup entries
      (.called (setup.staticEdge (method.site index) call callee)) :=
    .of_one (.callStatic here isStatic found) reached
  have known := coherent.callee? found
  rw [callStatic, found]
  exact connect_holds derivable
    ((Program.invoke?_eq_some_iff _ _ _).mpr here) known
    (coherent.method known).1
    (proper.effects (meetEnds_effects derivable state))

section Receiver

variable {base : String} {receiver : ContextObj}
  (based : call.receiver = some base)
  (ordinary : ContextObj.isTaint receiver = false)
  (points : Derivable setup entries
    (.points (method.pointer base) receiver))

include based ordinary points

omit coherent in
theorem callInstance_bound {callee : Method}
    (found : setup.program.callee? (some receiver.val.type) call =
      some callee)
    {state : State} (numbered : receiver ∈ state.objects.items) :
    let context := setup.selector.instanceCallee (method.site index) receiver
    Effects setup entries 1 state
      (bindThis callee context receiver
        ((state.meetSite (method.site index)).meetMethod
          ⟨context, callee.id⟩)) := by
  intro context
  have derivable : Derivable setup entries (.called
      (setup.instanceEdge (method.site index) call receiver callee)) :=
    .of_two (.callInstance here based ordinary found) reached points
  have bound : ∀ {this : String}, callee.this? = some this →
      Derivable setup entries
        (.points (.ofVar context callee.id this) receiver) :=
    fun bound =>
      .of_two (.bindThis here based ordinary found bound) reached points
  have met := meetEnds_effects derivable state
  exact (met.trans (bindThis_effects bound
    (met.growth.objects.subset numbered))).weaken (Nat.le_refl 1)

/-- A receiver is bound at every call, also if the edge is known. -/
theorem callInstance_moves {state : State}
    (proper : state.Proper setup entries)
    (numbered : receiver ∈ state.objects.items) :
    Moves setup entries 1 state
      (setup.callInstance (method.site index) call receiver state) := by
  unfold callInstance
  split
  · exact .ofEffects ((Effects.single (.report _)).weaken (Nat.zero_le 1))
  · rename_i callee found
    have known := coherent.callee? found
    have bound := callInstance_bound reached here based ordinary points
      found numbered
    exact (Moves.ofEffects bound).trans (connect_moves
      (.of_two (.callInstance here based ordinary found) reached points)
      ((Program.invoke?_eq_some_iff _ _ _).mpr here) known
      (coherent.method known).1 (proper.effects bound))

/-- A call on a receiver has its edge and binds the receiver variable. -/
theorem callInstance_meets {callee : Method}
    (found : setup.program.callee? (some receiver.val.type) call =
      some callee)
    {state : State} (proper : state.Proper setup entries)
    (numbered : receiver ∈ state.objects.items) :
    let edge := setup.instanceEdge (method.site index) call receiver callee
    (setup.callInstance (method.site index) call receiver state).Holds
        (.called edge) ∧
      ∀ {this : String}, callee.this? = some this →
        (setup.callInstance (method.site index) call receiver state).Meets
          (.points (edge.atCallee this) receiver) := by
  intro edge
  have known := coherent.callee? found
  have derivable : Derivable setup entries (.called edge) :=
    .of_two (.callInstance here based ordinary found) reached points
  have bound := callInstance_bound reached here based ordinary points found
    numbered
  have there := (Program.invoke?_eq_some_iff _ _ _).mpr here
  have recorded := (coherent.method known).1
  rw [callInstance, found]
  refine ⟨connect_holds derivable there known recorded
    (proper.effects bound), fun isThis => ?_⟩
  exact (connect_moves derivable there known recorded
    (proper.effects bound)).growth.meets (bindThis_meets isThis ..)

end Receiver

end Invocation

end Setup

end PointsTo
