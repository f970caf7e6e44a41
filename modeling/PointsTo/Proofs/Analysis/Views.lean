import PointsTo.Proofs.Analysis.Answers

/-!
# Coarser views of an analysis

Two analyses of one program can be compared when the contexts of the first can
be seen as contexts of the second.  A `View` says what becomes of the contexts
of methods and of objects.  It abstracts the first analysis to the second if
selecting a context and changing the view can be interchanged, and if whatever
taint rules the first analysis has the second one has as well.

Then every rule of the first analysis is, in this view, a rule of the second
one.  So every derivable fact of the first analysis is one of the second, and
what the first analysis answers without contexts is contained in what the
second one answers.
-/

namespace PointsTo

/-! ## Views -/

/-- What becomes of the contexts of methods and of objects. -/
structure View where
  method : Context → Context
  heap : Context → Context

namespace View

variable (view : View)

def contextMethod (method : ContextMethod) : ContextMethod :=
  ⟨view.method method.context, method.val⟩

def site (site : ContextSite) : ContextSite :=
  ⟨view.method site.context, site.val⟩

def obj (obj : ContextObj) : ContextObj :=
  ⟨view.heap obj.context, obj.val⟩

def pointer : Pointer → Pointer
  | .var entry => .var ⟨view.method entry.context, entry.val⟩
  | .field base field => .field (view.obj base) field
  | .array base => .array (view.obj base)
  | .static field => .static field

def callEdge (edge : CallEdge) : CallEdge :=
  { kind := edge.kind
    site := view.site edge.site
    callee := view.contextMethod edge.callee }

def taintEdge (edge : TaintEdge) : TaintEdge :=
  { source := view.pointer edge.source
    target := view.pointer edge.target
    type := edge.type }

/-- A fact in another view. -/
def fact : Fact → Fact
  | .reached method => .reached (view.contextMethod method)
  | .called edge => .called (view.callEdge edge)
  | .flows source target => .flows (view.pointer source) (view.pointer target)
  | .points pointer obj => .points (view.pointer pointer) (view.obj obj)
  | .retags edge => .retags (view.taintEdge edge)
  | .sinks call => .sinks ⟨view.site call.site, call.index⟩

/-- The view in which nothing changes. -/
def same : View :=
  ⟨fun context => context, fun context => context⟩

@[simp]
theorem fact_same (fact : Fact) : same.fact fact = fact := by
  have pointers : ∀ pointer, same.pointer pointer = pointer := by
    intro pointer
    cases pointer <;> rfl
  cases fact with
  | flows source target => simp [View.fact, pointers]
  | points pointer obj =>
      rw [View.fact, pointers]
      rfl
  | retags edge => simp [View.fact, taintEdge, pointers]
  | _ => rfl

end View

/-- Every rule of one configuration is in the other. -/
structure Rules.Within (rules more : Rules) : Prop where
  sources : rules.sources ⊆ more.sources
  sinks : rules.sinks ⊆ more.sinks
  transfers : rules.transfers ⊆ more.transfers

namespace Rules.Within

theorem refl (rules : Rules) : rules.Within rules :=
  ⟨List.Subset.refl _, List.Subset.refl _, List.Subset.refl _⟩

variable {rules more : Rules} (within : rules.Within more)
  {method : MethodId}

include within

theorem sourcesOf : rules.sourcesOf method ⊆ more.sourcesOf method :=
  List.filter_subset _ within.sources

theorem sinksOf : rules.sinksOf method ⊆ more.sinksOf method :=
  List.filter_subset _ within.sinks

theorem transfersOf : rules.transfersOf method ⊆ more.transfersOf method :=
  List.filter_subset _ within.transfers

end Rules.Within

/-- In this view, what `fine` does is done by `coarse`. -/
structure View.Abstracts (view : View) (fine coarse : Setup) : Prop where
  program : coarse.program = fine.program
  /-- Entries and taint objects are under the empty context. -/
  entered : view.method [] = []
  untouched : view.heap [] = []
  ofClass : ∀ site : ContextSite,
    coarse.selector.staticCallee (view.site site) =
      view.method (fine.selector.staticCallee site)
  ofReceiver : ∀ (site : ContextSite) (receiver : ContextObj),
    coarse.selector.instanceCallee (view.site site) (view.obj receiver) =
      view.method (fine.selector.instanceCallee site receiver)
  allocates : ∀ context,
    coarse.selector.heap (view.method context) =
      view.heap (fine.selector.heap context)
  rules : ∀ rules, fine.rules = some rules →
    ∃ more, coarse.rules = some more ∧ rules.Within more

namespace View.Abstracts

variable {view : View} {fine coarse : Setup}
  (abstracts : view.Abstracts fine coarse)

include abstracts

theorem coherent_program (coherent : fine.program.Coherent) :
    coarse.program.Coherent := by
  rw [abstracts.program]
  exact coherent

/-! ## Rules in another view -/

theorem obj_allocated (method : ContextMethod) (index : Nat)
    (target : String) (type : Ty) :
    view.obj (fine.allocated method index target type) =
      coarse.allocated (view.contextMethod method) index target type := by
  simp only [View.obj, Setup.allocated, View.contextMethod,
    abstracts.allocates]

theorem obj_taintObj (source : Site) (type : Ty) :
    view.obj (State.taintObj source type) = State.taintObj source type := by
  simp only [View.obj, State.taintObj, abstracts.untouched]

theorem callEdge_staticEdge (site : ContextSite) (call : Invoke)
    (callee : Method) :
    view.callEdge (fine.staticEdge site call callee) =
      coarse.staticEdge (view.site site) call callee := by
  simp only [View.callEdge, Setup.staticEdge, CallEdge.ofCall,
    View.contextMethod, abstracts.ofClass]

theorem callEdge_instanceEdge (site : ContextSite) (call : Invoke)
    (receiver : ContextObj) (callee : Method) :
    view.callEdge (fine.instanceEdge site call receiver callee) =
      coarse.instanceEdge (view.site site) call (view.obj receiver)
        callee := by
  simp only [View.callEdge, Setup.instanceEdge, CallEdge.ofCall,
    View.contextMethod, abstracts.ofReceiver]

/-- A rule of the finer analysis is, in this view, one of the coarser. -/
theorem inference {entries more : List MethodId} (included : entries ⊆ more)
    {premises : List Fact} {conclusion : Fact}
    (rule : Inference fine entries premises conclusion) :
    Inference coarse more (premises.map view.fact)
      (view.fact conclusion) := by
  have allocated := abstracts.obj_allocated
  have taintObj := abstracts.obj_taintObj
  have staticEdge := abstracts.callEdge_staticEdge
  have instanceEdge := abstracts.callEdge_instanceEdge
  have entered := abstracts.entered
  have extended := abstracts.rules
  -- Once the programs are one, only contexts differ: a rule that selects none
  -- applies as it is.
  obtain ⟨program, _, _⟩ := fine
  obtain ⟨_, _, _⟩ := coarse
  obtain rfl := abstracts.program
  cases rule with
  | entry member =>
      show Inference _ _ [] (.reached ⟨view.method [], _⟩)
      rw [entered]
      exact .entry (included member)
  | allocate here =>
      show Inference _ _ _ (.points _ (view.obj _))
      rw [allocated]
      exact .allocate here
  | copy here => exact .copy here
  | loadStatic here => exact .loadStatic here
  | storeStatic here => exact .storeStatic here
  | callStatic here isStatic found =>
      show Inference _ _ _ (.called (view.callEdge _))
      rw [staticEdge]
      exact .callStatic here isStatic found
  | loadField here ordinary => exact .loadField here ordinary
  | storeField here ordinary => exact .storeField here ordinary
  | loadArray here ordinary => exact .loadArray here ordinary
  | storeArray here ordinary => exact .storeArray here ordinary
  | callInstance here based ordinary found =>
      show Inference _ _ _ (.called (view.callEdge _))
      rw [instanceEdge]
      exact .callInstance here based ordinary found
  | @bindThis method index call base this receiver callee here based ordinary
      found bound =>
      show Inference _ _ _ (.points ((view.callEdge _).atCallee this) _)
      rw [instanceEdge]
      exact .bindThis here based ordinary found bound
  | enter => exact .enter
  | passArgument here found paired =>
      exact .passArgument here found paired
  | passResult here taken returned =>
      exact .passResult here taken returned
  | flow => exact .flow
  | source tracked here taken member =>
      obtain ⟨_, present, within⟩ := extended _ tracked
      show Inference _ _ _ (.points _ (view.obj _))
      rw [taintObj]
      exact .source present here taken (within.sourcesOf member)
  | transfer tracked here member sourced targeted =>
      obtain ⟨_, present, within⟩ := extended _ tracked
      exact .transfer present here (within.transfersOf member) sourced
        targeted
  | retag taint =>
      show Inference _ _ _ (.points _ (view.obj _))
      rw [taintObj]
      exact .retag taint
  | sink tracked here member sensitive =>
      obtain ⟨_, present, within⟩ := extended _ tracked
      exact .sink present here (within.sinksOf member) sensitive

theorem derivable {entries more : List MethodId} (included : entries ⊆ more)
    {fact : Fact} (derivable : Derivable fine entries fact) :
    Derivable coarse more (view.fact fact) := by
  induction derivable with
  | infer rule _ ih =>
      refine .infer (abstracts.inference included rule) fun premise member => ?_
      obtain ⟨earlier, listed, rfl⟩ := List.mem_map.mp member
      exact ih earlier listed

end View.Abstracts

/-! ## Results in another view -/

/-- What one result says without contexts is contained in what the other one
says. -/
structure Result.Within (fine coarse : Result) : Prop where
  objects : ∀ var, fine.pointsToInsensitive var ⊆
    coarse.pointsToInsensitive var
  methods : fine.reachableMethods ⊆ coarse.reachableMethods
  callees : ∀ site, fine.callees site ⊆ coarse.callees site
  flows : fine.flows ⊆ coarse.flows
  aliases : ∀ first second, fine.mayAlias first second = true →
    coarse.mayAlias first second = true

/-- One analysis succeeds if the other one does, and then their results are
related. -/
structure Answer.Below (relation : Result → Result → Prop)
    (lower upper : Answer) : Prop where
  succeeds : (∃ result log, upper = .success result log) →
    ∃ result log, lower = .success result log
  related : ∀ {lowerResult lowerLog upperResult upperLog},
    lower = .success lowerResult lowerLog →
    upper = .success upperResult upperLog →
    relation lowerResult upperResult

/-- Methods that can be entered are not abstract. -/
theorem Setup.concrete_of_enter {setup : Setup} {ids : List MethodId}
    {state next : State} (entered : setup.enter ids state = .ok next) :
    ∀ id ∈ ids, (setup.program.method? id).any Method.isAbstract = false := by
  induction ids generalizing state with
  | nil => simp
  | cons first rest ih =>
      rw [Setup.enter] at entered
      split at entered
      · cases entered
      · rename_i concrete
        intro id member
        rcases List.mem_cons.mp member with rfl | later
        · exact Bool.eq_false_iff.mpr concrete
        · exact ih entered id later

namespace View.Abstracts

variable {view : View} {fine coarse : Setup}
  (abstracts : view.Abstracts fine coarse)
  (coherent : fine.program.Coherent) {entries more : List MethodId}
  (included : fine.starts entries ⊆ coarse.starts more)

include abstracts coherent included

/-- The finer analysis succeeds if it has something to start from and the
coarser one succeeds. -/
theorem exists_success (given : fine.starts entries ≠ [])
    (succeeds : ∃ result log, coarse.analyze more = .success result log) :
    ∃ result log, fine.analyze entries = .success result log := by
  have same := abstracts.program
  have coarseCoherent := abstracts.coherent_program coherent
  obtain ⟨completes, inside⟩ :=
    (Setup.exists_success_iff coarseCoherent).mp succeeds
  obtain ⟨_, ⟨start, entered⟩, known⟩ :=
    (Setup.exists_completes_iff coarseCoherent).mp completes
  have concrete := Setup.concrete_of_enter entered
  rw [same] at concrete
  refine (Setup.exists_success_iff coherent).mpr
    ⟨(Setup.exists_completes_iff coherent).mpr ⟨given, ?_, ?_⟩, ?_⟩
  · exact Setup.exists_enter
      (fun id member => concrete id (included member)) {}
  · intro method reached
    have seen := known _ (abstracts.derivable included reached)
    unfold Setup.Knows at seen ⊢
    rwa [same] at seen
  · intro call recorded
    have seen := abstracts.derivable included recorded
    exact inside ⟨view.site call.site, call.index⟩ seen

variable {fineResult coarseResult : Result} {fineLog coarseLog : Log}
  (fineAnalyzed : fine.analyze entries = .success fineResult fineLog)
  (coarseAnalyzed : coarse.analyze more = .success coarseResult coarseLog)

include fineAnalyzed coarseAnalyzed

theorem holds {fact : Fact} (held : fineResult.state.Holds fact) :
    coarseResult.state.Holds (view.fact fact) := by
  have coarseCoherent := abstracts.coherent_program coherent
  rw [Setup.holds_iff_of_success coarseCoherent coarseAnalyzed]
  exact abstracts.derivable included
    ((Setup.holds_iff_of_success coherent fineAnalyzed fact).mp held)

theorem flows_subset : fineResult.flows ⊆ coarseResult.flows := by
  have coarseCoherent := abstracts.coherent_program coherent
  intro flow member
  rw [Setup.mem_flows_iff coherent fineAnalyzed] at member
  obtain ⟨context, invoke, arg, obj, recorded, here, taken, points, taint,
    came⟩ := member
  rw [Setup.mem_flows_iff coarseCoherent coarseAnalyzed, abstracts.program]
  exact ⟨view.method context, invoke, arg, view.obj obj,
    abstracts.derivable included recorded, here, taken,
    abstracts.derivable included points, taint, came⟩

theorem within : fineResult.Within coarseResult := by
  have coarseCoherent := abstracts.coherent_program coherent
  have carried : ∀ {fact}, Derivable fine (fine.starts entries) fact →
      Derivable coarse (coarse.starts more) (view.fact fact) :=
    abstracts.derivable included
  constructor
  · intro var obj member
    rw [Setup.mem_pointsToInsensitive_iff coherent fineAnalyzed] at member
    obtain ⟨context, heap, points⟩ := member
    rw [Setup.mem_pointsToInsensitive_iff coarseCoherent coarseAnalyzed]
    exact ⟨view.method context, view.heap heap, carried points⟩
  · intro id member
    rw [Setup.mem_reachableMethods_iff coherent fineAnalyzed] at member
    obtain ⟨context, reached⟩ := member
    rw [Setup.mem_reachableMethods_iff coarseCoherent coarseAnalyzed]
    exact ⟨view.method context, carried reached⟩
  · intro site id member
    rw [Setup.mem_callees_iff coherent fineAnalyzed] at member
    obtain ⟨edge, called, leaves, arrives⟩ := member
    rw [Setup.mem_callees_iff coarseCoherent coarseAnalyzed]
    exact ⟨view.callEdge edge, carried called, leaves, arrives⟩
  · exact abstracts.flows_subset coherent included fineAnalyzed coarseAnalyzed
  · intro first second common
    rw [Setup.mayAlias_iff coherent fineAnalyzed] at common
    obtain ⟨obj, ⟨context, here⟩, other, there⟩ := common
    rw [Setup.mayAlias_iff coarseCoherent coarseAnalyzed]
    exact ⟨view.obj obj, ⟨view.method context, carried here⟩,
      view.method other, carried there⟩

end View.Abstracts

end PointsTo
