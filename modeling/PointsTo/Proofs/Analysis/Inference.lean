import PointsTo.Analysis.Step

/-!
# The rules of the analysis

What the analysis may find out, said without queues, numbers and orders.  A
`Fact` is one thing that can be found out, and `Inference` lists the rules by
which facts follow from others: one rule for each form of statement, and the
rules for call edges, flow edges and taint.  `Derivable` facts are those with a
finite derivation; they form the least set that is `Closed` under the rules.
-/

namespace PointsTo

/-- Something that the analysis can find out. -/
inductive Fact where
  /-- A method is reachable under a context. -/
  | reached (method : ContextMethod)
  /-- A call site calls a method. -/
  | called (edge : CallEdge)
  /-- What `source` points to, `target` points to as well. -/
  | flows (source target : Pointer)
  | points (pointer : Pointer) (obj : ContextObj)
  /-- Taint flows along an edge and changes its type. -/
  | retags (edge : TaintEdge)
  /-- A sink is called, with a sensitive argument. -/
  | sinks (call : SinkCall)
deriving DecidableEq

namespace CallEdge

/-- The edge of a call from a site to a method under a context. -/
def ofCall (site : ContextSite) (call : Invoke) (callee : Method)
    (context : Context) : CallEdge :=
  { kind := call.kind, site, callee := ⟨context, callee.id⟩ }

/-- The pointer of a variable of the caller. -/
def atCaller (edge : CallEdge) (name : String) : Pointer :=
  .ofVar edge.site.context edge.site.val.method name

/-- The pointer of a variable of the callee. -/
def atCallee (edge : CallEdge) (name : String) : Pointer :=
  .ofVar edge.callee.context edge.callee.val name

end CallEdge

namespace Setup

/-- The edge of a static call at a site. -/
def staticEdge (setup : Setup) (site : ContextSite) (call : Invoke)
    (callee : Method) : CallEdge :=
  .ofCall site call callee (setup.selector.staticCallee site)

/-- The edge of a call on a receiver at a site. -/
def instanceEdge (setup : Setup) (site : ContextSite) (call : Invoke)
    (receiver : ContextObj) (callee : Method) : CallEdge :=
  .ofCall site call callee (setup.selector.instanceCallee site receiver)

/-- The object that a statement of a method under a context allocates. -/
def allocated (setup : Setup) (method : ContextMethod) (index : Nat)
    (target : String) (type : Ty) : ContextObj :=
  ⟨setup.selector.heap method.context,
    .alloc ⟨method.val, index⟩ target type⟩

end Setup

/-- The pointer of a variable of a method under a context. -/
def ContextMethod.pointer (method : ContextMethod) (name : String) : Pointer :=
  .ofVar method.context method.val name

/-- The position of a statement of a method under a context. -/
def ContextMethod.site (method : ContextMethod) (index : Nat) : ContextSite :=
  ⟨method.context, ⟨method.val, index⟩⟩

open ContextMethod (pointer site)

/--
One rule of the analysis: the conclusion follows from the premises.  Accesses
to fields and arrays and calls on a receiver concern ordinary objects only, and
only taint is retagged.
-/
inductive Inference (setup : Setup) (entries : List MethodId) :
    List Fact → Fact → Prop where
  | entry {id : MethodId} (member : id ∈ entries) :
      Inference setup entries [] (.reached ⟨[], id⟩)
  | allocate {method : ContextMethod} {index : Nat} {target : String}
      {type : Ty}
      (here : setup.program.stmt? ⟨method.val, index⟩ =
        some (.new target type)) :
      Inference setup entries [.reached method]
        (.points (pointer method target)
          (setup.allocated method index target type))
  | copy {method : ContextMethod} {index : Nat} {target source : String}
      (here : setup.program.stmt? ⟨method.val, index⟩ =
        some (.copy target source)) :
      Inference setup entries [.reached method]
        (.flows (pointer method source) (pointer method target))
  | loadStatic {method : ContextMethod} {index : Nat} {target : String}
      {field : Field}
      (here : setup.program.stmt? ⟨method.val, index⟩ =
        some (.loadStatic target field)) :
      Inference setup entries [.reached method]
        (.flows (.static field) (pointer method target))
  | storeStatic {method : ContextMethod} {index : Nat} {source : String}
      {field : Field}
      (here : setup.program.stmt? ⟨method.val, index⟩ =
        some (.storeStatic field source)) :
      Inference setup entries [.reached method]
        (.flows (pointer method source) (.static field))
  | callStatic {method : ContextMethod} {index : Nat} {call : Invoke}
      {callee : Method}
      (here : setup.program.stmt? ⟨method.val, index⟩ =
        some (.invoke call))
      (isStatic : call.kind = .static)
      (found : setup.program.callee? none call = some callee) :
      Inference setup entries [.reached method]
        (.called (setup.staticEdge (site method index) call callee))
  | loadField {method : ContextMethod} {index : Nat} {target base : String}
      {field : Field} {obj : ContextObj}
      (here : setup.program.stmt? ⟨method.val, index⟩ =
        some (.loadField target base field))
      (ordinary : ContextObj.isTaint obj = false) :
      Inference setup entries
        [.reached method, .points (pointer method base) obj]
        (.flows (.field obj field) (pointer method target))
  | storeField {method : ContextMethod} {index : Nat} {base source : String}
      {field : Field} {obj : ContextObj}
      (here : setup.program.stmt? ⟨method.val, index⟩ =
        some (.storeField base field source))
      (ordinary : ContextObj.isTaint obj = false) :
      Inference setup entries
        [.reached method, .points (pointer method base) obj]
        (.flows (pointer method source) (.field obj field))
  | loadArray {method : ContextMethod} {index : Nat} {target base : String}
      {obj : ContextObj}
      (here : setup.program.stmt? ⟨method.val, index⟩ =
        some (.loadArray target base))
      (ordinary : ContextObj.isTaint obj = false) :
      Inference setup entries
        [.reached method, .points (pointer method base) obj]
        (.flows (.array obj) (pointer method target))
  | storeArray {method : ContextMethod} {index : Nat} {base source : String}
      {obj : ContextObj}
      (here : setup.program.stmt? ⟨method.val, index⟩ =
        some (.storeArray base source))
      (ordinary : ContextObj.isTaint obj = false) :
      Inference setup entries
        [.reached method, .points (pointer method base) obj]
        (.flows (pointer method source) (.array obj))
  | callInstance {method : ContextMethod} {index : Nat} {call : Invoke}
      {base : String} {receiver : ContextObj} {callee : Method}
      (here : setup.program.stmt? ⟨method.val, index⟩ =
        some (.invoke call))
      (based : call.receiver = some base)
      (ordinary : ContextObj.isTaint receiver = false)
      (found : setup.program.callee? (some receiver.val.type) call =
        some callee) :
      Inference setup entries
        [.reached method, .points (pointer method base) receiver]
        (.called (setup.instanceEdge (site method index) call receiver callee))
  | bindThis {method : ContextMethod} {index : Nat} {call : Invoke}
      {base this : String} {receiver : ContextObj} {callee : Method}
      (here : setup.program.stmt? ⟨method.val, index⟩ =
        some (.invoke call))
      (based : call.receiver = some base)
      (ordinary : ContextObj.isTaint receiver = false)
      (found : setup.program.callee? (some receiver.val.type) call =
        some callee)
      (bound : callee.this? = some this) :
      Inference setup entries
        [.reached method, .points (pointer method base) receiver]
        (.points
          ((setup.instanceEdge (site method index) call receiver
            callee).atCallee this)
          receiver)
  | enter {edge : CallEdge} :
      Inference setup entries [.called edge] (.reached edge.callee)
  | passArgument {edge : CallEdge} {call : Invoke} {callee : Method}
      {arg param : String}
      (here : setup.program.invoke? edge.site.val = some call)
      (found : setup.program.method? edge.callee.val = some callee)
      (paired : (arg, param) ∈ call.args.zip callee.params) :
      Inference setup entries [.called edge]
        (.flows (edge.atCaller arg) (edge.atCallee param))
  | passResult {edge : CallEdge} {call : Invoke} {result value : String}
      {index : Nat}
      (here : setup.program.invoke? edge.site.val = some call)
      (taken : call.result = some result)
      (returned : setup.program.stmt? ⟨edge.callee.val, index⟩ =
        some (.ret (some value))) :
      Inference setup entries [.called edge]
        (.flows (edge.atCallee value) (edge.atCaller result))
  | flow {source target : Pointer} {obj : ContextObj} :
      Inference setup entries [.flows source target, .points source obj]
        (.points target obj)
  | source {edge : CallEdge} {call : Invoke} {rules : Rules} {rule : Source}
      {result : String}
      (tracked : setup.rules = some rules)
      (here : setup.program.invoke? edge.site.val = some call)
      (taken : call.result = some result)
      (member : rule ∈ rules.sourcesOf edge.callee.val) :
      Inference setup entries [.called edge]
        (.points (edge.atCaller result)
          (State.taintObj edge.site.val rule.type))
  | transfer {edge : CallEdge} {call : Invoke} {rules : Rules}
      {rule : Transfer} {source target : String}
      (tracked : setup.rules = some rules)
      (here : setup.program.invoke? edge.site.val = some call)
      (member : rule ∈ rules.transfersOf edge.callee.val)
      (sourced : call.inSlot? rule.source = some source)
      (targeted : call.inSlot? rule.target = some target) :
      Inference setup entries [.called edge]
        (.retags
          { source := edge.atCaller source
            target := edge.atCaller target
            type := rule.type })
  | retag {edge : TaintEdge} {obj : ContextObj}
      (taint : ContextObj.isTaint obj = true) :
      Inference setup entries [.retags edge, .points edge.source obj]
        (.points edge.target (State.taintObj obj.val.site edge.type))
  | sink {edge : CallEdge} {call : Invoke} {rules : Rules} {rule : Sink}
      (tracked : setup.rules = some rules)
      (here : setup.program.invoke? edge.site.val = some call)
      (member : rule ∈ rules.sinksOf edge.callee.val)
      (sensitive : rule.index < call.args.length) :
      Inference setup entries [.called edge]
        (.sinks ⟨edge.site, rule.index⟩)

/-- A set of facts that contains whatever follows from it. -/
def Closed (setup : Setup) (entries : List MethodId)
    (holds : Fact → Prop) : Prop :=
  ∀ ⦃premises : List Fact⦄ ⦃conclusion : Fact⦄,
    Inference setup entries premises conclusion →
    (∀ premise ∈ premises, holds premise) → holds conclusion

namespace Closed

variable {setup : Setup} {entries : List MethodId} {holds : Fact → Prop}

/-- A set of facts is closed if it contains what follows from reachable
methods, from used objects and from call edges, and what flows. -/
theorem intro
    (entered : ∀ id ∈ entries, holds (.reached ⟨[], id⟩))
    (looked : ∀ {method : ContextMethod} {conclusion : Fact},
      Inference setup entries [.reached method] conclusion →
      holds (.reached method) → holds conclusion)
    (used : ∀ {method : ContextMethod} {target : Pointer} {obj : ContextObj}
      {conclusion : Fact},
      Inference setup entries [.reached method, .points target obj]
        conclusion →
      holds (.reached method) → holds (.points target obj) →
      holds conclusion)
    (linked : ∀ {edge : CallEdge} {conclusion : Fact},
      Inference setup entries [.called edge] conclusion →
      holds (.called edge) → holds conclusion)
    (forwarded : ∀ {source target : Pointer} {obj : ContextObj},
      holds (.flows source target) → holds (.points source obj) →
      holds (.points target obj))
    (retagged : ∀ {edge : TaintEdge} {obj : ContextObj},
      ContextObj.isTaint obj = true → holds (.retags edge) →
      holds (.points edge.source obj) →
      holds (.points edge.target (State.taintObj obj.val.site edge.type))) :
    Closed setup entries holds := by
  intro premises conclusion rule held
  have method : ∀ {method : ContextMethod}, premises = [.reached method] →
      holds conclusion := by
    rintro method rfl
    exact looked rule (held _ (.head _))
  have object : ∀ {method : ContextMethod} {target : Pointer}
      {obj : ContextObj}, premises = [.reached method, .points target obj] →
      holds conclusion := by
    rintro method target obj rfl
    exact used rule (held _ (.head _)) (held _ (.tail _ (.head _)))
  have edge : ∀ {edge : CallEdge}, premises = [.called edge] →
      holds conclusion := by
    rintro edge rfl
    exact linked rule (held _ (.head _))
  cases rule with
  | entry member => exact entered _ member
  | flow => exact forwarded (held _ (.head _)) (held _ (.tail _ (.head _)))
  | retag taint =>
      exact retagged taint (held _ (.head _)) (held _ (.tail _ (.head _)))
  | _ => first | exact method rfl | exact object rfl | exact edge rfl

variable (closed : Closed setup entries holds)

include closed

theorem one {premise conclusion : Fact}
    (rule : Inference setup entries [premise] conclusion)
    (held : holds premise) : holds conclusion :=
  closed rule (by simpa using held)

theorem two {first second conclusion : Fact}
    (rule : Inference setup entries [first, second] conclusion)
    (firstHeld : holds first) (secondHeld : holds second) :
    holds conclusion :=
  closed rule (by simpa using ⟨firstHeld, secondHeld⟩)

end Closed

/-- The facts that have a finite derivation. -/
inductive Derivable (setup : Setup) (entries : List MethodId) :
    Fact → Prop where
  | infer {premises : List Fact} {conclusion : Fact}
      (rule : Inference setup entries premises conclusion)
      (derived : ∀ premise ∈ premises,
        Derivable setup entries premise) :
      Derivable setup entries conclusion

namespace Derivable

variable {setup : Setup} {entries : List MethodId}

theorem closed : Closed setup entries (Derivable setup entries) :=
  fun _ _ rule derived => .infer rule derived

/-- Derivable facts lie in every set that is closed under the rules. -/
theorem least {holds : Fact → Prop} (closed : Closed setup entries holds)
    {fact : Fact} (derivable : Derivable setup entries fact) :
    holds fact := by
  induction derivable with
  | infer rule _ ih => exact closed rule ih

theorem of_one {premise conclusion : Fact}
    (rule : Inference setup entries [premise] conclusion)
    (derived : Derivable setup entries premise) :
    Derivable setup entries conclusion :=
  closed.one rule derived

theorem of_two {first second conclusion : Fact}
    (rule : Inference setup entries [first, second] conclusion)
    (firstDerived : Derivable setup entries first)
    (secondDerived : Derivable setup entries second) :
    Derivable setup entries conclusion :=
  closed.two rule firstDerived secondDerived

end Derivable

/-! ## What facts rest on -/

section Founded

variable (setup : Setup) (entries : List MethodId)

/--
The variables that occur belong to reachable methods, and the objects whose
fields or elements occur are ordinary objects that something points to.
-/
def Pointer.Founded : Pointer → Prop
  | .var entry =>
      Derivable setup entries (.reached (ContextVar.container entry))
  | .field base _ | .array base =>
      ContextObj.isTaint base = false ∧
        ∃ pointer, Derivable setup entries (.points pointer base)
  | .static _ => True

/-- The pointers and methods that a fact mentions are founded. -/
def Fact.Founded : Fact → Prop
  | .reached _ => True
  | .called edge => Derivable setup entries (.reached edge.caller)
  | .flows source target =>
      source.Founded setup entries ∧ target.Founded setup entries
  | .points pointer _ => pointer.Founded setup entries
  | .retags edge =>
      edge.source.Founded setup entries ∧ edge.target.Founded setup entries
  | .sinks call =>
      Derivable setup entries (.reached (ContextSite.container call.site))

end Founded

variable {setup : Setup} {entries : List MethodId}

/-- Derivable facts mention founded pointers and reachable methods only. -/
theorem Derivable.founded {fact : Fact}
    (derivable : Derivable setup entries fact) :
    fact.Founded setup entries := by
  induction derivable with
  | infer rule derived ih =>
      cases rule with
      | entry member => trivial
      | allocate here => exact derived _ (.head _)
      | copy here => exact ⟨derived _ (.head _), derived _ (.head _)⟩
      | loadStatic here => exact ⟨trivial, derived _ (.head _)⟩
      | storeStatic here => exact ⟨derived _ (.head _), trivial⟩
      | callStatic here isStatic found => exact derived _ (.head _)
      | loadField here ordinary =>
          exact ⟨⟨ordinary, _, derived _ (.tail _ (.head _))⟩,
            derived _ (.head _)⟩
      | storeField here ordinary =>
          exact ⟨derived _ (.head _), ordinary, _,
            derived _ (.tail _ (.head _))⟩
      | loadArray here ordinary =>
          exact ⟨⟨ordinary, _, derived _ (.tail _ (.head _))⟩,
            derived _ (.head _)⟩
      | storeArray here ordinary =>
          exact ⟨derived _ (.head _), ordinary, _,
            derived _ (.tail _ (.head _))⟩
      | callInstance here based ordinary found => exact derived _ (.head _)
      | bindThis here based ordinary found bound =>
          exact .of_one .enter (.infer
            (.callInstance here based ordinary found) derived)
      | enter => trivial
      | passArgument here found paired =>
          exact ⟨ih _ (.head _), .of_one .enter (derived _ (.head _))⟩
      | passResult here taken returned =>
          exact ⟨.of_one .enter (derived _ (.head _)), ih _ (.head _)⟩
      | flow => exact (ih (.flows _ _) (.head _)).2
      | source tracked here taken member =>
          exact ih (.called _) (.head _)
      | transfer tracked here member sourced targeted =>
          exact ⟨ih _ (.head _), ih _ (.head _)⟩
      | retag taint => exact (ih (.retags _) (.head _)).2
      | sink tracked here member sensitive =>
          exact ih (.called _) (.head _)

end PointsTo
