import PointsTo.Analysis.State

/-!
# Steps of the solver

One step looks at the statements of a newly reachable method or delivers one
payload.  New methods come first.  Allocations, copies, accesses to static
fields and static calls take effect when their method is looked at; accesses
to fields and arrays and the other calls take effect for each new object that
their base or receiver points to.  Taint objects have no fields, no elements
and no methods.
-/

namespace PointsTo

/-- Why an analysis cannot go on. -/
inductive Fault where
  | noProgram
  | noEntry
  | abstractEntry (method : MethodId)
  | unexpectedCallKind (kind : CallKind) (site : Site)
  /-- A sensitive argument is read that its call does not have. -/
  | indexOutOfRange (index : Int)
deriving DecidableEq, Repr

/-- The wording of a fault. -/
def Fault.message : Fault → String
  | .noProgram => "AnalysisConfig.Program is nil"
  | .noEntry => "No entry methods: program has no main method"
  | .abstractEntry method => s!"Entry method {method.signature} is abstract"
  | .unexpectedCallKind kind site =>
      s!"Unexpected call kind {kind.name} at {site.location}"
  | .indexOutOfRange index => s!"runtime error: index out of range [{index}]"

/-- What one step comes to. -/
inductive Progress where
  /-- Nothing is left to do. -/
  | finished
  | advanced (state : State)
  | failed (fault : Fault) (state : State)

/-- The positions of the statements that use a variable as their base, in the
order in which they are processed. -/
def Local.uses (entry : Local) : List Nat :=
  entry.storeFields ++ entry.loadFields ++ entry.storeArrays ++
    entry.loadArrays ++ entry.invokes

namespace Setup

/-- Send the taint of a source rule to the variable that takes the result. -/
def applySource (site : ContextSite) (result : String) (state : State)
    (rule : Source) : State :=
  let target := Pointer.ofVar site.context site.val.method result
  let obj := State.taintObj site.val rule.type
  ((state.touch target).meetObj obj).push target (.fixed [obj])

/-- Apply the source rules of a callee to a call. -/
def applySources (rules : Rules) (site : ContextSite) (call : Invoke)
    (callee : MethodId) (state : State) : State :=
  match call.result with
  | none => state
  | some result =>
      (rules.sourcesOf callee).foldl (applySource site result) state

/-- The pointer of a slot of a call, if the call has the slot. -/
def slotPointer (site : ContextSite) (call : Invoke) (slot : Slot) :
    Option Pointer :=
  (call.inSlot? slot).map (Pointer.ofVar site.context site.val.method)

/-- Let taint flow between the slots of a transfer rule, if the call has them.
The pointers of the slots are created if they are not there. -/
def applyTransfer (site : ContextSite) (call : Invoke) (state : State)
    (rule : Transfer) : State :=
  let source := slotPointer site call rule.source
  let target := slotPointer site call rule.target
  let state := (source.toList ++ target.toList).foldl State.touch state
  match source, target with
  | some source, some target =>
      state.addTaintEdge { source, target, type := rule.type }
  | _, _ => state

/-- Apply the transfer rules of a callee to a call. -/
def applyTransfers (rules : Rules) (site : ContextSite) (call : Invoke)
    (callee : MethodId) (state : State) : State :=
  (rules.transfersOf callee).foldl (applyTransfer site call) state

/-- Remember the sensitive argument of a sink rule, unless its index is beyond
the last argument of the call. -/
def applySink (site : ContextSite) (call : Invoke) (callee : MethodId)
    (state : State) (rule : Sink) : State :=
  if rule.index < call.args.length then
    state.addSinkCall ⟨site, rule.index⟩
  else
    { state with
      log := state.log ++
        [{ level := .warning
           message := s!"Sink {callee.signature}: call {site.val.location} has no argument {rule.index}" }] }

/-- Apply the sink rules of a callee to a call. -/
def applySinks (rules : Rules) (site : ContextSite) (call : Invoke)
    (callee : MethodId) (state : State) : State :=
  (rules.sinksOf callee).foldl (applySink site call callee) state

/-- Apply the taint rules of a callee to a call. -/
def applyRules (setup : Setup) (site : ContextSite) (call : Invoke)
    (callee : MethodId) (state : State) : State :=
  match setup.rules with
  | none => state
  | some rules =>
      applySinks rules site call callee
        (applyTransfers rules site call callee
          (applySources rules site call callee state))

/-- Let the arguments of a call flow to the parameters of the callee. -/
def passArguments (site : ContextSite) (call : Invoke) (callee : Method)
    (context : Context) (state : State) : State :=
  (call.args.zip callee.params).foldl
    (fun state (arg, param) =>
      state.addFlow (.ofVar site.context site.val.method arg)
        (.ofVar context callee.id param))
    state

/-- Let the values that the callee returns flow to the result of a call. -/
def passResult (site : ContextSite) (call : Invoke) (callee : Method)
    (context : Context) (state : State) : State :=
  match call.result with
  | none => state
  | some result =>
      let target := Pointer.ofVar site.context site.val.method result
      callee.returns.foldl
        (fun state value =>
          state.addFlow (.ofVar context callee.id value) target)
        (state.touch target)

/--
Add a call edge to `callee` under `context`.  A new edge makes the callee
reachable, connects arguments and results and applies the taint rules.
-/
def connect (setup : Setup) (site : ContextSite) (call : Invoke)
    (callee : Method) (context : Context) (state : State) : State :=
  let target : ContextMethod := ⟨context, callee.id⟩
  if state.calls.hasEdge site target then state
  else
    let edge : CallEdge := { kind := call.kind, site, callee := target }
    let linked := { state with calls := state.calls.addEdge edge }
    setup.applyRules site call callee.id
      (passResult site call callee context
        (passArguments site call callee context (linked.reach target)))

/-- Process a static call in a method under a context. -/
def callStatic (setup : Setup) (site : ContextSite) (call : Invoke)
    (state : State) : State :=
  match setup.program.callee? none call with
  | none =>
      state.debug
        s!"No target for {call.ref.signature} at {site.val.location}"
  | some callee =>
      let context := setup.selector.staticCallee site
      setup.connect site call callee context
        ((state.meetSite site).meetMethod ⟨context, callee.id⟩)

/-- Let the receiver variable of a callee point to the receiver of a call. -/
def bindThis (callee : Method) (context : Context) (receiver : ContextObj)
    (state : State) : State :=
  match callee.this? with
  | none => state
  | some this =>
      let target := Pointer.ofVar context callee.id this
      (state.touch target).push target (.fixed [receiver])

/-- Process a call on a receiver object. -/
def callInstance (setup : Setup) (site : ContextSite) (call : Invoke)
    (receiver : ContextObj) (state : State) : State :=
  match setup.program.callee? (some receiver.val.type) call with
  | none =>
      state.debug
        s!"No target for {call.ref.signature} on {ContextObj.text receiver} at {site.val.location}"
  | some callee =>
      let context := setup.selector.instanceCallee site receiver
      setup.connect site call callee context
        (bindThis callee context receiver
          ((state.meetSite site).meetMethod ⟨context, callee.id⟩))

/-- Process a statement whose effect does not depend on an object. -/
def lookAt (setup : Setup) (method : ContextMethod) (state : State)
    (stmt : Stmt) (index : Nat) : Except (Fault × State) State :=
  let pointer := Pointer.ofVar method.context method.val
  let site : Site := ⟨method.val, index⟩
  match stmt with
  | .new target type =>
      let obj : ContextObj :=
        ⟨setup.selector.heap method.context, .alloc site target type⟩
      .ok (((state.touch (pointer target)).meetObj obj).push
        (pointer target) (.fixed [obj]))
  | .copy target source =>
      .ok (state.addFlow (pointer source) (pointer target))
  | .loadStatic target field =>
      .ok (state.addFlow (.static field) (pointer target))
  | .storeStatic field source =>
      .ok (state.addFlow (pointer source) (.static field))
  | .invoke call =>
      match call.kind with
      | .static => .ok (setup.callStatic ⟨method.context, site⟩ call state)
      | .unknown _ => .error (.unexpectedCallKind call.kind site, state)
      | .special | .virtual | .interface | .dynamic => .ok state
  | .loadField .. | .storeField .. | .loadArray .. | .storeArray ..
  | .ret _ => .ok state

/-- Look at the statements of a method, the first of which is at `index`. -/
def lookAtAll (setup : Setup) (method : ContextMethod) :
    Nat → List Stmt → State → Except (Fault × State) State
  | _, [], state => .ok state
  | index, stmt :: rest, state => do
      let state ← setup.lookAt method state stmt index
      lookAtAll setup method (index + 1) rest state

/-- The statements of a method. -/
def bodyOf (setup : Setup) (method : MethodId) : List Stmt :=
  ((setup.program.method? method).map Method.body).getD []

/-- Process one access to an object, or one call on it. -/
def use (setup : Setup) (context : Context) (method : MethodId)
    (obj : ContextObj) (stmt : Stmt) (index : Nat) (state : State) : State :=
  let pointer := Pointer.ofVar context method
  match stmt with
  | .storeField _ field source =>
      state.addFlow (pointer source) (.field obj field)
  | .loadField target _ field =>
      state.addFlow (.field obj field) (pointer target)
  | .storeArray _ source => state.addFlow (pointer source) (.array obj)
  | .loadArray target _ => state.addFlow (.array obj) (pointer target)
  | .invoke call => setup.callInstance ⟨context, ⟨method, index⟩⟩ call obj state
  | _ => state

/-- Process everything that the program does with a variable, for one object
that the variable has just begun to point to. -/
def useAll (setup : Setup) (entry : ContextVar) (state : State)
    (obj : ContextObj) : State :=
  match setup.program.method? entry.val.method with
  | none => state
  | some method =>
      match method.local? entry.val.name with
      | none => state
      | some found =>
          found.uses.foldl
            (fun state index =>
              match method.body[index]? with
              | some stmt =>
                  setup.use entry.context entry.val.method obj stmt index state
              | none => state)
            state

/-- Send objects that have just arrived at a pointer to its successors. -/
def forward (target : Pointer) (delta : ObjSet) (state : State) : State :=
  (state.succs target).foldl
    (fun state successor => state.push successor (.fixed delta)) state

/-- Send taint objects that have just arrived at a pointer along the taint
edges that leave it. -/
def forwardTaint (target : Pointer) (delta : ObjSet) (state : State) : State :=
  (state.taintEdges.filter fun edge => edge.source = target).foldl
    (fun state edge =>
      state.sendTaint (ObjSet.taints (state.ordered delta)) edge)
    state

/-- Process everything that the program does with a pointer, for objects that
it has just begun to point to; only variables are used. -/
def useNew (setup : Setup) (target : Pointer) (objects : List ContextObj)
    (state : State) : State :=
  match target with
  | .var entry => objects.foldl (setup.useAll entry) state
  | _ => state

/-- Deliver a payload. -/
def deliver (setup : Setup) (work : Work) (state : State) : State :=
  let delta :=
    (work.payload.objects state.store).diff (state.store.get work.target)
  if delta.isEmpty then state
  else
    let stored :=
      { state with store := state.store.add work.target delta }
    setup.useNew work.target (ObjSet.ordinary (stored.ordered delta))
      (forwardTaint work.target delta (forward work.target delta stored))

/-- Do one unit of work. -/
def step (setup : Setup) (state : State) : Progress :=
  match state.pending.pop? with
  | some (method, pending) =>
      match setup.lookAtAll method 0 (setup.bodyOf method.val)
          { state with pending } with
      | .ok state => .advanced state
      | .error (fault, state) => .failed fault state
  | none =>
      match state.worklist.pop? with
      | some (work, worklist) =>
          .advanced (setup.deliver work { state with worklist })
      | none => .finished

/--
Start at the given methods under the empty context.  Methods before one that
is abstract are still entered.
-/
def enter (setup : Setup) : List MethodId → State →
    Except (Fault × State) State
  | [], state => .ok state
  | id :: rest, state =>
      if (setup.program.method? id).any Method.isAbstract then
        .error (.abstractEntry id, state)
      else
        let method : ContextMethod := ⟨[], id⟩
        let met := state.meetMethod method
        enter setup rest
          ({ met with calls := met.calls.addEntry method }.reach method)

end Setup

end PointsTo
