import Mathlib.Algebra.Order.BigOperators.Group.List
import Mathlib.Algebra.Order.Group.Nat
import Mathlib.Data.List.Dedup
import Mathlib.Data.List.ProdSigma
import PointsTo.Analysis.Run
import PointsTo.Proofs.Analysis.Calls

/-!
# All facts that can be found out

A program has finitely many positions, variables, fields and methods, and a
selector keeps contexts below a bound.  `Setup.facts` lists everything that can
be said with these; every derivable fact is in the list.
-/

namespace PointsTo

/-! ## Lists of bounded length -/

/-- The lists over `items` that have at most the given length. -/
def listsUpTo {α : Type} (items : List α) : Nat → List (List α)
  | 0 => [[]]
  | length + 1 =>
      [] :: (items ×ˢ listsUpTo items length).map fun pair =>
        pair.1 :: pair.2

/-- All short lists are enumerated, and nothing else. -/
theorem mem_listsUpTo {α : Type} {items list : List α} {length : Nat} :
    list ∈ listsUpTo items length ↔
      list.length ≤ length ∧ ∀ item ∈ list, item ∈ items := by
  induction length generalizing list with
  | zero =>
      cases list with
      | nil => simp [listsUpTo]
      | cons first rest => simp [listsUpTo]
  | succ length ih =>
      cases list with
      | nil => simp [listsUpTo]
      | cons first rest =>
          simp [listsUpTo, ih, and_left_comm]

/-- There is one more choice than items at each place: to end there. -/
theorem length_listsUpTo_le {α : Type} (items : List α) (length : Nat) :
    (listsUpTo items length).length ≤ (items.length + 1) ^ length := by
  induction length with
  | zero => simp [listsUpTo]
  | succ length ih =>
      have positive : 1 ≤ (items.length + 1) ^ length :=
        Nat.one_le_pow _ _ (Nat.succ_pos _)
      calc (listsUpTo items (length + 1)).length
          = items.length * (listsUpTo items length).length + 1 := by
            rw [listsUpTo, List.length_cons, List.length_map,
              List.length_product]
        _ ≤ items.length * (items.length + 1) ^ length +
              (items.length + 1) ^ length :=
            Nat.add_le_add (Nat.mul_le_mul_left _ ih) positive
        _ = (items.length + 1) ^ (length + 1) := by
            rw [Nat.pow_succ, Nat.mul_succ, Nat.mul_comm]

/-! ## Parts of a program -/

/-- The field that a statement accesses. -/
def Stmt.field? : Stmt → Option Field
  | .loadField _ _ field | .storeField _ field _ => some field
  | .loadStatic _ field | .storeStatic field _ => some field
  | _ => none

namespace Program

variable (program : Program)

/-- The positions of all statements. -/
def sites : List Site :=
  program.methods.flatMap fun method =>
    (List.range method.body.length).map fun index => ⟨method.id, index⟩

/-- All variables. -/
def vars : List Var :=
  program.methods.flatMap fun method =>
    method.locals.map fun entry => ⟨method.id, entry.name⟩

/-- All objects that statements allocate. -/
def allocs : List Obj :=
  program.sites.filterMap fun site =>
    match program.stmt? site with
    | some (.new target type) => some (.alloc site target type)
    | _ => none

/-- All fields that statements access. -/
def accessed : List Field :=
  program.sites.filterMap fun site => (program.stmt? site).bind Stmt.field?

/-- All invocations, by kind and position. -/
def invocations : List (CallKind × Site) :=
  program.sites.filterMap fun site =>
    (program.invoke? site).map fun call => (call.kind, site)

variable {program}

/-- Parts of methods that weigh no more than the methods. -/
theorem length_flatMap_methods_le {α : Type} {parts : Method → List α}
    (each : ∀ method, (parts method).length ≤ method.weight) :
    (program.methods.flatMap parts).length ≤ program.weight := by
  have inClass : ∀ cls : Class, (cls.methods.flatMap parts).length ≤
      1 + cls.fields.length + total (cls.methods.map Method.weight) := by
    intro cls
    rw [List.length_flatMap]
    exact Nat.le_trans
      (List.sum_le_sum fun method _ => each method) (Nat.le_add_left ..)
  rw [methods, classes, List.flatMap_assoc, List.length_flatMap,
    List.map_reverse, List.sum_reverse]
  exact List.sum_le_sum fun cls _ => inClass cls

/-- The weight counts every statement. -/
theorem length_sites_le : program.sites.length ≤ program.weight :=
  length_flatMap_methods_le fun method => by
    simp only [List.length_map, List.length_range, Method.weight]
    omega

/-- The weight counts every variable. -/
theorem length_vars_le : program.vars.length ≤ program.weight :=
  length_flatMap_methods_le fun method => by
    simp only [List.length_map, Method.weight]
    omega

theorem length_methods_le : program.methods.length ≤ program.weight := by
  have counted : (program.methods.flatMap fun method => [method]).length ≤
      program.weight :=
    length_flatMap_methods_le fun method => by
      simp only [List.length_singleton, Method.weight]
      omega
  simpa using counted

theorem length_allocs_le : program.allocs.length ≤ program.weight :=
  Nat.le_trans (List.length_filterMap_le ..) length_sites_le

theorem length_accessed_le : program.accessed.length ≤ program.weight :=
  Nat.le_trans (List.length_filterMap_le ..) length_sites_le

theorem length_invocations_le :
    program.invocations.length ≤ program.weight :=
  Nat.le_trans (List.length_filterMap_le ..) length_sites_le

/-! ## What occurs in statements is listed -/

section Coherent

variable (coherent : program.Coherent)

include coherent

/-- Statements stand at listed sites. -/
theorem mem_sites {site : Site} {stmt : Stmt}
    (here : program.stmt? site = some stmt) : site ∈ program.sites := by
  obtain ⟨method, found, inBody⟩ := Option.bind_eq_some_iff.mp here
  obtain ⟨listed, named⟩ := mem_methods_of_method? coherent found
  refine List.mem_flatMap.mpr ⟨method, listed, List.mem_map.mpr
    ⟨site.index, ?_, ?_⟩⟩
  · exact List.mem_range.mpr (List.getElem?_eq_some_iff.mp inBody).1
  · rw [named]

theorem mem_allocs {site : Site} {target : String} {type : Ty}
    (here : program.stmt? site = some (.new target type)) :
    .alloc site target type ∈ program.allocs :=
  List.mem_filterMap.mpr ⟨site, mem_sites coherent here, by simp [here]⟩

/-- Fields are accessed by statements only. -/
theorem mem_accessed {site : Site} {stmt : Stmt} {field : Field}
    (here : program.stmt? site = some stmt)
    (accesses : stmt.field? = some field) : field ∈ program.accessed :=
  List.mem_filterMap.mpr ⟨site, mem_sites coherent here, by
    simp [here, accesses]⟩

theorem mem_invocations {site : Site} {call : Invoke}
    (here : program.stmt? site = some (.invoke call)) :
    (call.kind, site) ∈ program.invocations :=
  List.mem_filterMap.mpr ⟨site, mem_sites coherent here, by
    simp [(invoke?_eq_some_iff program site call).mpr here]⟩

/-- Variables are listed with their methods. -/
theorem mem_vars {id : MethodId} {method : Method} {name : String}
    (found : program.method? id = some method)
    (known : method.hasLocal name = true) :
    ⟨id, name⟩ ∈ program.vars := by
  obtain ⟨listed, named⟩ := mem_methods_of_method? coherent found
  rw [Method.hasLocal_iff] at known
  obtain ⟨entry, inLocals, rfl⟩ := List.mem_map.mp known
  exact List.mem_flatMap.mpr ⟨method, listed, List.mem_map.mpr
    ⟨entry, inLocals, by rw [named]⟩⟩

/-- The variables that a statement mentions. -/
theorem mem_vars_of_stmt {site : Site} {stmt : Stmt}
    (here : program.stmt? site = some stmt) {name : String}
    (mentions : name ∈ stmt.names) : ⟨site.method, name⟩ ∈ program.vars := by
  obtain ⟨method, found, allowed⟩ := coherent.allows here
  exact mem_vars coherent found (allowed.known name mentions)

end Coherent

end Program

/-! ## Everything that can be said -/

namespace Setup

section Lists

variable (setup : Setup) (entries : List MethodId)

/-- The elements that contexts can have. -/
def elems : List Elem :=
  setup.program.sites.map .call ++ setup.program.allocs.map .object ++
    setup.program.allocs.map fun obj => .cls obj.container.owner

def contexts : List Context :=
  listsUpTo setup.elems setup.selector.bound

/-- The types that taint can have. -/
def taintTypes : List Ty :=
  match setup.rules with
  | none => []
  | some rules =>
      rules.sources.map Source.type ++ rules.transfers.map Transfer.type

/-- The indices of sensitive arguments. -/
def sinkIndices : List Int :=
  match setup.rules with
  | none => []
  | some rules => rules.sinks.map Sink.index

def contextMethods : List ContextMethod :=
  (setup.contexts ×ˢ
      (setup.program.methods.map Method.id ++ entries.dedup)).map fun pair =>
    ⟨pair.1, pair.2⟩

def contextObjs : List ContextObj :=
  ((setup.contexts ×ˢ setup.program.allocs).map fun pair =>
      ⟨pair.1, pair.2⟩) ++
    (setup.program.sites ×ˢ setup.taintTypes).map fun pair =>
      State.taintObj pair.1 pair.2

def pointers : List Pointer :=
  ((setup.contexts ×ˢ setup.program.vars).map fun pair =>
      .var ⟨pair.1, pair.2⟩) ++
    ((setup.contextObjs ×ˢ setup.program.accessed).map fun pair =>
      .field pair.1 pair.2) ++
    setup.contextObjs.map .array ++
    setup.program.accessed.map .static

def callEdges : List CallEdge :=
  ((setup.contexts ×ˢ setup.program.invocations) ×ˢ
      setup.contextMethods entries).map fun pair =>
    { kind := pair.1.2.1, site := ⟨pair.1.1, pair.1.2.2⟩, callee := pair.2 }

/-- The facts about pointers, objects, methods and calls of a program. -/
def facts : List Fact :=
  (setup.contextMethods entries).map .reached ++
    (setup.callEdges entries).map .called ++
    ((setup.pointers ×ˢ setup.pointers).map fun pair =>
      .flows pair.1 pair.2) ++
    ((setup.pointers ×ˢ setup.contextObjs).map fun pair =>
      .points pair.1 pair.2) ++
    (((setup.pointers ×ˢ setup.pointers) ×ˢ setup.taintTypes).map
      fun pair => .retags ⟨pair.1.1, pair.1.2, pair.2⟩) ++
    ((setup.contexts ×ˢ setup.program.sites) ×ˢ setup.sinkIndices).map
      fun pair => .sinks ⟨⟨pair.1.1, pair.1.2⟩, pair.2⟩

end Lists

variable {setup : Setup} {entries : List MethodId}

/-- Entries are listed even if the program does not declare them. -/
theorem mem_contextMethods {method : ContextMethod} :
    method ∈ setup.contextMethods entries ↔
      method.context ∈ setup.contexts ∧
        (method.val ∈ setup.program.methods.map Method.id ∨
          method.val ∈ entries) := by
  obtain ⟨context, id⟩ := method
  simp [contextMethods]

/-- Objects are allocated somewhere, or they are the taint of a call. -/
theorem mem_contextObjs {obj : ContextObj} :
    obj ∈ setup.contextObjs ↔
      (obj.context ∈ setup.contexts ∧ obj.val ∈ setup.program.allocs) ∨
        ∃ site ∈ setup.program.sites, ∃ type ∈ setup.taintTypes,
          obj = State.taintObj site type := by
  obtain ⟨context, val⟩ := obj
  simp [contextObjs, and_assoc, eq_comm]

theorem var_mem_pointers {entry : ContextVar} :
    .var entry ∈ setup.pointers ↔
      entry.context ∈ setup.contexts ∧ entry.val ∈ setup.program.vars := by
  obtain ⟨context, val⟩ := entry
  simp [pointers]

theorem field_mem_pointers {base : ContextObj} {field : Field} :
    .field base field ∈ setup.pointers ↔
      base ∈ setup.contextObjs ∧ field ∈ setup.program.accessed := by
  simp [pointers]

theorem array_mem_pointers {base : ContextObj} :
    .array base ∈ setup.pointers ↔ base ∈ setup.contextObjs := by
  simp [pointers]

theorem static_mem_pointers {field : Field} :
    .static field ∈ setup.pointers ↔ field ∈ setup.program.accessed := by
  simp [pointers]

/-- Call edges lead from invocations to methods. -/
theorem mem_callEdges {edge : CallEdge} :
    edge ∈ setup.callEdges entries ↔
      (edge.site.context ∈ setup.contexts ∧
          (edge.kind, edge.site.val) ∈ setup.program.invocations) ∧
        edge.callee ∈ setup.contextMethods entries := by
  obtain ⟨kind, ⟨context, site⟩, callee⟩ := edge
  simp [callEdges, and_assoc]

theorem reached_mem_facts {method : ContextMethod} :
    .reached method ∈ setup.facts entries ↔
      method ∈ setup.contextMethods entries := by
  simp [facts]

theorem called_mem_facts {edge : CallEdge} :
    .called edge ∈ setup.facts entries ↔ edge ∈ setup.callEdges entries := by
  simp [facts]

theorem flows_mem_facts {source target : Pointer} :
    .flows source target ∈ setup.facts entries ↔
      source ∈ setup.pointers ∧ target ∈ setup.pointers := by
  simp [facts]

theorem points_mem_facts {pointer : Pointer} {obj : ContextObj} :
    .points pointer obj ∈ setup.facts entries ↔
      pointer ∈ setup.pointers ∧ obj ∈ setup.contextObjs := by
  simp [facts]

theorem retags_mem_facts {edge : TaintEdge} :
    .retags edge ∈ setup.facts entries ↔
      (edge.source ∈ setup.pointers ∧ edge.target ∈ setup.pointers) ∧
        edge.type ∈ setup.taintTypes := by
  obtain ⟨source, target, type⟩ := edge
  simp [facts, and_assoc]

/-- Sensitive arguments are listed by the indices of the rules, also where the
call has no such argument. -/
theorem sinks_mem_facts {call : SinkCall} :
    .sinks call ∈ setup.facts entries ↔
      (call.site.context ∈ setup.contexts ∧
          call.site.val ∈ setup.program.sites) ∧
        call.index ∈ setup.sinkIndices := by
  obtain ⟨⟨context, site⟩, index⟩ := call
  simp [facts, and_assoc]

/-! ## Contexts stay in bounds -/

theorem nil_mem_contexts : [] ∈ setup.contexts :=
  mem_listsUpTo.mpr ⟨Nat.zero_le _, by simp⟩

/-- The last elements of a context with one more element. -/
theorem extend_mem_contexts {context : Context} {elem : Elem} {depth : Int}
    (bounded : depth.toNat ≤ setup.selector.bound)
    (inside : context ∈ setup.contexts) (listed : elem ∈ setup.elems) :
    context.extend elem depth ∈ setup.contexts := by
  refine mem_listsUpTo.mpr ⟨?_, fun item member => ?_⟩
  · rw [Context.extend, length_recent]
    omega
  · have kept := (recent_suffix depth _).subset member
    rcases List.mem_append.mp kept with old | new
    · exact (mem_listsUpTo.mp inside).2 item old
    · rw [List.mem_singleton.mp new]
      exact listed

/-- Selectors do not lead out of the contexts that are listed. -/
theorem staticCallee_mem_contexts {site : ContextSite}
    (inside : site.context ∈ setup.contexts)
    (listed : site.val ∈ setup.program.sites) :
    setup.selector.staticCallee site ∈ setup.contexts := by
  have elem : Elem.call site.val ∈ setup.elems := by
    simp [elems, listed]
  unfold Selector.staticCallee
  split
  · exact nil_mem_contexts
  · rename_i depth chosen
    exact extend_mem_contexts (by simp [chosen, Selector.bound]) inside elem
  · exact inside
  · exact inside

theorem instanceCallee_mem_contexts {site : ContextSite}
    {receiver : ContextObj} (inside : site.context ∈ setup.contexts)
    (listed : site.val ∈ setup.program.sites)
    (known : receiver.context ∈ setup.contexts ∧
      receiver.val ∈ setup.program.allocs) :
    setup.selector.instanceCallee site receiver ∈ setup.contexts := by
  have call : Elem.call site.val ∈ setup.elems := by
    simp [elems, listed]
  have object : Elem.object receiver.val ∈ setup.elems := by
    simp [elems, known.2]
  have owner : Elem.cls receiver.val.container.owner ∈ setup.elems := by
    simp only [elems, List.mem_append, List.mem_map]
    exact Or.inr ⟨_, known.2, rfl⟩
  unfold Selector.instanceCallee
  split
  · exact nil_mem_contexts
  · rename_i depth chosen
    exact extend_mem_contexts (by simp [chosen, Selector.bound]) inside call
  · rename_i depth chosen
    exact extend_mem_contexts (by simp [chosen, Selector.bound]) known.1
      object
  · rename_i depth chosen
    exact extend_mem_contexts (by simp [chosen, Selector.bound]) known.1
      owner

/-- Heap contexts are listed because they are no longer than those of methods.
-/
theorem heap_mem_contexts {context : Context}
    (inside : context ∈ setup.contexts) :
    setup.selector.heap context ∈ setup.contexts := by
  have shorter : ∀ depth : Int, context.truncate depth ∈ setup.contexts := by
    intro depth
    obtain ⟨bounded, listed⟩ := mem_listsUpTo.mp inside
    refine mem_listsUpTo.mpr ⟨?_, fun item member =>
      listed item ((recent_suffix depth _).subset member)⟩
    rw [Context.truncate, length_recent]
    omega
  unfold Selector.heap
  split
  · exact nil_mem_contexts
  all_goals exact shorter _

/-! ## Derivable facts are listed -/

/-- Objects that are not taint come from allocations. -/
theorem ordinary_mem_contextObjs {obj : ContextObj}
    (listed : obj ∈ setup.contextObjs)
    (ordinary : ContextObj.isTaint obj = false) :
    obj.context ∈ setup.contexts ∧ obj.val ∈ setup.program.allocs := by
  rcases mem_contextObjs.mp listed with known | ⟨site, _, type, _, rfl⟩
  · exact known
  · cases ordinary

theorem taint_mem_contextObjs {obj : ContextObj}
    (listed : obj ∈ setup.contextObjs)
    (taint : ContextObj.isTaint obj = true) :
    obj.val.site ∈ setup.program.sites := by
  rcases mem_contextObjs.mp listed with ⟨_, known⟩ | ⟨site, here, _, _, rfl⟩
  · obtain ⟨site, _, allocates⟩ := List.mem_filterMap.mp known
    split at allocates
    · obtain ⟨context, val⟩ := obj
      cases allocates
      cases taint
    · cases allocates
  · exact here

section Pointers

variable (coherent : setup.program.Coherent)

include coherent

/-- A variable that a statement of a listed method mentions. -/
theorem pointer_mem_pointers {method : ContextMethod} {index : Nat}
    {stmt : Stmt} (inside : method.context ∈ setup.contexts)
    (here : setup.program.stmt? ⟨method.val, index⟩ = some stmt)
    {name : String} (mentions : name ∈ stmt.names) :
    method.pointer name ∈ setup.pointers :=
  var_mem_pointers.mpr
    ⟨inside, Program.mem_vars_of_stmt coherent here mentions⟩

/-- A variable that the invocation at a call edge mentions. -/
theorem atCaller_mem_pointers {edge : CallEdge} {call : Invoke}
    (inside : edge.site.context ∈ setup.contexts)
    (here : setup.program.invoke? edge.site.val = some call) {name : String}
    (mentions : name ∈ (Stmt.invoke call).names) :
    edge.atCaller name ∈ setup.pointers := by
  rw [Program.invoke?_eq_some_iff] at here
  exact var_mem_pointers.mpr
    ⟨inside, Program.mem_vars_of_stmt coherent here mentions⟩

end Pointers

end Setup

/-- Slots of a call hold variables that its statement mentions. -/
theorem Invoke.mem_names_of_inSlot? {call : Invoke} {slot : Slot}
    {name : String} (found : call.inSlot? slot = some name) :
    name ∈ (Stmt.invoke call).names := by
  cases slot with
  | base =>
      have receiver : call.receiver = some name := found
      simp [Stmt.names, receiver]
  | result =>
      have result : call.result = some name := found
      simp [Stmt.names, result]
  | argument index =>
      have arg : call.args[index]? = some name := found
      simp [Stmt.names, List.mem_of_getElem? arg]

namespace Setup

variable {setup : Setup} {entries : List MethodId}
  (coherent : setup.program.Coherent)

include coherent

/-- What statements of a listed method say is listed. -/
theorem mem_facts_of_reached {method : ContextMethod} {conclusion : Fact}
    (rule : Inference setup entries [.reached method] conclusion)
    (listed : .reached method ∈ setup.facts entries) :
    conclusion ∈ setup.facts entries := by
  have inside := (mem_contextMethods.mp (reached_mem_facts.mp listed)).1
  cases rule with
  | allocate here =>
      exact points_mem_facts.mpr
        ⟨pointer_mem_pointers coherent inside here (by simp [Stmt.names]),
          mem_contextObjs.mpr (Or.inl ⟨heap_mem_contexts inside,
            Program.mem_allocs coherent here⟩)⟩
  | copy here =>
      exact flows_mem_facts.mpr
        ⟨pointer_mem_pointers coherent inside here (by simp [Stmt.names]),
          pointer_mem_pointers coherent inside here (by simp [Stmt.names])⟩
  | loadStatic here =>
      exact flows_mem_facts.mpr
        ⟨static_mem_pointers.mpr (Program.mem_accessed coherent here rfl),
          pointer_mem_pointers coherent inside here (by simp [Stmt.names])⟩
  | storeStatic here =>
      exact flows_mem_facts.mpr
        ⟨pointer_mem_pointers coherent inside here (by simp [Stmt.names]),
          static_mem_pointers.mpr (Program.mem_accessed coherent here rfl)⟩
  | callStatic here isStatic found =>
      have known := Program.mem_methods_of_method? coherent
        (coherent.callee? found)
      exact called_mem_facts.mpr (mem_callEdges.mpr
        ⟨⟨inside, Program.mem_invocations coherent here⟩,
          mem_contextMethods.mpr
            ⟨staticCallee_mem_contexts inside
                (Program.mem_sites coherent here),
              Or.inl (List.mem_map_of_mem known.1)⟩⟩)

/-- What statements of a listed method say about a listed object is listed. -/
theorem mem_facts_of_points {method : ContextMethod} {target : Pointer}
    {obj : ContextObj} {conclusion : Fact}
    (rule : Inference setup entries [.reached method, .points target obj]
      conclusion)
    (reached : .reached method ∈ setup.facts entries)
    (points : .points target obj ∈ setup.facts entries) :
    conclusion ∈ setup.facts entries := by
  have inside := (mem_contextMethods.mp (reached_mem_facts.mp reached)).1
  have base := (points_mem_facts.mp points).2
  cases rule with
  | loadField here ordinary =>
      exact flows_mem_facts.mpr
        ⟨field_mem_pointers.mpr
            ⟨base, Program.mem_accessed coherent here rfl⟩,
          pointer_mem_pointers coherent inside here (by simp [Stmt.names])⟩
  | storeField here ordinary =>
      exact flows_mem_facts.mpr
        ⟨pointer_mem_pointers coherent inside here (by simp [Stmt.names]),
          field_mem_pointers.mpr
            ⟨base, Program.mem_accessed coherent here rfl⟩⟩
  | loadArray here ordinary =>
      exact flows_mem_facts.mpr
        ⟨array_mem_pointers.mpr base,
          pointer_mem_pointers coherent inside here (by simp [Stmt.names])⟩
  | storeArray here ordinary =>
      exact flows_mem_facts.mpr
        ⟨pointer_mem_pointers coherent inside here (by simp [Stmt.names]),
          array_mem_pointers.mpr base⟩
  | @callInstance _ index _ _ _ _ here based ordinary found =>
      have context : setup.selector.instanceCallee (method.site index) obj ∈
          setup.contexts :=
        instanceCallee_mem_contexts inside (Program.mem_sites coherent here)
          (ordinary_mem_contextObjs base ordinary)
      have known := Program.mem_methods_of_method? coherent
        (coherent.callee? found)
      exact called_mem_facts.mpr (mem_callEdges.mpr
        ⟨⟨inside, Program.mem_invocations coherent here⟩,
          mem_contextMethods.mpr
            ⟨context, Or.inl (List.mem_map_of_mem known.1)⟩⟩)
  | @bindThis _ index _ _ _ _ _ here based ordinary found bound =>
      have context : setup.selector.instanceCallee (method.site index) obj ∈
          setup.contexts :=
        instanceCallee_mem_contexts inside (Program.mem_sites coherent here)
          (ordinary_mem_contextObjs base ordinary)
      have known := coherent.callee? found
      exact points_mem_facts.mpr
        ⟨var_mem_pointers.mpr ⟨context, Program.mem_vars coherent known
          ((coherent.method known).1.this _ bound)⟩, base⟩

/-- What follows from a listed call edge is listed. -/
theorem mem_facts_of_called {edge : CallEdge} {conclusion : Fact}
    (rule : Inference setup entries [.called edge] conclusion)
    (listed : .called edge ∈ setup.facts entries) :
    conclusion ∈ setup.facts entries := by
  obtain ⟨⟨inside, _⟩, callee⟩ :=
    mem_callEdges.mp (called_mem_facts.mp listed)
  have calleeInside := (mem_contextMethods.mp callee).1
  cases rule with
  | enter => exact reached_mem_facts.mpr callee
  | passArgument here found paired =>
      obtain ⟨isArg, isParam⟩ := List.of_mem_zip paired
      exact flows_mem_facts.mpr
        ⟨atCaller_mem_pointers coherent inside here
            (by simp [Stmt.names, isArg]),
          var_mem_pointers.mpr ⟨calleeInside, Program.mem_vars coherent found
            ((coherent.method found).1.params _ isParam)⟩⟩
  | passResult here taken returned =>
      exact flows_mem_facts.mpr
        ⟨var_mem_pointers.mpr ⟨calleeInside,
            Program.mem_vars_of_stmt coherent returned
              (by simp [Stmt.names])⟩,
          atCaller_mem_pointers coherent inside here
            (by simp [Stmt.names, taken])⟩
  | source tracked here taken member =>
      have there := (Program.invoke?_eq_some_iff _ _ _).mp here
      have isSource := List.mem_of_mem_filter member
      refine points_mem_facts.mpr
        ⟨atCaller_mem_pointers coherent inside here
            (by simp [Stmt.names, taken]),
          mem_contextObjs.mpr (Or.inr ⟨_, Program.mem_sites coherent there,
            _, ?_, rfl⟩)⟩
      simp only [taintTypes, tracked]
      exact List.mem_append_left _ (List.mem_map_of_mem isSource)
  | transfer tracked here member sourced targeted =>
      have isTransfer := List.mem_of_mem_filter member
      refine retags_mem_facts.mpr
        ⟨⟨atCaller_mem_pointers coherent inside here
            (Invoke.mem_names_of_inSlot? sourced),
          atCaller_mem_pointers coherent inside here
            (Invoke.mem_names_of_inSlot? targeted)⟩, ?_⟩
      simp only [taintTypes, tracked]
      exact List.mem_append_right _ (List.mem_map_of_mem isTransfer)
  | sink tracked here member sensitive =>
      have there := (Program.invoke?_eq_some_iff _ _ _).mp here
      have isSink := List.mem_of_mem_filter member
      refine sinks_mem_facts.mpr
        ⟨⟨inside, Program.mem_sites coherent there⟩, ?_⟩
      simp only [sinkIndices, tracked]
      exact List.mem_map_of_mem isSink

/-- No rule leads out of the list, whatever the number of its premises. -/
theorem closed_facts :
    Closed setup entries fun fact => fact ∈ setup.facts entries := by
  refine .intro (fun id member => ?_) (mem_facts_of_reached coherent)
    (mem_facts_of_points coherent) (mem_facts_of_called coherent)
    (fun flows points => ?_) (fun taint retags points => ?_)
  · exact reached_mem_facts.mpr (mem_contextMethods.mpr
      ⟨nil_mem_contexts, Or.inr member⟩)
  · exact points_mem_facts.mpr
      ⟨(flows_mem_facts.mp flows).2, (points_mem_facts.mp points).2⟩
  · obtain ⟨⟨_, target⟩, type⟩ := retags_mem_facts.mp retags
    have site := taint_mem_contextObjs (points_mem_facts.mp points).2 taint
    exact points_mem_facts.mpr ⟨target, mem_contextObjs.mpr
      (Or.inr ⟨_, site, _, type, rfl⟩)⟩

/-- Every derivable fact is listed. -/
theorem mem_facts {fact : Fact} (derivable : Derivable setup entries fact) :
    fact ∈ setup.facts entries :=
  derivable.least (closed_facts coherent)

end Setup

end PointsTo
