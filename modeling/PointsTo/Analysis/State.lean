import PointsTo.Analysis.CallGraph
import PointsTo.Analysis.Pointer
import PointsTo.Analysis.Selector
import PointsTo.Graph.Flow
import PointsTo.Log
import PointsTo.Program.Hierarchy
import PointsTo.Queue
import PointsTo.Taint.Rules

/-!
# States of the solver

The solver discovers methods and lets objects flow along edges until nothing
is left to do.  Its state holds everything discovered so far and two queues:
methods whose statements have not been looked at, and objects that are on
their way to a pointer.
-/

namespace PointsTo

/-- What is analysed and how. -/
structure Setup where
  program : Program
  selector : Selector := .insensitive
  /-- The taint rules; without them taint is not tracked. -/
  rules : Option Rules := none

/-- Objects on their way to a pointer. -/
inductive Payload where
  /-- The objects were fixed when they were sent. -/
  | fixed (objects : ObjSet)
  /-- Whatever `source` points to when they arrive. -/
  | current (source : Pointer)
deriving DecidableEq, Repr, Inhabited

/-- The objects that a payload stands for. -/
def Payload.objects (store : Store) : Payload → ObjSet
  | .fixed objects => objects
  | .current source => store.get source

/-- A payload and where it is sent. -/
structure Work where
  target : Pointer
  payload : Payload
deriving DecidableEq, Repr, Inhabited

/-- An edge along which taint flows and changes its type. -/
structure TaintEdge where
  source : Pointer
  target : Pointer
  type : Ty
deriving DecidableEq, Repr

/-- A call of a sink and the sensitive argument. -/
structure SinkCall where
  site : ContextSite
  index : Int
deriving DecidableEq, Repr

/-- A state of the solver. -/
structure State where
  /-- All objects met so far, numbered in order. -/
  objects : Numbering ContextObj := .empty
  /-- All methods met so far, numbered in order. -/
  methods : Numbering ContextMethod := .empty
  /-- All call sites met so far, numbered in order. -/
  sites : Numbering ContextSite := .empty
  store : Store := .empty
  flow : FlowGraph Pointer := .empty
  calls : CallGraph := .empty
  /-- Reachable methods whose statements have not been looked at. -/
  pending : Queue ContextMethod := .empty
  worklist : Queue Work := .empty
  taintEdges : List TaintEdge := []
  sinkCalls : List SinkCall := []
  log : Log := []

namespace State

instance : Inhabited State := ⟨{}⟩

/-- Report a detail. -/
def debug (state : State) (message : String) : State :=
  { state with log := state.log ++ [{ level := .debug, message }] }

/-- Create a pointer unless it is there. -/
def touch (state : State) (pointer : Pointer) : State :=
  { state with store := state.store.touch pointer }

/-- Number an object. -/
def meetObj (state : State) (obj : ContextObj) : State :=
  { state with objects := state.objects.request obj }

/-- Number a method. -/
def meetMethod (state : State) (method : ContextMethod) : State :=
  { state with methods := state.methods.request method }

/-- Number a call site; the method that contains a new one is numbered
first. -/
def meetSite (state : State) (site : ContextSite) : State :=
  if (state.sites.find? site).isSome then state
  else
    let met := state.meetMethod (ContextSite.container site)
    { met with sites := met.sites.request site }

/-- The objects of a set in the order of their numbers. -/
def ordered (state : State) (set : ObjSet) : List ContextObj :=
  set.inOrder state.objects.items

/-- Send a payload to a pointer; an empty one is not sent. -/
def push (state : State) (target : Pointer) (payload : Payload) : State :=
  if (payload.objects state.store).isEmpty then state
  else { state with worklist := state.worklist.push ⟨target, payload⟩ }

/-- Schedule a method unless it is reachable already. -/
def reach (state : State) (method : ContextMethod) : State :=
  if state.calls.contains method then state
  else
    { state.debug s!"Reachable: {ContextMethod.text method}" with
      calls := state.calls.addReachable (state.methods.node method)
      pending := state.pending.push method }

/--
Let objects flow from `source` to `target`.  What the source points to is sent
along a new edge at once.
-/
def addFlow (state : State) (source target : Pointer) : State :=
  let state := (state.touch source).touch target
  let added :=
    state.flow.add (state.store.node source) (state.store.node target)
  if added.1 then
    { state with flow := added.2 }.push target (.current source)
  else state

/-- The pointers to which objects flow from a pointer. -/
def succs (state : State) (pointer : Pointer) : List Pointer :=
  (state.flow.succs (state.store.node pointer)).map Numbered.item

/-- The taint object of a source call at a type. -/
def taintObj (source : Site) (type : Ty) : ContextObj :=
  ⟨[], .taint source type⟩

/-- Send taint objects along an edge, with the type of the edge. -/
def sendTaint (state : State) (taints : List ContextObj)
    (edge : TaintEdge) : State :=
  let retagged := taints.map fun obj => taintObj obj.val.site edge.type
  (retagged.foldl meetObj state).push edge.target
    (.fixed (retagged.foldl ObjSet.insert []))

/--
Let taint flow along an edge.  The taint objects that the source points to are
sent along a new edge at once.
-/
def addTaintEdge (state : State) (edge : TaintEdge) : State :=
  if edge ∈ state.taintEdges then state
  else
    { state with taintEdges := state.taintEdges ++ [edge] }.sendTaint
      (ObjSet.taints (state.ordered (state.store.get edge.source))) edge

/-- Remember a call of a sink. -/
def addSinkCall (state : State) (call : SinkCall) : State :=
  if call ∈ state.sinkCalls then state
  else { state with sinkCalls := state.sinkCalls ++ [call] }

end State

end PointsTo
