import PointsTo.Analysis.State

/-!
# Taint flows

A taint flow is a call of a source whose taint reaches a sensitive argument of
a call of a sink.  Flows are reported once each, ordered by the source call,
the sink call and the argument; calls are ordered by the signature of their
method and their position in it.
-/

namespace PointsTo

/-- Taint from the call at `source` reaches an argument of the call at `sink`. -/
structure TaintFlow where
  source : Site
  sink : Site
  index : Int
deriving DecidableEq, Repr

/-- How two calls are ordered. -/
def Site.order : Site → Site → Ordering :=
  compareLex (compareOn fun site => site.method.signature)
    (compareOn Site.index)

namespace TaintFlow

/-- The flow as it is shown to the user. -/
def text (flow : TaintFlow) : String :=
  "TaintFlow\x7b" ++ flow.source.location ++ " -> " ++ flow.sink.location ++
    "/" ++ toString flow.index ++ "\x7d"

/-- How two flows are ordered. -/
def order : TaintFlow → TaintFlow → Ordering :=
  compareLex (fun first second => first.source.order second.source)
    (compareLex (fun first second => first.sink.order second.sink)
      (compareOn TaintFlow.index))

/-- Whether a flow comes before another one. -/
def before (first second : TaintFlow) : Bool :=
  first.order second == .lt

/-- Insert a flow into an ordered list unless it is there. -/
def insertInto (flow : TaintFlow) : List TaintFlow → List TaintFlow
  | [] => [flow]
  | first :: rest =>
      if flow = first then first :: rest
      else if flow.before first then flow :: first :: rest
      else first :: insertInto flow rest

end TaintFlow

namespace State

/-- The pointer of the sensitive argument of a call. -/
def sinkPointer? (program : Program) (call : SinkCall) : Option Pointer :=
  (program.invoke? call.site.val).bind fun invoke =>
    (invoke.argument? call.index).map
      (Pointer.ofVar call.site.context call.site.val.method)

/-- The first recorded call of a sink whose sensitive argument is not there. -/
def unreadable? (state : State) (program : Program) : Option SinkCall :=
  state.sinkCalls.find? fun call => (sinkPointer? program call).isNone

/-- The flows into one call of a sink. -/
def flowsInto (state : State) (program : Program) (call : SinkCall) :
    List TaintFlow :=
  match sinkPointer? program call with
  | none => []
  | some pointer =>
      (ObjSet.taints (state.store.get pointer)).map fun obj =>
        { source := obj.val.site, sink := call.site.val, index := call.index }

/-- All taint flows in order. -/
def taintFlows (state : State) (program : Program) : List TaintFlow :=
  (state.sinkCalls.flatMap (state.flowsInto program)).foldl
    (fun flows flow => flow.insertInto flows) []

/-- Create the pointers of the sensitive arguments that are not there. -/
def touchSinks (state : State) (program : Program) : State :=
  (state.sinkCalls.filterMap (sinkPointer? program)).foldl touch state

end State

end PointsTo
