import PointsTo.Program.Stmt

/-!
# Taint rules

A source marks the results of calls of a method as taint.  A sink marks an
argument of calls of a method as sensitive.  A transfer lets taint flow from
one slot of a call to another and changes its type on the way.
-/

namespace PointsTo

/-- A place of a call that holds a value.  There is no slot for the other
numbers that a transfer may give, below those of the base and the result: no
call has anything there, as it has nothing at an argument beyond its last. -/
inductive Slot where
  | base
  | result
  | argument (index : Nat)
deriving DecidableEq, Repr

/-- The spelling of a slot. -/
def Slot.text : Slot → String
  | .base => "base"
  | .result => "result"
  | .argument index => toString index

/-- The variable that a call has in a slot. -/
def Invoke.inSlot? (call : Invoke) : Slot → Option String
  | .base => call.receiver
  | .result => call.result
  | .argument index => call.args[index]?

/-- The argument of a call at a signed index; there is none at a negative
one. -/
def Invoke.argument? (call : Invoke) : Int → Option String
  | .ofNat index => call.args[index]?
  | .negSucc _ => none

/-- The results of calls of `method` are taint of type `type`. -/
structure Source where
  method : MethodId
  type : Ty
deriving DecidableEq, Repr

/-- The rule as it is shown to the user. -/
def Source.text (rule : Source) : String :=
  rule.method.signature ++ "(" ++ rule.type.name ++ ")"

/--
The argument `index` of calls of `method` is sensitive.  Every signed index is
a rule.  Descriptions of rules give only indices of parameters, but an analysis
takes its rules as they are, and a negative index is not checked before the
argument is read.
-/
structure Sink where
  method : MethodId
  index : Int
deriving DecidableEq, Repr

/-- The rule as it is shown to the user. -/
def Sink.text (rule : Sink) : String :=
  rule.method.signature ++ "/" ++ toString rule.index

/-- Taint in slot `source` of calls of `method` flows to slot `target`. -/
structure Transfer where
  method : MethodId
  source : Slot
  target : Slot
  type : Ty
deriving DecidableEq, Repr

/-- The rule as it is shown to the user. -/
def Transfer.text (rule : Transfer) : String :=
  rule.method.signature ++ ": " ++ rule.source.text ++ " -> " ++
    rule.target.text ++ "(" ++ rule.type.name ++ ")"

/-- The rules of a taint analysis. -/
structure Rules where
  sources : List Source := []
  sinks : List Sink := []
  transfers : List Transfer := []
deriving DecidableEq, Repr

namespace Rules

/-- The sources among the rules of a method. -/
def sourcesOf (rules : Rules) (method : MethodId) : List Source :=
  rules.sources.filter fun rule => rule.method = method

/-- The sinks among the rules of a method. -/
def sinksOf (rules : Rules) (method : MethodId) : List Sink :=
  rules.sinks.filter fun rule => rule.method = method

/-- The transfers among the rules of a method. -/
def transfersOf (rules : Rules) (method : MethodId) : List Transfer :=
  rules.transfers.filter fun rule => rule.method = method

/-- The rules as they are shown to the user. -/
def text (rules : Rules) : String :=
  let lines (texts : List String) : String :=
    String.join (texts.map fun text => "  " ++ text ++ "\n")
  "TaintConfig:\n" ++
    "sources:\n" ++ lines (rules.sources.map Source.text) ++
    "sinks:\n" ++ lines (rules.sinks.map Sink.text) ++
    "transfers:\n" ++ lines (rules.transfers.map Transfer.text)

end Rules

end PointsTo
