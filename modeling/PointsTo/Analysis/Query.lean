import PointsTo.Analysis.Run

/-!
# Questions about a result

What variables point to in one context or in any, whether two variables may
point to a common object, and which methods are reached and called.
-/

namespace PointsTo.Result

/-- The variables under contexts, in the order of their creation. -/
def contextVars (result : Result) : List ContextVar :=
  result.state.store.contextVars

/-- The instances of a variable under contexts. -/
def instances (result : Result) (var : Var) : List ContextVar :=
  result.vars.filter fun entry => entry.val = var

/-- The objects that a variable points to under a context. -/
def pointsTo (result : Result) (entry : ContextVar) : List ContextObj :=
  result.state.ordered (result.state.store.get (.var entry))

/-- Whether a variable has been met under a context. -/
def hasVar (result : Result) (entry : ContextVar) : Bool :=
  result.state.store.has (.var entry)

/-- The objects that a variable points to under any context. -/
def pointsToAnywhere (result : Result) (var : Var) : List ContextObj :=
  result.state.ordered
    ((result.instances var).flatMap fun entry =>
      result.state.store.get (.var entry))

/-- The objects that a variable points to, without contexts. -/
def pointsToInsensitive (result : Result) (var : Var) : List Obj :=
  ((result.pointsToAnywhere var).map InContext.val).eraseDups

/-- Whether two variables may point to a common object. -/
def mayAlias (result : Result) (first second : Var) : Bool :=
  (result.pointsToAnywhere first).any fun obj =>
    (result.pointsToAnywhere second).contains obj

/-- The reachable methods in the order of their discovery, without contexts. -/
def reachableMethods (result : Result) : List MethodId :=
  (result.state.calls.reachable.map InContext.val).eraseDups

/-- The methods that a call may reach in any context. -/
def callees (result : Result) (site : Site) : List MethodId :=
  ((result.state.calls.edges.filter fun edge => edge.site.val = site).map
    fun edge => edge.callee.val).eraseDups

/-- The variables that point to something, with their objects. -/
def pointsToTable (result : Result) : List (Var × List Obj) :=
  result.setup.program.methods.flatMap fun method =>
    (method.locals.map fun entry =>
      let var : Var := ⟨method.id, entry.name⟩
      (var, result.pointsToInsensitive var)).filter
        fun row => !row.2.isEmpty

/-- The calls that reach a method, with the methods that they reach. -/
def calleeTable (result : Result) : List (Site × List MethodId) :=
  result.setup.program.methods.flatMap fun method =>
    ((List.range method.body.length).map fun index =>
      (method.site index, result.callees (method.site index))).filter
        fun row => !row.2.isEmpty

/-- The groups of methods that call each other. -/
def recursive (result : Result) : List (List ContextMethod) :=
  result.state.calls.recursive result.state.methods.items

end PointsTo.Result
