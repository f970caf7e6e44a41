import PointsTo.Proofs.Analysis.Holds

/-!
# What the solver does to a state

Looking at statements and using objects change a state in a few elementary
ways only.  `Effect` lists them with the reasons that the solver has for each:
facts are added because they are derivable, and payloads are sent to pointers
that have been created.  `Moves` are sequences of effects and of call edges
that are added together with all that follows from them.

The number that goes with a sequence bounds how often a payload is sent without
a new fact; all other payloads go along with a new edge.
-/

namespace PointsTo

/-- What is sent to a pointer really flows there. -/
def Work.Justified (setup : Setup) (entries : List MethodId)
    (work : Work) : Prop :=
  match work.payload with
  | .fixed objects =>
      ∀ obj ∈ objects, Derivable setup entries (.points work.target obj)
  | .current source => Derivable setup entries (.flows source work.target)

/-- The target of a payload has been created and its objects are numbered. -/
def State.Ready (state : State) (work : Work) : Prop :=
  work.target ∈ state.store.pointers ∧
    match work.payload with
    | .fixed objects => ∀ obj ∈ objects, obj ∈ state.objects.items
    | .current _ => True

/-- Everything that follows from a call edge alone is met. -/
def State.Links (setup : Setup) (entries : List MethodId) (state : State)
    (edge : CallEdge) : Prop :=
  ∀ {conclusion : Fact}, Inference setup entries [.called edge] conclusion →
    state.Meets conclusion

/-- Everything that a source points to flows to a target. -/
def State.Forwards (state : State) (source target : Pointer) : Prop :=
  ∀ obj ∈ state.store.get source, state.Meets (.points target obj)

/-- All taint that the source of an edge points to flows along the edge. -/
def State.Retags (state : State) (edge : TaintEdge) : Prop :=
  ∀ obj ∈ state.store.get edge.source, ContextObj.isTaint obj = true →
    state.Meets
      (.points edge.target (State.taintObj obj.val.site edge.type))

/-- An elementary effect on a state, with the number of payloads that it
sends without a new fact. -/
inductive Effect (setup : Setup) (entries : List MethodId) :
    Nat → State → State → Prop where
  | report {state : State} (entry : Entry) :
      Effect setup entries 0 state { state with log := state.log ++ [entry] }
  | entry {state : State} {id : MethodId} (member : id ∈ entries) :
      Effect setup entries 0 state
        { state with calls := state.calls.addEntry ⟨[], id⟩ }
  | touch {state : State} {pointer : Pointer}
      (founded : pointer.Founded setup entries) :
      Effect setup entries 0 state (state.touch pointer)
  | meetObj {state : State} {pointer : Pointer} {obj : ContextObj}
      (derivable : Derivable setup entries (.points pointer obj)) :
      Effect setup entries 0 state (state.meetObj obj)
  | meetMethod {state : State} {method : ContextMethod}
      (derivable : Derivable setup entries (.reached method)) :
      Effect setup entries 0 state (state.meetMethod method)
  | meetSite {state : State} {site : ContextSite}
      (met : ContextSite.container site ∈ state.methods.items) :
      Effect setup entries 0 state
        { state with sites := state.sites.request site }
  | send {state : State} {work : Work} (ready : state.Ready work)
      (justified : work.Justified setup entries) :
      Effect setup entries 1 state
        { state with worklist := state.worklist.push work }
  | reach {state : State} {method : ContextMethod}
      (absent : method ∉ state.calls.reachable)
      (derivable : Derivable setup entries (.reached method)) :
      Effect setup entries 0 state
        { state with
          calls := state.calls.addReachable (state.methods.node method)
          pending := state.pending.push method }
  | addFlow {state : State} {source target : Pointer}
      (new : state.flow.has (state.store.node source)
        (state.store.node target) = false)
      (absent : (source, target) ∉ state.flow.edges)
      (derivable : Derivable setup entries (.flows source target))
      (created : source ∈ state.store.pointers ∧
        target ∈ state.store.pointers) :
      Effect setup entries 0 state
        ({ state with
            flow := state.flow.insert (state.store.node source)
              (state.store.node target) }.push target (.current source))
  | addTaintEdge {state : State} {edge : TaintEdge} {retagged : ObjSet}
      (absent : edge ∉ state.taintEdges)
      (derivable : Derivable setup entries (.retags edge))
      (ready : state.Ready ⟨edge.target, .fixed retagged⟩)
      (justified : Work.Justified setup entries
        ⟨edge.target, .fixed retagged⟩)
      (complete : ∀ obj ∈ state.store.get edge.source,
        ContextObj.isTaint obj = true →
          State.taintObj obj.val.site edge.type ∈ retagged) :
      Effect setup entries 0 state
        ({ state with taintEdges := state.taintEdges ++ [edge] }.push
          edge.target (.fixed retagged))
  | addSinkCall {state : State} {call : SinkCall}
      (absent : call ∉ state.sinkCalls)
      (derivable : Derivable setup entries (.sinks call)) :
      Effect setup entries 0 state
        { state with sinkCalls := state.sinkCalls ++ [call] }

/-- A sequence of effects that sends at most `sent` payloads without a new
fact. -/
inductive Effects (setup : Setup) (entries : List MethodId) :
    Nat → State → State → Prop where
  | refl {sent : Nat} {state : State} : Effects setup entries sent state state
  | tail {sent cost bound : Nat} {first middle last : State}
      (earlier : Effects setup entries sent first middle)
      (effect : Effect setup entries cost middle last)
      (bounded : sent + cost ≤ bound) :
      Effects setup entries bound first last

/-- Record a call edge. -/
def State.withEdge (state : State) (edge : CallEdge) : State :=
  { state with calls := state.calls.addEdge edge }

theorem State.edges_withEdge {state : State} {edge : CallEdge}
    (absent : state.calls.hasEdge edge.site edge.callee = false) :
    (state.withEdge edge).calls.edges = state.calls.edges ++ [edge] :=
  CallGraph.edges_addEdge absent

@[simp]
theorem State.reachable_withEdge (state : State) (edge : CallEdge) :
    (state.withEdge edge).calls.reachable = state.calls.reachable :=
  CallGraph.reachable_addEdge ..

/-- How many source rules there are. -/
def Setup.sourceCount (setup : Setup) : Nat :=
  ((setup.rules.map Rules.sources).getD []).length

/--
A sequence of effects and of new call edges.  Each new edge comes with effects
after which everything that follows from it is met; they send no more payloads
without a new fact than there are source rules.
-/
inductive Moves (setup : Setup) (entries : List MethodId) :
    Nat → State → State → Prop where
  | refl {sent : Nat} {state : State} : Moves setup entries sent state state
  | effect {sent cost bound : Nat} {first middle last : State}
      (earlier : Moves setup entries sent first middle)
      (effect : Effect setup entries cost middle last)
      (bounded : sent + cost ≤ bound) :
      Moves setup entries bound first last
  | link {sent cost bound : Nat} {first middle last : State}
      {edge : CallEdge}
      (earlier : Moves setup entries sent first middle)
      (absent : middle.calls.hasEdge edge.site edge.callee = false)
      (derivable : Derivable setup entries (.called edge))
      (effects : Effects setup entries cost (middle.withEdge edge) last)
      (few : cost ≤ setup.sourceCount)
      (links : last.Links setup entries edge)
      (bounded : sent ≤ bound) :
      Moves setup entries bound first last

variable {setup : Setup} {entries : List MethodId}

namespace Effects

theorem single {cost : Nat} {first last : State}
    (effect : Effect setup entries cost first last) :
    Effects setup entries cost first last :=
  .tail .refl effect (Nat.le_of_eq (Nat.zero_add cost))

theorem weaken {sent bound : Nat} {first last : State}
    (effects : Effects setup entries sent first last) (less : sent ≤ bound) :
    Effects setup entries bound first last := by
  cases effects with
  | refl => exact .refl
  | tail earlier effect bounded =>
      exact .tail earlier effect (Nat.le_trans bounded less)

theorem trans {sent more : Nat} {first middle last : State}
    (earlier : Effects setup entries sent first middle)
    (later : Effects setup entries more middle last) :
    Effects setup entries (sent + more) first last := by
  induction later with
  | refl => exact earlier.weaken (Nat.le_add_right ..)
  | tail _ effect bounded ih =>
      exact .tail (ih earlier) effect (by omega)

/-- What every effect preserves, sequences of effects preserve. -/
theorem preserves {keeps : State → Prop}
    (each : ∀ {cost : Nat} {before after : State},
      Effect setup entries cost before after → keeps before → keeps after)
    {sent : Nat} {first last : State}
    (effects : Effects setup entries sent first last) (kept : keeps first) :
    keeps last := by
  induction effects with
  | refl => exact kept
  | tail _ effect _ ih => exact each effect (ih kept)

end Effects

namespace Moves

theorem weaken {sent bound : Nat} {first last : State}
    (moves : Moves setup entries sent first last) (less : sent ≤ bound) :
    Moves setup entries bound first last := by
  cases moves with
  | refl => exact .refl
  | effect earlier effect bounded =>
      exact .effect earlier effect (Nat.le_trans bounded less)
  | link earlier absent derivable effects few links bounded =>
      exact .link earlier absent derivable effects few links
        (Nat.le_trans bounded less)

theorem trans {sent more : Nat} {first middle last : State}
    (earlier : Moves setup entries sent first middle)
    (later : Moves setup entries more middle last) :
    Moves setup entries (sent + more) first last := by
  induction later with
  | refl => exact earlier.weaken (Nat.le_add_right ..)
  | effect _ effect bounded ih =>
      exact .effect (ih earlier) effect (by omega)
  | link _ absent derivable effects few links bounded ih =>
      exact .link (ih earlier) absent derivable effects few links (by omega)

theorem ofEffects {sent : Nat} {first last : State}
    (effects : Effects setup entries sent first last) :
    Moves setup entries sent first last := by
  induction effects with
  | refl => exact .refl
  | tail _ effect bounded ih => exact .effect ih effect bounded

/-- What every effect and every new call edge preserve, moves preserve. -/
theorem preserves {keeps : State → Prop}
    (each : ∀ {cost : Nat} {before after : State},
      Effect setup entries cost before after → keeps before → keeps after)
    (addEdge : ∀ {state : State} {edge : CallEdge},
      state.calls.hasEdge edge.site edge.callee = false →
      Derivable setup entries (.called edge) →
      keeps state → keeps (state.withEdge edge))
    {sent : Nat} {first last : State}
    (moves : Moves setup entries sent first last) (kept : keeps first) :
    keeps last := by
  induction moves with
  | refl => exact kept
  | effect _ effect _ ih => exact each effect (ih kept)
  | link _ absent derivable effects _ _ _ ih =>
      exact effects.preserves each (addEdge absent derivable (ih kept))

end Moves

end PointsTo
