import PointsTo.Proofs.Analysis.Answers
import PointsTo.Proofs.Analysis.CallStrings

/-!
# Contexts have bounded depth

Under a selector of some depth, methods, variables and call sites have contexts
of at most that many elements, allocated objects have one element less, and
taint objects have none.  This holds of whatever occurs anywhere in a state that
the solver visits, because everything there has a derivation: callees take their
contexts from call sites and receivers, objects take theirs from methods, and
static calls hand on the context of the caller.
-/

namespace PointsTo

variable {setup : Setup} {entries : List MethodId} {depth : Int}

/-! ## What occurs in a state -/

/-- The object that a pointer is a part of. -/
def Pointer.base? : Pointer → Option ContextObj
  | .field base _ | .array base => some base
  | .var _ | .static _ => none

/-- The pointers between which a payload is sent. -/
def Work.pointers (work : Work) : List Pointer :=
  match work.payload with
  | .fixed _ => [work.target]
  | .current source => [work.target, source]

/-- The objects that a payload consists of. -/
def Work.objects (work : Work) : List ContextObj :=
  match work.payload with
  | .fixed objects => objects
  | .current _ => []

namespace State

variable (state : State)

/-- All methods under contexts in a state. -/
def allMethods : List ContextMethod :=
  state.methods.items ++ state.calls.entries ++ state.calls.reachable ++
    state.pending.toList ++ state.calls.edges.map CallEdge.caller ++
    state.calls.edges.map CallEdge.callee

/-- All call sites under contexts in a state. -/
def allSites : List ContextSite :=
  state.sites.items ++ state.calls.edges.map CallEdge.site ++
    state.sinkCalls.map SinkCall.site

/-- All pointers in a state. -/
def allPointers : List Pointer :=
  state.store.pointers ++
    state.flow.edges.flatMap (fun edge => [edge.1, edge.2]) ++
    state.taintEdges.flatMap (fun edge => [edge.source, edge.target]) ++
    state.worklist.toList.flatMap Work.pointers

/-- All objects under contexts in a state. -/
def allObjects : List ContextObj :=
  state.objects.items ++ state.store.pointers.flatMap state.store.get ++
    state.worklist.toList.flatMap Work.objects ++
    state.allPointers.filterMap Pointer.base?

end State

/-- The contexts in a state have no more elements than a depth allows. -/
structure State.Shallow (depth : Int) (state : State) : Prop where
  methods : ∀ method ∈ state.allMethods,
    (method.context.length : Int) ≤ max depth 0
  vars : ∀ entry : ContextVar, .var entry ∈ state.allPointers →
    (entry.context.length : Int) ≤ max depth 0
  sites : ∀ site ∈ state.allSites,
    (site.context.length : Int) ≤ max depth 0
  ordinary : ∀ obj ∈ state.allObjects, ContextObj.isTaint obj = false →
    (obj.context.length : Int) ≤ max (depth - 1) 0
  taints : ∀ obj ∈ state.allObjects, ContextObj.isTaint obj = true →
    obj.context = []

/-! ## Contexts in facts -/

/-- A context has at most `limit` elements, none if the limit is negative. -/
def Context.Within (limit : Int) (context : Context) : Prop :=
  (context.length : Int) ≤ max limit 0

theorem Context.within_nil (limit : Int) : Context.Within limit [] :=
  Int.le_max_right limit 0

theorem Context.within_recent (limit : Int) (context : Context) :
    Context.Within limit (recent limit context) := by
  rw [Context.Within, length_recent]
  omega

/-- Objects have one element less than methods, and taint objects none. -/
def ContextObj.Shallow (depth : Int) (obj : ContextObj) : Prop :=
  (ContextObj.isTaint obj = false → obj.context.Within (depth - 1)) ∧
    (ContextObj.isTaint obj = true → obj.context = [])

def Pointer.Shallow (depth : Int) : Pointer → Prop
  | .var entry => entry.context.Within depth
  | .field base _ | .array base => base.Shallow depth
  | .static _ => True

def Fact.Shallow (depth : Int) : Fact → Prop
  | .reached method => method.context.Within depth
  | .called edge =>
      edge.site.context.Within depth ∧ edge.callee.context.Within depth
  | .flows source target => source.Shallow depth ∧ target.Shallow depth
  | .points pointer obj => pointer.Shallow depth ∧ obj.Shallow depth
  | .retags edge => edge.source.Shallow depth ∧ edge.target.Shallow depth
  | .sinks call => call.site.context.Within depth

theorem ContextObj.shallow_taintObj (depth : Int) (source : Site) (type : Ty) :
    ContextObj.Shallow depth (State.taintObj source type) :=
  ⟨nofun, fun _ => rfl⟩

section Selected

variable (sensitivity : Sensitivity)

theorem Sensitivity.within_staticCallee {site : ContextSite}
    (within : site.context.Within depth) :
    ((sensitivity.selector depth).staticCallee site).Within depth := by
  cases sensitivity with
  | callSite => exact Context.within_recent depth _
  | object => exact within
  | type => exact within

theorem Sensitivity.within_instanceCallee (depth : Int) (site : ContextSite)
    (receiver : ContextObj) :
    ((sensitivity.selector depth).instanceCallee site receiver).Within
      depth := by
  cases sensitivity <;> exact Context.within_recent depth _

theorem Sensitivity.within_heap (depth : Int) (context : Context) :
    ((sensitivity.selector depth).heap context).Within (depth - 1) := by
  cases sensitivity <;> exact Context.within_recent (depth - 1) context

variable {sensitivity}
  (selected : setup.selector = sensitivity.selector depth)

include selected

/-- Every rule keeps within the depth. -/
theorem Fact.shallow_closed :
    Closed setup entries (Fact.Shallow depth) := by
  have allocated : ∀ method index target type,
      (setup.allocated method index target type).Shallow depth := by
    intro method index target type
    refine ⟨fun _ => ?_, nofun⟩
    show (setup.selector.heap method.context).Within (depth - 1)
    rw [selected]
    exact sensitivity.within_heap depth method.context
  intro premises conclusion rule held
  cases rule with
  | entry member => exact Context.within_nil depth
  | allocate here => exact ⟨held _ (.head _), allocated ..⟩
  | copy here => exact ⟨held _ (.head _), held _ (.head _)⟩
  | loadStatic here => exact ⟨trivial, held _ (.head _)⟩
  | storeStatic here => exact ⟨held _ (.head _), trivial⟩
  | callStatic here isStatic found =>
      have within : Context.Within depth _ := held _ (.head _)
      refine ⟨within, ?_⟩
      show (setup.selector.staticCallee _).Within depth
      rw [selected]
      exact sensitivity.within_staticCallee within
  | loadField here ordinary =>
      exact ⟨(held _ (.tail _ (.head _))).2, held _ (.head _)⟩
  | storeField here ordinary =>
      exact ⟨held _ (.head _), (held _ (.tail _ (.head _))).2⟩
  | loadArray here ordinary =>
      exact ⟨(held _ (.tail _ (.head _))).2, held _ (.head _)⟩
  | storeArray here ordinary =>
      exact ⟨held _ (.head _), (held _ (.tail _ (.head _))).2⟩
  | callInstance here based ordinary found =>
      refine ⟨held _ (.head _), ?_⟩
      show (setup.selector.instanceCallee _ _).Within depth
      rw [selected]
      exact sensitivity.within_instanceCallee depth _ _
  | bindThis here based ordinary found bound =>
      refine ⟨?_, (held _ (.tail _ (.head _))).2⟩
      show (setup.selector.instanceCallee _ _).Within depth
      rw [selected]
      exact sensitivity.within_instanceCallee depth _ _
  | enter => exact (held _ (.head _)).2
  | passArgument here found paired => exact held (.called _) (.head _)
  | passResult here taken returned =>
      exact ⟨(held _ (.head _)).2, (held _ (.head _)).1⟩
  | flow =>
      exact ⟨(held (.flows _ _) (.head _)).2,
        (held _ (.tail _ (.head _))).2⟩
  | source tracked here taken member =>
      exact ⟨(held (.called _) (.head _)).1,
        ContextObj.shallow_taintObj ..⟩
  | transfer tracked here member sourced targeted =>
      exact ⟨(held _ (.head _)).1, (held _ (.head _)).1⟩
  | retag taint =>
      exact ⟨(held (.retags _) (.head _)).2, ContextObj.shallow_taintObj ..⟩
  | sink tracked here member sensitive => exact (held (.called _) (.head _)).1

theorem Derivable.shallow {fact : Fact}
    (derivable : Derivable setup entries fact) : fact.Shallow depth :=
  derivable.least (Fact.shallow_closed selected)

theorem Pointer.Founded.shallow {pointer : Pointer}
    (founded : pointer.Founded setup entries) : pointer.Shallow depth := by
  cases pointer with
  | var entry => exact Derivable.shallow selected founded
  | field base field =>
      rcases founded with ⟨_, holder, points⟩
      exact (Derivable.shallow selected points).2
  | array base =>
      rcases founded with ⟨_, holder, points⟩
      exact (Derivable.shallow selected points).2
  | static field => trivial

/-! ## Contexts in states -/

section Proper

variable {state : State} (proper : state.Proper setup entries)

include proper

theorem State.Proper.shallow_method :
    ∀ method ∈ state.allMethods, method.context.Within depth := by
  have reached : ∀ {method : ContextMethod},
      Derivable setup entries (.reached method) →
        method.context.Within depth := Derivable.shallow selected
  have called : ∀ edge ∈ state.calls.edges,
      Derivable setup entries (.called edge) :=
    fun edge member => proper.justified.facts member
  intro method listed
  simp only [allMethods, List.mem_append, List.mem_map] at listed
  rcases listed with ((((numbered | entered) | held) | waiting) |
    ⟨edge, member, rfl⟩) | ⟨edge, member, rfl⟩
  · exact reached (proper.justified.methods method numbered)
  · rcases proper.justified.starts method entered with ⟨id, _, rfl⟩
    exact Context.within_nil depth
  · exact reached (proper.justified.facts held)
  · exact reached (proper.justified.derivable_of_waiting waiting)
  · exact (Derivable.shallow selected (called edge member)).1
  · exact (Derivable.shallow selected (called edge member)).2

/-- A call site that has a number is in a method that has one, under the same
context. -/
theorem State.Proper.shallow_site :
    ∀ site ∈ state.allSites, site.context.Within depth := by
  intro site listed
  simp only [allSites, List.mem_append, List.mem_map] at listed
  rcases listed with (numbered | ⟨edge, member, rfl⟩) | ⟨call, member, rfl⟩
  · have reached : Derivable setup entries
        (.reached (ContextSite.container site)) :=
      proper.justified.methods _ (proper.supported.contained site numbered)
    exact Derivable.shallow selected reached
  · have called : Derivable setup entries (.called edge) :=
      proper.justified.facts member
    exact (Derivable.shallow selected called).1
  · have sinks : Derivable setup entries (.sinks call) :=
      proper.justified.facts member
    exact Derivable.shallow selected sinks

theorem State.Proper.shallow_pointer :
    ∀ pointer ∈ state.allPointers, pointer.Shallow depth := by
  have created : ∀ pointer ∈ state.store.pointers, pointer.Shallow depth :=
    fun pointer member =>
      Pointer.Founded.shallow selected (proper.justified.pointers _ member)
  intro pointer listed
  simp only [allPointers, List.mem_append, List.mem_flatMap] at listed
  rcases listed with ((old | ⟨edge, member, ends⟩) | ⟨edge, member, ends⟩) |
    ⟨work, queued, ends⟩
  · exact created pointer old
  · have flows : Derivable setup entries (.flows edge.1 edge.2) :=
      proper.justified.facts member
    have shallow := Derivable.shallow selected flows
    simp only [List.mem_cons, List.not_mem_nil, or_false] at ends
    rcases ends with rfl | rfl
    · exact shallow.1
    · exact shallow.2
  · have retags : Derivable setup entries (.retags edge) :=
      proper.justified.facts member
    have shallow := Derivable.shallow selected retags
    simp only [List.mem_cons, List.not_mem_nil, or_false] at ends
    rcases ends with rfl | rfl
    · exact shallow.1
    · exact shallow.2
  · have target := created _ (proper.supported.ready work queued).1
    have justified := proper.justified.queued work queued
    rcases work with ⟨goal, payload⟩
    cases payload with
    | fixed objects =>
        rw [List.mem_singleton.mp ends]
        exact target
    | current source =>
        simp only [Work.pointers, List.mem_cons, List.not_mem_nil, or_false]
          at ends
        rcases ends with rfl | rfl
        · exact target
        · exact (Derivable.shallow selected justified).1

theorem State.Proper.shallow_object :
    ∀ obj ∈ state.allObjects, obj.Shallow depth := by
  have pointed : ∀ {pointer : Pointer} {obj : ContextObj},
      Derivable setup entries (.points pointer obj) → obj.Shallow depth :=
    fun points => (Derivable.shallow selected points).2
  intro obj listed
  simp only [allObjects, List.mem_append, List.mem_flatMap,
    List.mem_filterMap] at listed
  rcases listed with ((numbered | ⟨pointer, _, held⟩) | ⟨work, queued, sent⟩) |
    ⟨pointer, member, based⟩
  · rcases proper.justified.objects obj numbered with ⟨pointer, points⟩
    exact pointed points
  · exact pointed (proper.justified.facts held)
  · have justified := proper.justified.queued work queued
    rcases work with ⟨goal, payload⟩
    cases payload with
    | fixed objects => exact pointed (justified obj sent)
    | current source => cases sent
  · have shallow := proper.shallow_pointer selected pointer member
    cases pointer with
    | field base field => exact Option.some.inj based ▸ shallow
    | array base => exact Option.some.inj based ▸ shallow
    | var entry => cases based
    | static field => cases based

theorem State.Proper.shallow : state.Shallow depth where
  methods := proper.shallow_method selected
  vars entry listed := proper.shallow_pointer selected (.var entry) listed
  sites := proper.shallow_site selected
  ordinary obj listed := (proper.shallow_object selected obj listed).1
  taints obj listed := (proper.shallow_object selected obj listed).2

end Proper

end Selected

/--
In every state that the solver visits under a selector of some depth, methods,
variables and call sites have contexts of at most that many elements, allocated
objects have one element less, and taint objects have none.  No depth leaves
fewer than no elements.  The state in which the taint flows are collected is no
exception.
-/
theorem shallow_of_visits (made : setup.program.Made)
    (sensitivity : Sensitivity) (depth : Int)
    (selected : setup.selector = sensitivity.selector depth) {state : State}
    (visits : Visits setup entries state) :
    state.Shallow depth ∧ (setup.result state).state.Shallow depth := by
  have proper := visits.proper made.coherent
  exact ⟨proper.shallow selected, proper.result.shallow selected⟩

/-- The calls of a recursive program under the last two call sites, with taint
from each of them. -/
def Nested.tainted : Setup :=
  { Nested.strings with
    rules := some { sources := [⟨Nested.make, Cyclic.type⟩] } }

/-- All the depth that is allowed is used, by methods, call sites and
objects. -/
theorem shallow_of_visits_nested :
    Nested.tainted.program.Made ∧
      Nested.tainted.selector = Sensitivity.callSite.selector 2 ∧
      ∃ state, Visits Nested.tainted [Cyclic.main] state ∧
        state.methods.items.map (·.context.length) = [0, 1, 2, 2] ∧
        state.sites.items.map (·.context.length) = [0, 1, 2, 2] ∧
        state.objects.items.map (fun obj =>
          (ContextObj.isTaint obj, obj.context.length)) =
          [(true, 0), (true, 0), (false, 1), (false, 1)] ∧
        state.Shallow 2 ∧ (Nested.tainted.result state).state.Shallow 2 := by
  have measured : (Nested.tainted.after? [Cyclic.main] 10).map
      (fun state => (state.methods.items.map (·.context.length),
        state.sites.items.map (·.context.length),
        state.objects.items.map (fun obj =>
          (ContextObj.isTaint obj, obj.context.length)))) =
      some ([0, 1, 2, 2], [0, 1, 2, 2],
        [(true, 0), (true, 0), (false, 1), (false, 1)]) := by
    decide +kernel
  rcases Setup.exists_visits measured with ⟨state, visits, lengths⟩
  obtain ⟨methods, sites, objects⟩ : _ ∧ _ ∧ _ := by
    simpa only [Prod.mk.injEq] using lengths
  exact ⟨Or.inl Nested.built, rfl, state, visits, methods, sites, objects,
    shallow_of_visits (Or.inl Nested.built) .callSite 2 rfl visits⟩

end PointsTo
