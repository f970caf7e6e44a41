import PointsTo.Proofs.Analysis.Precision
import PointsTo.Proofs.Analysis.Reachability

/-!
# Contexts are call strings

Under a selector that tells calls apart by their sites, the context of a
reachable method is the end of a chain of calls that the solver has discovered
and that leads from an entry to the method.  The context of an allocated object
is the end, one element shorter, of a chain to the method that allocates it.
-/

namespace PointsTo

variable {setup : Setup} {entries : List MethodId}

/-- The call sites along a chain of call edges. -/
def CallGraph.sites (edges : List CallEdge) : Context :=
  edges.map fun edge => .call edge.site.val

/-- A context consists of the last `limit` call sites of a chain of call edges
that leads from an entry to a method; of all of them if they are fewer. -/
def State.CallString (entries : List MethodId) (state : State) (limit : Int)
    (method : ContextMethod) (context : Context) : Prop :=
  ∃ id ∈ entries, ⟨[], id⟩ ∈ state.calls.entries ∧
    ∃ edges, state.calls.Chain ⟨[], id⟩ edges method ∧
      context <:+ CallGraph.sites edges ∧
      context.length = min limit.toNat edges.length

section Contexts

variable {depth : Int} (selected : setup.selector = .callSite depth)

include selected

/-- A callee gets the context of the call with the call site added. -/
theorem Derivable.callee_context {edge : CallEdge}
    (derivable : Derivable setup entries (.called edge)) :
    edge.callee.context =
      edge.site.context.extend (.call edge.site.val) depth := by
  cases derivable with
  | infer rule _ =>
      cases rule with
      | callStatic here isStatic found =>
          simp [Setup.staticEdge, CallEdge.ofCall, Selector.staticCallee,
            selected]
      | callInstance here based ordinary found =>
          simp [Setup.instanceEdge, CallEdge.ofCall, Selector.instanceCallee,
            selected]

/-- The method at the end of a chain has the last call sites of the chain as its
context. -/
theorem CallGraph.Chain.context_eq {graph : CallGraph}
    (derivable : ∀ edge ∈ graph.edges, Derivable setup entries (.called edge))
    {id : MethodId} {edges : List CallEdge} {method : ContextMethod}
    (chain : graph.Chain ⟨[], id⟩ edges method) :
    method.context = recent depth (sites edges) := by
  induction chain with
  | nil => simp [sites, recent]
  | @call edges edge _ member ih =>
      have extended := (derivable edge member).callee_context selected
      have called : edge.site.context = recent depth (sites edges) := ih
      rw [extended, Context.extend, called, recent_append (by omega)]
      simp [sites]

end Contexts

theorem State.CallString.of_recent {state : State} {id : MethodId}
    (given : id ∈ entries) (entered : ⟨[], id⟩ ∈ state.calls.entries)
    {edges : List CallEdge} {method : ContextMethod}
    (chain : state.calls.Chain ⟨[], id⟩ edges method) (limit : Int) :
    state.CallString entries limit method
      (recent limit (CallGraph.sites edges)) := by
  refine ⟨id, given, entered, edges, chain, recent_suffix .., ?_⟩
  rw [length_recent, CallGraph.sites, List.length_map]

/-! ## A recursive program

A method that calls itself and then allocates an object.
-/

namespace Nested

open Program
open Cyclic (type main)

def make : MethodId := ⟨"A", subsignature "make" [] type⟩

def makeRef : MethodRef := ⟨"A", "make", [], type⟩

def build : Except BuildError Program := do
  let program ← ({} : Program).newClass { name := "A" }
  let program ← program.newMethod
    { owner := "A", name := "main", paramTypes := [], result := type
      isStatic := true }
  let program ← program.newMethod
    { owner := "A", name := "make", paramTypes := [], result := type
      isStatic := true }
  let program ← program.modifyMethod main fun method =>
    method.newVar "x" none
  let program ← program.modifyMethod make fun method =>
    method.newVar "y" none
  let program ← program.modifyMethod main fun method =>
    method.addInvoke .static makeRef none [] (some ⟨main, "x"⟩)
  let program ← program.modifyMethod make fun method =>
    method.addInvoke .static makeRef none [] (some ⟨make, "y"⟩)
  let program ← program.modifyMethod make fun method =>
    method.addNew ⟨make, "y"⟩ type
  program.modifyMethod make fun method => method.addReturn (some ⟨make, "y"⟩)

def program : Program :=
  build.toOption.getD {}

theorem built : program.Built := by
  unfold program
  cases done : build with
  | error problem => exact .empty
  | ok program =>
      simp only [build, Checked.bind_eq_ok] at done
      obtain ⟨_, newClass, _, newMain, _, newMake, _, varX, _, varY, _, call,
        _, recur, _, allocate, returned⟩ := done
      have declared := Built.empty.newClass newClass |>.newMethod newMain
        |>.newMethod newMake
      have typed := Load.Built.modifyMethod
        (Load.Built.modifyMethod declared .newVar varX) .newVar varY
      have called := Load.Built.modifyMethod
        (Load.Built.modifyMethod typed .addInvoke call) .addInvoke recur
      have allocated := Load.Built.modifyMethod called .addNew allocate
      exact Load.Built.modifyMethod allocated .addReturn returned

def strings : Setup :=
  { program, selector := .callSite 2 }

end Nested

/-! ## Methods and objects -/

/--
In every state that the solver visits when it tells calls apart by their last
sites, the contexts of the reachable methods are real call strings: chains of
discovered calls lead from an entry to the method, and the context consists of
the last sites of one of them.  The context of an ordinary object consists of
the last sites, one fewer, of a chain to the method that allocates it.
-/
theorem callString_of_visits (made : setup.program.Made) {depth : Int}
    (selected : setup.selector = .callSite depth) {state : State}
    (visits : Visits setup entries state) :
    (∀ method ∈ state.calls.reachable,
      state.CallString entries depth method method.context) ∧
    (∀ obj ∈ state.objects.items, ContextObj.isTaint obj = false →
      ∃ method ∈ state.calls.reachable, setup.Allocates method obj ∧
        state.CallString entries (depth - 1) method obj.context) ∧
    ∀ pointer, state.store.get pointer ⊆ state.objects.items := by
  have proper := visits.proper made.coherent
  have rooted := visits.rooted made.coherent
  have derivable : ∀ edge ∈ state.calls.edges,
      Derivable setup entries (.called edge) :=
    fun edge member => proper.justified.facts member
  have chained : ∀ method ∈ state.calls.reachable, ∃ id ∈ entries,
      ⟨[], id⟩ ∈ state.calls.entries ∧ ∃ edges,
        state.calls.Chain ⟨[], id⟩ edges method ∧
        method.context = recent depth (CallGraph.sites edges) := by
    intro method reached
    obtain ⟨start, entered, edges, chain⟩ :=
      rooted.graph.chained method reached
    obtain ⟨id, given, rfl⟩ := proper.justified.starts start entered
    exact ⟨id, given, entered, edges, chain,
      chain.context_eq selected derivable⟩
  refine ⟨?_, ?_, proper.supported.numbered⟩
  · intro method reached
    obtain ⟨id, given, entered, edges, chain, context⟩ :=
      chained method reached
    rw [context]
    exact .of_recent given entered chain depth
  · intro obj numbered ordinary
    obtain ⟨method, reached, allocates⟩ :=
      rooted.allocated obj numbered ordinary
    obtain ⟨id, given, entered, edges, chain, context⟩ :=
      chained method reached
    refine ⟨method, reached, allocates, ?_⟩
    obtain ⟨index, target, type, _, rfl⟩ := allocates
    simp only [Setup.allocated, Selector.heap, selected, Context.truncate,
      context]
    rw [recent_recent (by omega)]
    exact .of_recent given entered chain (depth - 1)

/-- The method is reached under three call strings, and its object has the last
element of each as its context. -/
theorem callString_of_visits_nested :
    Nested.strings.program.Made ∧ Nested.strings.selector = .callSite 2 ∧
      ∃ state, Visits Nested.strings [Cyclic.main] state ∧
        state.calls.reachable.map (·.context.length) = [0, 1, 2, 2] ∧
        state.objects.items.map (·.context.length) = [1, 1] ∧
        (∀ method ∈ state.calls.reachable,
          state.CallString [Cyclic.main] 2 method method.context) ∧
        ∀ obj ∈ state.objects.items, ContextObj.isTaint obj = false →
          ∃ method ∈ state.calls.reachable,
            Nested.strings.Allocates method obj ∧
              state.CallString [Cyclic.main] (2 - 1) method obj.context := by
  have measured : (Nested.strings.after? [Cyclic.main] 10).map
      (fun state => (state.calls.reachable.map (·.context.length),
        state.objects.items.map (·.context.length))) =
      some ([0, 1, 2, 2], [1, 1]) := by decide +kernel
  obtain ⟨state, visits, lengths⟩ := Setup.exists_visits measured
  simp only [Prod.mk.injEq] at lengths
  obtain ⟨methods, objects, _⟩ := callString_of_visits
    (Or.inl Nested.built) (show Nested.strings.selector = .callSite 2 from rfl)
    visits
  exact ⟨Or.inl Nested.built, rfl, state, visits, lengths.1, lengths.2,
    methods, objects⟩

end PointsTo
