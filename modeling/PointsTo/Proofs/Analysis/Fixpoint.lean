import Mathlib.Order.Bounds.Basic
import PointsTo.Proofs.Analysis.Accounted
import PointsTo.Proofs.Program.Loaded

/-!
# The fixpoint of the solver

The state in which the solver stops is a solution of the constraints that the
program imposes on points-to sets and call edges, and it is the least one:
every fact in it has a derivation.

`State.Saturated` spells the constraints out as inclusions between points-to
sets, statement by statement and call edge by call edge, without reference to
flow edges and queues.
-/

namespace PointsTo

variable {setup : Setup} {entries : List MethodId}

/-! ## Constraints -/

namespace State

/-- What an invocation in a method under a context requires. -/
structure Invokes (setup : Setup) (state : State) (method : ContextMethod)
    (index : Nat) (call : Invoke) : Prop where
  ofClass : call.kind = .static → ∀ callee,
    setup.program.callee? none call = some callee →
    setup.staticEdge (method.site index) call callee ∈ state.calls.edges
  /-- Calls that are not static have a receiver. -/
  ofReceiver : call.kind ≠ .static → ∃ base, call.receiver = some base ∧
    ∀ obj ∈ state.store.get (method.pointer base),
      ContextObj.isTaint obj = false → ∀ callee,
      setup.program.callee? (some obj.val.type) call = some callee →
      let edge := setup.instanceEdge (method.site index) call obj callee
      edge ∈ state.calls.edges ∧
        ∀ this, callee.this? = some this →
          obj ∈ state.store.get (edge.atCallee this)

/-- What a statement of a method under a context requires. -/
def Obeys (setup : Setup) (state : State) (method : ContextMethod)
    (index : Nat) : Stmt → Prop
  | .new target type =>
      setup.allocated method index target type ∈
        state.store.get (method.pointer target)
  | .copy target source =>
      state.store.get (method.pointer source) ⊆
        state.store.get (method.pointer target)
  | .loadStatic target field =>
      state.store.get (.static field) ⊆
        state.store.get (method.pointer target)
  | .storeStatic field source =>
      state.store.get (method.pointer source) ⊆
        state.store.get (.static field)
  | .loadField target base field =>
      ∀ obj ∈ state.store.get (method.pointer base),
        ContextObj.isTaint obj = false →
        state.store.get (.field obj field) ⊆
          state.store.get (method.pointer target)
  | .storeField base field source =>
      ∀ obj ∈ state.store.get (method.pointer base),
        ContextObj.isTaint obj = false →
        state.store.get (method.pointer source) ⊆
          state.store.get (.field obj field)
  | .loadArray target base =>
      ∀ obj ∈ state.store.get (method.pointer base),
        ContextObj.isTaint obj = false →
        state.store.get (.array obj) ⊆
          state.store.get (method.pointer target)
  | .storeArray base source =>
      ∀ obj ∈ state.store.get (method.pointer base),
        ContextObj.isTaint obj = false →
        state.store.get (method.pointer source) ⊆
          state.store.get (.array obj)
  | .invoke call => state.Invokes setup method index call
  | .ret _ => True

/-- What the taint rules of the callee require at a call edge. -/
structure Taints (rules : Rules) (state : State) (edge : CallEdge)
    (call : Invoke) : Prop where
  source : ∀ rule ∈ rules.sourcesOf edge.callee.val,
    ∀ result, call.result = some result →
      taintObj edge.site.val rule.type ∈
        state.store.get (edge.atCaller result)
  transfer : ∀ rule ∈ rules.transfersOf edge.callee.val,
    ∀ source, call.inSlot? rule.source = some source →
    ∀ target, call.inSlot? rule.target = some target →
    ∀ obj ∈ state.store.get (edge.atCaller source),
      ContextObj.isTaint obj = true →
      taintObj obj.val.site rule.type ∈
        state.store.get (edge.atCaller target)
  sink : ∀ rule ∈ rules.sinksOf edge.callee.val,
    rule.index < call.args.length →
    ⟨edge.site, rule.index⟩ ∈ state.sinkCalls

/-- What a call edge from an invocation to a method requires. -/
structure Connects (setup : Setup) (state : State) (edge : CallEdge)
    (call : Invoke) (callee : Method) : Prop where
  reached : edge.callee ∈ state.calls.reachable
  arguments : ∀ pair ∈ call.args.zip callee.params,
    state.store.get (edge.atCaller pair.1) ⊆
      state.store.get (edge.atCallee pair.2)
  results : ∀ result, call.result = some result →
    ∀ value ∈ callee.returns,
      state.store.get (edge.atCallee value) ⊆
        state.store.get (edge.atCaller result)
  taints : ∀ rules, setup.rules = some rules →
    state.Taints rules edge call

/-- A solution of the constraints of a program. -/
structure Saturated (setup : Setup) (entries : List MethodId)
    (state : State) : Prop where
  entered : ∀ id ∈ entries, ⟨[], id⟩ ∈ state.calls.reachable
  obeyed : ∀ method ∈ state.calls.reachable, ∀ index stmt,
    setup.program.stmt? ⟨method.val, index⟩ = some stmt →
    state.Obeys setup method index stmt
  connected : ∀ edge ∈ state.calls.edges, ∃ call callee,
    setup.program.invoke? edge.site.val = some call ∧
      setup.program.method? edge.callee.val = some callee ∧
      state.Connects setup edge call callee

end State

/-! ## The final state solves the constraints -/

/-- A call edge leads to a method of the program. -/
theorem Derivable.called_method (coherent : setup.program.Coherent)
    {edge : CallEdge} (derivable : Derivable setup entries (.called edge)) :
    ∃ callee, setup.program.method? edge.callee.val = some callee := by
  cases derivable with
  | infer rule _ =>
      cases rule with
      | callStatic here isStatic found => exact ⟨_, coherent.callee? found⟩
      | callInstance here based ordinary found =>
          exact ⟨_, coherent.callee? found⟩

namespace State

section Saturated

variable {state : State} (closed : Closed setup entries state.Holds)

include closed

/-- What the source of a flow edge points to, its target points to. -/
theorem get_subset_of_flows {source target : Pointer}
    (flows : state.Holds (.flows source target)) :
    state.store.get source ⊆ state.store.get target :=
  fun _ member => closed.two .flow flows member

theorem obeys_of_closed (coherent : setup.program.Coherent)
    {method : ContextMethod} (reached : state.Holds (.reached method))
    {index : Nat} {stmt : Stmt}
    (here : setup.program.stmt? ⟨method.val, index⟩ = some stmt) :
    state.Obeys setup method index stmt := by
  have included := @get_subset_of_flows _ _ _ closed
  cases stmt with
  | new target type => exact closed.one (.allocate here) reached
  | copy target source => exact included (closed.one (.copy here) reached)
  | loadStatic target field =>
      exact included (closed.one (.loadStatic here) reached)
  | storeStatic field source =>
      exact included (closed.one (.storeStatic here) reached)
  | loadField target base field =>
      exact fun obj member ordinary => included
        (closed.two (.loadField here ordinary) reached member)
  | storeField base field source =>
      exact fun obj member ordinary => included
        (closed.two (.storeField here ordinary) reached member)
  | loadArray target base =>
      exact fun obj member ordinary => included
        (closed.two (.loadArray here ordinary) reached member)
  | storeArray base source =>
      exact fun obj member ordinary => included
        (closed.two (.storeArray here ordinary) reached member)
  | invoke call =>
      constructor
      · intro isStatic callee found
        exact closed.one (.callStatic here isStatic found) reached
      · intro other
        obtain ⟨base, based⟩ := coherent.receiver_of_ne_static here other
        refine ⟨base, based, ?_⟩
        intro obj member ordinary callee found
        constructor
        · exact closed.two (.callInstance here based ordinary found) reached
            member
        · intro this bound
          exact closed.two (.bindThis here based ordinary found bound)
            reached member
  | ret value => trivial

theorem connects_of_closed (coherent : setup.program.Coherent)
    {edge : CallEdge} (called : state.Holds (.called edge)) {call : Invoke}
    {callee : Method}
    (here : setup.program.invoke? edge.site.val = some call)
    (found : setup.program.method? edge.callee.val = some callee) :
    state.Connects setup edge call callee where
  reached := closed.one .enter called
  arguments pair paired := get_subset_of_flows closed
    (closed.one (.passArgument here found paired) called)
  results result taken value returned := by
    obtain ⟨index, stmt⟩ :=
      (coherent.method found).1.mem_returns.mp returned
    rw [← Program.stmt?_of_method? found] at stmt
    exact get_subset_of_flows closed
      (closed.one (.passResult here taken stmt) called)
  taints rules tracked :=
    { source := fun rule member result taken =>
        closed.one (.source tracked here taken member) called
      transfer := fun rule member source sourced target targeted obj points
          taint =>
        closed.two (.retag taint)
          (closed.one (.transfer tracked here member sourced targeted)
            called) points
      sink := fun rule member sensitive =>
        closed.one (.sink tracked here member sensitive) called }

end Saturated

end State

/-! ## A program with cycles

An object that is stored in its own field, a method that calls itself, and
taint that is transferred from a variable to itself.
-/

namespace Cyclic

open Program

def type : Ty := .cls "A"

def next : Field := ⟨"A", "next", type, false⟩

def main : MethodId := ⟨"A", subsignature "main" [] type⟩

def passHeading : MethodHeading :=
  { owner := "A", name := "pass", paramTypes := [type], result := type }

def pass : MethodId := ⟨"A", subsignature "pass" [type] type⟩

def passRef : MethodRef := ⟨"A", "pass", [type], type⟩

def build : Except BuildError Program := do
  let program ← ({} : Program).newClass { name := "A" }
  let program ← program.newField next
  let program ← program.newMethod
    { owner := "A", name := "main", paramTypes := [], result := type
      isStatic := true }
  let program ← program.newMethod passHeading
  let program ← program.modifyMethod main fun method =>
    method.newVar "x" none
  let program ← program.modifyMethod main fun method =>
    method.newVar "y" none
  let program ← program.modifyMethod main fun method =>
    method.addNew ⟨main, "x"⟩ type
  let program ← program.modifyMethod main fun method =>
    method.addStoreField (some ⟨main, "x"⟩) next ⟨main, "x"⟩
  let program ← program.modifyMethod main fun method =>
    method.addLoadField ⟨main, "y"⟩ (some ⟨main, "x"⟩) next
  let program ← program.modifyMethod main fun method =>
    method.addInvoke .virtual passRef (some ⟨main, "x"⟩) [⟨main, "y"⟩]
      (some ⟨main, "y"⟩)
  let program ← program.modifyMethod pass fun method =>
    method.addInvoke .virtual passRef (some ⟨pass, Method.thisName⟩)
      [⟨pass, "p0"⟩] (some ⟨pass, "p0"⟩)
  program.modifyMethod pass fun method => method.addReturn (some ⟨pass, "p0"⟩)

def program : Program :=
  build.toOption.getD {}

theorem built : program.Built := by
  unfold program
  cases done : build with
  | error problem => exact .empty
  | ok program =>
      simp only [build, Checked.bind_eq_ok] at done
      obtain ⟨_, newClass, _, newField, _, newMain, _, newPass, _, varX, _,
        varY, _, allocate, _, store, _, load, _, call, _, recur,
        returned⟩ := done
      have declared := Built.empty.newClass newClass |>.newField newField
        |>.newMethod newMain |>.newMethod newPass
      have typed := Load.Built.modifyMethod
        (Load.Built.modifyMethod declared .newVar varX) .newVar varY
      have allocated := Load.Built.modifyMethod typed .addNew allocate
      have stored := Load.Built.modifyMethod allocated .addStoreField store
      have loaded := Load.Built.modifyMethod stored .addLoadField load
      have called := Load.Built.modifyMethod loaded .addInvoke call
      have recursive := Load.Built.modifyMethod called .addInvoke recur
      exact Load.Built.modifyMethod recursive .addReturn returned

def rules : Rules :=
  { sources := [⟨pass, type⟩]
    sinks := [⟨pass, 0⟩]
    transfers := [⟨pass, .argument 0, .result, type⟩] }

def tracked : Setup :=
  { program, selector := .object 1, rules := some rules }

theorem made : tracked.program.Made :=
  Or.inl built

def run (steps : Nat) : Outcome :=
  match tracked.enter [main] {} with
  | .ok start => tracked.advance steps start
  | .error (fault, start) => .failed fault start

theorem run_visited (steps : Nat) (final : State)
    (finished : run steps = .finished final) :
    Visits tracked [main] final ∧ tracked.step final = .finished := by
  unfold run at finished
  split at finished
  · rename_i start entered
    have visited := (Visits.start entered).advance steps
    rwa [finished] at visited
  · cases finished

/-- The solver gets through; it finds two methods, two calls and two edges for
taint. -/
theorem exists_finished : ∃ final, run 23 = .finished final ∧
    final.calls.reachable.length = 2 ∧ final.calls.edges.length = 2 ∧
    final.taintEdges.length = 2 := by
  have found : (match run 23 with
      | .finished final => [final.calls.reachable.length,
          final.calls.edges.length, final.taintEdges.length]
      | _ => []) = [2, 2, 2] := by decide +kernel
  split at found
  · rename_i final finished
    obtain ⟨methods, calls, taint⟩ : _ ∧ _ ∧ _ := by simpa using found
    exact ⟨final, finished, methods, calls, taint⟩
  · cases found

end Cyclic

/--
In the state in which the solver stops, the constraints of the program are
solved.
-/
theorem saturated_of_finished (made : setup.program.Made) {state : State}
    (visits : Visits setup entries state)
    (finished : setup.step state = .finished) :
    state.Saturated setup entries := by
  have coherent := made.coherent
  have closed := visits.closed coherent finished
  constructor
  · intro id member
    exact closed (.entry member) (by simp)
  · intro method reached index stmt here
    exact State.obeys_of_closed closed coherent reached here
  · intro edge called
    have derivable := (visits.holds_iff coherent finished (.called edge)).mp
      called
    obtain ⟨call, here, _⟩ := derivable.called_invoke
    obtain ⟨callee, found⟩ := derivable.called_method coherent
    exact ⟨call, callee, here, found,
      State.connects_of_closed closed coherent called here found⟩

theorem saturated_of_finished_cyclic :
    Cyclic.tracked.program.Made ∧ ∃ final,
      Visits Cyclic.tracked [Cyclic.main] final ∧
      Cyclic.tracked.step final = .finished ∧
      final.calls.edges.length = 2 ∧
      final.Saturated Cyclic.tracked [Cyclic.main] := by
  obtain ⟨final, ran, _, calls, _⟩ := Cyclic.exists_finished
  obtain ⟨visits, finished⟩ := Cyclic.run_visited 23 final ran
  exact ⟨Cyclic.made, final, visits, finished, calls,
    saturated_of_finished Cyclic.made visits finished⟩

/--
In every state that the solver visits, all facts have derivations; in the state
in which it stops, they form the least set of facts that is closed under the
rules.
-/
theorem derivable_of_visits (made : setup.program.Made) {state : State}
    (visits : Visits setup entries state) :
    (∀ fact, state.Holds fact → Derivable setup entries fact) ∧
      (setup.step state = .finished →
        IsLeast { holds : Fact → Prop | Closed setup entries holds }
          state.Holds) := by
  have justified := (visits.proper made.coherent).justified
  constructor
  · intro fact holds
    exact justified.facts holds
  · intro finished
    constructor
    · exact visits.closed made.coherent finished
    · intro holds closed fact held
      exact Derivable.least closed (justified.facts held)

theorem derivable_of_visits_cyclic :
    Cyclic.tracked.program.Made ∧ ∃ final,
      Visits Cyclic.tracked [Cyclic.main] final ∧
      final.calls.edges.length = 2 ∧
      (∀ fact, final.Holds fact →
        Derivable Cyclic.tracked [Cyclic.main] fact) ∧
      IsLeast { holds : Fact → Prop |
        Closed Cyclic.tracked [Cyclic.main] holds } final.Holds := by
  obtain ⟨final, ran, _, calls, _⟩ := Cyclic.exists_finished
  obtain ⟨visits, finished⟩ := Cyclic.run_visited 23 final ran
  obtain ⟨derivable, least⟩ :=
    derivable_of_visits Cyclic.made visits
  exact ⟨Cyclic.made, final, visits, calls, derivable,
    least finished⟩

end PointsTo
