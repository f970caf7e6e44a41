import PointsTo.Proofs.Analysis.Accounted
import PointsTo.Proofs.Analysis.Grounded
import PointsTo.Proofs.Analysis.Reachability
import PointsTo.Proofs.Program.Signatures

/-!
# Calls fit their callees

Methods are found by the text of their subsignature alone.  In a loaded program
that text determines the name and the types, so a callee has the very name,
parameter types and result type that the call refers to, and a parameter for each
argument.  An interface call reaches only methods that are dispatched on objects
whose classes implement the interface.
-/

namespace PointsTo

open Relation

/-! ## Callees -/

namespace Program

variable {program : Program} {call : Invoke} {callee : Method}

theorem subsignature_of_method? {cls : Class} {subsignature : String}
    {method : Method} (found : cls.method? subsignature = some method) :
    method.subsignature = subsignature := by
  simpa using List.find?_some found

theorem dispatch?_eq_some {receiver : Option Ty} {ref : MethodRef}
    (found : program.dispatch? receiver ref = some callee) :
    callee.subsignature = ref.subsignature ∧ callee.isAbstract = false := by
  rcases List.exists_of_findSome?_eq_some found with ⟨cls, _, concrete⟩
  rcases Option.filter_eq_some_iff.mp concrete with ⟨here, isConcrete⟩
  exact ⟨subsignature_of_method? here, by simpa using isConcrete⟩

/-- A callee is concrete and has the subsignature that the call asks for. -/
theorem callee?_eq_some {receiver : Option Ty}
    (found : program.callee? receiver call = some callee) :
    callee.subsignature = call.ref.subsignature ∧
      callee.isAbstract = false := by
  have resolved : ∀ {method : Method},
      (program.resolve? call.ref).filter (fun method => !method.isAbstract) =
        some method →
      method.subsignature = call.ref.subsignature ∧
        method.isAbstract = false := by
    intro method found
    rcases Option.filter_eq_some_iff.mp found with ⟨found, isConcrete⟩
    rcases List.exists_of_findSome?_eq_some found with ⟨cls, _, here⟩
    exact ⟨subsignature_of_method? here, by simpa using isConcrete⟩
  unfold callee? at found
  split at found
  · exact resolved found
  · exact resolved found
  · split at found
    · split at found
      · cases found
      · exact dispatch?_eq_some found
    · exact dispatch?_eq_some found
  · exact dispatch?_eq_some found
  · exact dispatch?_eq_some found
  · cases found

/-- A class on which a method is dispatched is declared. -/
theorem mem_names_of_dispatch? {name : String} {ref : MethodRef}
    (found : program.dispatch? (some (.cls name)) ref = some callee) :
    name ∈ program.names := by
  rcases List.exists_of_findSome?_eq_some found with ⟨cls, above, _⟩
  exact mem_names_of_chainIn above

/-- An interface call is dispatched, and on a class that extends or implements
the interface, directly or through others. -/
theorem dispatch?_of_callee? (layered : Layered program.declarations)
    {receiver : Ty} (isInterface : call.kind = .interface)
    (found : program.callee? (some receiver) call = some callee) :
    program.dispatch? (some receiver) call.ref = some callee ∧
      ∀ name interface, receiver = .cls name →
        program.class? call.ref.owner = some interface →
        interface.isInterface = true →
        ReflTransGen program.Link name call.ref.owner := by
  simp only [callee?, isInterface] at found
  split at found
  · rename_i name interface same declared
    cases same
    split at found
    · cases found
    · rename_i accepted
      refine ⟨found, ?_⟩
      rintro _ _ ⟨⟩ again required
      cases declared.symm.trans again
      rw [required, Bool.true_and, Bool.not_eq_true',
        Bool.not_eq_false, implements, required, Bool.true_and,
        isSubclass_iff_link layered (mem_names_of_dispatch? found),
        name_of_class? declared] at accepted
      exact accepted
  · rename_i other
    refine ⟨found, ?_⟩
    rintro name interface rfl declared _
    exact (other name interface rfl declared).elim

end Program

/-! ## Edges -/

/-- The object that an interface call is dispatched on. -/
structure CallEdge.DispatchedOn (setup : Setup) (state : State)
    (edge : CallEdge) (call : Invoke) (callee : Method)
    (receiver : ContextObj) : Prop where
  points : ∃ base, call.receiver = some base ∧
    receiver ∈ state.store.get (edge.atCaller base)
  ordinary : ContextObj.isTaint receiver = false
  context : edge.callee.context =
    setup.selector.instanceCallee edge.site receiver
  chosen : setup.program.dispatch? (some receiver.val.type) call.ref =
    some callee
  /-- The class of the object reaches the interface by its superclasses and
  their interfaces. -/
  implements : ∀ name interface, receiver.val.type = .cls name →
    setup.program.class? call.ref.owner = some interface →
    interface.isInterface = true →
    ReflTransGen setup.program.Link name call.ref.owner

/-- A call edge leads from a call to a method that has what the call refers
to, and every argument flows to a parameter. -/
structure CallEdge.Fits (setup : Setup) (state : State) (edge : CallEdge)
    (call : Invoke) (callee : Method) : Prop where
  caller : setup.program.invoke? edge.site.val = some call
  kind : edge.kind = call.kind
  target : setup.program.method? edge.callee.val = some callee
  concrete : callee.isAbstract = false
  name : callee.name = call.ref.name
  params : callee.paramTypes = call.ref.params
  result : callee.result = call.ref.result
  counted : call.args.length = callee.params.length
  passed : ∀ (index : Nat) (arg : String), call.args[index]? = some arg →
    ∃ param, callee.params[index]? = some param ∧
      (edge.atCaller arg, edge.atCallee param) ∈ state.flow.edges
  dispatched : call.kind = .interface →
    ∃ receiver, edge.DispatchedOn setup state call callee receiver

variable {setup : Setup} {entries : List MethodId} {state : State}

/-- The call and the callee of an edge, and the object that an interface call was
dispatched on. -/
theorem Visits.exists_callee (built : setup.program.Built)
    (visits : Visits setup entries state) {edge : CallEdge}
    (member : edge ∈ state.calls.edges) :
    ∃ call callee receiver,
      setup.program.invoke? edge.site.val = some call ∧
      edge.kind = call.kind ∧ edge.callee.val = callee.id ∧
      setup.program.callee? receiver call = some callee ∧
      (call.kind = .interface →
        ∃ receiver, edge.DispatchedOn setup state call callee receiver) := by
  rcases visits.grounds built.coherent edge member with
    static | ⟨target, receiver, points, called⟩
  · rcases static with ⟨here, isStatic, found⟩
    refine ⟨_, _, _, (Program.invoke?_eq_some_iff _ _ _).mpr here, rfl, rfl,
      found, fun isInterface => ?_⟩
    rw [isStatic] at isInterface
    cases isInterface
  · rcases called with ⟨here, based, rfl, ordinary, found⟩
    refine ⟨_, _, _, (Program.invoke?_eq_some_iff _ _ _).mpr here, rfl, rfl,
      found, fun isInterface => ⟨receiver, ?_⟩⟩
    rcases Program.dispatch?_of_callee? built.layered isInterface found with
      ⟨chosen, implements⟩
    exact ⟨⟨_, based, points⟩, ordinary, rfl, chosen, implements⟩

/-- The arguments of a call flow to the parameters at the same positions. -/
theorem Visits.passes (coherent : setup.program.Coherent)
    (visits : Visits setup entries state) {edge : CallEdge}
    (member : edge ∈ state.calls.edges) {call : Invoke} {callee : Method}
    (here : setup.program.invoke? edge.site.val = some call)
    (found : setup.program.method? edge.callee.val = some callee)
    {index : Nat} {arg param : String} (given : call.args[index]? = some arg)
    (taken : callee.params[index]? = some param) :
    (edge.atCaller arg, edge.atCallee param) ∈ state.flow.edges := by
  have paired : (arg, param) ∈ call.args.zip callee.params := by
    apply List.mem_of_getElem? (i := index)
    rw [List.getElem?_zip_eq_some]
    exact ⟨given, taken⟩
  rcases (visits.accounted coherent).linked edge member
    (.passArgument here found paired) with holds | ⟨_, _, _, _, awaited⟩
  · exact holds
  · cases awaited

/--
In every state that the solver visits on a loaded program whose classes and
methods have the form of names, every call edge fits: the callee is concrete and
has the name and the types that the call refers to, no argument is dropped, and
an interface call is dispatched on a class that implements the interface.
-/
theorem fits_of_visits {spec : ProgramSpec}
    (loaded : spec.load = .ok setup.program)
    (wellNamed : setup.program.WellNamed)
    (named : ∀ method ∈ setup.program.methods, IsIdent method.name)
    (visits : Visits setup entries state) {edge : CallEdge}
    (member : edge ∈ state.calls.edges) :
    ∃ call callee, edge.Fits setup state call callee := by
  have whole := Program.loaded_of_load loaded
  have coherent := whole.built.coherent
  rcases visits.exists_callee whole.built member with
    ⟨call, callee, receiver, here, kind, same, found, dispatched⟩
  rcases Program.callee?_eq_some found with ⟨subsignature, concrete⟩
  have known := coherent.callee? found
  have target : setup.program.method? edge.callee.val = some callee := by
    rw [same]
    exact known
  have typed := whole.typed.method known
  have refers := typed.refers (Program.isSome_class?_of_method? known)
    (named callee (Program.mem_methods_of_method? coherent known).1)
  rcases Option.bind_eq_some_iff.mp
    ((Program.invoke?_eq_some_iff _ _ _).mp here) with ⟨caller, calling, inBody⟩
  rcases (whole.typed.method calling).calls call
    (List.mem_of_getElem? inBody) with ⟨refersCall, counted⟩
  have equal := Program.Refers.eq_of_subsignature wellNamed refers refersCall
    (callee.subsignature_ref.trans subsignature)
  have params : callee.paramTypes = call.ref.params :=
    congrArg MethodRef.params equal
  rw [← params, ← typed.counted] at counted
  refine ⟨call, callee, here, kind, target, concrete,
    congrArg MethodRef.name equal, params, congrArg MethodRef.result equal,
    counted, fun index arg given => ?_, dispatched⟩
  have bounded : index < callee.params.length := by
    rw [← counted]
    exact (List.getElem?_eq_some_iff.mp given).1
  have taken := List.getElem?_eq_getElem bounded
  exact ⟨_, taken, visits.passes coherent member here target given taken⟩

/-! ## Sample program

An interface call on an object whose class inherits the interface.
-/

namespace Inherited

def spec : ProgramSpec where
  classes :=
    [{ name := "I", isInterface := true
       methods := [{ name := "f", params := ["A[] x", "int n"] }] },
      { name := "A", interfaces := ["I"], isAbstract := true },
      { name := "B", super := "A"
        methods := [{ name := "f", params := ["A[] y", "int m"] }] },
      { name := "C"
        methods :=
          [{ name := "g", isStatic := true
             body :=
              ["b = new B", "invokeinterface b.<I: void f(A[], int)>(x, n)"] }] }]

def program : Program :=
  spec.load.toOption.getD {}

def byObject : Setup where
  program := program
  selector := .object 1

def main : MethodId := ⟨"C", "void g()"⟩

/-- The only call. -/
def edge : CallEdge where
  kind := .interface
  site := ⟨[], ⟨main, 1⟩⟩
  callee := ⟨[.object (.alloc ⟨main, 0⟩ "b" (.cls "B"))], "B", "void f(A[],int)"⟩

end Inherited

theorem fits_of_visits_inherited :
    Inherited.spec.load = .ok Inherited.program ∧
      Inherited.program.WellNamed ∧
      (∀ method ∈ Inherited.program.methods, IsIdent method.name) ∧
      ∃ state, Visits Inherited.byObject [Inherited.main] state ∧
        Inherited.edge ∈ state.calls.edges ∧
        ∃ call callee,
          Inherited.edge.Fits Inherited.byObject state call callee := by
  have loaded : Inherited.spec.load = .ok Inherited.program := by
    decide +kernel
  have wellNamed : Inherited.program.WellNamed :=
    List.all_eq_true.mp (show (Inherited.program.declarations.all fun cls =>
      Shape.isClassName cls.name.toList) = true by decide +kernel)
  have named : ∀ method ∈ Inherited.program.methods, IsIdent method.name :=
    List.all_eq_true.mp (show (Inherited.program.methods.all fun method =>
      Shape.isIdent method.name.toList) = true by decide +kernel)
  have measured : (Inherited.byObject.after? [Inherited.main] 4).map
      (fun state => state.calls.edges) = some [Inherited.edge] := by
    decide +kernel
  rcases Setup.exists_visits measured with ⟨state, visits, edges⟩
  have member : Inherited.edge ∈ state.calls.edges := by
    rw [edges]
    exact .head _
  exact ⟨loaded, wellNamed, named, state, visits, member,
    fits_of_visits loaded wellNamed named visits member⟩

end PointsTo
