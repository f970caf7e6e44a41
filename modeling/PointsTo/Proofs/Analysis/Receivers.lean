import PointsTo.Proofs.Analysis.Reachability

/-!
# Objects as contexts pin the receiver

Under a selector that tells receivers apart by object, an instance method runs
under the context of its receiver followed by the receiver itself.  As long as
no statement of the method assigns the receiver variable, the variable points
to that object and to no other one under this context: parameters have other
names, so nothing but calls on the object reaches the variable.
-/

namespace PointsTo

variable {setup : Setup} {entries : List MethodId}

/-! ## Receiver variables are not parameters -/

/-- No parameter has the name of the receiver variable. -/
def Method.KeepsThis (method : Method) : Prop :=
  ∀ this ∈ method.this?, this ∉ method.params

namespace Program

/-- A parameter is a new variable, so it is none of those that are there. -/
theorem not_mem_params_of_addParams {method next : Method}
    {pairs : List (String × Ty)} {name : String}
    (added : addParams method pairs = .ok next)
    (present : method.hasLocal name = true) (absent : name ∉ method.params) :
    name ∉ next.params := by
  induction pairs generalizing method with
  | nil =>
      cases added
      exact absent
  | cons pair rest ih =>
      rw [addParams, Checked.bind_eq_ok] at added
      rcases added with ⟨grown, created, added⟩
      rcases Method.newVar_eq_ok_iff.mp created with ⟨fresh, rfl⟩
      apply ih added
      · exact Method.hasLocal_withLocals method _ name present
      · intro listed
        rcases List.mem_append.mp listed with old | new
        · exact absent old
        · rw [List.mem_singleton.mp new] at present
          exact fresh present

theorem MethodHeading.keepsThis {heading : MethodHeading} {cls : Class}
    {method : Method} (declared : heading.declare cls = .ok method) :
    method.KeepsThis := by
  rw [heading.declare_eq] at declared
  intro this bound
  rcases Method.this?_eq_some_iff.mp bound with ⟨isStatic, rfl⟩
  have present : (heading.bare cls).hasLocal Method.thisName = true := by
    rcases exists_addParams_eq declared with ⟨entries, params, rfl⟩
    exact hasLocal_bare.mpr ⟨isStatic, rfl⟩
  exact not_mem_params_of_addParams declared present nofun

end Program

theorem Program.Made.keepsThis {program : Program} (made : program.Made)
    {id : MethodId} {method : Method}
    (found : program.method? id = some method) : method.KeepsThis := by
  refine (made.built.each MethodHeading.keepsThis ?_).method found
  intro program method next edited keeps this bound
  rcases edited.heading with ⟨params, _, isStatic⟩
  rw [params]
  apply keeps
  simpa [Method.this?, isStatic] using bound

/-! ## What reaches a receiver variable -/

/-- The variable that a statement assigns. -/
def Stmt.assigned? : Stmt → Option String
  | .new target _ | .copy target _ | .loadStatic target _
  | .loadField target _ _ | .loadArray target _ => some target
  | .invoke call => call.result
  | .storeStatic .. | .storeField .. | .storeArray .. | .ret _ => none

theorem Pointer.ofVar_inj {context other : Context} {id otherId : MethodId}
    {name otherName : String} :
    Pointer.ofVar context id name = .ofVar other otherId otherName ↔
      context = other ∧ id = otherId ∧ name = otherName := by
  simp [ofVar]

section Receiver

variable {id : MethodId} {method : Method} {this : String}
  {context : Context} (made : setup.program.Made)
  (found : setup.program.method? id = some method)
  (bound : method.this? = some this)
  (unassigned : ∀ stmt ∈ method.body, stmt.assigned? ≠ some this)

include found unassigned in
/-- A variable that a statement assigns is not the receiver variable. -/
theorem ofVar_ne_of_assigned {caller : Context} {site : Site} {stmt : Stmt}
    {target : String} (here : setup.program.stmt? site = some stmt)
    (assigned : stmt.assigned? = some target) :
    Pointer.ofVar caller site.method target ≠ .ofVar context id this := by
  intro same
  rcases Pointer.ofVar_inj.mp same with ⟨_, rfl, rfl⟩
  rw [Program.stmt?_of_method? found] at here
  exact unassigned stmt (List.mem_of_getElem? here) assigned

include made found bound unassigned

/-- Nothing flows into a receiver variable that is not assigned. -/
theorem Derivable.target_ne_this {source target : Pointer}
    (derivable : Derivable setup entries (.flows source target)) :
    target ≠ .ofVar context id this := by
  cases derivable with
  | infer rule _ =>
      cases rule with
      | copy here => exact ofVar_ne_of_assigned found unassigned here rfl
      | loadStatic here => exact ofVar_ne_of_assigned found unassigned here rfl
      | loadField here ordinary =>
          exact ofVar_ne_of_assigned found unassigned here rfl
      | loadArray here ordinary =>
          exact ofVar_ne_of_assigned found unassigned here rfl
      | storeStatic here => exact nofun
      | storeField here ordinary => exact nofun
      | storeArray here ordinary => exact nofun
      | passArgument here known paired =>
          intro same
          rcases Pointer.ofVar_inj.mp same with ⟨_, rfl, rfl⟩
          cases known.symm.trans found
          exact made.keepsThis found _ bound (List.of_mem_zip paired).2
      | passResult here taken returned =>
          exact ofVar_ne_of_assigned found unassigned
            ((Program.invoke?_eq_some_iff _ _ _).mp here) taken

/-- An ordinary object reaches a receiver variable that is not assigned through
calls on it only. -/
theorem Derivable.points_this {obj : ContextObj}
    (ordinary : ContextObj.isTaint obj = false)
    (derivable : Derivable setup entries
      (.points (.ofVar context id this) obj)) :
    ∃ site, context = setup.selector.instanceCallee site obj := by
  generalize reached : Pointer.ofVar context id this = pointer at derivable
  cases derivable with
  | infer rule derived =>
      cases rule with
      | allocate here =>
          exact absurd reached.symm
            (ofVar_ne_of_assigned found unassigned here rfl)
      | bindThis here based _ known isThis =>
          exact ⟨_, (Pointer.ofVar_inj.mp reached).1⟩
      | flow =>
          have flows := derived _ (.head _)
          exact absurd reached.symm
            (flows.target_ne_this made found bound unassigned)
      | source tracked here taken member => cases ordinary
      | retag taint => cases ordinary

end Receiver

/-! ## A program whose receivers allocate receivers

A method allocates an object and calls itself on it.
-/

namespace Growing

open Program
open Cyclic (type main)

def grow : MethodId := ⟨"A", subsignature "grow" [] type⟩

def growRef : MethodRef := ⟨"A", "grow", [], type⟩

def build : Except BuildError Program := do
  let program ← ({} : Program).newClass { name := "A" }
  let program ← program.newMethod
    { owner := "A", name := "main", paramTypes := [], result := type
      isStatic := true }
  let program ← program.newMethod
    { owner := "A", name := "grow", paramTypes := [], result := type }
  let program ← program.modifyMethod main fun method =>
    method.newVar "x" none
  let program ← program.modifyMethod grow fun method =>
    method.newVar "y" none
  let program ← program.modifyMethod main fun method =>
    method.addNew ⟨main, "x"⟩ type
  let program ← program.modifyMethod main fun method =>
    method.addInvoke .virtual growRef (some ⟨main, "x"⟩) [] none
  let program ← program.modifyMethod grow fun method =>
    method.addNew ⟨grow, "y"⟩ type
  program.modifyMethod grow fun method =>
    method.addInvoke .virtual growRef (some ⟨grow, "y"⟩) [] none

def program : Program :=
  build.toOption.getD {}

theorem built : program.Built := by
  unfold program
  cases done : build with
  | error problem => exact .empty
  | ok program =>
      simp only [build, Checked.bind_eq_ok] at done
      obtain ⟨_, newClass, _, newMain, _, newGrow, _, varX, _, varY, _, first,
        _, call, _, second, recur⟩ := done
      have declared := Built.empty.newClass newClass |>.newMethod newMain
        |>.newMethod newGrow
      have typed := Load.Built.modifyMethod
        (Load.Built.modifyMethod declared .newVar varX) .newVar varY
      have started := Load.Built.modifyMethod
        (Load.Built.modifyMethod typed .addNew first) .addInvoke call
      have grown := Load.Built.modifyMethod started .addNew second
      exact Load.Built.modifyMethod grown .addInvoke recur

def objects : Setup :=
  { program, selector := .object 2 }

/-- The object that `main` allocates. -/
def first : Obj :=
  .alloc ⟨main, 0⟩ "x" type

/-- The objects that `grow` allocates. -/
def second : Obj :=
  .alloc ⟨grow, 0⟩ "y" type

end Growing

/-! ## Pinned receivers -/

/-- Objects have shorter contexts than the methods that are called on them. -/
theorem Setup.Allocates.length_context_le {method : ContextMethod}
    {obj : ContextObj} (allocates : setup.Allocates method obj) {depth : Int}
    (selected : setup.selector = .object depth) :
    obj.context.length ≤ (depth - 1).toNat := by
  rcases allocates with ⟨index, target, type, _, rfl⟩
  simp only [Setup.allocated, Selector.heap, selected, Context.truncate,
    length_recent]
  exact Nat.min_le_left ..

theorem Context.extend_eq_append {context : Context} {depth : Int}
    (shorter : context.length + 1 ≤ depth.toNat) (elem : Elem) :
    context.extend elem depth = context ++ [elem] := by
  unfold extend recent
  rw [List.length_append, List.length_singleton, Nat.sub_eq_zero_of_le shorter]
  rfl

/--
In every state that the solver visits when it tells receivers apart by objects,
the context of an instance method determines its receiver: if no statement of
the method assigns the receiver variable, the context consists of the context
of the object that the variable points to, followed by that object.  So the
variable points to at most one ordinary object.
-/
theorem receiver_of_visits (made : setup.program.Made) {depth : Int}
    (positive : 1 ≤ depth) (selected : setup.selector = .object depth)
    {state : State} (visits : Visits setup entries state) {id : MethodId}
    {method : Method} (found : setup.program.method? id = some method)
    {this : String} (bound : method.this? = some this)
    (unassigned : ∀ stmt ∈ method.body, stmt.assigned? ≠ some this)
    (context : Context) :
    (∀ obj ∈ state.store.get (.ofVar context id this),
      ContextObj.isTaint obj = false →
      context = obj.context ++ [.object obj.val]) ∧
    ∀ obj ∈ state.store.get (.ofVar context id this),
      ∀ other ∈ state.store.get (.ofVar context id this),
        ContextObj.isTaint obj = false → ContextObj.isTaint other = false →
        obj = other := by
  have proper := visits.proper made.coherent
  have rooted := visits.rooted made.coherent
  have pinned : ∀ obj ∈ state.store.get (.ofVar context id this),
      ContextObj.isTaint obj = false →
      context = obj.context ++ [.object obj.val] := by
    intro obj points ordinary
    have derivable := proper.justified.facts
      (show state.Holds (.points (.ofVar context id this) obj) from points)
    rcases derivable.points_this made found bound unassigned ordinary with
      ⟨site, called⟩
    rcases rooted.allocated obj
      (proper.supported.numbered _ obj points) ordinary with
      ⟨allocator, _, allocates⟩
    have shorter := allocates.length_context_le selected
    rw [called, selected]
    exact Context.extend_eq_append (by omega) _
  refine ⟨pinned, ?_⟩
  intro obj points other pointsToo ordinary ordinaryToo
  have same := (pinned obj points ordinary).symm.trans
    (pinned other pointsToo ordinaryToo)
  rcases List.append_inj' same rfl with ⟨contexts, elems⟩
  cases obj
  cases other
  simp_all

/-- The object that is allocated on behalf of the first one is the receiver
under a context that names both. -/
theorem receiver_of_visits_growing :
    Growing.objects.program.Made ∧ (1 : Int) ≤ 2 ∧
      Growing.objects.selector = .object 2 ∧
      ∃ state, Visits Growing.objects [Cyclic.main] state ∧
        state.store.get (.ofVar
          [.object Growing.first, .object Growing.second] Growing.grow
          Method.thisName) = [⟨[.object Growing.first], Growing.second⟩] ∧
        ∀ context, ∀ obj ∈ state.store.get
            (.ofVar context Growing.grow Method.thisName),
          ContextObj.isTaint obj = false →
          context = obj.context ++ [.object obj.val] := by
  have measured : (Growing.objects.after? [Cyclic.main] 12).map
      (fun state => state.store.get (.ofVar
        [.object Growing.first, .object Growing.second] Growing.grow
        Method.thisName)) =
      some [⟨[.object Growing.first], Growing.second⟩] := by decide +kernel
  obtain ⟨state, visits, points⟩ := Setup.exists_visits measured
  have known : ((Growing.objects.program.method? Growing.grow).map
      fun method => (method.this?, method.body.map Stmt.assigned?)) =
      some (some Method.thisName, [some "y", none]) := by decide +kernel
  rcases Option.map_eq_some_iff.mp known with ⟨method, found, parts⟩
  rcases Prod.mk.inj parts with ⟨bound, assigned⟩
  have unassigned : ∀ stmt ∈ method.body,
      stmt.assigned? ≠ some Method.thisName := by
    intro stmt member
    have listed := List.mem_map_of_mem (f := Stmt.assigned?) member
    rw [assigned] at listed
    simp only [List.mem_cons, List.not_mem_nil, or_false] at listed
    rcases listed with target | none
    · rw [target]
      decide
    · rw [none]
      exact nofun
  exact ⟨Or.inl Growing.built, by decide, rfl, state, visits, points,
    fun context => (receiver_of_visits (Or.inl Growing.built)
      (show (1 : Int) ≤ 2 by decide) rfl visits found bound unassigned
      context).1⟩

end PointsTo
