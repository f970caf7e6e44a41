import PointsTo.Program.Request
import PointsTo.Proofs.Program.Transaction

/-!
# Methods under construction

Whatever is requested of the methods of a program, and whether or not it is
refused, the records of a method agree with its body afterwards.  Building in
place comes to the same as computing the method that a building step leads to,
so a request either leaves the program as it was or is one edit of one method.
-/

namespace PointsTo

/-! ## Building in place -/

namespace Building

/-- The answer of building steps that append a statement, if the method that
they should lead to can be computed. -/
def settled (method : Method) :
    Except BuildError Method → EStateM.Result BuildError Method Nat
  | .ok next => .ok method.body.length next
  | .error problem => .error problem method

section Steps

variable {method : Method}

/-- Looking something up changes nothing, whether it is found or not. -/
theorem run_consult_bind {α β : Type} {lookup : Method → Except BuildError α}
    {rest : α → Building β} :
    (consult lookup >>= rest).run method =
      match lookup method with
      | .ok value => (rest value).run method
      | .error problem => .error problem method := by
  change EStateM.bind (consult lookup) rest method = _
  have looked : consult lookup method = match lookup method with
      | .ok value => .ok value method
      | .error problem => .error problem method := by
    change (match lookup method with
      | .ok value => (pure value : Building α)
      | .error problem => throw problem) method = _
    cases lookup method <;> rfl
  rw [EStateM.bind, looked]
  cases lookup method <;> rfl

/-- A refused variable leaves the method as it was. -/
theorem run_newVar {name : String} {type : Option Ty} :
    (newVar name type).run method =
      match method.newVar name type with
      | .ok next => .ok () next
      | .error problem => .error problem method := by
  rw [Method.newVar]
  change (if method.hasLocal name = true then _ else _ : Building Unit)
    method = _
  split <;> rfl

/-- The steps in place settle what the builder computes: they leave its method,
or they are refused and leave the method as it was. So it is for the others. -/
theorem run_addNew {target : Var} {type : Ty} :
    (addNew target type).run method =
      settled method (method.addNew target type) := by
  rw [addNew, run_consult_bind, Method.addNew]
  cases method.own target <;> rfl

theorem run_addCopy {target source : Var} :
    (addCopy target source).run method =
      settled method (method.addCopy target source) := by
  rw [addCopy, run_consult_bind, Method.addCopy]
  cases method.own target with
  | error problem => rfl
  | ok target =>
      simp only [run_consult_bind]
      cases method.own source <;> rfl

theorem run_addLoadField {target : Var} {base : Option Var} {field : Field} :
    (addLoadField target base field).run method =
      settled method (method.addLoadField target base field) := by
  rw [addLoadField, run_consult_bind, Method.addLoadField]
  cases method.own target with
  | error problem => rfl
  | ok target =>
      simp only [run_consult_bind]
      cases method.ownOptional base with
      | error problem => rfl
      | ok base =>
          -- A refusal for the kind of the field comes before any change, too.
          cases base <;> cases field.isStatic <;> rfl

theorem run_addStoreField {base : Option Var} {field : Field} {source : Var} :
    (addStoreField base field source).run method =
      settled method (method.addStoreField base field source) := by
  rw [addStoreField, run_consult_bind, Method.addStoreField]
  cases method.ownOptional base with
  | error problem => rfl
  | ok base =>
      simp only [run_consult_bind]
      cases method.own source with
      | error problem => rfl
      | ok source => cases base <;> cases field.isStatic <;> rfl

theorem run_addLoadArray {target base : Var} :
    (addLoadArray target base).run method =
      settled method (method.addLoadArray target base) := by
  rw [addLoadArray, run_consult_bind, Method.addLoadArray]
  cases method.own target with
  | error problem => rfl
  | ok target =>
      simp only [run_consult_bind]
      cases method.own base <;> rfl

theorem run_addStoreArray {base source : Var} :
    (addStoreArray base source).run method =
      settled method (method.addStoreArray base source) := by
  rw [addStoreArray, run_consult_bind, Method.addStoreArray]
  cases method.own base with
  | error problem => rfl
  | ok base =>
      simp only [run_consult_bind]
      cases method.own source <;> rfl

/-- A call that is refused has recorded nothing, whichever of its variables is
to blame. -/
theorem run_addInvoke {kind : CallKind} {ref : MethodRef}
    {receiver : Option Var} {args : List Var} {result : Option Var} :
    (addInvoke kind ref receiver args result).run method =
      settled method (method.addInvoke kind ref receiver args result) := by
  rw [addInvoke, run_consult_bind, Method.addInvoke]
  cases method.ownOptional receiver with
  | error problem => rfl
  | ok receiver =>
      simp only [run_consult_bind]
      cases method.ownOptional result with
      | error problem => rfl
      | ok result =>
          cases method.ownAll args with
          | error problem => rfl
          | ok args =>
              change (if receiver.isNone ≠ decide (kind = .static) then _
                  else _ : Building Nat).run method =
                settled method
                  (if receiver.isNone = decide (kind = .static) then _ else _)
              by_cases balanced : receiver.isNone = decide (kind = .static)
              · rw [if_neg (not_ne_iff.mpr balanced), if_pos balanced]
                cases receiver <;> rfl
              · rw [if_pos (show _ ≠ _ from balanced), if_neg balanced]
                rfl

theorem run_addReturn {value : Option Var} :
    (addReturn value).run method =
      settled method (method.addReturn value) := by
  rw [addReturn, run_consult_bind, Method.addReturn]
  cases method.ownOptional value <;> rfl

end Steps

end Building

/-! ## Requests -/

/-- A text that is read adds one statement. -/
theorem Program.Reads.exists_body {method next : Method}
    (read : Program.Reads method next) :
    ∃ stmt, next.body = method.body ++ [stmt] := by
  rcases read with ⟨names, stmt, _, rfl⟩
  rcases method.exists_ensureVars_eq names with ⟨_, grown, _⟩
  rw [grown]
  exact ⟨stmt, rfl⟩

/-- Edits only ever append to the body. -/
theorem Method.Edit.body_isPrefix {program : Program} {method next : Method}
    (edited : Method.Edit program method next) : method.body <+: next.body := by
  rcases edited.cases with ⟨name, type, created⟩ | read
  · rcases newVar_eq_ok_iff.mp created with ⟨_, rfl⟩
    exact List.prefix_rfl
  · rcases read.exists_body with ⟨stmt, grown⟩
    rw [grown]
    exact List.prefix_append ..

/-- Methods keep their names. -/
theorem Method.Edit.id_eq {program : Program} {method next : Method}
    (edited : Method.Edit program method next) : next.id = method.id := by
  rcases edited.cases with ⟨name, type, created⟩ | ⟨names, stmt, _, rfl⟩
  · exact id_newVar created
  · exact method.id_ensureVars names

/-- The statement that a request gives by its parts. -/
def Request.stmt? : Request → Option Stmt
  | .newVar _ _ | .readStmt _ => none
  | .addNew target type => some (.new target.name type)
  | .addCopy target source => some (.copy target.name source.name)
  | .addLoadField target base field =>
      some (Method.loadStmt target.name (base.map Var.name) field)
  | .addStoreField base field source =>
      some (Method.storeStmt (base.map Var.name) field source.name)
  | .addLoadArray target base => some (.loadArray target.name base.name)
  | .addStoreArray base source => some (.storeArray base.name source.name)
  | .addInvoke kind ref receiver args result =>
      some (.invoke (Method.callOf kind ref receiver args result))
  | .addReturn value => some (.ret (value.map Var.name))

namespace Editing

/-- The answer to a request that has been carried out: the position of the new
statement, if there is one. -/
def Locates (request : Request) (method next : Method) : Option Site → Prop
  | none => next.body = method.body
  | some site => site = method.site method.body.length ∧
      ∃ stmt, next.body = method.body ++ [stmt] ∧
        ∀ asked, request.stmt? = some asked → stmt = asked

/--
A request is refused and leaves the program as it was, or it edits the method
that it is addressed to.
-/
def Settles (program : Program) (method : Method) (request : Request) :
    EStateM.Result Error Program (Option Site) → Prop
  | .error _ after => after = program
  | .ok answer after => ∃ next, Method.Edit program method next ∧
      after = program.setMethod next ∧ Locates request method next answer

section Requests

variable {program : Program} (coherent : program.Coherent) {method : Method}
  (found : program.method? method.id = some method)

include found

/-- A method that is built in place is stored, also after a refusal. -/
theorem run_build {α : Type} (steps : Building α) :
    (build method.id steps).run program =
      match steps.run method with
      | .ok value grown => .ok value (program.setMethod grown)
      | .error problem left =>
          .error (.construction problem) (program.setMethod left) := by
  have current : (Editing.method method.id).run program =
      .ok method program := by
    apply run_consult_of_ok
    rw [found]
  rw [build, run_bind_of_ok current]
  cases steps.run method <;> rfl

include coherent

/-- What is common to all requests that add a statement. -/
theorem settles_place {request : Request} {stmt : Stmt}
    (asked : request.stmt? = some stmt) {steps : Building Nat}
    {computed : Except BuildError Method}
    (built : steps.run method = Building.settled method computed)
    (edited : ∀ next, computed = .ok next →
      Method.Edit program method next ∧ next = method.record stmt) :
    Settles program method request
      ((place method.id steps).run program) := by
  have ran := run_build found steps
  rw [built] at ran
  cases computed with
  | error problem =>
      rw [place, run_bind_of_error ran]
      exact Program.setMethod_self coherent found
  | ok next =>
      rcases edited next rfl with ⟨edit, rfl⟩
      rw [place, run_bind_of_ok ran]
      refine ⟨_, edit, rfl, rfl, stmt, rfl, fun other same => ?_⟩
      exact Option.some.inj (asked.symm.trans same)

/-- One request to a method of the program. -/
theorem settles_perform (request : Request) :
    Settles program method request
      ((perform method.id request).run program) := by
  cases request with
  | newVar name type =>
      have ran := run_build found (Building.newVar name type)
      rw [Building.run_newVar] at ran
      cases created : method.newVar name type with
      | error problem =>
          rw [created] at ran
          rw [perform, run_bind_of_error ran]
          exact Program.setMethod_self coherent found
      | ok next =>
          rw [created] at ran
          rw [perform, run_bind_of_ok ran]
          rcases Method.newVar_eq_ok_iff.mp created with ⟨_, rfl⟩
          exact ⟨_, .newVar created, rfl, rfl⟩
  | addNew target type =>
      exact settles_place coherent found rfl Building.run_addNew
        fun next added => ⟨.addNew added, (Method.addNew_eq_ok added).2⟩
  | addCopy target source =>
      exact settles_place coherent found rfl Building.run_addCopy
        fun next added => ⟨.addCopy added, (Method.addCopy_eq_ok added).2⟩
  | addLoadField target base field =>
      exact settles_place coherent found rfl Building.run_addLoadField
        fun next added =>
          ⟨.addLoadField added, (Method.addLoadField_eq_ok added).2⟩
  | addStoreField base field source =>
      exact settles_place coherent found rfl Building.run_addStoreField
        fun next added =>
          ⟨.addStoreField added, (Method.addStoreField_eq_ok added).2⟩
  | addLoadArray target base =>
      exact settles_place coherent found rfl Building.run_addLoadArray
        fun next added =>
          ⟨.addLoadArray added, (Method.addLoadArray_eq_ok added).2⟩
  | addStoreArray base source =>
      exact settles_place coherent found rfl Building.run_addStoreArray
        fun next added =>
          ⟨.addStoreArray added, (Method.addStoreArray_eq_ok added).2⟩
  | addInvoke kind ref receiver args result =>
      exact settles_place coherent found rfl Building.run_addInvoke
        fun next added => ⟨.addInvoke added, (Method.addInvoke_eq_ok added).2⟩
  | addReturn value =>
      exact settles_place coherent found rfl Building.run_addReturn
        fun next added => ⟨.addReturn added, (Method.addReturn_eq_ok added).2⟩
  | readStmt text =>
      have current : (Editing.method method.id).run program =
          .ok method program := by
        apply run_consult_of_ok
        rw [found]
      have ran := run_readStmt coherent found text
      rw [perform, run_bind_of_ok current]
      cases read : program.readStmt method text with
      | error problem =>
          rw [read] at ran
          rw [run_bind_of_error ran]
          exact rfl
      | ok next =>
          rw [read] at ran
          rw [run_bind_of_ok ran]
          rcases (Program.readStmt_eq_ok read).exists_body with ⟨stmt, grown⟩
          refine ⟨next, .readStmt read, rfl, rfl, stmt, grown, ?_⟩
          intro asked absent
          cases absent

end Requests

/-- A request to a method that is not there is refused. -/
theorem run_perform_of_absent {program : Program} {id : MethodId}
    (absent : program.method? id = none) (request : Request) :
    (perform id request).run program =
      .error (.unknownMethod id.signature) program := by
  have missing : (Editing.method id).run program =
      .error (.unknownMethod id.signature) program := by
    apply run_consult_of_error
    rw [absent]
  have refused : ∀ {α : Type} (steps : Building α),
      (build id steps).run program =
        .error (.unknownMethod id.signature) program :=
    fun steps => run_bind_of_error missing
  cases request with
  | readStmt text => exact run_bind_of_error missing
  | _ => exact run_bind_of_error (refused _)

end Editing

namespace Program

/-! ## Series of requests -/

/-- What a request makes of a program. -/
theorem after_cases {program : Program} (coherent : program.Coherent)
    (id : MethodId) (request : Request) :
    program.after id request = program ∨
      ∃ method next, program.method? id = some method ∧
        Method.Edit program method next ∧
        program.after id request = program.setMethod next := by
  rw [after]
  cases found : program.method? id with
  | none =>
      rw [Editing.run_perform_of_absent found]
      exact .inl rfl
  | some method =>
      rcases coherent.method found with ⟨_, rfl⟩
      have settles := Editing.settles_perform coherent found request
      cases ran : (Editing.perform method.id request).run program with
      | error problem left =>
          rw [ran] at settles
          exact .inl settles
      | ok answer next =>
          rw [ran] at settles
          rcases settles with ⟨grown, edited, rfl, _⟩
          exact .inr ⟨method, grown, rfl, edited, rfl⟩

theorem Built.after {program : Program} (built : program.Built)
    (id : MethodId) (request : Request) :
    (program.after id request).Built := by
  rcases after_cases built.coherent id request with
    same | ⟨method, next, found, edited, changed⟩
  · rwa [same]
  · rw [changed]
    exact built.edit found edited

/-- Requests lead from built programs to built programs. -/
theorem Built.afterAll {program : Program} (built : program.Built)
    (requests : List (MethodId × Request)) :
    (program.afterAll requests).Built := by
  induction requests generalizing program with
  | nil => exact built
  | cons request rest ih => exact ih (built.after request.1 request.2)

/-- Every method is still there, with the same statements at the same
positions. -/
def Keeps (program later : Program) : Prop :=
  ∀ id method, program.method? id = some method →
    ∃ next, later.method? id = some next ∧ method.body <+: next.body

/-- Later programs keep what earlier ones had. -/
theorem Keeps.trans {first second third : Program}
    (earlier : first.Keeps second) (later : second.Keeps third) :
    first.Keeps third := by
  intro id method found
  rcases earlier id method found with ⟨next, present, grown⟩
  rcases later id next present with ⟨last, kept, grownAgain⟩
  exact ⟨last, kept, grown.trans grownAgain⟩

/-- A statement stays where it was put. -/
theorem Keeps.stmt? {program later : Program} (keeps : program.Keeps later)
    {site : Site} {stmt : Stmt} (here : program.stmt? site = some stmt) :
    later.stmt? site = some stmt := by
  rcases Option.bind_eq_some_iff.mp here with ⟨method, found, placed⟩
  rcases keeps _ _ found with ⟨next, present, rest, grown⟩
  rw [Program.stmt?, present, Option.bind_some, ← grown]
  exact List.getElem?_append_left (List.getElem?_eq_some_iff.mp placed).1 ▸
    placed

/-- A request only adds to the methods of a program. -/
theorem keeps_after {program : Program} (coherent : program.Coherent)
    (id : MethodId) (request : Request) :
    program.Keeps (program.after id request) := by
  intro other method found
  rcases after_cases coherent id request with
    same | ⟨old, next, present, edited, changed⟩
  · rw [same]
    exact ⟨method, found, List.prefix_rfl⟩
  · rcases coherent.method present with ⟨_, rfl⟩
    rw [changed]
    by_cases addressed : other = old.id
    · subst addressed
      cases present.symm.trans found
      exact ⟨next, method?_setMethod coherent present edited.id_eq,
        edited.body_isPrefix⟩
    · refine ⟨method, ?_, List.prefix_rfl⟩
      rw [method?_setMethod_of_ne (by rwa [edited.id_eq]), found]

theorem keeps_afterAll {program : Program} (built : program.Built)
    (requests : List (MethodId × Request)) :
    program.Keeps (program.afterAll requests) := by
  induction requests generalizing program with
  | nil => exact fun _ method found => ⟨method, found, List.prefix_rfl⟩
  | cons request rest ih =>
      exact (keeps_after built.coherent request.1 request.2).trans
        (ih (built.after request.1 request.2))

end Program

/-! ## Records and bodies -/

/-- Lists exactly the positions with a property, in ascending order. -/
structure Lists (positions : List Nat) (holds : Nat → Prop) : Prop where
  ascending : positions.Pairwise (· < ·)
  members : ∀ index, index ∈ positions ↔ holds index

theorem Lists.congr {positions : List Nat} {holds other : Nat → Prop}
    (lists : Lists positions holds)
    (same : ∀ index, holds index ↔ other index) : Lists positions other :=
  ⟨lists.ascending, fun index => (lists.members index).trans (same index)⟩

/-- The positions that are kept with a variable are those of the statements of
the body that use it as base or receiver. -/
structure Local.Mirrors (entry : Local) (body : List Stmt) : Prop where
  loadFields : Lists entry.loadFields fun index => ∃ target field,
    body[index]? = some (.loadField target entry.name field)
  storeFields : Lists entry.storeFields fun index => ∃ field source,
    body[index]? = some (.storeField entry.name field source)
  loadArrays : Lists entry.loadArrays fun index => ∃ target,
    body[index]? = some (.loadArray target entry.name)
  storeArrays : Lists entry.storeArrays fun index => ∃ source,
    body[index]? = some (.storeArray entry.name source)
  invokes : Lists entry.invokes fun index => ∃ call,
    body[index]? = some (.invoke call) ∧ call.kind ≠ .static ∧
      call.receiver = some entry.name

/-- What a method and its variables record mirrors the body. -/
structure Method.Mirrored (method : Method) : Prop where
  distinct : (method.locals.map Local.name).Nodup
  mentions : ∀ stmt ∈ method.body, ∀ name ∈ stmt.names,
    method.hasLocal name = true
  entries : ∀ entry ∈ method.locals, entry.Mirrors method.body
  returns : method.returns = method.body.filterMap Stmt.returned?

/-- The statements that use a variable are listed in the order of the body. -/
theorem pairwise_usesIn (body : List Stmt) (use : Use) (base : String) :
    (usesIn body use base).Pairwise (· < ·) := by
  have positions : (body.zipIdx.map Prod.snd).Pairwise (· < ·) := by
    rw [List.zipIdx_map_snd]
    exact List.pairwise_lt_range'
  exact positions.sublist (List.filter_sublist.map _)

namespace Stmt

variable {stmt : Stmt} {base : String}

theorem use?_eq_loadField :
    stmt.use? = some (.loadField, base) ↔
      ∃ target field, stmt = .loadField target base field := by
  cases stmt <;> simp [use?]

theorem use?_eq_storeField :
    stmt.use? = some (.storeField, base) ↔
      ∃ field source, stmt = .storeField base field source := by
  cases stmt <;> simp [use?]

theorem use?_eq_loadArray :
    stmt.use? = some (.loadArray, base) ↔
      ∃ target, stmt = .loadArray target base := by
  cases stmt <;> simp [use?]

theorem use?_eq_storeArray :
    stmt.use? = some (.storeArray, base) ↔
      ∃ source, stmt = .storeArray base source := by
  cases stmt <;> simp [use?]

theorem use?_eq_invoke :
    stmt.use? = some (.invoke, base) ↔
      ∃ call, stmt = .invoke call ∧ call.receiver = some base := by
  cases stmt <;> simp [use?]

end Stmt

namespace Method

variable {method : Method} (coherent : method.Coherent)

include coherent

/-- The positions that a variable records are those of the statements that use
it. -/
theorem Coherent.lists {entry : Local} (member : entry ∈ method.locals)
    (use : Use) :
    Lists (entry.positions use) fun index => ∃ stmt,
      method.body[index]? = some stmt ∧
        stmt.use? = some (use, entry.name) := by
  rw [coherent.recorded entry member use]
  exact ⟨pairwise_usesIn .., fun index => mem_usesIn⟩

theorem Coherent.mirrors {entry : Local} (member : entry ∈ method.locals) :
    entry.Mirrors method.body where
  loadFields := (coherent.lists member .loadField).congr fun index => by
    simp only [Stmt.use?_eq_loadField]
    grind
  storeFields := (coherent.lists member .storeField).congr fun index => by
    simp only [Stmt.use?_eq_storeField]
    grind
  loadArrays := (coherent.lists member .loadArray).congr fun index => by
    simp only [Stmt.use?_eq_loadArray]
    grind
  storeArrays := (coherent.lists member .storeArray).congr fun index => by
    simp only [Stmt.use?_eq_storeArray]
    grind
  invokes := (coherent.lists member .invoke).congr fun index => by
    constructor
    · rintro ⟨stmt, here, used⟩
      rcases Stmt.use?_eq_invoke.mp used with ⟨call, rfl, receiver⟩
      refine ⟨call, here, ?_, receiver⟩
      intro static
      have balanced := (coherent.allowed _ (List.mem_of_getElem? here)).balanced
      simp [Stmt.Balanced, receiver, static] at balanced
    · rintro ⟨call, here, _, receiver⟩
      exact ⟨_, here, Stmt.use?_eq_invoke.mpr ⟨call, rfl, receiver⟩⟩

theorem Coherent.mirrored : method.Mirrored where
  distinct := coherent.distinct
  mentions stmt member := (coherent.allowed stmt member).known
  entries _ member := coherent.mirrors member
  returns := coherent.returned

end Method

namespace Program

/-- A request that is answered with a position has appended a statement
there. -/
theorem exists_stmt_of_perform {program after : Program}
    (coherent : program.Coherent) {id : MethodId} {request : Request}
    {site : Site}
    (performed : (Editing.perform id request).run program =
      .ok (some site) after) :
    ∃ method stmt, program.method? id = some method ∧
      site = ⟨id, method.body.length⟩ ∧
      (after.method? id).map Method.body = some (method.body ++ [stmt]) ∧
      ∀ asked, request.stmt? = some asked → stmt = asked := by
  cases found : program.method? id with
  | none =>
      rw [Editing.run_perform_of_absent found] at performed
      cases performed
  | some method =>
      rcases coherent.method found with ⟨_, rfl⟩
      have settles := Editing.settles_perform coherent found request
      rw [performed] at settles
      rcases settles with ⟨next, edited, rfl, rfl, stmt, grown, asked⟩
      refine ⟨method, stmt, rfl, rfl, ?_, asked⟩
      rw [method?_setMethod coherent found edited.id_eq, Option.map_some, grown]

/--
Every method mirrors its body after a series of requests, and each request of
the series that has been answered with a position appended a statement to its
method, the one that it asked for, which keeps this position.
-/
structure Indexed (program : Program) (requests : List (MethodId × Request)) :
    Prop where
  mirrored : ∀ method ∈ (program.afterAll requests).methods, method.Mirrored
  placed : ∀ earlier id request later,
    requests = earlier ++ (id, request) :: later →
    ∀ site after,
      (Editing.perform id request).run (program.afterAll earlier) =
        .ok (some site) after →
      ∃ method stmt, (program.afterAll earlier).method? id = some method ∧
        site = ⟨id, method.body.length⟩ ∧
        (program.afterAll requests).stmt? site = some stmt ∧
        ∀ asked, request.stmt? = some asked → stmt = asked

end Program

/-- Records mirror the bodies after every series of requests, refused ones
included. -/
theorem indexed_of_made {program : Program} (made : program.Made)
    (requests : List (MethodId × Request)) : program.Indexed requests where
  mirrored method member := by
    have coherent := (made.built.afterAll requests).coherent
    exact (coherent.method (coherent.method?_of_mem member)).1.mirrored
  placed := by
    rintro earlier id request later rfl site after performed
    have built := made.built.afterAll earlier
    rcases Program.exists_stmt_of_perform built.coherent performed with
      ⟨method, stmt, found, rfl, grown, asked⟩
    refine ⟨method, stmt, found, rfl, ?_, asked⟩
    have reached : (program.afterAll earlier).after id request = after := by
      rw [Program.after, performed]
    have builtNext : after.Built := reached ▸ built.after id request
    have here : after.stmt? ⟨id, method.body.length⟩ = some stmt := by
      rcases Option.map_eq_some_iff.mp grown with ⟨next, present, body⟩
      rw [Program.stmt?, present, Option.bind_some, body]
      exact List.getElem?_concat_length
    have remaining : program.afterAll (earlier ++ (id, request) :: later) =
        after.afterAll later := by
      rw [Program.afterAll, List.foldl_append, List.foldl_cons]
      exact congrArg (Program.afterAll · later) reached
    rw [remaining]
    exact (Program.keeps_afterAll builtNext later).stmt? here

/-! ## Sample requests

Five of the ten requests are refused: a variable that exists, a variable of
another method, a static field with a base, a static call with a receiver, and a
text with an unknown field.
-/

namespace Requested

def spec : ProgramSpec where
  classes :=
    [{ name := "A"
       fields :=
        [{ name := "f", type := "A" },
          { name := "s", type := "A", isStatic := true }]
       methods := [{ name := "m", params := ["A y"], result := "A" }] }]

def program : Program :=
  spec.load.toOption.getD {}

def id : MethodId :=
  ⟨"A", "A m(A)"⟩

def var (name : String) : Var :=
  ⟨id, name⟩

def requests : List (MethodId × Request) :=
  [.newVar "x" none,
    .newVar "y" none,
    .addCopy (var "x") ⟨⟨"A", "void n()"⟩, "y"⟩,
    .addStoreField (some (var "x")) ⟨"A", "f", .cls "A", false⟩ (var "y"),
    .addLoadField (var "x") (some (var "y")) ⟨"A", "s", .cls "A", true⟩,
    .addInvoke .static ⟨"A", "m", [.cls "A"], .cls "A"⟩ (some (var "x"))
      [var "y"] none,
    .addInvoke .virtual ⟨"A", "m", [.cls "A"], .cls "A"⟩ (some (var "x"))
      [var "y"] none,
    .readStmt "z = x.g",
    .readStmt "x.f = z",
    .addReturn (some (var "z"))].map fun request => (id, request)

/-- The variables with their positions, and the recorded return values. -/
def records (method : Method) :
    List (String × List Nat × List Nat) × List String :=
  (method.locals.map fun entry =>
      (entry.name, entry.storeFields, entry.invokes), method.returns)

end Requested

theorem indexed_of_made_requested :
    Requested.spec.load = .ok Requested.program ∧
      ((Requested.program.afterAll Requested.requests).method?
          Requested.id).map Requested.records =
        some ([("this", [], []), ("y", [], []), ("x", [0, 2], [1]),
          ("z", [], [])], ["z"]) ∧
      Requested.program.Indexed Requested.requests := by
  have loaded : Requested.spec.load = .ok Requested.program := by
    decide +kernel
  refine ⟨loaded, by decide +kernel, ?_⟩
  exact indexed_of_made (.inr ⟨Requested.spec, loaded⟩) Requested.requests

end PointsTo
