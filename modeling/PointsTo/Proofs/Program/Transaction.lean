import PointsTo.Program.Editing
import PointsTo.Proofs.Program.Loaded

/-!
# Reading in place is transactional

An edit that is refused keeps what it has changed before.  Statements are read
in place so that nothing is changed before the text has been understood, and
after that nothing is refused.  So a text that is rejected leaves the whole
program as it was, and a text that is accepted leads to the method that reading
the text computes.
-/

namespace PointsTo

open Text (quoted trimmed)

namespace Method

@[simp]
theorem id_ensureVars (method : Method) (names : List String) :
    (method.ensureVars names).id = method.id := by
  rcases method.exists_ensureVars_eq names with ⟨_, grown, _⟩
  rw [grown]
  rfl

theorem var_ensureVars (method : Method) (names : List String) :
    (method.ensureVars names).var = method.var := by
  funext name
  rw [var, var, id_ensureVars]

/-- Variables may be created one at a time. -/
theorem ensureVars_ensureVar (method : Method) (names : List String)
    (name : String) :
    (method.ensureVars names).ensureVar name =
      method.ensureVars (names ++ [name]) := by
  rw [ensureVars, ensureVars, List.foldl_append, List.foldl_cons,
    List.foldl_nil]

end Method

namespace Editing

/-! ## Steps -/

section Steps

variable {α β : Type} {state next : Program}

/-- The second step starts where the first one has left the program. -/
theorem run_bind_of_ok {first : Editing α} {rest : α → Editing β} {value : α}
    (done : first.run state = .ok value next) :
    (first >>= rest).run state = (rest value).run next := by
  change EStateM.bind first rest state = _
  rw [EStateM.bind, show first state = .ok value next from done]
  rfl

/-- A refusal ends an edit, and the program stays as it is then. -/
theorem run_bind_of_error {first : Editing α} {rest : α → Editing β}
    {problem : Error} (refused : first.run state = .error problem next) :
    (first >>= rest).run state = .error problem next := by
  change EStateM.bind first rest state = _
  rw [EStateM.bind, show first state = .error problem next from refused]

theorem run_get_bind {rest : Program → Editing β} :
    (get >>= rest).run state = (rest state).run state :=
  rfl

theorem run_consult_of_ok {lookup : Program → Except Error α} {value : α}
    (found : lookup state = .ok value) :
    (consult lookup).run state = .ok value state := by
  rw [consult, run_get_bind, found]
  rfl

/-- A lookup that fails changes nothing. -/
theorem run_consult_of_error {lookup : Program → Except Error α}
    {problem : Error} (missing : lookup state = .error problem) :
    (consult lookup).run state = .error problem state := by
  rw [consult, run_get_bind, missing]
  rfl

end Steps

/-! ## Edits of one method -/

section Edits

variable {program : Program} (coherent : program.Coherent) {method : Method}
  (found : program.method? method.id = some method)

include coherent found

/-- A method that has been edited is found in the program. -/
theorem run_method {grown : Method} (same : grown.id = method.id) :
    (Editing.method method.id).run (program.setMethod grown) =
      .ok grown (program.setMethod grown) := by
  apply run_consult_of_ok
  rw [Program.method?_setMethod coherent found same]

/-- Further edits go on from where the method stands. -/
theorem run_change {grown next : Method}
    (step : Method → Except BuildError Method)
    (same : grown.id = method.id) (kept : next.id = method.id)
    (stepped : step grown = .ok next) :
    (change method.id step).run (program.setMethod grown) =
      .ok () (program.setMethod next) := by
  have modified : (program.setMethod grown).modifyMethod method.id step =
      .ok (program.setMethod next) := by
    rw [Program.modifyMethod,
      Program.method?_setMethod coherent found same]
    simp only [stepped]
    exact congrArg _ (Program.setMethod_setMethod (kept.trans same.symm))
  rw [change, run_get_bind, modified]
  rfl

theorem setMethod_ensureVars_nil :
    program.setMethod (method.ensureVars []) = program :=
  Program.setMethod_self coherent found

variable (names : List String)

/-- Variables that are created on the way are part of the program at once. -/
theorem run_ensureVar (name : String) :
    (ensureVar method.id name).run
        (program.setMethod (method.ensureVars names)) =
      .ok (method.var name)
        (program.setMethod (method.ensureVars (names ++ [name]))) := by
  have changed := run_change coherent found
    (fun method => .ok (method.ensureVar name))
    (method.id_ensureVars names) (method.id_ensureVars (names ++ [name]))
    (congrArg _ (method.ensureVars_ensureVar names name))
  rw [ensureVar, run_bind_of_ok changed]
  rfl

theorem run_ensureVar_first (name : String) :
    (ensureVar method.id name).run program =
      .ok (method.var name)
        (program.setMethod (method.ensureVars [name])) := by
  have created := run_ensureVar coherent found [] name
  rwa [setMethod_ensureVars_nil coherent found] at created

theorem run_ensureOptional (value : Option String) :
    (ensureOptional method.id value).run
        (program.setMethod (method.ensureVars names)) =
      .ok (value.map method.var)
        (program.setMethod (method.ensureVars (names ++ value.toList))) := by
  cases value with
  | none =>
      rw [Option.toList_none, List.append_nil]
      rfl
  | some name =>
      rw [ensureOptional,
        run_bind_of_ok (run_ensureVar coherent found names name)]
      rfl

/-- The arguments of a call are created from left to right. -/
theorem run_ensureVars (others : List String) :
    (ensureVars method.id others).run
        (program.setMethod (method.ensureVars names)) =
      .ok (others.map method.var)
        (program.setMethod (method.ensureVars (names ++ others))) := by
  induction others generalizing names with
  | nil =>
      rw [List.append_nil]
      rfl
  | cons name rest ih =>
      rw [ensureVars, run_bind_of_ok (run_ensureVar coherent found names name),
        run_bind_of_ok (ih (names ++ [name])), List.append_assoc]
      rfl

/-- A statement is appended once its variables have been created. -/
theorem run_append (stmt : Stmt) (balanced : stmt.Balanced)
    (add : Method → Except BuildError Method)
    (added : (method.ensureVars stmt.mentions).Allows stmt →
      add (method.ensureVars stmt.mentions) =
        .ok ((method.ensureVars stmt.mentions).record stmt)) :
    (append method.id add).run
        (program.setMethod (method.ensureVars stmt.mentions)) =
      .ok (method.site method.body.length)
        (program.setMethod (method.withStmt stmt)) := by
  have same := method.id_ensureVars stmt.mentions
  have changed := run_change coherent found add same (method.id_withStmt stmt)
    (added (method.allows_ensureVars stmt balanced))
  rw [append, run_bind_of_ok (run_method coherent found same),
    run_bind_of_ok changed]
  rcases method.exists_ensureVars_eq stmt.mentions with ⟨_, grown, _⟩
  rw [grown]
  rfl

end Edits

/-! ## Reading -/

/-- The answer of an edit that appends a statement to a method, if the method
that it should lead to can be computed. -/
def settled (program : Program) (method : Method) :
    Except Error Method → EStateM.Result Error Program Site
  | .ok next => .ok (method.site method.body.length) (program.setMethod next)
  | .error problem => .error problem program

section Reading

variable {program : Program} (coherent : program.Coherent) {method : Method}
  (found : program.method? method.id = some method) (text : String)

include coherent found

/-- All that can be refused about a call is refused before its first variable is
created. -/
theorem run_readInvoke (kind signature arguments : String)
    (result receiver : Option String) :
    (readInvoke method.id text result kind receiver signature arguments).run
        program =
      settled program method
        (program.readInvoke method text result kind receiver signature
          arguments) := by
  rw [Program.readInvoke_eq, readInvoke, Program.understandInvoke]
  cases CallKind.named? kind with
  | none => rfl
  | some kind =>
      simp only
      cases read : program.readRef signature with
      | error problem => exact run_bind_of_error (run_consult_of_error read)
      | ok ref =>
          rw [run_bind_of_ok (run_consult_of_ok read)]
          change _ = settled program method (Except.map _
            (if receiver.isNone ≠ decide (kind = .static) then _ else _))
          split
          · rfl
          rename_i balanced
          cases split : Program.splitArguments text arguments with
          | error problem => exact run_bind_of_error (run_consult_of_error rfl)
          | ok args =>
              have consulted : (consult fun _ =>
                  (.ok args : Except Error (List String))).run program =
                    .ok args program := run_consult_of_ok rfl
              rw [run_bind_of_ok consulted]
              change _ = settled program method (Except.map _
                (if args.length ≠ ref.params.length then _ else _))
              split
              · rfl
              -- From here on nothing is refused: the variables are created
              -- after all checks.
              have created := run_ensureVars coherent found [] args
              rw [setMethod_ensureVars_nil coherent found] at created
              rw [run_bind_of_ok created,
                run_bind_of_ok (run_ensureOptional coherent found _ receiver),
                run_bind_of_ok (run_ensureOptional coherent found _ result)]
              refine run_append coherent found
                (.invoke { kind, ref, receiver, args, result })
                (not_ne_iff.mp balanced) _ fun allowed => ?_
              simpa only [Method.var_ensureVars] using
                Method.addInvoke_var allowed

/-- The base of a field is created only after the field has been found. -/
theorem run_accessField (qualifier name : String) :
    (accessField method.id text qualifier name).run program =
      match program.access method qualifier name with
      | .error problem => .error (.within (quoted text) problem) program
      | .ok (.ofVariable base field) => .ok (some (method.var base), field)
          (program.setMethod (method.ensureVars [base]))
      | .ok (.ofClass field) => .ok (none, field) program := by
  have current := run_method coherent found rfl
  rw [Program.setMethod_self coherent found] at current
  rw [accessField, run_bind_of_ok current]
  cases denoted : program.access method qualifier name with
  | error problem =>
      apply run_bind_of_error
      apply run_consult_of_error
      rw [denoted]
      rfl
  | ok access =>
      have consulted : (consult fun program => (program.access method qualifier
          name).mapError (Error.within (quoted text))).run program =
            .ok access program := by
        apply run_consult_of_ok
        rw [denoted]
        rfl
      rw [run_bind_of_ok consulted]
      cases access with
      | ofVariable base field =>
          rw [run_bind_of_ok (run_ensureVar_first coherent found base)]
          rfl
      | ofClass field => rfl

/-- For a field that is read, the base is created first and the target after it.
-/
theorem run_loadField (target qualifier name : String) :
    (readShape method.id text (.loadField target qualifier name)).run program =
      settled program method
        (program.addShape method text (.loadField target qualifier name)) := by
  have accessed := run_accessField coherent found text qualifier name
  rw [readShape, Program.addShape_eq, Program.understand]
  cases denoted : program.access method qualifier name with
  | error problem =>
      rw [denoted] at accessed
      exact run_bind_of_error accessed
  | ok access =>
      have balanced := Program.balanced_of_access denoted
      rw [denoted] at accessed
      cases access with
      | ofVariable base field =>
          rw [run_bind_of_ok accessed,
            run_bind_of_ok (run_ensureVar coherent found _ target)]
          refine run_append coherent found (.loadField target base field)
            balanced _ fun allowed => ?_
          simpa only [Method.var_ensureVars] using
            Method.addLoadField_var allowed
      | ofClass field =>
          rw [run_bind_of_ok accessed,
            run_bind_of_ok (run_ensureVar_first coherent found target)]
          refine run_append coherent found (.loadStatic target field)
            balanced _ fun allowed => ?_
          simpa only [Method.var_ensureVars] using
            Method.addLoadStatic_var allowed

theorem run_storeField (qualifier name source : String) :
    (readShape method.id text (.storeField qualifier name source)).run program =
      settled program method
        (program.addShape method text (.storeField qualifier name source)) := by
  have accessed := run_accessField coherent found text qualifier name
  rw [readShape, Program.addShape_eq, Program.understand]
  cases denoted : program.access method qualifier name with
  | error problem =>
      rw [denoted] at accessed
      exact run_bind_of_error accessed
  | ok access =>
      have balanced := Program.balanced_of_access denoted
      rw [denoted] at accessed
      cases access with
      | ofVariable base field =>
          rw [run_bind_of_ok accessed,
            run_bind_of_ok (run_ensureVar coherent found _ source)]
          refine run_append coherent found (.storeField base field source)
            balanced _ fun allowed => ?_
          simpa only [Method.var_ensureVars] using
            Method.addStoreField_var allowed
      | ofClass field =>
          rw [run_bind_of_ok accessed,
            run_bind_of_ok (run_ensureVar_first coherent found source)]
          refine run_append coherent found (.storeStatic field source)
            balanced _ fun allowed => ?_
          simpa only [Method.var_ensureVars] using
            Method.addStoreStatic_var allowed

/-- Every form of statement is refused as a whole or added as a whole. -/
theorem run_readShape (shape : Shape) :
    (readShape method.id text shape).run program =
      settled program method (program.addShape method text shape) := by
  cases shape with
  | ret value =>
      have created := run_ensureOptional coherent found [] value
      rw [setMethod_ensureVars_nil coherent found] at created
      rw [Program.addShape_eq, readShape, run_bind_of_ok created]
      refine run_append coherent found (.ret value) trivial _
        fun allowed => ?_
      simpa only [Method.var_ensureVars] using Method.addReturn_var allowed
  | invoke result kind receiver signature arguments =>
      exact run_readInvoke coherent found text kind signature arguments result
        receiver
  | new target name =>
      rw [readShape, Program.addShape_eq, Program.understand]
      cases known : program.type? name with
      | none =>
          apply run_bind_of_error
          apply run_consult_of_error
          rw [known]
      | some type =>
          have consulted : (typeNamed text name).run program =
              .ok type program := by
            apply run_consult_of_ok
            rw [known]
          rw [run_bind_of_ok consulted,
            run_bind_of_ok (run_ensureVar_first coherent found target)]
          refine run_append coherent found (.new target type) trivial _
            fun allowed => ?_
          simpa only [Method.var_ensureVars] using Method.addNew_var allowed
  | loadArray target base =>
      rw [Program.addShape_eq, readShape,
        run_bind_of_ok (run_ensureVar_first coherent found target),
        run_bind_of_ok (run_ensureVar coherent found _ base)]
      refine run_append coherent found (.loadArray target base) trivial _
        fun allowed => ?_
      simpa only [Method.var_ensureVars] using Method.addLoadArray_var allowed
  | storeArray base source =>
      rw [Program.addShape_eq, readShape,
        run_bind_of_ok (run_ensureVar_first coherent found base),
        run_bind_of_ok (run_ensureVar coherent found _ source)]
      refine run_append coherent found (.storeArray base source) trivial _
        fun allowed => ?_
      simpa only [Method.var_ensureVars] using Method.addStoreArray_var allowed
  | loadField target qualifier name =>
      exact run_loadField coherent found text target qualifier name
  | storeField qualifier name source =>
      exact run_storeField coherent found text qualifier name source
  | copy target source =>
      rw [Program.addShape_eq, readShape,
        run_bind_of_ok (run_ensureVar_first coherent found target),
        run_bind_of_ok (run_ensureVar coherent found _ source)]
      refine run_append coherent found (.copy target source) trivial _
        fun allowed => ?_
      simpa only [Method.var_ensureVars] using Method.addCopy_var allowed

/-- Editing a program step by step comes to the same as computing the method
that a text leads to. -/
theorem run_readStmt :
    (readStmt method.id text).run program =
      settled program method (program.readStmt method text) := by
  rw [readStmt, Program.readStmt]
  cases Shape.read? (trimmed text).toList with
  | none => rfl
  | some shape => exact run_readShape coherent found (trimmed text) shape

end Reading

end Editing

/-! ## Transactions -/

/--
A method that has one statement more, at the end of its body.  Its further
variables are those that only the new statement mentions; they have no type.
Nothing is recorded but the statement.
-/
structure Method.Extended (method : Method) (stmt : Stmt) (next : Method) :
    Prop where
  body : next.body = method.body ++ [stmt]
  grown : ∃ created : List String,
    created.Nodup ∧
    (∀ name, name ∈ created ↔
      name ∈ stmt.names ∧ ¬ method.hasLocal name = true) ∧
    next = (method.withLocals (created.map Local.untyped)).record stmt

/-- A statement adds the variables that are missing, and itself. -/
theorem Method.extended_withStmt (method : Method) (stmt : Stmt) :
    method.Extended stmt (method.withStmt stmt) where
  body := method.body_withStmt stmt
  grown := by
    rcases method.exists_ensureVars_eq stmt.mentions with
      ⟨created, same, distinct, members⟩
    refine ⟨created, distinct, fun name => ?_, ?_⟩
    · rw [members, Stmt.mem_mentions]
    · rw [withStmt, same]

/--
Reading a statement in place is a transaction.  A text that is refused leaves
the program as it was.  A text that is accepted extends the method by one
statement and changes no other method.
-/
structure Editing.Transaction (program : Program) (method : Method)
    (text : String) : Prop where
  refused : ∀ problem after,
    (readStmt method.id text).run program = .error problem after →
      after = program
  accepted : ∀ site after,
    (readStmt method.id text).run program = .ok site after →
      site = ⟨method.id, method.body.length⟩ ∧
      ∃ stmt next, method.Extended stmt next ∧
        after = program.setMethod next ∧
        after.method? method.id = some next ∧
        ∀ other, other ≠ method.id →
          after.method? other = program.method? other
  decided : ∀ next, program.readStmt method text = .ok next →
    ∃ site, (readStmt method.id text).run program =
      .ok site (program.setMethod next)

/-- In programs that are built or loaded, reading a statement is a transaction. -/
theorem transaction_of_made {program : Program} (made : program.Made)
    {method : Method} (found : program.method? method.id = some method)
    (text : String) : Editing.Transaction program method text := by
  have coherent : program.Coherent := made.coherent
  have answer := Editing.run_readStmt coherent found text
  constructor
  · intro problem after refused
    rw [answer] at refused
    cases read : program.readStmt method text with
    | ok next =>
        rw [read] at refused
        cases refused
    | error cause =>
        rw [read] at refused
        cases refused
        rfl
  · intro site after accepted
    rw [answer] at accepted
    cases read : program.readStmt method text with
    | error cause =>
        rw [read] at accepted
        cases accepted
    | ok next =>
        rw [read] at accepted
        cases accepted
        rcases Program.readStmt_eq_ok_iff.mp read with ⟨_, stmt, _, _, rfl⟩
        refine ⟨rfl, stmt, _, method.extended_withStmt stmt, rfl,
          Program.method?_setMethod coherent found (method.id_withStmt stmt),
          fun other different => ?_⟩
        apply Program.method?_setMethod_of_ne
        rwa [Method.id_withStmt]
  · intro next read
    rw [answer, read]
    exact ⟨_, rfl⟩

/-! ## Sample program

One text passes two arguments to a method that has one parameter, the other text
loads a field.  Both mention variables that the method does not have.
-/

namespace Scripted

def spec : ProgramSpec where
  classes :=
    [{ name := "A"
       fields := [{ name := "f", type := "A" }]
       methods := [{ name := "m", params := ["A y"] }] }]

def refused : String :=
  "r = invokevirtual x.<A: void m(A)>(p, q)"

def accepted : String :=
  "z = x.f"

/-- The variables and the number of statements of a method. -/
def sizes (method : Method) : List String × Nat :=
  (method.locals.map Local.name, method.body.length)

/-- Whether a text is accepted, and the method afterwards. -/
def outcome (program : Program) (id : MethodId) (text : String) :
    Bool × Option (List String × Nat) :=
  match (Editing.readStmt id text).run program with
  | .ok _ after => (true, (after.method? id).map sizes)
  | .error _ after => (false, (after.method? id).map sizes)

/-- The outcomes for both texts. -/
def outcomes (program : Program) : List (Bool × Option (List String × Nat)) :=
  [refused, accepted].map (outcome program ⟨"A", "void m(A)"⟩)

end Scripted

theorem transaction_of_made_scripted :
    ∃ program method, Scripted.spec.load = .ok program ∧
      program.method? method.id = some method ∧
      Editing.Transaction program method Scripted.refused ∧
      Editing.Transaction program method Scripted.accepted ∧
      Scripted.outcomes program =
        [(false, some (["this", "y"], 0)),
          (true, some (["this", "y", "x", "z"], 1))] := by
  have outcomes : Scripted.spec.load.toOption.map Scripted.outcomes =
      some [(false, some (["this", "y"], 0)),
        (true, some (["this", "y", "x", "z"], 1))] := by decide +kernel
  have declared : (Scripted.spec.load.toOption.bind fun program =>
      program.method? ⟨"A", "void m(A)"⟩).isSome = true := by decide +kernel
  cases loaded : Scripted.spec.load with
  | error problem =>
      rw [loaded] at outcomes
      cases outcomes
  | ok program =>
      rw [loaded] at outcomes declared
      have made : program.Made := .inr ⟨Scripted.spec, loaded⟩
      rcases Option.isSome_iff_exists.mp declared with ⟨method, present⟩
      have found : program.method? method.id = some method := by
        rwa [(made.coherent.method present).2]
      exact ⟨program, method, rfl, found, transaction_of_made made found _,
        transaction_of_made made found _, Option.some.inj outcomes⟩

end PointsTo
