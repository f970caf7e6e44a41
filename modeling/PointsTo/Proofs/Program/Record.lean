import PointsTo.Proofs.Checked
import PointsTo.Program.Statement

/-!
# What appending a statement records

Every building step that appends a statement does the same three things: the
statement becomes the last one of the body, its position is recorded with the
variable that it uses as base or receiver, and the value of a `return`
statement is recorded with the method.  `Method.record` is this step for an
arbitrary statement, and each building step is shown to be an instance of it.
-/

namespace PointsTo

/-- How a statement uses the object in its base or receiver. -/
inductive Use where
  | loadField | storeField | loadArray | storeArray | invoke
deriving DecidableEq

namespace Local

/-- The recorded positions of the statements with one kind of use. -/
def positions (entry : Local) : Use → List Nat
  | .loadField => entry.loadFields
  | .storeField => entry.storeFields
  | .loadArray => entry.loadArrays
  | .storeArray => entry.storeArrays
  | .invoke => entry.invokes

/-- Record a further position. -/
def note (entry : Local) (index : Nat) : Use → Local
  | .loadField => { entry with loadFields := entry.loadFields ++ [index] }
  | .storeField => { entry with storeFields := entry.storeFields ++ [index] }
  | .loadArray => { entry with loadArrays := entry.loadArrays ++ [index] }
  | .storeArray => { entry with storeArrays := entry.storeArrays ++ [index] }
  | .invoke => { entry with invokes := entry.invokes ++ [index] }

@[simp]
theorem name_note (entry : Local) (index : Nat) (use : Use) :
    (entry.note index use).name = entry.name := by
  cases use <;> rfl

/-- Only the positions of the use that is noted change. -/
theorem positions_note (entry : Local) (index : Nat) (noted use : Use) :
    (entry.note index noted).positions use =
      entry.positions use ++ if noted = use then [index] else [] := by
  cases noted <;> cases use <;> simp [note, positions]

end Local

namespace Stmt

/-- How a statement uses its base, and the name of the base. -/
def use? : Stmt → Option (Use × String)
  | .loadField _ base _ => some (.loadField, base)
  | .storeField base _ _ => some (.storeField, base)
  | .loadArray _ base => some (.loadArray, base)
  | .storeArray base _ => some (.storeArray, base)
  | .invoke call => call.receiver.map fun base => (.invoke, base)
  | _ => none

/-- The variables that a statement mentions. -/
def names : Stmt → List String
  | .new target _ | .loadStatic target _ => [target]
  | .copy target source => [target, source]
  | .loadField target base _ | .loadArray target base => [target, base]
  | .storeField base _ source | .storeArray base source => [base, source]
  | .storeStatic _ source => [source]
  | .invoke call => call.receiver.toList ++ call.result.toList ++ call.args
  | .ret value => value.toList

/-- The value of a `return` statement. -/
def returned? : Stmt → Option String
  | .ret value => value
  | _ => none

/--
Whether a statement has a base where it needs one: fields are accessed without
base exactly when they are static, and calls have a receiver exactly when they
are not static.
-/
def Balanced : Stmt → Prop
  | .loadField _ _ field | .storeField _ field _ => field.isStatic = false
  | .loadStatic _ field | .storeStatic field _ => field.isStatic = true
  | .invoke call => call.receiver.isNone = decide (call.kind = .static)
  | _ => True

/-- The base of a statement is one of its variables. -/
theorem mem_names_of_use {stmt : Stmt} {use : Use} {base : String}
    (used : stmt.use? = some (use, base)) :
    base ∈ stmt.names := by
  cases stmt with
  | invoke call =>
      obtain ⟨receiver, present, pair⟩ := Option.map_eq_some_iff.mp used
      simp_all [names]
  | _ => simp_all [use?, names]

end Stmt

namespace Method

/-- Variables are known by their names. -/
theorem hasLocal_iff (method : Method) (name : String) :
    method.hasLocal name = true ↔ name ∈ method.locals.map Local.name := by
  simp [hasLocal, List.any_eq_true]

/-- Append a statement and record its position and its value. -/
def record (method : Method) (stmt : Stmt) : Method :=
  { method with
    locals := method.locals.map fun entry =>
      match stmt.use? with
      | some (use, base) =>
          if entry.name = base then entry.note method.body.length use
          else entry
      | none => entry
    body := method.body ++ [stmt]
    returns := method.returns ++ stmt.returned?.toList }

/-- What a statement has to satisfy in order to be appended to a method. -/
structure Allows (method : Method) (stmt : Stmt) : Prop where
  known : ∀ name ∈ stmt.names, method.hasLocal name = true
  balanced : stmt.Balanced

/-- Recording a statement creates no variables. -/
@[simp]
theorem names_record (method : Method) (stmt : Stmt) :
    (method.record stmt).locals.map Local.name =
      method.locals.map Local.name := by
  simp only [record, List.map_map]
  apply List.map_congr_left
  intro entry _
  simp only [Function.comp_apply]
  split
  · split <;> simp
  · rfl

@[simp]
theorem hasLocal_record (method : Method) (stmt : Stmt) (name : String) :
    (method.record stmt).hasLocal name = method.hasLocal name := by
  rw [Bool.eq_iff_iff, hasLocal_iff, hasLocal_iff, names_record]

/-! ## Names of variables -/

/-- A variable that passes the check is one of the method. -/
theorem own_eq_ok {method : Method} {candidate : Var} {name : String}
    (owned : method.own candidate = .ok name) :
    name = candidate.name ∧ method.hasLocal name = true := by
  unfold own at owned
  split at owned
  · rename_i present
    cases owned
    exact ⟨rfl, present.2⟩
  · cases owned

theorem ownOptional_eq_ok {method : Method} {candidate : Option Var}
    {value : Option String}
    (owned : method.ownOptional candidate = .ok value) :
    value = candidate.map Var.name ∧
      ∀ name ∈ value.toList, method.hasLocal name = true := by
  cases candidate with
  | none =>
      cases owned
      simp
  | some candidate =>
      rw [ownOptional, Checked.map_eq_ok] at owned
      obtain ⟨name, found, rfl⟩ := owned
      obtain ⟨rfl, present⟩ := own_eq_ok found
      simp [present]

theorem ownAll_eq_ok {method : Method} {candidates : List Var}
    {names : List String}
    (owned : method.ownAll candidates = .ok names) :
    names = candidates.map Var.name ∧
      ∀ name ∈ names, method.hasLocal name = true := by
  induction candidates generalizing names with
  | nil =>
      cases owned
      simp
  | cons first rest ih =>
      simp only [ownAll, Checked.bind_eq_ok, Checked.pure_eq_ok] at owned
      obtain ⟨name, firstFound, others, restFound, rfl⟩ := owned
      obtain ⟨rfl, present⟩ := own_eq_ok firstFound
      obtain ⟨rfl, known⟩ := ih restFound
      simpa [present] using known

/-! ## Building steps that append a statement -/

/-- Statements without a base and without a returned value are only appended. -/
theorem record_eq_append {method : Method} {stmt : Stmt}
    (unused : stmt.use? = none) (silent : stmt.returned? = none) :
    method.record stmt = method.append stmt := by
  simp [record, append, unused, silent]

/-- Statements with a base are noted there as well. -/
theorem record_eq_noteUse {method : Method} {stmt : Stmt} (use : Use)
    {base : String} (used : stmt.use? = some (use, base))
    (silent : stmt.returned? = none) :
    method.record stmt =
      (method.noteUse base fun index entry => entry.note index use).append
        stmt := by
  simp [record, append, noteUse, used, silent]

/-- A building step that succeeds was allowed, and has recorded its statement;
so it is for the others. -/
theorem addNew_eq_ok {method next : Method} {target : Var} {type : Ty}
    (added : method.addNew target type = .ok next) :
    method.Allows (.new target.name type) ∧
      next = method.record (.new target.name type) := by
  simp only [addNew, Checked.bind_eq_ok, Checked.pure_eq_ok] at added
  obtain ⟨name, owned, rfl⟩ := added
  obtain ⟨rfl, present⟩ := own_eq_ok owned
  refine ⟨⟨?_, trivial⟩, (record_eq_append rfl rfl).symm⟩
  simpa [Stmt.names] using present

theorem addCopy_eq_ok {method next : Method} {target source : Var}
    (added : method.addCopy target source = .ok next) :
    method.Allows (.copy target.name source.name) ∧
      next = method.record (.copy target.name source.name) := by
  simp only [addCopy, Checked.bind_eq_ok, Checked.pure_eq_ok] at added
  obtain ⟨name, ownsTarget, other, ownsSource, rfl⟩ := added
  obtain ⟨rfl, targetPresent⟩ := own_eq_ok ownsTarget
  obtain ⟨rfl, sourcePresent⟩ := own_eq_ok ownsSource
  refine ⟨⟨?_, trivial⟩, (record_eq_append rfl rfl).symm⟩
  simp [Stmt.names, targetPresent, sourcePresent]

/-- Fields are accessed without base exactly when they are static. -/
theorem access_eq_ok {base : Option String} {isStatic : Bool}
    {ofClass next : Method} {ofBase : String → Method} {problem : BuildError}
    (accessed : (match base, isStatic with
      | none, true => pure ofClass
      | some base, false => pure (ofBase base)
      | _, _ => throw problem : Except BuildError Method) = .ok next) :
    (base = none ∧ isStatic = true ∧ next = ofClass) ∨
      ∃ name, base = some name ∧ isStatic = false ∧ next = ofBase name := by
  cases base with
  | none =>
      cases isStatic with
      | false => simp at accessed
      | true => exact Or.inl ⟨rfl, rfl, (Checked.pure_eq_ok.mp accessed).symm⟩
  | some name =>
      cases isStatic with
      | true => simp at accessed
      | false =>
          exact Or.inr ⟨name, rfl, rfl,
            (Checked.pure_eq_ok.mp accessed).symm⟩

/-- The statement that loads a field: a static one if there is no base. -/
def loadStmt (target : String) (base : Option String) (field : Field) :
    Stmt :=
  match base with
  | none => .loadStatic target field
  | some base => .loadField target base field

/-- The statement that stores a field: a static one if there is no base. -/
def storeStmt (base : Option String) (field : Field) (source : String) :
    Stmt :=
  match base with
  | none => .storeStatic field source
  | some base => .storeField base field source

theorem addLoadField_eq_ok {method next : Method} {target : Var}
    {base : Option Var} {field : Field}
    (added : method.addLoadField target base field = .ok next) :
    method.Allows (loadStmt target.name (base.map Var.name) field) ∧
      next = method.record
        (loadStmt target.name (base.map Var.name) field) := by
  simp only [addLoadField, Checked.bind_eq_ok] at added
  obtain ⟨name, ownsTarget, value, ownsBase, added⟩ := added
  obtain ⟨rfl, targetPresent⟩ := own_eq_ok ownsTarget
  obtain ⟨rfl, basePresent⟩ := ownOptional_eq_ok ownsBase
  rcases access_eq_ok added with
    ⟨absent, isStatic, rfl⟩ | ⟨name, present, isStatic, rfl⟩
  · rw [absent]
    refine ⟨⟨?_, isStatic⟩, (record_eq_append rfl rfl).symm⟩
    simpa [loadStmt, Stmt.names] using targetPresent
  · rw [present] at basePresent ⊢
    refine ⟨⟨?_, isStatic⟩, (record_eq_noteUse .loadField rfl rfl).symm⟩
    simpa [loadStmt, Stmt.names, targetPresent] using basePresent

theorem addStoreField_eq_ok {method next : Method} {base : Option Var}
    {field : Field} {source : Var}
    (added : method.addStoreField base field source = .ok next) :
    method.Allows (storeStmt (base.map Var.name) field source.name) ∧
      next = method.record
        (storeStmt (base.map Var.name) field source.name) := by
  simp only [addStoreField, Checked.bind_eq_ok] at added
  obtain ⟨value, ownsBase, name, ownsSource, added⟩ := added
  obtain ⟨rfl, sourcePresent⟩ := own_eq_ok ownsSource
  obtain ⟨rfl, basePresent⟩ := ownOptional_eq_ok ownsBase
  rcases access_eq_ok added with
    ⟨absent, isStatic, rfl⟩ | ⟨name, present, isStatic, rfl⟩
  · rw [absent]
    refine ⟨⟨?_, isStatic⟩, (record_eq_append rfl rfl).symm⟩
    simpa [storeStmt, Stmt.names] using sourcePresent
  · rw [present] at basePresent ⊢
    refine ⟨⟨?_, isStatic⟩, (record_eq_noteUse .storeField rfl rfl).symm⟩
    simpa [storeStmt, Stmt.names, sourcePresent] using basePresent

theorem addLoadArray_eq_ok {method next : Method} {target base : Var}
    (added : method.addLoadArray target base = .ok next) :
    method.Allows (.loadArray target.name base.name) ∧
      next = method.record (.loadArray target.name base.name) := by
  simp only [addLoadArray, Checked.bind_eq_ok, Checked.pure_eq_ok] at added
  obtain ⟨name, ownsTarget, other, ownsBase, rfl⟩ := added
  obtain ⟨rfl, targetPresent⟩ := own_eq_ok ownsTarget
  obtain ⟨rfl, basePresent⟩ := own_eq_ok ownsBase
  refine ⟨⟨?_, trivial⟩, (record_eq_noteUse .loadArray rfl rfl).symm⟩
  simp [Stmt.names, targetPresent, basePresent]

theorem addStoreArray_eq_ok {method next : Method} {base source : Var}
    (added : method.addStoreArray base source = .ok next) :
    method.Allows (.storeArray base.name source.name) ∧
      next = method.record (.storeArray base.name source.name) := by
  simp only [addStoreArray, Checked.bind_eq_ok, Checked.pure_eq_ok] at added
  obtain ⟨name, ownsBase, other, ownsSource, rfl⟩ := added
  obtain ⟨rfl, basePresent⟩ := own_eq_ok ownsBase
  obtain ⟨rfl, sourcePresent⟩ := own_eq_ok ownsSource
  refine ⟨⟨?_, trivial⟩, (record_eq_noteUse .storeArray rfl rfl).symm⟩
  simp [Stmt.names, basePresent, sourcePresent]

/-- The call that an invocation with the given parts makes. -/
def callOf (kind : CallKind) (ref : MethodRef) (receiver : Option Var)
    (args : List Var) (result : Option Var) : Invoke :=
  { kind, ref
    receiver := receiver.map Var.name
    args := args.map Var.name
    result := result.map Var.name }

/-- A call that is added is allowed, so it has a receiver unless it is static.
-/
theorem addInvoke_eq_ok {method next : Method} {kind : CallKind}
    {ref : MethodRef} {receiver : Option Var} {args : List Var}
    {result : Option Var}
    (added : method.addInvoke kind ref receiver args result = .ok next) :
    method.Allows (.invoke (callOf kind ref receiver args result)) ∧
      next = method.record
        (.invoke (callOf kind ref receiver args result)) := by
  simp only [addInvoke, Checked.bind_eq_ok] at added
  obtain ⟨base, ownsBase, value, ownsResult, names, ownsArgs, added⟩ := added
  obtain ⟨rfl, basePresent⟩ := ownOptional_eq_ok ownsBase
  obtain ⟨rfl, resultPresent⟩ := ownOptional_eq_ok ownsResult
  obtain ⟨rfl, argsPresent⟩ := ownAll_eq_ok ownsArgs
  split at added
  · rename_i matching
    simp only [Checked.pure_eq_ok] at added
    subst added
    refine ⟨⟨?_, matching⟩, ?_⟩
    · simp only [Stmt.names, callOf, List.mem_append]
      rintro name ((inBase | inResult) | inArgs)
      · exact basePresent name inBase
      · exact resultPresent name inResult
      · exact argsPresent name inArgs
    · cases receiver with
      | none => exact (record_eq_append rfl rfl).symm
      | some base => exact (record_eq_noteUse .invoke rfl rfl).symm
  · simp at added

theorem addReturn_eq_ok {method next : Method} {value : Option Var}
    (added : method.addReturn value = .ok next) :
    method.Allows (.ret (value.map Var.name)) ∧
      next = method.record (.ret (value.map Var.name)) := by
  simp only [addReturn, Checked.bind_eq_ok, Checked.pure_eq_ok] at added
  obtain ⟨name, owned, rfl⟩ := added
  obtain ⟨rfl, present⟩ := ownOptional_eq_ok owned
  refine ⟨⟨present, trivial⟩, ?_⟩
  simp [append, record, Stmt.use?, Stmt.returned?]

end Method

end PointsTo
