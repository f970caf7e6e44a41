import Mathlib.Data.List.Nodup
import PointsTo.Proofs.Program.Record

/-!
# What a statement text means

Reading a statement has two parts.  First the text is understood: names of types,
methods and fields are looked up, and the parts of the statement are checked
against each other.  This may fail, and it changes nothing.  Then the variables
of the statement are created and the statement is recorded, which cannot fail,
because what has been checked is what the building steps demand.
-/

namespace PointsTo

open Checked Text

/-! ## Variables -/

/-- A variable that appears on first use. -/
def Local.untyped (name : String) : Local where
  name
  type := none

namespace Method

/-- A method with further variables, none of them used so far. -/
def withLocals (method : Method) (entries : List Local) : Method :=
  { method with locals := method.locals ++ entries }

theorem hasLocal_ensureVar {method : Method} {name other : String} :
    (method.ensureVar name).hasLocal other = true ↔
      method.hasLocal other = true ∨ other = name := by
  unfold ensureVar
  split
  · rename_i present
    constructor
    · exact Or.inl
    · rintro (old | rfl)
      · exact old
      · exact present
  · simp [hasLocal_iff]

/-- The variables of a method are the old ones and those that were asked for. -/
theorem hasLocal_ensureVars {method : Method} {names : List String}
    {name : String} :
    (method.ensureVars names).hasLocal name = true ↔
      method.hasLocal name = true ∨ name ∈ names := by
  unfold ensureVars
  induction names generalizing method with
  | nil => simp
  | cons first rest ih =>
      rw [List.foldl_cons, ih, hasLocal_ensureVar, List.mem_cons, or_assoc]

/-- Nothing changes but that there are further variables: those of the given
names that were not there, once each and without a type. -/
theorem exists_ensureVars_eq (method : Method) (names : List String) :
    ∃ created : List String,
      method.ensureVars names =
        method.withLocals (created.map Local.untyped) ∧
      created.Nodup ∧
      ∀ name, name ∈ created ↔
        name ∈ names ∧ ¬ method.hasLocal name = true := by
  induction names generalizing method with
  | nil => exact ⟨[], by simp [ensureVars, withLocals], .nil, by simp⟩
  | cons first rest ih =>
      rcases ih (method.ensureVar first) with
        ⟨created, grown, distinct, members⟩
      simp only [hasLocal_ensureVar, not_or] at members
      rw [ensureVars] at grown
      rw [ensureVars, List.foldl_cons, grown, ensureVar]
      split
      · rename_i present
        refine ⟨created, rfl, distinct, fun name => ?_⟩
        rw [members, List.mem_cons]
        constructor
        · rintro ⟨listed, absent, _⟩
          exact ⟨.inr listed, absent⟩
        · rintro ⟨rfl | listed, absent⟩
          · exact absurd present absent
          · exact ⟨listed, absent, fun same => absent (same ▸ present)⟩
      · rename_i fresh
        refine ⟨first :: created, ?_, ?_, fun name => ?_⟩
        · simp [withLocals, Local.untyped]
        · refine List.nodup_cons.mpr ⟨fun again => ?_, distinct⟩
          exact ((members first).mp again).2.2 rfl
        · rw [List.mem_cons, members, List.mem_cons]
          constructor
          · rintro (rfl | ⟨listed, absent, _⟩)
            · exact ⟨.inl rfl, fresh⟩
            · exact ⟨.inr listed, absent⟩
          · rintro ⟨rfl | listed, absent⟩
            · exact .inl rfl
            · by_cases same : name = first
              · exact .inl same
              · exact .inr ⟨listed, absent, same⟩

/-! ## Building steps that are allowed -/

variable {method : Method}

/-- A method accepts its own variables. -/
theorem own_var {name : String} (present : method.hasLocal name = true) :
    method.own (method.var name) = .ok name := by
  simp [own, var, present]

theorem ownOptional_var {value : Option String}
    (present : ∀ name ∈ value, method.hasLocal name = true) :
    method.ownOptional (value.map method.var) = .ok value := by
  cases value with
  | none => rfl
  | some name => simp [ownOptional, own_var (present name rfl), Except.map]

theorem ownAll_var {names : List String}
    (present : ∀ name ∈ names, method.hasLocal name = true) :
    method.ownAll (names.map method.var) = .ok names := by
  induction names with
  | nil => rfl
  | cons name rest ih =>
      rw [List.map_cons, ownAll, own_var (present name (.head _)),
        ih fun other member => present other (.tail _ member)]
      rfl

/-- A building step that is allowed records its statement; so it is for the
others. -/
theorem addNew_var {target : String} {type : Ty}
    (allowed : method.Allows (.new target type)) :
    method.addNew (method.var target) type =
      .ok (method.record (.new target type)) := by
  have ownsTarget := own_var (allowed.known target (by simp [Stmt.names]))
  rw [addNew, ownsTarget, record_eq_append rfl rfl]
  rfl

theorem addCopy_var {target source : String}
    (allowed : method.Allows (.copy target source)) :
    method.addCopy (method.var target) (method.var source) =
      .ok (method.record (.copy target source)) := by
  have ownsTarget := own_var (allowed.known target (by simp [Stmt.names]))
  have ownsSource := own_var (allowed.known source (by simp [Stmt.names]))
  rw [addCopy, ownsTarget, ownsSource, record_eq_append rfl rfl]
  rfl

theorem addLoadStatic_var {target : String} {field : Field}
    (allowed : method.Allows (.loadStatic target field)) :
    method.addLoadField (method.var target) none field =
      .ok (method.record (.loadStatic target field)) := by
  have ownsTarget := own_var (allowed.known target (by simp [Stmt.names]))
  have isStatic : field.isStatic = true := allowed.balanced
  rw [addLoadField, ownsTarget, isStatic, record_eq_append rfl rfl]
  rfl

theorem addLoadField_var {target base : String} {field : Field}
    (allowed : method.Allows (.loadField target base field)) :
    method.addLoadField (method.var target) (some (method.var base)) field =
      .ok (method.record (.loadField target base field)) := by
  have ownsTarget := own_var (allowed.known target (by simp [Stmt.names]))
  have ownsBase := own_var (allowed.known base (by simp [Stmt.names]))
  have isStatic : field.isStatic = false := allowed.balanced
  rw [addLoadField, ownsTarget, ownOptional, ownsBase, isStatic,
    record_eq_noteUse .loadField rfl rfl]
  rfl

theorem addStoreStatic_var {field : Field} {source : String}
    (allowed : method.Allows (.storeStatic field source)) :
    method.addStoreField none field (method.var source) =
      .ok (method.record (.storeStatic field source)) := by
  have ownsSource := own_var (allowed.known source (by simp [Stmt.names]))
  have isStatic : field.isStatic = true := allowed.balanced
  rw [addStoreField, ownsSource, isStatic, record_eq_append rfl rfl]
  rfl

theorem addStoreField_var {base source : String} {field : Field}
    (allowed : method.Allows (.storeField base field source)) :
    method.addStoreField (some (method.var base)) field (method.var source) =
      .ok (method.record (.storeField base field source)) := by
  have ownsBase := own_var (allowed.known base (by simp [Stmt.names]))
  have ownsSource := own_var (allowed.known source (by simp [Stmt.names]))
  have isStatic : field.isStatic = false := allowed.balanced
  rw [addStoreField, ownOptional, ownsBase, ownsSource, isStatic,
    record_eq_noteUse .storeField rfl rfl]
  rfl

theorem addLoadArray_var {target base : String}
    (allowed : method.Allows (.loadArray target base)) :
    method.addLoadArray (method.var target) (method.var base) =
      .ok (method.record (.loadArray target base)) := by
  have ownsTarget := own_var (allowed.known target (by simp [Stmt.names]))
  have ownsBase := own_var (allowed.known base (by simp [Stmt.names]))
  rw [addLoadArray, ownsTarget, ownsBase,
    record_eq_noteUse .loadArray rfl rfl]
  rfl

theorem addStoreArray_var {base source : String}
    (allowed : method.Allows (.storeArray base source)) :
    method.addStoreArray (method.var base) (method.var source) =
      .ok (method.record (.storeArray base source)) := by
  have ownsBase := own_var (allowed.known base (by simp [Stmt.names]))
  have ownsSource := own_var (allowed.known source (by simp [Stmt.names]))
  rw [addStoreArray, ownsBase, ownsSource,
    record_eq_noteUse .storeArray rfl rfl]
  rfl

/-- For a call, this concerns its receiver, its arguments and its result. -/
theorem addInvoke_var {call : Invoke}
    (allowed : method.Allows (.invoke call)) :
    method.addInvoke call.kind call.ref (call.receiver.map method.var)
        (call.args.map method.var) (call.result.map method.var) =
      .ok (method.record (.invoke call)) := by
  have ownsReceiver :=
    ownOptional_var fun name (member : name ∈ call.receiver) =>
      allowed.known name (by simp_all [Stmt.names])
  have ownsResult :=
    ownOptional_var fun name (member : name ∈ call.result) =>
      allowed.known name (by simp_all [Stmt.names])
  have ownsArgs := ownAll_var fun name (member : name ∈ call.args) =>
    allowed.known name (by simp [Stmt.names, member])
  have balanced : call.receiver.isNone = decide (call.kind = .static) :=
    allowed.balanced
  rcases call with ⟨kind, ref, receiver, args, result⟩
  simp only [addInvoke, ownsReceiver, ownsResult, ownsArgs]
  -- Only a receiver has the position of the call recorded with it.
  cases receiver with
  | none =>
      rw [record_eq_append rfl rfl]
      exact if_pos balanced
  | some base =>
      rw [record_eq_noteUse .invoke rfl rfl]
      exact if_pos balanced

theorem addReturn_var {value : Option String}
    (allowed : method.Allows (.ret value)) :
    method.addReturn (value.map method.var) =
      .ok (method.record (.ret value)) := by
  have owns := ownOptional_var fun name (member : name ∈ value) =>
    allowed.known name (by simpa [Stmt.names] using member)
  rw [addReturn, owns]
  simp [append, record, Stmt.use?, Stmt.returned?]

end Method

/-! ## Meanings -/

/-- The variables of a statement, in the order in which reading the statement
creates them. -/
def Stmt.mentions : Stmt → List String
  | .loadField target base _ => [base, target]
  | .invoke call => call.args ++ call.receiver.toList ++ call.result.toList
  | stmt => stmt.names

/-- A text mentions the variables of its statement, in an order of its own. -/
theorem Stmt.mem_mentions {stmt : Stmt} {name : String} :
    name ∈ stmt.mentions ↔ name ∈ stmt.names := by
  cases stmt with
  | loadField target base field => simp [mentions, names, or_comm]
  | invoke call =>
      simp only [mentions, names, List.mem_append]
      rw [or_assoc, or_comm]
  | _ => rfl

namespace Method

/-- The method with a further statement and the variables that it needs. -/
def withStmt (method : Method) (stmt : Stmt) : Method :=
  (method.ensureVars stmt.mentions).record stmt

/-- The statement comes last. -/
@[simp]
theorem body_withStmt (method : Method) (stmt : Stmt) :
    (method.withStmt stmt).body = method.body ++ [stmt] := by
  rcases method.exists_ensureVars_eq stmt.mentions with ⟨_, grown, _⟩
  rw [withStmt, grown]
  rfl

@[simp]
theorem id_withStmt (method : Method) (stmt : Stmt) :
    (method.withStmt stmt).id = method.id := by
  rcases method.exists_ensureVars_eq stmt.mentions with ⟨_, grown, _⟩
  rw [withStmt, grown]
  rfl

/-- A statement changes the records of variables, but not their names and types.
-/
theorem exists_locals_record (method : Method) (stmt : Stmt) :
    ∃ change : Local → Local,
      (∀ entry, (change entry).name = entry.name ∧
        (change entry).type = entry.type) ∧
      (method.record stmt).locals = method.locals.map change := by
  refine ⟨_, fun entry => ?_, rfl⟩
  split
  · rename_i use base _
    split
    · cases use <;> exact ⟨rfl, rfl⟩
    · exact ⟨rfl, rfl⟩
  · exact ⟨rfl, rfl⟩

theorem classOf?_record (method : Method) (stmt : Stmt) (name : String) :
    (method.record stmt).classOf? name = method.classOf? name := by
  rcases method.exists_locals_record stmt with ⟨change, same, recorded⟩
  simp only [classOf?, local?, recorded, List.find?_map, Function.comp_def,
    (same _).1, Option.bind_map, (same _).2]

/-- Variables that appear on first use have no class. -/
theorem classOf?_withLocals (method : Method) (created : List String)
    (name : String) :
    (method.withLocals (created.map Local.untyped)).classOf? name =
      method.classOf? name := by
  rw [classOf?, classOf?, local?, local?, withLocals, List.find?_append]
  cases method.locals.find? fun entry => entry.name = name with
  | some entry => rfl
  | none =>
      cases found : (created.map Local.untyped).find? fun entry =>
          entry.name = name with
      | none => rfl
      | some entry =>
          rcases List.mem_map.mp (List.mem_of_find?_eq_some found) with
            ⟨_, _, rfl⟩
          rfl

theorem classOf?_withStmt (method : Method) (stmt : Stmt) (name : String) :
    (method.withStmt stmt).classOf? name = method.classOf? name := by
  rcases method.exists_ensureVars_eq stmt.mentions with ⟨created, grown, _⟩
  rw [withStmt, classOf?_record, grown, classOf?_withLocals]

/-- A statement brings its variables with it. -/
theorem hasLocal_withStmt {method : Method} {stmt : Stmt} {name : String} :
    (method.withStmt stmt).hasLocal name = true ↔
      method.hasLocal name = true ∨ name ∈ stmt.names := by
  rw [withStmt, hasLocal_record, hasLocal_ensureVars, Stmt.mem_mentions]

/-- A statement that is appended once more creates no variable. -/
theorem withStmt_withStmt (method : Method) (stmt : Stmt) :
    (method.withStmt stmt).withStmt stmt =
      (method.withStmt stmt).record stmt := by
  rcases (method.withStmt stmt).exists_ensureVars_eq stmt.mentions with
    ⟨created, grown, _, members⟩
  have nothing : created = [] := by
    apply List.eq_nil_iff_forall_not_mem.mpr
    intro name new
    rcases (members name).mp new with ⟨mentioned, absent⟩
    exact absent (hasLocal_withStmt.mpr
      (.inr (Stmt.mem_mentions.mp mentioned)))
  rw [nothing] at grown
  rw [withStmt, grown, withLocals, List.map_nil, List.append_nil]

/-- A balanced statement is allowed once its variables have been created. -/
theorem allows_ensureVars (method : Method) (stmt : Stmt)
    (balanced : stmt.Balanced) :
    (method.ensureVars stmt.mentions).Allows stmt where
  known _ mentioned :=
    hasLocal_ensureVars.mpr (.inr (Stmt.mem_mentions.mpr mentioned))
  balanced := balanced

end Method

/-- The statement that loads what a qualified name denotes. -/
def Access.load (target : String) : Access → Stmt
  | .ofVariable base field => .loadField target base field
  | .ofClass field => .loadStatic target field

/-- The statement that stores to what a qualified name denotes. -/
def Access.store (source : String) : Access → Stmt
  | .ofVariable base field => .storeField base field source
  | .ofClass field => .storeStatic field source

/-- Whether a field is static fits the way in which it is accessed. -/
def Access.Balanced : Access → Prop
  | .ofVariable _ field => field.isStatic = false
  | .ofClass field => field.isStatic = true

namespace Program

section Accesses

variable {program : Program} {method : Method} {qualifier name : String}

/-- The qualifier of an instance field is a variable, or is taken for one because
it is no class. -/
theorem access_eq_ofVariable_iff {base : String} {field : Field} :
    program.access method qualifier name = .ok (.ofVariable base field) ↔
      qualifier = base ∧
      (method.hasLocal base = true ∨ program.class? base = none) ∧
      program.instanceField? method base name = some field ∧
      field.isStatic = false := by
  unfold access
  constructor
  · intro found
    split at found
    · rename_i taken
      rw [Bool.or_eq_true, Option.isNone_iff_eq_none] at taken
      split at found
      · rename_i denoted
        split at found
        · cases found
        · rename_i instanceField
          cases found
          exact ⟨rfl, taken, denoted, eq_false_of_ne_true instanceField⟩
      · cases found
    · split at found
      · split at found
        · cases found
        · cases found
      · cases found
  · rintro ⟨rfl, taken, denoted, instanceField⟩
    rw [if_pos (by rwa [Bool.or_eq_true, Option.isNone_iff_eq_none])]
    simp [denoted, instanceField]

/-- The qualifier of a static field is a class and no variable. -/
theorem access_eq_ofClass_iff {field : Field} :
    program.access method qualifier name = .ok (.ofClass field) ↔
      method.hasLocal qualifier = false ∧
      (program.class? qualifier).isSome = true ∧
      program.lookupField? qualifier name = some field ∧
      field.isStatic = true := by
  have split_iff : (method.hasLocal qualifier ||
      (program.class? qualifier).isNone) = false ↔
        method.hasLocal qualifier = false ∧
          (program.class? qualifier).isSome = true := by
    rw [Bool.or_eq_false_iff, Option.isNone_eq_false_iff]
  unfold access
  constructor
  · intro found
    split at found
    · split at found
      · split at found
        · cases found
        · cases found
      · cases found
    · rename_i taken
      rcases split_iff.mp (eq_false_of_ne_true taken) with ⟨free, declared⟩
      split at found
      · rename_i denoted
        split at found
        · rename_i isStatic
          cases found
          exact ⟨free, declared, denoted, isStatic⟩
        · cases found
      · cases found
  · rintro ⟨free, declared, denoted, isStatic⟩
    rw [if_neg (ne_true_of_eq_false (split_iff.mpr ⟨free, declared⟩))]
    simp [denoted, isStatic]

/-- Static fields are accessed through classes, and the others through
variables. -/
theorem balanced_of_access {access : Access}
    (found : program.access method qualifier name = .ok access) :
    access.Balanced := by
  cases access with
  | ofVariable base field => exact (access_eq_ofVariable_iff.mp found).2.2.2
  | ofClass field => exact (access_eq_ofClass_iff.mp found).2.2.2

end Accesses

/-- The call that the parts of a text denote. -/
def understandInvoke (program : Program) (text : String)
    (result : Option String) (kind : String) (receiver : Option String)
    (signature arguments : String) : Except Error Invoke :=
  match CallKind.named? kind with
  | none => .error (.unknownCallKind kind text)
  | some kind => do
      let ref ← program.readRef signature
      if receiver.isNone ≠ decide (kind = .static) then
        throw (.receiverMismatch kind text)
      let args ← splitArguments text arguments
      if args.length ≠ ref.params.length then
        throw (.argumentCount ref args.length)
      return { kind, ref, receiver, args, result }

/-- The statement that a shape denotes in the scope of a method. -/
def understand (program : Program) (method : Method) (text : String) :
    Shape → Except Error Stmt
  | .ret value => .ok (.ret value)
  | .invoke result kind receiver signature arguments =>
      (program.understandInvoke text result kind receiver signature
        arguments).map .invoke
  | .new target type =>
      match program.type? type with
      | none => .error (.unknownTypeIn type text)
      | some type => .ok (.new target type)
  | .loadArray target base => .ok (.loadArray target base)
  | .storeArray base source => .ok (.storeArray base source)
  | .loadField target qualifier name =>
      ((program.access method qualifier name).mapError
        (.within (quoted text))).map (Access.load target)
  | .storeField qualifier name source =>
      ((program.access method qualifier name).mapError
        (.within (quoted text))).map (Access.store source)
  | .copy target source => .ok (.copy target source)

/-- A call is understood part by part. -/
theorem understandInvoke_eq_ok {program : Program}
    {text kind signature arguments : String}
    {result receiver : Option String} {call : Invoke}
    (understood : program.understandInvoke text result kind receiver signature
      arguments = .ok call) :
    CallKind.named? kind = some call.kind ∧
      program.readRef signature = .ok call.ref ∧
      splitArguments text arguments = .ok call.args ∧
      call.receiver = receiver ∧ call.result = result ∧
      call.receiver.isNone = decide (call.kind = .static) ∧
      call.args.length = call.ref.params.length := by
  unfold understandInvoke at understood
  split at understood
  · cases understood
  · rename_i kind named
    rw [bind_eq_ok] at understood
    rcases understood with ⟨ref, read, understood⟩
    split at understood
    · exact absurd understood throw_bind_ne_ok
    rename_i balanced
    rw [bind_eq_ok] at understood
    rcases understood with ⟨args, split, understood⟩
    split at understood
    · exact absurd understood throw_bind_ne_ok
    rename_i counted
    cases understood
    exact ⟨named, read, split, rfl, rfl, not_ne_iff.mp balanced,
      not_ne_iff.mp counted⟩

/-- What is understood is balanced. -/
theorem balanced_of_understand {program : Program} {method : Method}
    {text : String} {shape : Shape} {stmt : Stmt}
    (understood : program.understand method text shape = .ok stmt) :
    stmt.Balanced := by
  cases shape with
  | ret | loadArray | storeArray | copy =>
      cases understood
      trivial
  | invoke result kind receiver signature arguments =>
      rcases map_eq_ok.mp understood with ⟨call, parts, rfl⟩
      exact (understandInvoke_eq_ok parts).2.2.2.2.2.1
  | new target type =>
      simp only [understand] at understood
      split at understood
      · cases understood
      · cases understood
        trivial
  | loadField target qualifier name =>
      rcases map_eq_ok.mp understood with ⟨access, found, rfl⟩
      have balanced := balanced_of_access (mapError_eq_ok.mp found)
      cases access <;> exact balanced
  | storeField qualifier name source =>
      rcases map_eq_ok.mp understood with ⟨access, found, rfl⟩
      have balanced := balanced_of_access (mapError_eq_ok.mp found)
      cases access <;> exact balanced

/-! ## Reading is understanding and recording -/

/-- A call is read by understanding it and recording what was understood. -/
theorem readInvoke_eq (program : Program) (method : Method)
    (text kind signature arguments : String)
    (result receiver : Option String) :
    program.readInvoke method text result kind receiver signature arguments =
      (program.understandInvoke text result kind receiver signature
        arguments).map fun call => method.withStmt (.invoke call) := by
  unfold readInvoke understandInvoke
  cases CallKind.named? kind with
  | none => rfl
  | some kind =>
      cases program.readRef signature with
      | error problem => rfl
      | ok ref =>
          cases splitArguments text arguments with
          | error problem =>
              simp only [bind, Except.bind]
              split <;> rfl
          | ok args =>
              simp only [bind, Except.bind]
              split
              · rfl
              split
              · rfl
              rename_i balanced _
              have allowed := method.allows_ensureVars
                (.invoke { kind, ref, receiver, args, result })
                (not_ne_iff.mp balanced)
              exact congrArg _ (Method.addInvoke_var allowed)

/-- So is every statement. -/
theorem addShape_eq (program : Program) (method : Method) (text : String)
    (shape : Shape) :
    program.addShape method text shape =
      (program.understand method text shape).map method.withStmt := by
  have recorded : ∀ (stmt : Stmt) {computed : Except BuildError Method},
      stmt.Balanced → ((method.ensureVars stmt.mentions).Allows stmt →
        computed = .ok ((method.ensureVars stmt.mentions).record stmt)) →
      computed.mapError .construction =
        (.ok stmt : Except Error Stmt).map method.withStmt := by
    intro stmt computed balanced added
    rw [added (method.allows_ensureVars stmt balanced)]
    rfl
  cases shape with
  | ret value => exact recorded (.ret value) trivial Method.addReturn_var
  | invoke result kind receiver signature arguments =>
      refine (program.readInvoke_eq ..).trans ?_
      rw [understand]
      cases program.understandInvoke text result kind receiver signature
        arguments <;> rfl
  | new target type =>
      simp only [addShape, understand]
      cases program.type? type with
      | none => rfl
      | some type => exact recorded (.new target type) trivial Method.addNew_var
  | loadArray target base =>
      exact recorded (.loadArray target base) trivial Method.addLoadArray_var
  | storeArray base source =>
      exact recorded (.storeArray base source) trivial Method.addStoreArray_var
  | loadField target qualifier name =>
      rw [addShape, understand]
      cases found : program.access method qualifier name with
      | error problem => rfl
      | ok access =>
          have balanced := balanced_of_access found
          cases access with
          | ofVariable base field =>
              exact recorded (.loadField target base field) balanced
                Method.addLoadField_var
          | ofClass field =>
              exact recorded (.loadStatic target field) balanced
                Method.addLoadStatic_var
  | storeField qualifier name source =>
      rw [addShape, understand]
      cases found : program.access method qualifier name with
      | error problem => rfl
      | ok access =>
          have balanced := balanced_of_access found
          cases access with
          | ofVariable base field =>
              exact recorded (.storeField base field source) balanced
                Method.addStoreField_var
          | ofClass field =>
              exact recorded (.storeStatic field source) balanced
                Method.addStoreStatic_var
  | copy target source =>
      exact recorded (.copy target source) trivial Method.addCopy_var

/-- A text is read if it has a shape that is understood. -/
theorem readStmt_eq_ok_iff {program : Program} {method next : Method}
    {text : String} :
    program.readStmt method text = .ok next ↔
      ∃ shape stmt, Shape.read? (trim text.toList) = some shape ∧
        program.understand method (trimmed text) shape = .ok stmt ∧
        next = method.withStmt stmt := by
  rw [readStmt, trimmed, String.toList_ofList]
  cases Shape.read? (trim text.toList) with
  | none => exact ⟨nofun, fun ⟨_, _, found, _⟩ => nomatch found⟩
  | some shape =>
      simp only [addShape_eq, map_eq_ok]
      constructor
      · rintro ⟨stmt, understood, rfl⟩
        exact ⟨shape, stmt, rfl, understood, rfl⟩
      · rintro ⟨_, stmt, ⟨⟩, understood, rfl⟩
        exact ⟨stmt, understood, rfl⟩

/--
Reading a statement creates the variables that it mentions and appends it.
-/
def Reads (method next : Method) : Prop :=
  ∃ names stmt, (method.ensureVars names).Allows stmt ∧
    next = (method.ensureVars names).record stmt

/-- Reading adds variables and then one statement that may use them. -/
theorem readStmt_eq_ok {program : Program} {method next : Method}
    {text : String} (read : program.readStmt method text = .ok next) :
    Reads method next := by
  rcases readStmt_eq_ok_iff.mp read with ⟨shape, stmt, _, understood, rfl⟩
  exact ⟨stmt.mentions, stmt,
    method.allows_ensureVars stmt (balanced_of_understand understood), rfl⟩

end Program

end PointsTo
