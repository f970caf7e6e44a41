import PointsTo.Proofs.Program.RoundTrip

/-!
# Names of fresh variables

A text creates the variables that it mentions and that its method does not have.
Almost everywhere the grammar demands an identifier for a variable.  Only the
qualifier of a field may contain dots, because it may be a class.  A qualifier
that is neither a variable nor a class is *stray*: it is taken for the name of a
new variable, whatever it looks like, as long as the program has exactly one
instance field of the name that follows it.
-/

namespace PointsTo

open Checked Text

/-! ## Qualifiers -/

/-- The qualifier and the field name in the text of a field access. -/
def Shape.access? : Shape → Option (String × String)
  | .loadField _ qualifier name | .storeField qualifier name _ =>
      some (qualifier, name)
  | _ => none

/--
A text accesses a field called `name` through a qualifier that is neither a
variable of the method nor a class.
-/
structure Program.Strays (program : Program) (method : Method)
    (text qualifier name : String) : Prop where
  accesses : ∃ shape, Shape.Spells shape (trim text.toList) ∧
    shape.access? = some (qualifier, name)
  noVariable : method.hasLocal qualifier = false
  noClass : program.class? qualifier = none

theorem Shape.Spells.isClassName_of_access? {shape : Shape}
    {source : List Char} {qualifier name : String}
    (spelled : Spells shape source)
    (accesses : shape.access? = some (qualifier, name)) :
    IsClassName qualifier := by
  cases spelled with
  | loadField _ _ named _ | storeField named _ _ _ =>
      cases accesses
      exact isClassName_ofList named
  | _ => cases accesses

namespace Program

section Understanding

variable {program : Program} {method : Method} {shape : Shape}
  {source : List Char} {text : String} {stmt : Stmt}

theorem mem_names_load {access : Access} {target name : String}
    (mentioned : name ∈ (access.load target).names) :
    name = target ∨ ∃ field, access = .ofVariable name field := by
  cases access with
  | ofVariable base field =>
      rcases List.mem_cons.mp mentioned with rfl | based
      · exact .inl rfl
      · rw [List.mem_singleton.mp based]
        exact .inr ⟨field, rfl⟩
  | ofClass field => exact .inl (List.mem_singleton.mp mentioned)

theorem mem_names_store {access : Access} {value name : String}
    (mentioned : name ∈ (access.store value).names) :
    name = value ∨ ∃ field, access = .ofVariable name field := by
  cases access with
  | ofVariable base field =>
      rcases List.mem_cons.mp mentioned with rfl | stored
      · exact .inr ⟨field, rfl⟩
      · exact .inl (List.mem_singleton.mp stored)
  | ofClass field => exact .inl (List.mem_singleton.mp mentioned)

theorem isIdent_of_mem_call {result receiver : Option (List Char)}
    {lead base : List Char} {kind signature arguments name : String}
    {call : Invoke} (assigns : Shape.Assigns result lead)
    (receives : Shape.Receives receiver base)
    (understood : program.understandInvoke text (result.map String.ofList) kind
      (receiver.map String.ofList) signature arguments = .ok call)
    (mentioned : name ∈ (Stmt.invoke call).names) : IsIdent name := by
  rcases understandInvoke_eq_ok understood with
    ⟨_, _, split, received, resulted, _, _⟩
  simp only [Stmt.names, received, resulted, List.mem_append,
    Option.mem_toList] at mentioned
  rcases mentioned with (asReceiver | asResult) | asArgument
  · cases receives with
    | none => cases asReceiver
    | some ident =>
        cases asReceiver
        exact isIdent_ofList ident
  · cases assigns with
    | none => cases asResult
    | some ident _ =>
        cases asResult
        exact isIdent_ofList ident
  · exact isIdent_of_splitArguments split name asArgument

/-- The variables of a statement are identifiers, apart from the base of an
instance field. -/
theorem isIdent_or_ofVariable (spelled : Shape.Spells shape source)
    (understood : program.understand method text shape = .ok stmt)
    {name : String} (mentioned : name ∈ stmt.names) :
    IsIdent name ∨ ∃ member field, shape.access? = some (name, member) ∧
      program.access method name member = .ok (.ofVariable name field) := by
  have qualified : ∀ {qualifier member : String} {access : Access},
      program.access method qualifier member = .ok access →
      (∃ field, access = .ofVariable name field) →
      ∃ found field, some (qualifier, member) = some (name, found) ∧
        program.access method name found = .ok (.ofVariable name field) := by
    rintro qualifier member _ denoted ⟨field, rfl⟩
    rcases access_eq_ofVariable_iff.mp denoted with ⟨rfl, _⟩
    exact ⟨member, field, rfl, denoted⟩
  cases spelled with
  | ret =>
      cases understood
      cases mentioned
  | retValue _ _ ident =>
      cases understood
      rw [List.mem_singleton.mp mentioned]
      exact .inl (isIdent_ofList ident)
  | invoke assigns _ _ _ _ receives _ _ _ =>
      rcases map_eq_ok.mp understood with ⟨call, parts, rfl⟩
      exact .inl (isIdent_of_mem_call assigns receives parts mentioned)
  | new ident _ _ _ _ _ =>
      rw [understand] at understood
      split at understood
      · cases understood
      · cases understood
        rw [List.mem_singleton.mp mentioned]
        exact .inl (isIdent_ofList ident)
  | loadArray ident _ identOther _ | storeArray ident _ _ identOther
  | copy ident _ identOther =>
      cases understood
      rcases List.mem_cons.mp mentioned with rfl | other
      · exact .inl (isIdent_ofList ident)
      · rw [List.mem_singleton.mp other]
        exact .inl (isIdent_ofList identOther)
  | loadField ident _ _ _ =>
      rcases map_eq_ok.mp understood with ⟨access, found, rfl⟩
      rcases mem_names_load mentioned with rfl | based
      · exact .inl (isIdent_ofList ident)
      · exact .inr (qualified (mapError_eq_ok.mp found) based)
  | storeField _ _ _ ident =>
      rcases map_eq_ok.mp understood with ⟨access, found, rfl⟩
      rcases mem_names_store mentioned with rfl | based
      · exact .inl (isIdent_ofList ident)
      · exact .inr (qualified (mapError_eq_ok.mp found) based)

section Accesses

variable (text) {qualifier name : String}
  (accesses : shape.access? = some (qualifier, name))

include accesses

theorem understand_of_access_error {problem : Error}
    (unknown : program.access method qualifier name = .error problem) :
    program.understand method text shape =
      .error (.within (quoted text) problem) := by
  cases shape with
  | loadField | storeField =>
      cases accesses
      rw [understand, unknown]
      rfl
  | _ => cases accesses

theorem exists_understand_of_access {field : Field}
    (denoted : program.access method qualifier name =
      .ok (.ofVariable qualifier field)) :
    ∃ stmt, program.understand method text shape = .ok stmt ∧
      qualifier ∈ stmt.names := by
  cases shape with
  | loadField target other member =>
      cases accesses
      refine ⟨.loadField target qualifier field, ?_, .tail _ (.head _)⟩
      rw [understand, denoted]
      rfl
  | storeField other member value =>
      cases accesses
      refine ⟨.storeField qualifier field value, ?_, .head _⟩
      rw [understand, denoted]
      rfl
  | _ => cases accesses

end Accesses

end Understanding

/-! ## Stray qualifiers -/

section Stray

variable {program : Program} {method : Method} {text qualifier name : String}

theorem isStatic_of_uniqueField? {field : Field}
    (found : program.uniqueField? name = some field) :
    field.isStatic = false := by
  unfold uniqueField? at found
  split at found
  · rename_i only single
    cases found
    have member : field ∈ program.classes.filterMap fun cls =>
        (cls.field? name).filter fun field => !field.isStatic := by
      rw [single]
      exact .head _
    rcases List.mem_filterMap.mp member with ⟨cls, _, here⟩
    exact (Bool.not_eq_true' _).mp (Option.filter_eq_some_iff.mp here).2
  · cases found

/-- Only the name of the field decides what a stray qualifier denotes. -/
theorem Strays.access_eq (strays : program.Strays method text qualifier name) :
    program.access method qualifier name =
      match program.uniqueField? name with
      | some field => .ok (.ofVariable qualifier field)
      | none => .error (.noInstanceField name qualifier) := by
  have absent : method.local? qualifier = none := by
    have missing := strays.noVariable
    rw [Method.hasLocal, List.any_eq_false] at missing
    exact List.find?_eq_none.mpr missing
  have untyped : method.classOf? qualifier = none := by
    rw [Method.classOf?, absent]
    rfl
  have taken : (method.hasLocal qualifier ||
      (program.class? qualifier).isNone) = true := by
    rw [strays.noClass]
    exact Bool.or_true _
  rw [access, if_pos taken, instanceField?, untyped]
  cases found : program.uniqueField? name with
  | none => simp
  | some field => simp [isStatic_of_uniqueField? found]

/-- A new variable that is no identifier is a stray qualifier. -/
theorem strays_of_mem {shape : Shape} {stmt : Stmt}
    (spelled : Shape.Spells shape (trim text.toList))
    (understood : program.understand method (trimmed text) shape = .ok stmt)
    (mentioned : name ∈ stmt.names) (absent : method.hasLocal name = false) :
    IsIdent name ∨ ∃ member, program.Strays method text name member := by
  rcases isIdent_or_ofVariable spelled understood mentioned with
    ident | ⟨member, field, accesses, denoted⟩
  · exact .inl ident
  · rcases access_eq_ofVariable_iff.mp denoted with ⟨_, known, _⟩
    have noClass : program.class? name = none := by
      rcases known with present | unknown
      · rw [absent] at present
        cases present
      · exact unknown
    exact .inr ⟨member, ⟨shape, spelled, accesses⟩, absent, noClass⟩

theorem Strays.isClassName (strays : program.Strays method text qualifier name) :
    IsClassName qualifier := by
  rcases strays.accesses with ⟨shape, spelled, accesses⟩
  exact spelled.isClassName_of_access? accesses

end Stray

end Program

/-! ## What reading invents -/

namespace Editing

/--
The names of the variables that reading a text creates.  They have the form of
class names, and they are identifiers unless a stray qualifier is none.  A stray
qualifier is refused, and the program left as it was, if it does not come before
the name of the only instance field of that name; otherwise it becomes a
variable.
-/
structure Invention (program : Program) (method : Method) (text : String) :
    Prop where
  named : ∀ site after next,
    (readStmt method.id text).run program = .ok site after →
    after.method? method.id = some next →
    ∀ name, next.hasLocal name = true → method.hasLocal name = false →
      IsClassName name
  identifiers : ∀ site after next,
    (readStmt method.id text).run program = .ok site after →
    after.method? method.id = some next →
    ((∀ name, next.hasLocal name = true → method.hasLocal name = false →
        IsIdent name) ↔
      ∀ qualifier name, program.Strays method text qualifier name →
        IsIdent qualifier)
  refused : ∀ qualifier name, program.Strays method text qualifier name →
    program.uniqueField? name = none →
    ∃ problem, (readStmt method.id text).run program =
      .error problem program ∧ problem.kind = .statement
  invented : ∀ qualifier name field,
    program.Strays method text qualifier name →
    program.uniqueField? name = some field →
    ∃ site after next, (readStmt method.id text).run program =
        .ok site after ∧
      after.method? method.id = some next ∧
      next.hasLocal qualifier = true

section Reading

variable {program : Program} (coherent : program.Coherent) {method : Method}
  (found : program.method? method.id = some method)
  {text qualifier name : String}

include coherent found

/-- A variable that reading creates is an identifier or a stray qualifier. -/
theorem strays_of_run_readStmt {site : Site} {after : Program} {next : Method}
    (accepted : (readStmt method.id text).run program = .ok site after)
    (grown : after.method? method.id = some next)
    (present : next.hasLocal name = true)
    (absent : method.hasLocal name = false) :
    IsIdent name ∨ ∃ member, program.Strays method text name member := by
  rcases exists_of_run_readStmt coherent found accepted with
    ⟨shape, stmt, spelled, understood, rfl, _, here, _⟩
  cases here.symm.trans grown
  rcases Method.hasLocal_withStmt.mp present with old | mentioned
  · rw [absent] at old
    cases old
  · exact Program.strays_of_mem spelled understood mentioned absent

variable (strays : program.Strays method text qualifier name)

include strays

theorem run_readStmt_of_unknown (unknown : program.uniqueField? name = none) :
    (readStmt method.id text).run program =
      .error (.within (quoted (trimmed text))
        (.noInstanceField name qualifier)) program := by
  have denied := strays.access_eq
  rw [unknown] at denied
  rcases strays.accesses with ⟨shape, spelled, accesses⟩
  have refused :=
    Program.understand_of_access_error (trimmed text) accesses denied
  have read := Shape.read?_eq_some_iff.mpr spelled
  rw [run_readStmt coherent found, Program.readStmt, trimmed,
    String.toList_ofList, read]
  simp only [Program.addShape_eq]
  rw [← trimmed, refused]
  rfl

theorem exists_run_readStmt_of_unique {field : Field}
    (unique : program.uniqueField? name = some field) :
    ∃ site after next, (readStmt method.id text).run program =
        .ok site after ∧
      after.method? method.id = some next ∧
      next.hasLocal qualifier = true := by
  have denoted := strays.access_eq
  rw [unique] at denoted
  rcases strays.accesses with ⟨shape, spelled, accesses⟩
  rcases Program.exists_understand_of_access (trimmed text) accesses denoted
    with ⟨stmt, understood, mentioned⟩
  have read : program.readStmt method text = .ok (method.withStmt stmt) :=
    Program.readStmt_eq_ok_iff.mpr ⟨shape, stmt,
      Shape.read?_eq_some_iff.mpr spelled, understood, rfl⟩
  have accepted := run_readStmt coherent found text
  rw [read] at accepted
  exact ⟨_, _, method.withStmt stmt, accepted,
    Program.method?_setMethod coherent found (method.id_withStmt stmt),
    Method.hasLocal_withStmt.mpr (.inr mentioned)⟩

/-- If a text is accepted, its stray qualifier is a variable afterwards. -/
theorem hasLocal_of_run_readStmt {site : Site} {after : Program}
    {next : Method}
    (accepted : (readStmt method.id text).run program = .ok site after)
    (grown : after.method? method.id = some next) :
    next.hasLocal qualifier = true := by
  cases unique : program.uniqueField? name with
  | none =>
      rw [run_readStmt_of_unknown coherent found strays unique] at accepted
      cases accepted
  | some field =>
      rcases exists_run_readStmt_of_unique coherent found strays unique with
        ⟨_, _, other, again, grownAgain, present⟩
      cases again.symm.trans accepted
      cases grownAgain.symm.trans grown
      exact present

end Reading

end Editing

/-- In programs that are built or loaded, reading invents identifiers and stray
qualifiers. -/
theorem invention_of_made {program : Program} (made : program.Made)
    {method : Method} (found : program.method? method.id = some method)
    (text : String) : Editing.Invention program method text := by
  have coherent : program.Coherent := made.coherent
  constructor
  · intro site after next accepted grown name present absent
    rcases Editing.strays_of_run_readStmt coherent found accepted grown present
      absent with ident | ⟨member, strays⟩
    · exact Shape.isClassName_of_isIdent ident
    · exact strays.isClassName
  · intro site after next accepted grown
    constructor
    · intro idents qualifier name strays
      have present := Editing.hasLocal_of_run_readStmt coherent found strays
        accepted grown
      exact idents qualifier present strays.noVariable
    · intro idents name present absent
      rcases Editing.strays_of_run_readStmt coherent found accepted grown
        present absent with ident | ⟨member, strays⟩
      · exact ident
      · exact idents name member strays
  · intro qualifier name strays unknown
    exact ⟨_, Editing.run_readStmt_of_unknown coherent found strays unknown,
      rfl⟩
  · intro qualifier name field strays unique
    exact Editing.exists_run_readStmt_of_unique coherent found strays unique

/-! ## Sample program

There is one instance field `f`, and there are two called `g`.  None of the texts
mentions a class.
-/

namespace Dotted

def spec : ProgramSpec where
  classes :=
    [{ name := "A"
       fields := [{ name := "f", type := "A" }, { name := "g", type := "A" }]
       methods := [{ name := "m", params := ["A y"] }] },
      { name := "B", fields := [{ name := "g", type := "A" }] }]

def program : Program :=
  spec.load.toOption.getD {}

def id : MethodId :=
  ⟨"A", "void m(A)"⟩

/-- The names of the variables that an accepted text creates. -/
def created (text : String) : Option (List String) :=
  match program.method? id, (Editing.readStmt id text).run program with
  | some method, .ok _ after => (after.method? id).map fun next =>
      (next.locals.map Local.name).filter fun name => !method.hasLocal name
  | _, _ => none

end Dotted

theorem invention_fails :
    Dotted.spec.load = .ok Dotted.program ∧
      Dotted.program.class? "a.b" = none ∧
      Dotted.created "x = a.b.f" = some ["a.b", "x"] ∧
      Shape.isIdent "a.b".toList = false := by
  decide +kernel

/-- Qualifiers that are identifiers become variables as well, and a qualifier
before an ambiguous field name is refused. -/
theorem invention_of_made_dotted :
    Dotted.spec.load = .ok Dotted.program ∧
      Dotted.created "b.f = x" = some ["b", "x"] ∧
      Dotted.created "x = a.b.f" = some ["a.b", "x"] ∧
      Dotted.created "x = a.b.g" = none ∧
      ∃ method, Dotted.program.method? method.id = some method ∧
        ∀ text, Editing.Invention Dotted.program method text := by
  have loaded : Dotted.spec.load = .ok Dotted.program := by decide +kernel
  have created : Dotted.created "b.f = x" = some ["b", "x"] ∧
      Dotted.created "x = a.b.f" = some ["a.b", "x"] ∧
      Dotted.created "x = a.b.g" = none := by decide +kernel
  have declared : (Dotted.program.method? Dotted.id).isSome = true := by
    decide +kernel
  have made : Dotted.program.Made := .inr ⟨Dotted.spec, loaded⟩
  rcases Option.isSome_iff_exists.mp declared with ⟨method, present⟩
  have found : Dotted.program.method? method.id = some method := by
    rwa [(made.coherent.method present).2]
  exact ⟨loaded, created.1, created.2.1, created.2.2, method, found,
    fun text => invention_of_made made found text⟩

end PointsTo
