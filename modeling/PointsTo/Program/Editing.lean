import PointsTo.Program.Statement

/-!
# Reading statements in place

`Program.readStmt` computes the method that a statement text leads to.  A program
that is kept and edited is changed step by step instead: the variables of a
statement are created one after the other, and then the statement is appended.
An edit that is refused leaves behind what it has changed before, so all checks
of a text come before the first change.
-/

namespace PointsTo

open Text

/--
Edits of a program, which may be refused.  What has been changed before an edit
is refused stays changed.
-/
abbrev Editing := EStateM Error Program

namespace Editing

/-- Look something up in the program as it stands. -/
def consult {α : Type} (lookup : Program → Except Error α) : Editing α := do
  match lookup (← get) with
  | .ok value => return value
  | .error problem => throw problem

/-- The method that is edited. -/
def method (id : MethodId) : Editing Method :=
  consult fun program =>
    match program.method? id with
    | some method => .ok method
    | none => .error (.unknownMethod id.signature)

/-- Take a building step on the method that is edited. -/
def change (id : MethodId) (step : Method → Except BuildError Method) :
    Editing Unit := do
  match (← get).modifyMethod id step with
  | .ok next => set next
  | .error problem => throw (.construction problem)

/-- The variable called `name`, created without a type if necessary. -/
def ensureVar (id : MethodId) (name : String) : Editing Var := do
  change id fun method => .ok (method.ensureVar name)
  return ⟨id, name⟩

/-- The variable with the given name, if there is a name. -/
def ensureOptional (id : MethodId) : Option String → Editing (Option Var)
  | none => return none
  | some name => return some (← ensureVar id name)

/-- The variables with the given names. -/
def ensureVars (id : MethodId) : List String → Editing (List Var)
  | [] => return []
  | name :: rest => do
      let first ← ensureVar id name
      let others ← ensureVars id rest
      return first :: others

/-- Append a statement by a building step; the answer is its position. -/
def append (id : MethodId) (add : Method → Except BuildError Method) :
    Editing Site := do
  let method ← method id
  change id add
  return method.site method.body.length

/-- The type called `name`. -/
def typeNamed (text name : String) : Editing Ty :=
  consult fun program =>
    match program.type? name with
    | some type => .ok type
    | none => .error (.unknownTypeIn name text)

/--
The base and the field that `qualifier.name` denotes.  The base is created if
necessary; static fields have none.
-/
def accessField (id : MethodId) (text qualifier name : String) :
    Editing (Option Var × Field) := do
  let method ← method id
  let access ← consult fun program =>
    (program.access method qualifier name).mapError (.within (quoted text))
  match access with
  | .ofVariable base field => return (some (← ensureVar id base), field)
  | .ofClass field => return (none, field)

/-- Append the invocation that a text describes. -/
def readInvoke (id : MethodId) (text : String) (result : Option String)
    (kind : String) (receiver : Option String)
    (signature arguments : String) : Editing Site :=
  match CallKind.named? kind with
  | none => throw (.unknownCallKind kind text)
  | some kind => do
      let ref ← consult (·.readRef signature)
      if receiver.isNone ≠ decide (kind = .static) then
        throw (.receiverMismatch kind text)
      let names ← consult fun _ => Program.splitArguments text arguments
      if names.length ≠ ref.params.length then
        throw (.argumentCount ref names.length)
      let args ← ensureVars id names
      let receiver ← ensureOptional id receiver
      let result ← ensureOptional id result
      append id (·.addInvoke kind ref receiver args result)

/-- Append the statement of the given shape; `text` is its source. -/
def readShape (id : MethodId) (text : String) : Shape → Editing Site
  | .ret value => do
      let value ← ensureOptional id value
      append id (·.addReturn value)
  | .invoke result kind receiver signature arguments =>
      readInvoke id text result kind receiver signature arguments
  | .new target name => do
      let type ← typeNamed text name
      let target ← ensureVar id target
      append id (·.addNew target type)
  | .loadArray target base => do
      let target ← ensureVar id target
      let base ← ensureVar id base
      append id (·.addLoadArray target base)
  | .storeArray base source => do
      let base ← ensureVar id base
      let source ← ensureVar id source
      append id (·.addStoreArray base source)
  | .loadField target qualifier name => do
      let (base, field) ← accessField id text qualifier name
      let target ← ensureVar id target
      append id (·.addLoadField target base field)
  | .storeField qualifier name source => do
      let (base, field) ← accessField id text qualifier name
      let source ← ensureVar id source
      append id (·.addStoreField base field source)
  | .copy target source => do
      let target ← ensureVar id target
      let source ← ensureVar id source
      append id (·.addCopy target source)

/-- Read a statement text into a method; the answer is the position of the
statement. -/
def readStmt (id : MethodId) (text : String) : Editing Site :=
  let text := trimmed text
  match Shape.read? text.toList with
  | none => throw (.notAStatement text)
  | some shape => readShape id text shape

end Editing

end PointsTo
