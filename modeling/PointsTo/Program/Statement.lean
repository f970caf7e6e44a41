import PointsTo.Program.Builder
import PointsTo.Program.Hierarchy
import PointsTo.Program.Shape
import PointsTo.Program.Signature

/-!
# Reading statements

`Program.readStmt` reads one statement text in the scope of a method and
appends the statement to its body.  Variables that the method does not have
yet are created without a type; they are created only when the whole text has
been understood, so a rejected text leaves no trace.
-/

namespace PointsTo

open Text

/-- What a qualified field name denotes. -/
inductive Access where
  /-- An instance field of the object in a variable. -/
  | ofVariable (base : String) (field : Field)
  /-- A static field. -/
  | ofClass (field : Field)

namespace Method

/-- The variable of this method with the given name. -/
def var (method : Method) (name : String) : Var :=
  ⟨method.id, name⟩

/-- Create the variables in `names` that the method does not have yet. -/
def ensureVars (method : Method) (names : List String) : Method :=
  names.foldl ensureVar method

/-- The class of a variable that is declared with a class type. -/
def classOf? (method : Method) (name : String) : Option String :=
  match (method.local? name).bind Local.type with
  | some (.cls owner) => some owner
  | _ => none

end Method

namespace Program

/-- The instance field called `name`, if the program has exactly one. -/
def uniqueField? (program : Program) (name : String) : Option Field :=
  match program.classes.filterMap fun cls =>
      (cls.field? name).filter fun field => !field.isStatic with
  | [field] => some field
  | _ => none

/--
The instance field called `name` of a variable: the one that its class has, or
else the only one of that name in the program.
-/
def instanceField? (program : Program) (method : Method)
    (base name : String) : Option Field :=
  match (method.classOf? base).bind (program.lookupField? · name) with
  | some field => some field
  | none => program.uniqueField? name

/--
What `qualifier.name` denotes.  A qualifier that names a variable of the
method, or no class, stands for a variable; other qualifiers are classes.
-/
def access (program : Program) (method : Method) (qualifier name : String) :
    Except Error Access :=
  if method.hasLocal qualifier || (program.class? qualifier).isNone then
    match program.instanceField? method qualifier name with
    | some field =>
        if field.isStatic then .error (.noInstanceField name qualifier)
        else .ok (.ofVariable qualifier field)
    | none => .error (.noInstanceField name qualifier)
  else
    match program.lookupField? qualifier name with
    | some field =>
        if field.isStatic then .ok (.ofClass field)
        else .error (.noStaticField qualifier name)
    | none => .error (.noStaticField qualifier name)

/-- The argument names of a call: identifiers between commas. -/
def readArguments (text : String) : List (List Char) →
    Except Error (List String)
  | [] => .ok []
  | piece :: rest =>
      let name := trim piece
      if Shape.isIdent name then do
        let names ← readArguments text rest
        return String.ofList name :: names
      else .error (.badArgument (String.ofList name) text)

/-- The arguments of a call; `text` is the whole statement. -/
def splitArguments (text arguments : String) :
    Except Error (List String) :=
  let trimmed := trim arguments.toList
  if trimmed.isEmpty then .ok []
  else readArguments text (splitWhen (· = ',') trimmed)

/-- Append the invocation that a text describes. -/
def readInvoke (program : Program) (method : Method) (text : String)
    (result : Option String) (kind : String) (receiver : Option String)
    (signature arguments : String) : Except Error Method :=
  match CallKind.named? kind with
  | none => .error (.unknownCallKind kind text)
  | some kind => do
      let ref ← program.readRef signature
      if receiver.isNone ≠ decide (kind = .static) then
        throw (.receiverMismatch kind text)
      let args ← splitArguments text arguments
      if args.length ≠ ref.params.length then
        throw (.argumentCount ref args.length)
      let grown :=
        method.ensureVars (args ++ receiver.toList ++ result.toList)
      (grown.addInvoke kind ref (receiver.map grown.var)
        (args.map grown.var) (result.map grown.var)).mapError .construction

/-- Append the statement of the given shape; `text` is its source. -/
def addShape (program : Program) (method : Method) (text : String) :
    Shape → Except Error Method
  | .ret value =>
      let grown := method.ensureVars value.toList
      (grown.addReturn (value.map grown.var)).mapError .construction
  | .invoke result kind receiver signature arguments =>
      program.readInvoke method text result kind receiver signature arguments
  | .new target type =>
      match program.type? type with
      | none => .error (.unknownTypeIn type text)
      | some type =>
          let grown := method.ensureVars [target]
          (grown.addNew (grown.var target) type).mapError .construction
  | .loadArray target base =>
      let grown := method.ensureVars [target, base]
      (grown.addLoadArray (grown.var target) (grown.var base)).mapError
        .construction
  | .storeArray base source =>
      let grown := method.ensureVars [base, source]
      (grown.addStoreArray (grown.var base) (grown.var source)).mapError
        .construction
  | .loadField target qualifier name => do
      match ← (program.access method qualifier name).mapError
          (.within (quoted text)) with
      | .ofVariable base field =>
          let grown := method.ensureVars [base, target]
          (grown.addLoadField (grown.var target) (some (grown.var base))
            field).mapError .construction
      | .ofClass field =>
          let grown := method.ensureVars [target]
          (grown.addLoadField (grown.var target) none field).mapError
            .construction
  | .storeField qualifier name source => do
      match ← (program.access method qualifier name).mapError
          (.within (quoted text)) with
      | .ofVariable base field =>
          let grown := method.ensureVars [base, source]
          (grown.addStoreField (some (grown.var base)) field
            (grown.var source)).mapError .construction
      | .ofClass field =>
          let grown := method.ensureVars [source]
          (grown.addStoreField none field (grown.var source)).mapError
            .construction
  | .copy target source =>
      let grown := method.ensureVars [target, source]
      (grown.addCopy (grown.var target) (grown.var source)).mapError
        .construction

/-- Read a statement text and append the statement to the method. -/
def readStmt (program : Program) (method : Method) (text : String) :
    Except Error Method :=
  let text := trimmed text
  match Shape.read? text.toList with
  | none => .error (.notAStatement text)
  | some shape => program.addShape method text shape

/-- Read a statement text into a method of the program. -/
def addStmt (program : Program) (id : MethodId) (text : String) :
    Except Error Program :=
  program.modifyMethod id fun method => program.readStmt method text

end Program

end PointsTo
