import PointsTo.Files
import PointsTo.Program.Description
import PointsTo.Program.Statement

/-!
# Loading programs

A description is turned into a program in phases: the classes are declared
after the classes they build on, then fields and methods in the order of the
description, then the statements of the bodies are read, and at last the main
method is looked up.  The first problem that is met is reported.
-/

namespace PointsTo

open Text

namespace Load

/-- The classes that are not called `name`. -/
def without (specs : List ClassSpec) (name : String) : List ClassSpec :=
  specs.filter fun spec => spec.name ≠ name

theorem length_without_lt {specs : List ClassSpec} {name : String}
    {spec : ClassSpec}
    (found : specs.find? (fun spec => spec.name = name) = some spec) :
    (without specs name).length < specs.length := by
  have member := List.mem_of_find?_eq_some found
  have named : spec.name = name := by
    simpa using List.find?_some found
  exact List.length_filter_lt_length_iff_exists.mpr
    ⟨spec, member, by simp [named]⟩

/-- Check that class names are distinct and not empty. -/
def checkNames : List String → List ClassSpec → Except Error Unit
  | _, [] => .ok ()
  | seen, spec :: rest =>
      if spec.name.isEmpty || seen.contains spec.name then
        .error (.className spec.name)
      else checkNames (spec.name :: seen) rest

/-- Whether the program declares an interface called `name`. -/
def isInterface (program : Program) (name : String) : Bool :=
  (program.class? name).any Class.isInterface

/--
Declare the class called `name` after its superclass and its interfaces.  The
classes in `pending` are not being declared: a class that is neither declared
nor pending depends on itself.
-/
def declareClass (specs pending : List ClassSpec) (program : Program)
    (name : String) : Except Error Program :=
  if (program.class? name).isSome then .ok program
  else
    match found : pending.find? (fun spec => spec.name = name) with
    | none =>
        if specs.any fun spec => spec.name = name then
          .error (.cyclicInheritance name)
        else .error (.unknownType name)
    | some spec => do
        have := length_without_lt found
        let program ←
          if spec.super.isEmpty then pure program
          else do
            let program ←
              declareClass specs (without pending name) program spec.super
            if isInterface program spec.super then
              throw (.extendsInterface name spec.super)
            pure program
        let program ← spec.interfaces.foldlM
          (fun program interface => do
            let program ←
              declareClass specs (without pending name) program interface
            if !isInterface program interface then
              throw (.implementsClass name interface)
            pure program)
          program
        (program.newClass
          { name
            super := if spec.super.isEmpty then none else some spec.super
            interfaces := spec.interfaces
            isInterface := spec.isInterface
            isAbstract := spec.isAbstract }).mapError .construction
termination_by pending.length

/-- Declare classes in the order of their description. -/
def declareClasses (specs : List ClassSpec) : Except Error Program :=
  specs.foldlM (fun program spec => declareClass specs specs program spec.name)
    {}

/-- A name with its type. -/
structure Declaration where
  type : Ty
  name : String

/-- Read a declaration `T name`. -/
def readDeclaration (program : Program) (text : String) :
    Except Error Declaration :=
  match words text.toList with
  | [type, name] =>
      match program.readType? type with
      | some type => .ok ⟨type, String.ofList name⟩
      | none => .error (.unknownType (String.ofList type))
  | _ => .error (.badDeclaration text)

/-- Read several declarations. -/
def readDeclarations (program : Program) :
    List String → Except Error (List Declaration)
  | [] => .ok []
  | text :: rest => do
      let declaration ← readDeclaration program text
      let declarations ← readDeclarations program rest
      return declaration :: declarations

/-- Declare a field of the class `owner`. -/
def declareField (owner : String) (program : Program) (spec : FieldSpec) :
    Except Error Program :=
  match program.type? spec.type with
  | none => .error (.unknownFieldType owner spec.name spec.type)
  | some type =>
      if (program.class? owner).any fun cls =>
          (cls.field? spec.name).isSome then
        .error (.duplicateField owner spec.name)
      else
        (program.newField
          { owner, name := spec.name, type, isStatic := spec.isStatic }).mapError
          .construction

/-- Check that parameter names are distinct. -/
def checkParams : List String → List Declaration → Except Error Unit
  | _, [] => .ok ()
  | seen, declaration :: rest =>
      if seen.contains declaration.name then
        .error (.duplicateParameter declaration.name)
      else checkParams (declaration.name :: seen) rest

/-- The result type of a method; without one it is `void`. -/
def readResult (program : Program) (name : String) : Except Error Ty :=
  if name.isEmpty then .ok .void
  else
    match program.type? name with
    | some type => .ok type
    | none => .error (.unknownType name)

/-- Declare the further variables of a method. -/
def declareVars (program : Program) : List String → Method →
    Except Error Method
  | [], method => .ok method
  | text :: rest, method => do
      let declaration ← readDeclaration program text
      if method.hasLocal declaration.name then
        throw (.duplicateVariable declaration.name)
      let method ← (method.newVar declaration.name
        (some declaration.type)).mapError .construction
      declareVars program rest method

/-- Declare a method of the class `owner` with its variables. -/
def declareMethod (owner : String) (program : Program) (spec : MethodSpec) :
    Except Error (Program × MethodId) := do
  let params ← readDeclarations program spec.params
  checkParams (if spec.isStatic then [] else [Method.thisName]) params
  let result ← readResult program spec.result
  let paramTypes := params.map Declaration.type
  let id : MethodId := ⟨owner, subsignature spec.name paramTypes result⟩
  if (program.method? id).isSome then throw .duplicateMethod
  let program ← (program.newMethod
    { owner
      name := spec.name
      paramTypes
      result
      isStatic := spec.isStatic
      isAbstract := spec.isAbstract
      names := params.map Declaration.name }).mapError .construction
  let program ← program.modifyMethod id (declareVars program spec.vars)
  return (program, id)

/-- A method and the statements of its body, not yet read. -/
abbrev Body := MethodId × List String

/-- Declare one method of a class and set its body aside. -/
def declareBody (owner : String) (state : Program × List Body)
    (spec : MethodSpec) : Except Error (Program × List Body) := do
  let (program, id) ← (declareMethod owner state.1 spec).mapError
    (.within (owner ++ "." ++ spec.name))
  if spec.body.isEmpty then return (program, state.2)
  else if (program.method? id).any Method.isAbstract then
    throw (.abstractBody id)
  else return (program, state.2 ++ [(id, spec.body)])

/-- Declare the fields and methods of a class. -/
def declareMembers (state : Program × List Body) (spec : ClassSpec) :
    Except Error (Program × List Body) := do
  let program ← spec.fields.foldlM (declareField spec.name) state.1
  spec.methods.foldlM (declareBody spec.name) (program, state.2)

/-- Read the statements of a body. -/
def readBody (program : Program) (body : Body) : Except Error Program :=
  (body.2.foldlM (fun (grown : Program) text => grown.addStmt body.1 text)
    program).mapError (.within body.1.signature)

end Load

open Load

/-- The program that a description denotes. -/
def ProgramSpec.load (spec : ProgramSpec) : Except Error Program := do
  checkNames [] spec.classes
  let declared ← declareClasses spec.classes
  let (program, bodies) ← spec.classes.foldlM declareMembers (declared, [])
  let program ← bodies.foldlM readBody program
  if spec.main.isEmpty then return program
  else
    let main ← (program.findMethod spec.main).mapError (.within "main")
    return { program with main := some main.id }

namespace Program

/-- Load a program from the text of its description. -/
def ofText (text : String) : Except Error Program :=
  match Yaml.Document.ofText text with
  | .malformed => .error .notADocument
  | .absent => .error .endOfFile
  | .root node =>
      match Decoder.programSpec node with
      | none => .error .notADocument
      | some spec => (spec.getD {}).load

/-- Load a program from a file. -/
def ofFile (files : Files) (name : String) : Except Error Program :=
  match files.read name with
  | .error cause => .error (.unreadable name cause)
  | .ok text => (ofText text).mapError (.within name)

end Program

end PointsTo
