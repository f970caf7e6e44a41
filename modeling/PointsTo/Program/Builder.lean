import PointsTo.Program.Basic
import PointsTo.Program.Error

/-!
# Building programs

Programs grow by declaring classes, fields, methods and variables and by
appending statements to method bodies.  Each step either yields the larger
program or names the rule it would violate; a failed step changes nothing.

Appending a statement also records its position with the variable that it
uses as base or receiver, and the value of a `return` statement with the
method.
-/

namespace PointsTo

namespace Method

/-- Create a variable; its name must be new in the method. -/
def newVar (method : Method) (name : String) (type : Option Ty) :
    Except BuildError Method :=
  if method.hasLocal name then
    .error (.duplicateVariable name method.id)
  else
    .ok { method with locals := method.locals ++ [{ name, type }] }

/-- The variable called `name`, created without a type if necessary. -/
def ensureVar (method : Method) (name : String) : Method :=
  if method.hasLocal name then method
  else
    { method with locals := method.locals ++ [{ name, type := none }] }

/-- The name of a variable of this method.  A candidate is a value of its own
here and not a reference to a variable that was created, so besides the method
that it names the check also asks that the method lists it; every variable that
the method has given out is listed. -/
def own (method : Method) (candidate : Var) : Except BuildError String :=
  if candidate.method = method.id ∧ method.hasLocal candidate.name then
    .ok candidate.name
  else
    .error (.foreignVariable candidate.name method.id)

/-- The name of an optional variable of this method. -/
def ownOptional (method : Method) :
    Option Var → Except BuildError (Option String)
  | none => .ok none
  | some candidate => (method.own candidate).map some

/-- The names of several variables of this method. -/
def ownAll (method : Method) :
    List Var → Except BuildError (List String)
  | [] => .ok []
  | first :: rest => do
      let name ← method.own first
      let names ← method.ownAll rest
      return name :: names

/-- Append a statement to the body. -/
def append (method : Method) (stmt : Stmt) : Method :=
  { method with body := method.body ++ [stmt] }

/-- Update the records of the variable called `name`. -/
def noteUse (method : Method) (name : String)
    (note : Nat → Local → Local) : Method :=
  { method with
    locals := method.locals.map fun entry =>
      if entry.name = name then note method.body.length entry else entry }

/-- Append `target = new type`. -/
def addNew (method : Method) (target : Var) (type : Ty) :
    Except BuildError Method := do
  let target ← method.own target
  return method.append (.new target type)

/-- Append `target = source`. -/
def addCopy (method : Method) (target source : Var) :
    Except BuildError Method := do
  let target ← method.own target
  let source ← method.own source
  return method.append (.copy target source)

/-- Append `target = base.field`, or a static load if there is no base. -/
def addLoadField (method : Method) (target : Var) (base : Option Var)
    (field : Field) : Except BuildError Method := do
  let target ← method.own target
  let base ← method.ownOptional base
  match base, field.isStatic with
  | none, true => return method.append (.loadStatic target field)
  | some base, false =>
      let noted := method.noteUse base fun index entry =>
        { entry with loadFields := entry.loadFields ++ [index] }
      return noted.append (.loadField target base field)
  | _, _ => throw (.loadStaticness field)

/-- Append `base.field = source`, or a static store if there is no base. -/
def addStoreField (method : Method) (base : Option Var) (field : Field)
    (source : Var) : Except BuildError Method := do
  let base ← method.ownOptional base
  let source ← method.own source
  match base, field.isStatic with
  | none, true => return method.append (.storeStatic field source)
  | some base, false =>
      let noted := method.noteUse base fun index entry =>
        { entry with storeFields := entry.storeFields ++ [index] }
      return noted.append (.storeField base field source)
  | _, _ => throw (.storeStaticness field)

/-- Append `target = base[*]`. -/
def addLoadArray (method : Method) (target base : Var) :
    Except BuildError Method := do
  let target ← method.own target
  let base ← method.own base
  let noted := method.noteUse base fun index entry =>
    { entry with loadArrays := entry.loadArrays ++ [index] }
  return noted.append (.loadArray target base)

/-- Append `base[*] = source`. -/
def addStoreArray (method : Method) (base source : Var) :
    Except BuildError Method := do
  let base ← method.own base
  let source ← method.own source
  let noted := method.noteUse base fun index entry =>
    { entry with storeArrays := entry.storeArrays ++ [index] }
  return noted.append (.storeArray base source)

/--
Append an invocation.  It must have a receiver exactly when it is not static.
-/
def addInvoke (method : Method) (kind : CallKind) (ref : MethodRef)
    (receiver : Option Var) (args : List Var) (result : Option Var) :
    Except BuildError Method := do
  let receiver ← method.ownOptional receiver
  let result ← method.ownOptional result
  let args ← method.ownAll args
  if receiver.isNone = decide (kind = .static) then
    let noted := match receiver with
      | some base => method.noteUse base fun index entry =>
          { entry with invokes := entry.invokes ++ [index] }
      | none => method
    return noted.append (.invoke { kind, ref, receiver, args, result })
  else throw (.receiverMismatch kind ref)

/-- Append `return value`, or `return` alone. -/
def addReturn (method : Method) (value : Option Var) :
    Except BuildError Method := do
  let value ← method.ownOptional value
  let noted := { method with returns := method.returns ++ value.toList }
  return noted.append (.ret value)

end Method

namespace Program

/-- The heading of a class declaration. -/
structure ClassHeading where
  name : String
  super : Option String := none
  interfaces : List String := []
  isInterface : Bool := false
  isAbstract : Bool := false

/--
Declare a class.  Its name must be new, and everything it builds on must have
been declared before.  Interfaces are abstract.
-/
def newClass (program : Program) (heading : ClassHeading) :
    Except BuildError Program :=
  if (program.class? heading.name).isSome then
    .error (.duplicateClass heading.name)
  else
    match (heading.super.toList ++ heading.interfaces).find?
        fun parent => (program.class? parent).isNone with
    | some parent => .error (.undeclaredClass parent)
    | none =>
        .ok { program with
          declarations :=
            { name := heading.name
              super := heading.super
              interfaces := heading.interfaces
              isInterface := heading.isInterface
              isAbstract := heading.isInterface || heading.isAbstract } ::
            program.declarations }

/-- Declare a field of a class. -/
def newField (program : Program) (field : Field) :
    Except BuildError Program :=
  match program.class? field.owner with
  | none => .error (.undeclaredClass field.owner)
  | some cls =>
      if (cls.field? field.name).isSome then
        .error (.duplicateField field.name field.owner)
      else
        .ok (program.modifyClass field.owner fun cls =>
          { cls with fields := cls.fields ++ [field] })

/-- The heading of a method declaration. -/
structure MethodHeading where
  owner : String
  name : String
  paramTypes : List Ty
  result : Ty
  isStatic : Bool := false
  isAbstract : Bool := false
  /-- Names of the parameters; used when there is one for each parameter. -/
  names : List String := []

/-- The names of the parameters: those given, or else `p0`, `p1`, and so on. -/
def MethodHeading.paramNames (heading : MethodHeading) : List String :=
  if heading.names.length = heading.paramTypes.length then heading.names
  else (List.range heading.paramTypes.length).map fun index => s!"p{index}"

/-- Create the parameter variables of a method. -/
def addParams : Method → List (String × Ty) → Except BuildError Method
  | method, [] => .ok method
  | method, (name, type) :: rest => do
      let method ← method.newVar name (some type)
      addParams { method with params := method.params ++ [name] } rest

/--
The method that a heading declares, with its receiver and its parameters as
first variables.  Methods of interfaces are abstract.
-/
def MethodHeading.declare (heading : MethodHeading) (cls : Class) :
    Except BuildError Method := do
  let bare : Method :=
    { owner := heading.owner
      name := heading.name
      paramTypes := heading.paramTypes
      result := heading.result
      isStatic := heading.isStatic
      isAbstract := heading.isAbstract || cls.isInterface
      params := []
      locals := [] }
  let withThis ← match bare.this? with
    | some this => bare.newVar this (some (.cls heading.owner))
    | none => pure bare
  addParams withThis (heading.paramNames.zip heading.paramTypes)

/-- Declare a method of a class; its subsignature must be new there. -/
def newMethod (program : Program) (heading : MethodHeading) :
    Except BuildError Program :=
  match program.class? heading.owner with
  | none => .error (.undeclaredClass heading.owner)
  | some cls => do
      let subsignature :=
        PointsTo.subsignature heading.name heading.paramTypes heading.result
      if (cls.method? subsignature).isSome then
        throw (.duplicateMethod subsignature heading.owner)
      let method ← heading.declare cls
      return program.modifyClass heading.owner fun cls =>
        { cls with methods := cls.methods ++ [method] }

/-- Apply a building step to one method of the program. -/
def modifyMethod {ε : Type} (program : Program) (id : MethodId)
    (change : Method → Except ε Method) : Except ε Program :=
  match program.method? id with
  | none => .ok program
  | some method => do
      let changed ← change method
      return program.setMethod changed

end Program

end PointsTo
