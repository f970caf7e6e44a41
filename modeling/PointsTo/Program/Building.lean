import PointsTo.Program.Builder

/-!
# Building methods in place

`Method.addNew` and its relatives compute the method that a building step leads
to.  A method that is kept and built up is changed piece by piece instead: the
position of a statement is recorded with the variable that it uses as base, and
then the statement is appended.  A step that is refused leaves behind what it
has changed before.
-/

namespace PointsTo

/--
Building steps on a method, which may be refused.  What has been changed before
a step is refused stays changed.
-/
abbrev Building := EStateM BuildError Method

namespace Building

/-- Look something up in the method as it stands. -/
def consult {α : Type} (lookup : Method → Except BuildError α) :
    Building α := do
  match lookup (← get) with
  | .ok value => return value
  | .error problem => throw problem

/-- Create a variable; its name must be new in the method. -/
def newVar (name : String) (type : Option Ty) : Building Unit := do
  let method ← get
  if method.hasLocal name then
    throw (.duplicateVariable name method.id)
  let entry : Local := { name, type }
  set { method with locals := method.locals ++ [entry] }

/-- The position that the next statement takes. -/
def position : Building Nat :=
  return (← get).body.length

/-- Update the records of the variable called `name`. -/
def note (name : String) (change : Local → Local) : Building Unit :=
  modify fun method =>
    { method with
      locals := method.locals.map fun entry =>
        if entry.name = name then change entry else entry }

/-- Append a statement to the body. -/
def append (stmt : Stmt) : Building Unit :=
  modify fun method => method.append stmt

/-- Append `target = new type`; the answer is the position of the statement. -/
def addNew (target : Var) (type : Ty) : Building Nat := do
  let target ← consult (·.own target)
  let index ← position
  append (.new target type)
  return index

/-- Append `target = source`. -/
def addCopy (target source : Var) : Building Nat := do
  let target ← consult (·.own target)
  let source ← consult (·.own source)
  let index ← position
  append (.copy target source)
  return index

/-- Append `target = base.field`, or a static load if there is no base. -/
def addLoadField (target : Var) (base : Option Var) (field : Field) :
    Building Nat := do
  let target ← consult (·.own target)
  let base ← consult (·.ownOptional base)
  let index ← position
  match base, field.isStatic with
  | none, true => append (.loadStatic target field)
  | some base, false =>
      note base fun entry =>
        { entry with loadFields := entry.loadFields ++ [index] }
      append (.loadField target base field)
  | _, _ => throw (.loadStaticness field)
  return index

/-- Append `base.field = source`, or a static store if there is no base. -/
def addStoreField (base : Option Var) (field : Field) (source : Var) :
    Building Nat := do
  let base ← consult (·.ownOptional base)
  let source ← consult (·.own source)
  let index ← position
  match base, field.isStatic with
  | none, true => append (.storeStatic field source)
  | some base, false =>
      note base fun entry =>
        { entry with storeFields := entry.storeFields ++ [index] }
      append (.storeField base field source)
  | _, _ => throw (.storeStaticness field)
  return index

/-- Append `target = base[*]`. -/
def addLoadArray (target base : Var) : Building Nat := do
  let target ← consult (·.own target)
  let base ← consult (·.own base)
  let index ← position
  note base fun entry =>
    { entry with loadArrays := entry.loadArrays ++ [index] }
  append (.loadArray target base)
  return index

/-- Append `base[*] = source`. -/
def addStoreArray (base source : Var) : Building Nat := do
  let base ← consult (·.own base)
  let source ← consult (·.own source)
  let index ← position
  note base fun entry =>
    { entry with storeArrays := entry.storeArrays ++ [index] }
  append (.storeArray base source)
  return index

/--
Append an invocation.  It must have a receiver exactly when it is not static.
-/
def addInvoke (kind : CallKind) (ref : MethodRef) (receiver : Option Var)
    (args : List Var) (result : Option Var) : Building Nat := do
  let receiver ← consult (·.ownOptional receiver)
  let result ← consult (·.ownOptional result)
  let args ← consult (·.ownAll args)
  if receiver.isNone ≠ decide (kind = .static) then
    throw (.receiverMismatch kind ref)
  let index ← position
  match receiver with
  | some base =>
      note base fun entry => { entry with invokes := entry.invokes ++ [index] }
  | none => pure ()
  append (.invoke { kind, ref, receiver, args, result })
  return index

/-- Append `return value`, or `return` alone. -/
def addReturn (value : Option Var) : Building Nat := do
  let value ← consult (·.ownOptional value)
  let index ← position
  modify fun method =>
    { method with returns := method.returns ++ value.toList }
  append (.ret value)
  return index

end Building

end PointsTo
