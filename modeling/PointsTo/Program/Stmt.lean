import PointsTo.Program.Ty

/-!
# Names and statements

The parts of a program that other parts refer to: fields, methods, variables
and positions in method bodies, and the statements themselves.  A field is
given by its declaration.  A method is given by its class and the text of its
subsignature, because that text is what a class distinguishes its methods by.
Statements name the variables of their own method.
-/

namespace PointsTo

/-- A declared field. -/
structure Field where
  /-- The class that declares the field. -/
  owner : String
  name : String
  type : Ty
  isStatic : Bool
deriving DecidableEq, Repr

/-- The field as it is shown to the user. -/
def Field.signature (field : Field) : String :=
  s!"<{field.owner}: {field.type.name} {field.name}>"

/-- The part of a method signature that does not depend on the class. -/
def subsignature (name : String) (params : List Ty) (result : Ty) : String :=
  result.name ++ " " ++ name ++ "(" ++
    ",".intercalate (params.map Ty.name) ++ ")"

/-- A method of a program: its class and its subsignature. -/
structure MethodId where
  owner : String
  subsignature : String
deriving DecidableEq, Repr, Inhabited

/-- The full signature of a method. -/
def MethodId.signature (method : MethodId) : String :=
  s!"<{method.owner}: {method.subsignature}>"

/-- A method as a call site refers to it, before it is resolved. -/
structure MethodRef where
  owner : String
  name : String
  params : List Ty
  result : Ty
deriving DecidableEq, Repr

/-- The subsignature that a reference asks for. -/
def MethodRef.subsignature (ref : MethodRef) : String :=
  PointsTo.subsignature ref.name ref.params ref.result

/-- The reference as it is written at a call site. -/
def MethodRef.signature (ref : MethodRef) : String :=
  s!"<{ref.owner}: {ref.subsignature}>"

/-- A variable of a method. -/
structure Var where
  method : MethodId
  name : String
deriving DecidableEq, Repr, Inhabited

/-- A position in the body of a method. -/
structure Site where
  method : MethodId
  index : Nat
deriving DecidableEq, Repr

/-- The position as it is shown to the user. -/
def Site.location (site : Site) : String :=
  s!"{site.method.signature}[{site.index}]"

/--
How the callee of an invocation is determined.  Programs that are assembled
step by step may carry a number that denotes none of the five kinds.
-/
inductive CallKind where
  | static | special | virtual | interface | dynamic
  | unknown (code : Int)
deriving DecidableEq, Repr

namespace CallKind

/-- The five kinds that the analysis knows. -/
def all : List CallKind :=
  [.static, .special, .virtual, .interface, .dynamic]

/-- The number of a kind. -/
def code : CallKind → Int
  | .static => 1
  | .special => 2
  | .virtual => 3
  | .interface => 4
  | .dynamic => 5
  | .unknown code => code

/-- The kind with the given number. -/
def ofCode (code : Int) : CallKind :=
  (all.find? fun kind => kind.code = code).getD (.unknown code)

/-- The spelling of a kind. -/
def name : CallKind → String
  | .static => "static"
  | .special => "special"
  | .virtual => "virtual"
  | .interface => "interface"
  | .dynamic => "dynamic"
  | .unknown code => s!"CallKind({code})"

/-- The kind with the given spelling, among the five known ones. -/
def named? (name : String) : Option CallKind :=
  all.find? fun kind => kind.name = name

/-- Whether the analysis knows how to treat calls of this kind. -/
def isKnown : CallKind → Bool
  | .unknown _ => false
  | _ => true

end CallKind

/-- A method invocation. -/
structure Invoke where
  kind : CallKind
  ref : MethodRef
  /-- The receiver; static calls have none. -/
  receiver : Option String
  args : List String
  /-- The variable that takes the result, if the result is used. -/
  result : Option String
deriving DecidableEq, Repr

/-- The text of an invocation. -/
def Invoke.text (call : Invoke) : String :=
  (match call.result with
    | some target => target ++ " = "
    | none => "") ++
  "invoke" ++ call.kind.name ++ " " ++
  (match call.receiver with
    | some base => base ++ "."
    | none => "") ++
  call.ref.signature ++ "(" ++ ", ".intercalate call.args ++ ")"

/-- A statement of a method body. -/
inductive Stmt where
  /-- `target = new type` -/
  | new (target : String) (type : Ty)
  /-- `target = source` -/
  | copy (target source : String)
  /-- `target = base.field` -/
  | loadField (target base : String) (field : Field)
  /-- `target = Class.field` -/
  | loadStatic (target : String) (field : Field)
  /-- `base.field = source` -/
  | storeField (base : String) (field : Field) (source : String)
  /-- `Class.field = source` -/
  | storeStatic (field : Field) (source : String)
  /-- `target = base[*]`; indices are not tracked -/
  | loadArray (target base : String)
  /-- `base[*] = source` -/
  | storeArray (base source : String)
  | invoke (call : Invoke)
  /-- `return value`, or `return` alone -/
  | ret (value : Option String)
deriving DecidableEq, Repr

/-- The text of an allocation. -/
def newText (target : String) (type : Ty) : String :=
  target ++ " = new " ++ type.name

/-- The text of a statement. -/
def Stmt.text : Stmt → String
  | .new target type => newText target type
  | .copy target source => target ++ " = " ++ source
  | .loadField target base field => target ++ " = " ++ base ++ "." ++ field.name
  | .loadStatic target field =>
      target ++ " = " ++ field.owner ++ "." ++ field.name
  | .storeField base field source => base ++ "." ++ field.name ++ " = " ++ source
  | .storeStatic field source =>
      field.owner ++ "." ++ field.name ++ " = " ++ source
  | .loadArray target base => target ++ " = " ++ base ++ "[*]"
  | .storeArray base source => base ++ "[*] = " ++ source
  | .invoke call => call.text
  | .ret none => "return"
  | .ret (some value) => "return " ++ value

end PointsTo
