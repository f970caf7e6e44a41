import PointsTo.Program.Stmt

/-!
# Programs

A program is a closed world of classes.  A class may only build on classes
that are declared before it, so the declarations are kept with the newest one
first: everything a class refers to lies in the tail behind it, and walks
along superclasses and interfaces are recursions on that list.
-/

namespace PointsTo

/--
A variable of a method together with the positions of the statements that use
it as their base: the solver looks these up whenever the variable points to a
new object.
-/
structure Local where
  name : String
  /-- The declared type; variables that appear on first use have none. -/
  type : Option Ty
  loadFields : List Nat := []
  storeFields : List Nat := []
  loadArrays : List Nat := []
  storeArrays : List Nat := []
  invokes : List Nat := []
deriving DecidableEq, Repr

/-- A method declaration with its body. -/
structure Method where
  owner : String
  name : String
  paramTypes : List Ty
  result : Ty
  isStatic : Bool
  isAbstract : Bool
  /-- The variables of the parameters, in order. -/
  params : List String
  /-- All variables in order of creation. -/
  locals : List Local
  body : List Stmt := []
  /-- The variables of the `return` statements that have one, in order. -/
  returns : List String := []
deriving DecidableEq, Repr

namespace Method

/-- The subsignature that distinguishes the method in its class. -/
def subsignature (method : Method) : String :=
  PointsTo.subsignature method.name method.paramTypes method.result

/-- The identity of the method in its program. -/
def id (method : Method) : MethodId :=
  ⟨method.owner, method.subsignature⟩

/-- The reference that names exactly this method. -/
def ref (method : Method) : MethodRef :=
  ⟨method.owner, method.name, method.paramTypes, method.result⟩

/-- The name of the receiver variable of instance methods. -/
def thisName : String := "this"

/-- The receiver variable; static methods have none. -/
def this? (method : Method) : Option String :=
  if method.isStatic then none else some thisName

/-- The variable with the given name. -/
def local? (method : Method) (name : String) : Option Local :=
  method.locals.find? fun entry => entry.name = name

/-- Whether the method has a variable with the given name. -/
def hasLocal (method : Method) (name : String) : Bool :=
  method.locals.any fun entry => entry.name = name

/-- The position of a statement of the method. -/
def site (method : Method) (index : Nat) : Site :=
  ⟨method.id, index⟩

/-- The invocation at the given position. -/
def invoke? (method : Method) (index : Nat) : Option Invoke :=
  match method.body[index]? with
  | some (.invoke call) => some call
  | _ => none

end Method

/-- A class or an interface. -/
structure Class where
  name : String
  super : Option String
  interfaces : List String
  isInterface : Bool
  isAbstract : Bool
  fields : List Field := []
  methods : List Method := []
deriving DecidableEq, Repr

namespace Class

/-- The field with the given name that the class itself declares. -/
def field? (cls : Class) (name : String) : Option Field :=
  cls.fields.find? fun field => field.name = name

/-- The method with the given subsignature that the class itself declares. -/
def method? (cls : Class) (subsignature : String) : Option Method :=
  cls.methods.find? fun method => method.subsignature = subsignature

/-- The superclass and the interfaces. -/
def parents (cls : Class) : List String :=
  cls.super.toList ++ cls.interfaces

end Class

/-- A program. -/
structure Program where
  /-- The classes, the newest declaration first. -/
  declarations : List Class := []
  /-- The method where the analysis starts unless told otherwise. -/
  main : Option MethodId := none
deriving DecidableEq, Repr

namespace Program

instance : Inhabited Program := ⟨{}⟩

/-- The classes in the order of their declaration. -/
def classes (program : Program) : List Class :=
  program.declarations.reverse

/-- The class with the given name. -/
def class? (program : Program) (name : String) : Option Class :=
  program.declarations.find? fun cls => cls.name = name

/-- The method with the given identity. -/
def method? (program : Program) (id : MethodId) : Option Method :=
  (program.class? id.owner).bind fun cls => cls.method? id.subsignature

/--
The root of the hierarchy: the first class without superclass that is not an
interface.  Methods called on arrays are looked up from there.
-/
def root? (program : Program) : Option Class :=
  program.classes.find? fun cls => cls.super.isNone && !cls.isInterface

/-- All methods, class by class in the order of declaration. -/
def methods (program : Program) : List Method :=
  program.classes.flatMap Class.methods

/-- The statement at a position of the program. -/
def stmt? (program : Program) (site : Site) : Option Stmt :=
  (program.method? site.method).bind fun method => method.body[site.index]?

/-- The invocation at a position of the program. -/
def invoke? (program : Program) (site : Site) : Option Invoke :=
  (program.method? site.method).bind fun method => method.invoke? site.index

/-- Replace the class called `name` by its image under `change`. -/
def modifyClass (program : Program) (name : String)
    (change : Class → Class) : Program :=
  { program with
    declarations := program.declarations.map fun cls =>
      if cls.name = name then change cls else cls }

/-- Replace the method that has the identity of `updated` by `updated`. -/
def setMethod (program : Program) (updated : Method) : Program :=
  program.modifyClass updated.owner fun cls =>
    { cls with
      methods := cls.methods.map fun method =>
        if method.subsignature = updated.subsignature then updated
        else method }

end Program

end PointsTo
