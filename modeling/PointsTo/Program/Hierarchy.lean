import PointsTo.Program.Basic

/-!
# The class hierarchy

Superclass chains, subtyping, and the two ways of finding a method: the
resolution of a reference, which starts at the class that the reference names,
and the dispatch on a receiver, which starts at the type of the receiver.
-/

namespace PointsTo

/--
The class called `name` and its superclasses, nearest first.  The superclass
of a declaration is looked for among the older declarations.
-/
def chainIn : List Class → String → List Class
  | [], _ => []
  | cls :: older, name =>
      if cls.name = name then
        cls :: (match cls.super with
          | some super => chainIn older super
          | none => [])
      else chainIn older name

/-- Whether `sub` reaches `super` along superclasses and interfaces. -/
def subclassIn : List Class → String → String → Bool
  | [], _, _ => false
  | cls :: older, super, sub =>
      if cls.name = sub then
        cls.name == super ||
          cls.parents.any fun parent => subclassIn older super parent
      else subclassIn older super sub

namespace Program

/-- The class called `name` and its superclasses, nearest first. -/
def chain (program : Program) (name : String) : List Class :=
  chainIn program.declarations name

/--
Whether `sub` is `super` or extends or implements it, directly or not.  An
absent class is only a subclass of an absent class.
-/
def isSubclass (program : Program) : (super sub : Option String) → Bool
  | none, none => true
  | some super, some sub => subclassIn program.declarations super sub
  | _, _ => false

/-- Whether `cls` implements the interface `interface`. -/
def implements (program : Program) (cls : Option String)
    (interface : Class) : Bool :=
  interface.isInterface && program.isSubclass (some interface.name) cls

/-- The classes that are not abstract and implement `interface`. -/
def implementers (program : Program) (interface : Class) : List Class :=
  program.classes.filter fun cls =>
    !cls.isAbstract && program.implements (some cls.name) interface

/-- The field called `name` of the class `owner` or its superclasses. -/
def lookupField? (program : Program) (owner name : String) : Option Field :=
  (program.chain owner).findSome? fun cls => cls.field? name

/--
The method that a reference denotes without dispatch: the declaration in the
class that it names, or else in the closest superclass.
-/
def resolve? (program : Program) (ref : MethodRef) : Option Method :=
  (program.chain ref.owner).findSome? fun cls =>
    cls.method? ref.subsignature

/-- The concrete method of a class with the given subsignature. -/
def concrete? (cls : Class) (subsignature : String) : Option Method :=
  (cls.method? subsignature).filter fun method => !method.isAbstract

/-- The class at which the dispatch on a type starts. -/
def dispatchClass? (program : Program) : Ty → Option String
  | .cls name => some name
  | .array _ => program.root?.map Class.name
  | .prim _ => none

/--
The implementation of `ref` for a receiver of type `type`: the concrete method
with the same subsignature that is closest on the superclass chain.  Arrays
behave like the root class, and there is none for primitive values.
-/
def dispatch? (program : Program) (type : Option Ty) (ref : MethodRef) :
    Option Method :=
  ((type.bind program.dispatchClass?).map program.chain |>.getD []).findSome?
    fun cls => concrete? cls ref.subsignature

/--
The method that an invocation calls when the receiver has the given type; a
static call has no receiver.  Interface calls reach only classes that
implement the interface.
-/
def callee? (program : Program) (receiver : Option Ty) (call : Invoke) :
    Option Method :=
  match call.kind with
  | .static | .special =>
      (program.resolve? call.ref).filter fun method => !method.isAbstract
  | .interface =>
      match receiver, program.class? call.ref.owner with
      | some (.cls name), some interface =>
          if interface.isInterface && !program.implements (some name) interface
          then none
          else program.dispatch? receiver call.ref
      | _, _ => program.dispatch? receiver call.ref
  | .virtual | .dynamic => program.dispatch? receiver call.ref
  | .unknown _ => none

end Program

end PointsTo
