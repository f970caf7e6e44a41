/-!
# Types

A type is one of nine primitive types, a class given by its name, or an array
type.  Class names are unique in a program, so two types denote the same type
exactly when they are equal.
-/

namespace PointsTo

/-- The types of values that are not references; `void` has no values. -/
inductive Prim where
  | void | boolean | byte | char | short | int | long | float | double
deriving DecidableEq, Repr

/-- The spelling of a primitive type. -/
def Prim.name : Prim → String
  | .void => "void"
  | .boolean => "boolean"
  | .byte => "byte"
  | .char => "char"
  | .short => "short"
  | .int => "int"
  | .long => "long"
  | .float => "float"
  | .double => "double"

/-- All primitive types. -/
def Prim.all : List Prim :=
  [.void, .boolean, .byte, .char, .short, .int, .long, .float, .double]

/-- The primitive type with the given spelling. -/
def Prim.named? (name : String) : Option Prim :=
  Prim.all.find? fun prim => prim.name = name

@[simp]
theorem Prim.named?_name (prim : Prim) :
    Prim.named? prim.name = some prim := by
  cases prim <;> decide

/-- The type of a variable, a field or an abstract object. -/
inductive Ty where
  | prim (kind : Prim)
  | cls (name : String)
  | array (element : Ty)
deriving DecidableEq, Repr

/-- The spelling of a type. -/
def Ty.name : Ty → String
  | .prim kind => kind.name
  | .cls name => name
  | .array element => element.name ++ "[]"

/-- The result type of methods without a result. -/
abbrev Ty.void : Ty := .prim .void

end PointsTo
