import PointsTo.Files
import PointsTo.Program.Stmt
import PointsTo.Text.Quoted

/-!
# Causes of failure

`BuildError` lists the rules that assembling a program step by step may
violate, and `Error` the reasons why a description, a signature or a statement
is rejected.  Each has one function that words it.
-/

namespace PointsTo

open Text (quoted)

/-- A rule of program construction that a step violates. -/
inductive BuildError where
  | duplicateClass (name : String)
  | undeclaredClass (name : String)
  | duplicateField (name owner : String)
  | duplicateMethod (subsignature owner : String)
  | duplicateVariable (name : String) (method : MethodId)
  | foreignVariable (name : String) (method : MethodId)
  | loadStaticness (field : Field)
  | storeStaticness (field : Field)
  | receiverMismatch (kind : CallKind) (ref : MethodRef)
deriving DecidableEq, Repr

/-- The wording of a violated rule. -/
def BuildError.message : BuildError → String
  | .duplicateClass name => s!"duplicate class {name}"
  | .undeclaredClass name => s!"undeclared class {name}"
  | .duplicateField name owner => s!"duplicate field {name} in {owner}"
  | .duplicateMethod subsignature owner =>
      s!"duplicate method {subsignature} in {owner}"
  | .duplicateVariable name method =>
      s!"duplicate variable {name} in {method.signature}"
  | .foreignVariable name method =>
      s!"variable {name} does not belong to {method.signature}"
  | .loadStaticness field =>
      s!"static-ness of load from {field.signature} does not match field"
  | .storeStaticness field =>
      s!"static-ness of store to {field.signature} does not match field"
  | .receiverMismatch kind ref =>
      s!"invoke{kind.name} of {ref.signature}: receiver mismatch"

/-- The families of errors that users can tell apart. -/
inductive ErrorKind where
  | malformedSignature | unknownMethod | unknownType | statement
  | malformedProgram | missingFile | unreadableFile | construction
deriving DecidableEq, Repr

/-- Why a description, a signature or a statement is rejected. -/
inductive Error where
  | malformedSignature (text : String)
  | noClassInSignature (owner signature : String)
  | unknownMethod (signature : String)
  | unknownType (name : String)
  | unknownTypeIn (name text : String)
  | unknownFieldType (owner field type : String)
  | unknownQuotedType (name : String)
  | notAStatement (text : String)
  | unknownCallKind (kind text : String)
  | receiverMismatch (kind : CallKind) (text : String)
  | badArgument (argument text : String)
  | argumentCount (ref : MethodRef) (given : Nat)
  | noInstanceField (field qualifier : String)
  | noStaticField (owner field : String)
  | notADocument
  | endOfFile
  | className (name : String)
  | cyclicInheritance (name : String)
  | extendsInterface (name super : String)
  | implementsClass (name interface : String)
  | duplicateField (owner name : String)
  | duplicateParameter (name : String)
  | duplicateMethod
  | duplicateVariable (name : String)
  | badDeclaration (text : String)
  | abstractBody (method : MethodId)
  | unreadable (name : String) (cause : FileError)
  | construction (cause : BuildError)
  /-- The cause, together with the place where it arose. -/
  | within (place : String) (cause : Error)
deriving DecidableEq, Repr

namespace Error

/-- The family of an error; the place where it arose does not matter. -/
def kind : Error → ErrorKind
  | .malformedSignature _ => .malformedSignature
  | .noClassInSignature .. | .unknownMethod _ => .unknownMethod
  | .unknownType _ | .unknownTypeIn .. | .unknownFieldType ..
  | .unknownQuotedType _ => .unknownType
  | .notAStatement _ | .unknownCallKind .. | .receiverMismatch ..
  | .badArgument .. | .argumentCount .. | .noInstanceField ..
  | .noStaticField .. => .statement
  | .notADocument | .endOfFile | .className _ | .cyclicInheritance _
  | .extendsInterface .. | .implementsClass .. | .duplicateField ..
  | .duplicateParameter _ | .duplicateMethod | .duplicateVariable _
  | .badDeclaration _ | .abstractBody _ => .malformedProgram
  | .unreadable _ .missing => .missingFile
  | .unreadable .. => .unreadableFile
  | .construction _ => .construction
  | .within _ cause => cause.kind

/-- The wording of an error. -/
def message : Error → String
  | .malformedSignature text => s!"malformed method signature: {quoted text}"
  | .noClassInSignature owner signature =>
      s!"unknown method: no class {owner} in {quoted signature}"
  | .unknownMethod signature => s!"unknown method: {quoted signature}"
  | .unknownType name => s!"unknown type: {name}"
  | .unknownTypeIn name text => s!"unknown type: {name} in {quoted text}"
  | .unknownFieldType owner field type =>
      s!"unknown type: field {owner}.{field}: {type}"
  | .unknownQuotedType name => s!"unknown type: {quoted name}"
  | .notAStatement text => s!"syntax error: {quoted text}"
  | .unknownCallKind kind text =>
      s!"syntax error: unknown call kind {quoted kind} in {quoted text}"
  | .receiverMismatch kind text =>
      s!"syntax error: receiver mismatch for invoke{kind.name} in {quoted text}"
  | .badArgument argument text =>
      s!"syntax error: bad argument {quoted argument} in {quoted text}"
  | .argumentCount ref given =>
      s!"syntax error: {ref.signature} expects {ref.params.length} arguments, got {given}"
  | .noInstanceField field qualifier =>
      s!"syntax error: no instance field {field} on {qualifier}"
  | .noStaticField owner field =>
      s!"syntax error: no static field {owner}.{field}"
  | .notADocument => "malformed program: yaml: not a program description"
  | .endOfFile => "malformed program: EOF"
  | .className name =>
      s!"malformed program: duplicate or empty class name {quoted name}"
  | .cyclicInheritance name =>
      s!"malformed program: cyclic inheritance involving {name}"
  | .extendsInterface name super =>
      s!"malformed program: {name} extends interface {super}"
  | .implementsClass name interface =>
      s!"malformed program: {name} implements class {interface}"
  | .duplicateField owner name =>
      s!"malformed program: duplicate field {owner}.{name}"
  | .duplicateParameter name =>
      s!"malformed program: duplicate parameter {name}"
  | .duplicateMethod => "malformed program: duplicate method"
  | .duplicateVariable name =>
      s!"malformed program: duplicate variable {name}"
  | .badDeclaration text =>
      s!"malformed program: bad declaration {quoted text}"
  | .abstractBody method =>
      s!"malformed program: abstract method {method.signature} has a body"
  | .unreadable name cause => cause.readMessage name
  | .construction cause => cause.message
  | .within place cause => place ++ ": " ++ cause.message

end Error

end PointsTo
