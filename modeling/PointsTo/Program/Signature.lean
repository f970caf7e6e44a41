import PointsTo.Program.Hierarchy
import PointsTo.Program.Error
import PointsTo.Text.Blank

/-!
# Types and methods by name

Descriptions, statements and taint rules refer to types and methods by text.
A type name is a primitive type, a class name, or a type name followed by
`[]`.  A method signature has the form `<C: result name(T1,T2)>`; it is read
in two ways.  `findMethod` looks for a declared method with exactly that
subsignature, and `readRef` reads the types in it and yields a reference,
whether or not such a method is declared.
-/

namespace PointsTo

open Text

/-- The text before a final pair of brackets. -/
def beforeBrackets? (text : List Char) : Option (List Char) :=
  match text.reverse with
  | ']' :: '[' :: before => some before.reverse
  | _ => none

theorem length_trim_le (text : List Char) :
    (trim text).length ≤ text.length := by
  have shorter : ∀ characters : List Char,
      (characters.dropWhile isBlank).length ≤ characters.length :=
    fun characters => (List.dropWhile_sublist isBlank).length_le
  simp only [trim, List.length_reverse]
  exact Nat.le_trans (shorter _)
    (by simpa only [List.length_reverse] using shorter text)

theorem length_beforeBrackets? {text before : List Char}
    (found : beforeBrackets? text = some before) :
    before.length < text.length := by
  unfold beforeBrackets? at found
  split at found
  · rename_i reversed shape
    simp only [Option.some.injEq] at found
    have total := congrArg List.length shape
    simp only [List.length_reverse, List.length_cons] at total
    rw [← found, List.length_reverse]
    omega
  · simp at found

namespace Program

/-- The primitive type or the class with exactly the given name. -/
def simpleType? (program : Program) (name : String) : Option Ty :=
  match Prim.named? name with
  | some kind => some (.prim kind)
  | none => (program.class? name).map fun cls => .cls cls.name

/-- The type denoted by a text. -/
def readType? (program : Program) (text : List Char) : Option Ty :=
  match found : beforeBrackets? (trim text) with
  | some element =>
      have : element.length < text.length :=
        Nat.lt_of_lt_of_le (length_beforeBrackets? found) (length_trim_le text)
      (program.readType? element).map .array
  | none => program.simpleType? (String.ofList (trim text))
termination_by text.length

/-- The type denoted by a name. -/
def type? (program : Program) (name : String) : Option Ty :=
  program.readType? name.toList

end Program

/-- The text inside a pair of angle brackets. -/
def insideAngles? (text : List Char) : Option (List Char) :=
  match text with
  | '<' :: rest =>
      match rest.reverse with
      | '>' :: inside => some inside.reverse
      | _ => none
  | _ => none

/-- The class name and the subsignature of a signature. -/
def splitSignature? (signature : List Char) :
    Option (String × List Char) := do
  let inside ← insideAngles? (trim signature)
  let (owner, rest) ← cut? ':' inside
  let owner := trim owner
  let subsignature := dropSpaceAfterComma (trim rest)
  if owner.isEmpty || subsignature.isEmpty then none
  else some (String.ofList owner, subsignature)

namespace Program

/-- The declared method that a signature denotes. -/
def findMethod (program : Program) (signature : String) :
    Except Error Method :=
  match splitSignature? signature.toList with
  | none => .error (.malformedSignature signature)
  | some (owner, subsignature) =>
      match program.class? owner with
      | none => .error (.noClassInSignature owner signature)
      | some cls =>
          match cls.method? (String.ofList subsignature) with
          | none => .error (.unknownMethod signature)
          | some method => .ok method

/-- Read a list of type names. -/
def readTypes (program : Program) : List (List Char) → Except Error (List Ty)
  | [] => .ok []
  | text :: rest =>
      match program.readType? text with
      | none => .error (.unknownType (String.ofList text))
      | some type => do
          let types ← program.readTypes rest
          return type :: types

/-- The part before the final closing parenthesis. -/
def beforeParenthesis? (text : List Char) : Option (List Char) :=
  match text.reverse with
  | ')' :: before => some before.reverse
  | _ => none

/-- The result type, the name and the parameter types of a subsignature. -/
def splitSubsignature? (text : List Char) :
    Option (List Char × List Char × List Char) := do
  let (result, rest) ← cut? ' ' text
  let inside ← beforeParenthesis? rest
  let (name, params) ← cut? '(' inside
  if name.isEmpty then none else some (result, name, params)

/-- Read the parameter types of a subsignature. -/
def readParams (program : Program) (text : List Char) :
    Except Error (List Ty) :=
  if text.isEmpty then .ok []
  else program.readTypes (splitWhen (· = ',') text)

/-- Read a subsignature as a reference to a method of `owner`. -/
def readSubsignature (program : Program) (owner : String)
    (text : List Char) : Except Error MethodRef :=
  match splitSubsignature? text with
  | none => .error (.malformedSignature (String.ofList text))
  | some (result, name, params) =>
      match program.readType? result with
      | none => .error (.unknownType (String.ofList result))
      | some result => do
          let params ← program.readParams params
          return { owner, name := String.ofList name, params, result }

/-- Read a signature as a reference; all types in it must be known. -/
def readRef (program : Program) (signature : String) :
    Except Error MethodRef :=
  match splitSignature? signature.toList with
  | none => .error (.malformedSignature signature)
  | some (owner, subsignature) =>
      match program.class? owner with
      | none => .error (.unknownType owner)
      | some cls =>
          (program.readSubsignature cls.name subsignature).mapError
            (.within (quoted signature))

end Program

end PointsTo
