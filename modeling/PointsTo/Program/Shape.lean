import PointsTo.Text.Blank

/-!
# The shape of a statement text

A statement is written in one of eight forms:

* `x = new T`, `x = y`, `x = y.f`, `y.f = x`, `x = y[i]`, `y[i] = x`;
* `[r =] invoke<kind> [recv.]<C: result name(T1,T2)>(a1, a2)`;
* `return [x]`.

This module recognises the form of a text and takes it apart; what the parts
mean is decided later.  There is one reader for each form, and each of them
reads identifiers and gaps as far as they go, because no form allows anything
to follow them that could belong to them.
-/

namespace PointsTo

open Text

/-- The parts of a statement text. -/
inductive Shape where
  | ret (value : Option String)
  | invoke (result : Option String) (kind : String)
      (receiver : Option String) (signature arguments : String)
  | new (target type : String)
  | loadArray (target base : String)
  | storeArray (base source : String)
  | loadField (target qualifier field : String)
  | storeField (qualifier field source : String)
  | copy (target source : String)
deriving DecidableEq, Repr

namespace Shape

/-- Characters of words: ASCII letters, digits and the underscore. -/
def isWordChar (char : Char) : Bool :=
  char.isAlphanum || char == '_'

/-- Characters that may start an identifier. -/
def isIdentStart (char : Char) : Bool :=
  char.isAlpha || char == '_' || char == '$'

/-- Characters that may continue an identifier. -/
def isIdentPart (char : Char) : Bool :=
  isWordChar char || char == '$'

/-- Characters that may continue a class name. -/
def isClassPart (char : Char) : Bool :=
  isIdentPart char || char == '.'

/-- Whether the whole text is an identifier. -/
def isIdent : List Char → Bool
  | [] => false
  | first :: rest => isIdentStart first && rest.all isIdentPart

/-- Whether the whole text has the form of a class name. -/
def isClassName : List Char → Bool
  | [] => false
  | first :: rest => isIdentStart first && rest.all isClassPart

/-- The identifier at the start of a text, and the rest. -/
def ident? : List Char → Option (List Char × List Char)
  | [] => none
  | first :: rest =>
      if isIdentStart first then
        some (first :: rest.takeWhile isIdentPart, rest.dropWhile isIdentPart)
      else none

/-- The rest of a text after an equals sign and the gaps around it. -/
def afterEquals? (text : List Char) : Option (List Char) :=
  match text.dropWhile isGap with
  | '=' :: rest => some (rest.dropWhile isGap)
  | _ => none

/-- The rest of a text after at least one gap. -/
def afterGap? : List Char → Option (List Char)
  | [] => none
  | first :: rest => if isGap first then some (rest.dropWhile isGap) else none

/-- The rest of a text that starts with `word`. -/
def afterWord? : (word text : List Char) → Option (List Char)
  | [], text => some text
  | _, [] => none
  | expected :: word, char :: text =>
      if expected = char then afterWord? word text else none

/-- The rest of a text after an index in brackets. -/
def afterIndex? : List Char → Option (List Char)
  | '[' :: rest => (cut? ']' rest).map Prod.snd
  | _ => none

/-- A class name or variable, a dot and a field name: cut at the last dot. -/
def qualified? (text : List Char) : Option (List Char × List Char) := do
  let (field, qualifier) ← cut? '.' text.reverse
  if isClassName qualifier.reverse && isIdent field.reverse then
    some (qualifier.reverse, field.reverse)
  else none

/-- Read `return` or `return x`. -/
def readReturn? (text : List Char) : Option Shape := do
  let rest ← afterWord? "return".toList text
  if rest.isEmpty then some (.ret none)
  else
    let value ← afterGap? rest
    if isIdent value then some (.ret (some (String.ofList value))) else none

/-- The variable before an equals sign, if the text starts with one. -/
def assigned (text : List Char) : Option (List Char) × List Char :=
  match ident? text with
  | none => (none, text)
  | some (target, rest) =>
      match afterEquals? rest with
      | none => (none, text)
      | some rest => (some target, rest)

/-- The receiver before a dot, if the text starts with one. -/
def received (text : List Char) : Option (List Char) × List Char :=
  match ident? text with
  | some (receiver, '.' :: rest) => (some receiver, rest)
  | _ => (none, text)

/-- A signature in angle brackets at the start of a text, and the rest. -/
def signature? : List Char → Option (List Char × List Char)
  | '<' :: rest =>
      (cut? '>' rest).map fun (inside, after) => ('<' :: inside ++ ['>'], after)
  | _ => none

/-- The text between parentheses, which must not contain a line feed. -/
def arguments? : List Char → Option (List Char)
  | '(' :: rest =>
      match rest.reverse with
      | ')' :: inside =>
          if inside.contains '\n' then none else some inside.reverse
      | _ => none
  | _ => none

/-- Read an invocation. -/
def readInvoke? (text : List Char) : Option Shape := do
  let (result, rest) := assigned text
  let rest ← afterWord? "invoke".toList rest
  let kind := rest.takeWhile isWordChar
  if kind.isEmpty then none
  else
    let rest ← afterGap? (rest.dropWhile isWordChar)
    let (receiver, rest) := received rest
    let (signature, rest) ← signature? rest
    let arguments ← arguments? (rest.dropWhile isGap)
    some (.invoke (result.map String.ofList) (String.ofList kind)
      (receiver.map String.ofList) (String.ofList signature)
      (String.ofList arguments))

/-- Read `x = new T`. -/
def readNew? (text : List Char) : Option Shape := do
  let (target, rest) ← ident? text
  let rest ← afterEquals? rest
  let rest ← afterWord? "new".toList rest
  let type ← afterGap? rest
  if !type.isEmpty && type.all (fun char => !isGap char) then
    some (.new (String.ofList target) (String.ofList type))
  else none

/-- Read `x = y[i]`. -/
def readLoadArray? (text : List Char) : Option Shape := do
  let (target, rest) ← ident? text
  let rest ← afterEquals? rest
  let (base, rest) ← ident? rest
  let rest ← afterIndex? rest
  if rest.isEmpty then
    some (.loadArray (String.ofList target) (String.ofList base))
  else none

/-- Read `y[i] = x`. -/
def readStoreArray? (text : List Char) : Option Shape := do
  let (base, rest) ← ident? text
  let rest ← afterIndex? rest
  let source ← afterEquals? rest
  if isIdent source then
    some (.storeArray (String.ofList base) (String.ofList source))
  else none

/-- Read `x = y.f`. -/
def readLoadField? (text : List Char) : Option Shape := do
  let (target, rest) ← ident? text
  let rest ← afterEquals? rest
  let (qualifier, field) ← qualified? rest
  some (.loadField (String.ofList target) (String.ofList qualifier)
    (String.ofList field))

/-- Read `y.f = x`. -/
def readStoreField? (text : List Char) : Option Shape := do
  let (qualifier, field) ← qualified? (text.takeWhile isClassPart)
  let source ← afterEquals? (text.dropWhile isClassPart)
  if isIdent source then
    some (.storeField (String.ofList qualifier) (String.ofList field)
      (String.ofList source))
  else none

/-- Read `x = y`. -/
def readCopy? (text : List Char) : Option Shape := do
  let (target, rest) ← ident? text
  let source ← afterEquals? rest
  if isIdent source then
    some (.copy (String.ofList target) (String.ofList source))
  else none

/-- The readers of the eight forms. -/
def readers : List (List Char → Option Shape) :=
  [readReturn?, readInvoke?, readNew?, readLoadArray?, readStoreArray?,
    readLoadField?, readStoreField?, readCopy?]

/-- The shape of a text without surrounding blanks. -/
def read? (text : List Char) : Option Shape :=
  readers.findSome? fun reader => reader text

end Shape

end PointsTo
