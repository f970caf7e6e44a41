import PointsTo.Text.Truncated
import PointsTo.Yaml.Node

/-!
# The values of scalars

A plain scalar may denote nothing, a truth value, an integer or a real number;
any other scalar is a text.  A tag states which of them is meant, and must
agree with what is written.
-/

namespace PointsTo.Yaml

/-- What a scalar denotes. -/
inductive Value where
  | null
  | bool (value : Bool)
  | int (value : Int)
  /-- A real number, by the integer it reads as. -/
  | real (truncated : Option Int)
  | text (value : String)

namespace Value

/-- The tag of a value. -/
def tag : Value → String
  | .null => "!!null"
  | .bool _ => "!!bool"
  | .int _ => "!!int"
  | .real _ => "!!float"
  | .text _ => "!!str"

/-- The words that denote a value. -/
def word? (text : String) : Option Value :=
  if ["", "~", "null", "Null", "NULL"].contains text then some .null
  else if ["true", "True", "TRUE"].contains text then some (.bool true)
  else if ["false", "False", "FALSE"].contains text then some (.bool false)
  else if [".nan", ".NaN", ".NAN", ".inf", ".Inf", ".INF", "+.inf", "+.Inf",
      "+.INF"].contains text then some (.real none)
  else if ["-.inf", "-.Inf", "-.INF"].contains text then
    some (.real (some Text.minInteger))
  else none

/-- The real number that a text denotes. -/
def real? (text : List Char) : Option Value := do
  let decimal ← Text.readDecimal? text
  let magnitude ← decimal.truncated?
  some (.real (Text.Decimal.integer? decimal.negative magnitude))

/-- An integer literal: signed in sixty-four bits, or unsigned in as many. -/
def literal? (text : List Char) : Option Value := do
  let value ← Text.plainLiteral? text
  if (Text.fitting? value).isSome then some (.int value)
  else if text.head?.any Char.isDigit && value < Nat.pow 2 64 then
    some (.int value)
  else none

/-- An integer whose digits carry a sign behind the mark of their base. -/
def innerSigned? (base : Nat) (text : List Char) : Option Value := do
  let (negative, digits) := Text.sign text
  let value := Text.signed negative (← Text.digits? base digits)
  return .int (← Text.fitting? value)

/-- An integer in binary or octal notation. -/
def marked? : List Char → Option Value
  | '0' :: 'b' :: rest => innerSigned? 2 rest
  | '0' :: 'o' :: rest => innerSigned? 8 rest
  | '-' :: '0' :: 'b' :: rest => innerSigned? 2 ('-' :: rest)
  | '-' :: '0' :: 'o' :: rest => innerSigned? 8 ('-' :: rest)
  | _ => none

/-- The number that a text denotes; underscores in it do not count. -/
def number? (text : List Char) : Option Value :=
  let plain := text.filter (· != '_')
  literal? plain <|> real? plain <|> marked? plain

/-- The real number of a text that starts with its point; underscores may only
separate digits. -/
def pointed? (text : List Char) : Option Value :=
  if Text.underscoresFit text then real? (text.filter (· != '_')) else none

/-- What a plain scalar denotes. -/
def ofPlain (text : String) : Value :=
  match word? text with
  | some value => value
  | none =>
      let found := match text.toList with
        | '.' :: rest => pointed? ('.' :: rest)
        | char :: rest =>
            if char.isDigit || char == '+' || char == '-' then
              number? (char :: rest)
            else none
        | [] => none
      found.getD (.text text)

/--
What a scalar denotes.  A tag other than that of texts must be the tag of what
is written; an integer may also be tagged as a real number.
-/
def ofScalar? (tag : Option String) (plain : Bool) (text : String) :
    Option Value :=
  match tag with
  | none => some (if plain then ofPlain text else .text text)
  | some tag =>
      if tag = "!!str" then some (.text text)
      else
        let value := ofPlain text
        if value.tag = tag then some value
        else match value with
          | .int number =>
              if tag = "!!float" then do
                real? (toString (← Text.fitting? number)).toList
              else none
          | _ => none

end Value

namespace Node

/-- The node itself, or the one an alias refers to. -/
def target? : Node → Option Node
  | .alias _ target => target
  | node => some node

/-- The value of a scalar node. -/
def value? : Node → Option Value
  | .scalar tag plain text => Value.ofScalar? tag plain text
  | _ => none

/-- The text of a scalar node, whatever it denotes; aliases have none. -/
def scalarText? : Node → Option String
  | .scalar _ _ text => some text
  | _ => none

end Node

end PointsTo.Yaml
