/-!
# Numerals

Integers are written in two ways.  A *decimal* numeral is an optional sign and
decimal digits.  A *literal* may also name its base by `0x`, `0o`, `0b` or a
leading `0`, and may separate digits by underscores.  Both must fit in
sixty-four bits.
-/

namespace PointsTo.Text

/-- The least integer of sixty-four bits. -/
def minInteger : Int := -Nat.pow 2 63

/-- The greatest integer of sixty-four bits. -/
def maxInteger : Int := Nat.pow 2 63 - 1

/-- `number`, if it fits in sixty-four bits. -/
def fitting? (number : Int) : Option Int :=
  if minInteger ≤ number ∧ number ≤ maxInteger then some number else none

/-- The value of a digit: decimal digits, then letters of either case. -/
def digitValue? (char : Char) : Option Nat :=
  if '0' ≤ char ∧ char ≤ '9' then some (char.toNat - '0'.toNat)
  else if 'a' ≤ char ∧ char ≤ 'z' then some (char.toNat - 'a'.toNat + 10)
  else if 'A' ≤ char ∧ char ≤ 'Z' then some (char.toNat - 'A'.toNat + 10)
  else none

/-- Read digits of the given base after the digits read so far. -/
def digitsFrom? (base : Nat) : Nat → List Char → Option Nat
  | value, [] => some value
  | value, char :: rest =>
      match digitValue? char with
      | some digit =>
          if digit < base then digitsFrom? base (value * base + digit) rest
          else none
      | none => none

/-- The number written by a non-empty list of digits of the given base. -/
def digits? (base : Nat) (text : List Char) : Option Nat :=
  if text.isEmpty then none else digitsFrom? base 0 text

/-- Split off a sign; `true` stands for minus. -/
def sign : List Char → Bool × List Char
  | '-' :: rest => (true, rest)
  | '+' :: rest => (false, rest)
  | text => (false, text)

/-- The number with the given sign and magnitude. -/
def signed (negative : Bool) (magnitude : Nat) : Int :=
  if negative then -magnitude else magnitude

/-- The value of a decimal numeral of sixty-four bits. -/
def decimal? (text : List Char) : Option Int := do
  let (negative, magnitude) := sign text
  fitting? (signed negative (← digits? 10 magnitude))

/-- The base that a literal names, and its digits. -/
def literalBase : List Char → Nat × List Char
  | '0' :: mark :: first :: rest =>
      if mark = 'b' ∨ mark = 'B' then (2, first :: rest)
      else if mark = 'o' ∨ mark = 'O' then (8, first :: rest)
      else if mark = 'x' ∨ mark = 'X' then (16, first :: rest)
      else (8, mark :: first :: rest)
  | '0' :: rest => (8, rest)
  | text => (10, text)

/-- The magnitude of an unsigned literal without underscores. -/
def magnitude? (text : List Char) : Option Nat :=
  if text.isEmpty then none
  else
    let (base, digits) := literalBase text
    digitsFrom? base 0 digits

/-- The value of a literal without underscores, of any size. -/
def plainLiteral? (text : List Char) : Option Int := do
  let (negative, magnitude) := sign text
  return signed negative (← magnitude? magnitude)

/--
Whether underscores stand only between digits, or between the mark of the base
and a digit.  `afterDigit` tells whether an underscore may come next.
-/
def underscoresFrom (base : Nat) : Bool → List Char → Bool
  | _, [] => true
  | afterDigit, '_' :: rest =>
      match rest with
      | next :: _ =>
          afterDigit && next != '_' &&
            (digitValue? next).any (fun digit => digit < max base 10) &&
            underscoresFrom base false rest
      | [] => false
  | _, char :: rest =>
      underscoresFrom base
        ((digitValue? char).any (fun digit => digit < max base 10)) rest

/-- Whether the underscores of an unsigned literal are well placed. -/
def underscoresFit (text : List Char) : Bool :=
  match literalBase text with
  | (10, digits) => underscoresFrom 10 false digits
  | (base, digits) => underscoresFrom base true digits

/-- The value of a literal of sixty-four bits, with underscores. -/
def literal? (text : List Char) : Option Int := do
  let (negative, magnitude) := sign text
  if underscoresFit magnitude then
    let value ← magnitude? (magnitude.filter (· != '_'))
    fitting? (signed negative value)
  else none

end PointsTo.Text
