import PointsTo.Text.Printable

/-!
# Quoted texts

Diagnostics show names and statements between double quotes.  The quote and
the backslash are escaped, the usual control characters have their letter
escapes, and every other character that is not printable is written by its
code point in hexadecimal.
-/

namespace PointsTo.Text

/-- Lower-case hexadecimal digits of `number`, at least `width` of them. -/
def hexadecimal (width number : Nat) : List Char :=
  let digits := Nat.toDigits 16 number
  List.replicate (width - digits.length) '0' ++ digits

/-- The letter that escapes a character, if it has one. -/
def escapeLetter? : Char → Option Char
  | '"' => some '"'
  | '\\' => some '\\'
  | '\x07' => some 'a'
  | '\x08' => some 'b'
  | '\x0c' => some 'f'
  | '\n' => some 'n'
  | '\r' => some 'r'
  | '\t' => some 't'
  | '\x0b' => some 'v'
  | _ => none

/-- The form of one character inside a quoted text. -/
def escaped (char : Char) : List Char :=
  match escapeLetter? char with
  | some letter => ['\\', letter]
  | none =>
      let code := char.toNat
      if isPrintable char then [char]
      else if code < 0x80 then '\\' :: 'x' :: hexadecimal 2 code
      else if code < 0x10000 then '\\' :: 'u' :: hexadecimal 4 code
      else '\\' :: 'U' :: hexadecimal 8 code

/-- `text` between double quotes, with escapes where they are needed. -/
def quoted (text : String) : String :=
  String.ofList ('"' :: text.toList.flatMap escaped ++ ['"'])

end PointsTo.Text
