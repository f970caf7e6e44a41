/-!
# Positions in a document

A cursor is a position in a document: the characters that follow it, and the
line and column it stands at.  Indentation is significant in documents, so
every step keeps track of the column.
-/

namespace PointsTo.Yaml

/-- Characters that end a line. -/
def isBreak (char : Char) : Bool :=
  char == '\n' || char == '\r' || char == '\u0085' || char == '\u2028' ||
    char == '\u2029'

/-- Characters that separate words on a line. -/
def isBlank (char : Char) : Bool :=
  char == ' ' || char == '\t'

/-- Characters of directive names, anchors and tag handles. -/
def isNameChar (char : Char) : Bool :=
  char.isAlphanum || char == '_' || char == '-'

/-- Whether a character may occur in a document at all. -/
def isAllowed (char : Char) : Bool :=
  let code := char.toNat
  code == 0x9 || code == 0xA || code == 0xD ||
    (0x20 ≤ code && code ≤ 0x7E) || code == 0x85 ||
    (0xA0 ≤ code && code ≤ 0xD7FF) || (0xE000 ≤ code && code ≤ 0xFFFD) ||
    0x10000 ≤ code

/-- The mark that may open a document or a line. -/
def byteOrderMark : Char := '\ufeff'

/-- A position in a document. -/
structure Cursor where
  /-- The characters that follow. -/
  rest : List Char
  /-- The number of characters before. -/
  index : Nat := 0
  line : Nat := 0
  column : Nat := 0
  /-- Whether only blanks have been passed since the last line end. -/
  freshLine : Bool := false

namespace Cursor

/-- The next character. -/
def next? (cursor : Cursor) : Option Char := cursor.rest.head?

/-- Whether the document ends here. -/
def atEnd (cursor : Cursor) : Bool := cursor.rest.isEmpty

/-- Whether the character at the given distance satisfies `test`. -/
def sees (cursor : Cursor) (distance : Nat) (test : Char → Bool) : Bool :=
  (cursor.rest[distance]?).any test

/-- Whether a blank follows. -/
def atBlank (cursor : Cursor) : Bool := cursor.sees 0 isBlank

/-- Whether the line ends here. -/
def atBreak (cursor : Cursor) : Bool := cursor.sees 0 isBreak

/-- Whether the given character follows. -/
def atChar (cursor : Cursor) (char : Char) : Bool :=
  cursor.sees 0 (· == char)

/-- Whether a word ends at the given distance. -/
def endsWord (cursor : Cursor) (distance : Nat) : Bool :=
  match cursor.rest[distance]? with
  | none => true
  | some char => isBlank char || isBreak char

/-- Whether the rest of the line is empty. -/
def endsLine (cursor : Cursor) : Bool := cursor.atEnd || cursor.atBreak

/-- Pass one character of the line. -/
def skip (cursor : Cursor) : Cursor :=
  match cursor.rest with
  | [] => cursor
  | char :: rest =>
      { rest
        index := cursor.index + 1
        line := cursor.line
        column := cursor.column + 1
        freshLine := cursor.freshLine && isBlank char }

/-- Pass several characters of the line. -/
def skipMany : Nat → Cursor → Cursor
  | 0, cursor => cursor
  | count + 1, cursor => skipMany count cursor.skip

/-- Pass the end of the line; a carriage return and line feed are one. -/
def skipBreak (cursor : Cursor) : Cursor :=
  match cursor.rest with
  | '\r' :: '\n' :: rest =>
      ⟨rest, cursor.index + 2, cursor.line + 1, 0, true⟩
  | char :: rest =>
      if isBreak char then ⟨rest, cursor.index + 1, cursor.line + 1, 0, true⟩
      else cursor
  | [] => cursor

/-- What the end of the line contributes to a scalar. -/
def breakText (cursor : Cursor) : List Char :=
  match cursor.next? with
  | some '\u2028' => ['\u2028']
  | some '\u2029' => ['\u2029']
  | some char => if isBreak char then ['\n'] else []
  | none => []

/-- Pass the characters of the line that satisfy `test`. -/
def skipWhile (test : Char → Bool) (cursor : Cursor) : Cursor :=
  skipMany (cursor.rest.takeWhile test).length cursor

/-- Pass the rest of the line. -/
def skipLine (cursor : Cursor) : Cursor :=
  cursor.skipWhile fun char => !isBreak char

/-- Pass blanks and line ends. -/
def skipSpace : Nat → Cursor → Cursor
  | 0, cursor => cursor
  | fuel + 1, cursor =>
      if cursor.atBlank then skipSpace fuel cursor.skip
      else if cursor.atBreak then skipSpace fuel cursor.skipBreak
      else cursor

/--
Pass a comment and the comments on the following lines, whatever blanks and
empty lines stand between them; stop at the end of the last comment's line.
-/
def skipComments : Nat → Cursor → Cursor
  | 0, cursor => cursor
  | fuel + 1, cursor =>
      let lineEnd := cursor.skipLine
      let following := lineEnd.skipSpace lineEnd.rest.length
      if following.atChar '#' then skipComments fuel following else lineEnd

/-- Whether a document marker stands here at the start of a line. -/
def atMarker (cursor : Cursor) (char : Char) : Bool :=
  cursor.column == 0 && cursor.sees 0 (· == char) &&
    cursor.sees 1 (· == char) && cursor.sees 2 (· == char) &&
    cursor.endsWord 3

/-- Whether the start or the end of a document is marked here. -/
def atDocumentMarker (cursor : Cursor) : Bool :=
  cursor.atMarker '-' || cursor.atMarker '.'

end Cursor

end PointsTo.Yaml
