import PointsTo.Text.Numeral
import PointsTo.Yaml.Cursor

/-!
# Scalar texts

Scalars are written plainly, between single or double quotes, or as an
indented block.  Line ends inside plain and quoted scalars are folded: a
single one reads as a space, and of several the first is dropped.  Each reader
takes a cursor at the start of the scalar and returns its text and the cursor
behind it; `none` means that the document is malformed.
-/

namespace PointsTo.Yaml

/-- What stands between two words of a scalar. -/
inductive Gap where
  | nothing
  | blanks (characters : List Char)
  /-- The first line end and the further ones. -/
  | lines (first more : List Char)

namespace Gap

/-- What a gap contributes to the text of the scalar. -/
def text : Gap → List Char
  | .nothing => []
  | .blanks characters => characters
  | .lines first more =>
      if first = ['\n'] then (if more.isEmpty then [' '] else more)
      else first ++ more

/-- Whether the gap crosses a line end. -/
def crossesLine : Gap → Bool
  | .lines .. => true
  | _ => false

/-- Extend a gap by a blank; blanks at the start of a line do not count. -/
def addBlank (gap : Gap) (char : Char) : Gap :=
  match gap with
  | .nothing => .blanks [char]
  | .blanks characters => .blanks (characters ++ [char])
  | .lines first more => .lines first more

/-- Extend a gap by a line end; blanks before it do not count. -/
def addBreak (gap : Gap) (lineEnd : List Char) : Gap :=
  match gap with
  | .lines first more => .lines first (more ++ lineEnd)
  | _ => .lines lineEnd []

end Gap

/--
Read the gap at the cursor.  A tabulator must not stand for indentation: in a
line that must be indented up to `indent` it is refused.
-/
def readGap (indent : Int) : Nat → Gap → Cursor → Option (Gap × Cursor)
  | 0, _, _ => none
  | fuel + 1, gap, cursor =>
      match cursor.next? with
      | none => some (gap, cursor)
      | some char =>
          if isBlank char then
            if gap.crossesLine && (cursor.column : Int) < indent && char == '\t'
            then none
            else readGap indent fuel (gap.addBlank char) cursor.skip
          else if isBreak char then
            readGap indent fuel (gap.addBreak cursor.breakText) cursor.skipBreak
          else some (gap, cursor)

/-- The characters of a plain word: up to a blank or an indicator. -/
def plainWord (inFlow : Bool) : List Char → List Char
  | [] => []
  | char :: rest =>
      if isBlank char || isBreak char then []
      else if char == ':' && rest.head?.all (fun next =>
          isBlank next || isBreak next) then []
      else if inFlow && [',', '?', '[', ']', '{', '}'].contains char then []
      else char :: plainWord inFlow rest

/-- Read a plain scalar; the lines after the first are indented. -/
def readPlain (indent : Int) (inFlow : Bool) :
    Nat → List Char → Gap → Cursor → Option (List Char × Gap × Cursor)
  | 0, _, _, _ => none
  | fuel + 1, text, gap, cursor =>
      if cursor.atDocumentMarker || cursor.atChar '#' then
        some (text, gap, cursor)
      else
        let word := plainWord inFlow cursor.rest
        let cursor := cursor.skipMany word.length
        let (text, gap) :=
          if word.isEmpty then (text, gap)
          else (text ++ gap.text ++ word, .nothing)
        if cursor.atBlank || cursor.atBreak then do
          let (gap, cursor) ←
            readGap indent (cursor.rest.length + 1) gap cursor
          if !inFlow && (cursor.column : Int) < indent then
            some (text, gap, cursor)
          else readPlain indent inFlow fuel text gap cursor
        else some (text, gap, cursor)

/-- The character that a one-letter escape denotes. -/
def escapeChar? : Char → Option Char
  | '0' => some '\x00'
  | 'a' => some '\x07'
  | 'b' => some '\x08'
  | 't' => some '\t'
  | '\t' => some '\t'
  | 'n' => some '\n'
  | 'v' => some '\x0b'
  | 'f' => some '\x0c'
  | 'r' => some '\r'
  | 'e' => some '\x1b'
  | ' ' => some ' '
  | '"' => some '"'
  | '\'' => some '\''
  | '\\' => some '\\'
  | 'N' => some '\u0085'
  | '_' => some '\u00a0'
  | 'L' => some '\u2028'
  | 'P' => some '\u2029'
  | _ => none

/-- How many hexadecimal digits follow an escape letter. -/
def escapeWidth? : Char → Option Nat
  | 'x' => some 2
  | 'u' => some 4
  | 'U' => some 8
  | _ => none

/-- The character with the code point that the digits denote. -/
def codePoint? (width : Nat) (text : List Char) : Option Char := do
  let digits := text.take width
  if digits.length = width then
    let code ← Text.digits? 16 digits
    if code < 0xD800 || (0xDFFF < code && code ≤ 0x10FFFF) then
      some (Char.ofNat code)
    else none
  else none

/-- Read an escape after its backslash. -/
def readEscape? (cursor : Cursor) : Option (Char × Cursor) := do
  let letter ← cursor.next?
  match escapeWidth? letter with
  | some width =>
      let char ← codePoint? width cursor.skip.rest
      some (char, cursor.skip.skipMany width)
  | none => return (← escapeChar? letter, cursor.skip)

/--
Read the characters of a quoted scalar up to a blank, a line end or the
closing quote.  The flag tells whether they end with an escaped line end.
-/
def readQuotedWord (quote : Char) :
    Nat → List Char → Cursor → Option (List Char × Bool × Cursor)
  | 0, _, _ => none
  | fuel + 1, word, cursor =>
      match cursor.next? with
      | none => some (word, false, cursor)
      | some char =>
          if isBlank char || isBreak char then some (word, false, cursor)
          else if char == quote then
            if quote == '\'' && cursor.sees 1 (· == '\'') then
              readQuotedWord quote fuel (word ++ ['\'']) cursor.skip.skip
            else some (word, false, cursor)
          else if quote == '"' && char == '\\' then
            if cursor.skip.atBreak then
              some (word, true, cursor.skip.skipBreak)
            else do
              let (escaped, cursor) ← readEscape? cursor.skip
              readQuotedWord quote fuel (word ++ [escaped]) cursor
          else readQuotedWord quote fuel (word ++ [char]) cursor.skip

/-- Read a quoted scalar after its opening quote. -/
def readQuoted (quote : Char) :
    Nat → List Char → Cursor → Option (List Char × Cursor)
  | 0, _, _ => none
  | fuel + 1, text, cursor =>
      if cursor.atDocumentMarker || cursor.atEnd then none
      else do
        let (word, escapedBreak, cursor) ←
          readQuotedWord quote (cursor.rest.length + 1) [] cursor
        let text := text ++ word
        if cursor.atChar quote then some (text, cursor.skip)
        else
          let start := if escapedBreak then Gap.lines [] [] else .nothing
          let (gap, cursor) ← readGap 0 (cursor.rest.length + 1) start cursor
          readQuoted quote fuel (text ++ gap.text) cursor

/-- What happens to the line ends after a block scalar. -/
inductive Chomping where
  | strip | clip | keep
deriving DecidableEq

/-- The chomping that an indicator asks for. -/
def chomping? : Char → Option Chomping
  | '-' => some .strip
  | '+' => some .keep
  | _ => none

/-- Read the chomping indicator of a block scalar, if there is one. -/
def readChomping (cursor : Cursor) : Option Chomping × Cursor :=
  match cursor.next?.bind chomping? with
  | some chomping => (some chomping, cursor.skip)
  | none => (none, cursor)

/--
Read the indentation indicator of a block scalar, if there is one; it must not
be zero.
-/
def readIndentation (cursor : Cursor) : Option (Nat × Cursor) :=
  match cursor.next? with
  | some char =>
      if char == '0' then none
      else if char.isDigit then
        some (char.toNat - '0'.toNat, cursor.skip)
      else some (0, cursor)
  | none => some (0, cursor)

/-- Read both indicators of a block scalar in either order. -/
def readBlockHeader (cursor : Cursor) : Option (Chomping × Nat × Cursor) :=
  match readChomping cursor with
  | (some chomping, cursor) => do
      let (increment, cursor) ← readIndentation cursor
      some (chomping, increment, cursor)
  | (none, cursor) => do
      let (increment, cursor) ← readIndentation cursor
      if increment = 0 then some (.clip, 0, cursor)
      else
        let (chomping, cursor) := readChomping cursor
        some (chomping.getD .clip, increment, cursor)

/--
Read empty lines and the indentation of the next line.  `indent` is the
indentation of the block, or zero while it is not known; the result also has
the largest column met.
-/
def readBlockBreaks (indent : Nat) :
    Nat → Nat → List Char → Cursor → Option (Nat × List Char × Cursor)
  | 0, _, _, _ => none
  | fuel + 1, widest, breaks, cursor =>
      let spaces := (cursor.rest.takeWhile (· == ' ')).length
      let wanted :=
        if indent = 0 then spaces else min spaces (indent - cursor.column)
      let cursor := cursor.skipMany wanted
      let widest := max widest cursor.column
      if (indent = 0 || cursor.column < indent) && cursor.atChar '\t' then none
      else if cursor.atBreak then
        readBlockBreaks indent fuel widest (breaks ++ cursor.breakText)
          cursor.skipBreak
      else some (widest, breaks, cursor)

/-- Read the lines of a block scalar with the given indentation. -/
def readBlockLines (literal : Bool) (indent : Nat) :
    Nat → List Char → List Char → List Char → Bool → Cursor →
      Option (List Char × List Char × List Char × Cursor)
  | 0, _, _, _, _, _ => none
  | fuel + 1, text, lineEnd, breaks, afterBlank, cursor =>
      if cursor.column = indent && !cursor.atEnd then do
        let startsBlank := cursor.atBlank
        let joint :=
          if !literal && !afterBlank && !startsBlank && lineEnd = ['\n'] then
            (if breaks.isEmpty then [' '] else [])
          else lineEnd
        let line := cursor.rest.takeWhile fun char => !isBreak char
        let cursor := cursor.skipMany line.length
        let (_, moreBreaks, next) ←
          readBlockBreaks indent (cursor.rest.length + 1) 0 []
            cursor.skipBreak
        readBlockLines literal indent fuel (text ++ joint ++ breaks ++ line)
          cursor.breakText moreBreaks startsBlank next
      else some (text, lineEnd, breaks, cursor)

/--
Read a block scalar after its indicator `|` or `>`; `parent` is the
indentation of the surrounding block.
-/
def readBlock (literal : Bool) (parent : Int) (cursor : Cursor) :
    Option (List Char × Cursor) := do
  let (chomping, increment, cursor) ← readBlockHeader cursor
  let cursor := cursor.skipWhile isBlank
  let cursor := if cursor.atChar '#' then cursor.skipLine else cursor
  if !cursor.endsLine then none
  else
    let cursor := cursor.skipBreak
    let given : Nat :=
      if increment = 0 then 0 else increment + (max parent 0).toNat
    let fuel := cursor.rest.length + 1
    let (widest, breaks, cursor) ← readBlockBreaks given fuel 0 [] cursor
    let indent : Nat :=
      if given = 0 then max (max widest (parent + 1).toNat) 1 else given
    let (text, lineEnd, breaks, cursor) ←
      readBlockLines literal indent fuel [] [] breaks false cursor
    let ending := match chomping with
      | .strip => []
      | .clip => lineEnd
      | .keep => lineEnd ++ breaks
    some (text ++ ending, cursor)

end PointsTo.Yaml
