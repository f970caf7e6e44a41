import PointsTo.Yaml.Scalar

/-!
# Tokens of a document

A document is read as a stream of tokens.  Besides the tokens that are written
there are those that follow from the layout: the start and the end of block
collections, and the key marker of a mapping entry.  That a text is the key of
an entry only shows at the colon behind it; until then the stream remembers
where such a key may have started, and inserts the marker there.

Tokens are produced on demand.  A malformed place is noticed only when the
reader comes near it: two tokens beyond the one that is asked for.
-/

namespace PointsTo.Yaml

/-- A token of a document. -/
inductive Token where
  | streamStart | streamEnd
  | version (major minor : Nat)
  | tagHandle (handle replacement : List Char)
  | documentStart | documentEnd
  | blockSequenceStart | blockMappingStart | blockEnd
  | flowSequenceStart | flowSequenceEnd
  | flowMappingStart | flowMappingEnd
  | blockEntry | flowEntry | key | value
  | alias (name : List Char)
  | anchor (name : List Char)
  | tag (handle suffix : List Char)
  | scalar (plain : Bool) (text : List Char)
deriving DecidableEq

/-- A place where the key of a mapping entry may have started. -/
structure PossibleKey where
  /-- Whether there may still be a key. -/
  possible : Bool := false
  /-- Whether the layout demands a key there. -/
  required : Bool := false
  /-- The number of the token that would be the key. -/
  token : Nat := 0
  index : Nat := 0
  line : Nat := 0
  column : Nat := 0

/-- The state of reading tokens. -/
structure Stream where
  cursor : Cursor
  /-- Tokens that have been read but not taken. -/
  tokens : List Token := []
  /-- How many tokens have been taken. -/
  taken : Nat := 0
  started : Bool := false
  /-- The possible key of each open flow collection, the innermost first,
  and of the block context at last. -/
  keys : List PossibleKey := []
  /-- The column of the innermost block collection, or `-1`. -/
  indent : Int := -1
  /-- The columns of the surrounding block collections. -/
  indents : List Int := []
  /-- Whether a key may start at the cursor. -/
  keyAllowed : Bool := false

/-- The largest distance between the start of a key and its colon. -/
def keyReach : Nat := 1024

/-- The deepest nesting of collections. -/
def maxNesting : Nat := 10000

namespace Stream

/-- The stream of a document. -/
def ofText (text : List Char) : Stream :=
  { cursor := { rest := text } }

/-- Whether the cursor is inside a flow collection. -/
def inFlow (stream : Stream) : Bool := 1 < stream.keys.length

/-- Append a token. -/
def emit (stream : Stream) (token : Token) : Stream :=
  { stream with tokens := stream.tokens ++ [token] }

/-- Insert a token so that it gets the given number. -/
def emitAt (stream : Stream) (number : Nat) (token : Token) : Stream :=
  let place := number - stream.taken
  { stream with
    tokens := stream.tokens.take place ++ token :: stream.tokens.drop place }

/-- Move the cursor. -/
def moved (stream : Stream) (cursor : Cursor) : Stream :=
  { stream with cursor }

/-- Pass one character and append a token. -/
def emitChar (stream : Stream) (token : Token) : Stream :=
  (stream.moved stream.cursor.skip).emit token

/-- Allow or forbid a key at the cursor. -/
def allowKey (stream : Stream) (allowed : Bool) : Stream :=
  { stream with keyAllowed := allowed }

/-- Close the block collections that are indented deeper than `column`. -/
def closeBlocks (column : Int) : List Int → Stream → Stream
  | [], stream => stream
  | outer :: indents, stream =>
      if column < stream.indent then
        closeBlocks column indents
          ({ stream with indent := outer, indents }.emit .blockEnd)
      else stream

/-- Close the blocks that end at the given column; flow ignores columns. -/
def unroll (stream : Stream) (column : Int) : Stream :=
  if stream.inFlow then stream
  else closeBlocks column stream.indents stream

/-- Open a block collection at `column` unless it is open already. -/
def roll (stream : Stream) (column : Nat) (number : Option Nat)
    (token : Token) : Option Stream :=
  if stream.inFlow || (column : Int) ≤ stream.indent then some stream
  else if stream.indents.length + 1 > maxNesting then none
  else
    let opened :=
      { stream with
        indent := column, indents := stream.indent :: stream.indents }
    some (match number with
      | some number => opened.emitAt number token
      | none => opened.emit token)

/-- Replace the possible key of the innermost level. -/
def setKey (stream : Stream) (key : PossibleKey) : Stream :=
  { stream with keys := key :: stream.keys.drop 1 }

/-- The possible key of the innermost level. -/
def innerKey (stream : Stream) : PossibleKey :=
  stream.keys.head?.getD {}

/-- Give up the possible key of the innermost level. -/
def dropKey (stream : Stream) : Option Stream :=
  let key := stream.innerKey
  if key.possible && key.required then none
  else some (stream.setKey { key with possible := false })

/-- Remember that a key may start at the cursor. -/
def saveKey (stream : Stream) : Option Stream :=
  if stream.keyAllowed then do
    let cursor := stream.cursor
    let required := !stream.inFlow && stream.indent == cursor.column
    let dropped ← stream.dropKey
    some (dropped.setKey
      { possible := true
        required
        token := stream.taken + stream.tokens.length
        index := cursor.index
        line := cursor.line
        column := cursor.column })
  else some stream

/--
Whether a possible key can still be one: it must lie on one line and be short.
A required key that cannot be one any more is an error.
-/
def keyValid (stream : Stream) (key : PossibleKey) : Option Bool :=
  if !key.possible then some false
  else if key.line < stream.cursor.line ||
      key.index + keyReach < stream.cursor.index then
    if key.required then none else some false
  else some true

/-- Prepare for a directive, a document marker or the end. -/
def closeAll (stream : Stream) : Option Stream := do
  let dropped ← (stream.unroll (-1)).dropKey
  some (dropped.allowKey false)

/-- Pass blanks, comments and line ends in front of the next token. -/
def skipToToken : Nat → Stream → Stream
  | 0, stream => stream
  | fuel + 1, stream =>
      let cursor := stream.cursor
      let cursor :=
        if cursor.column = 0 && cursor.atChar byteOrderMark then cursor.skip
        else cursor
      let cursor := cursor.skipWhile fun char =>
        char == ' ' || ((stream.inFlow || !stream.keyAllowed) && char == '\t')
      let cursor :=
        if cursor.atChar '#' then cursor.skipComments cursor.rest.length
        else cursor
      if cursor.atBreak then
        skipToToken fuel
          { stream with
            cursor := cursor.skipBreak
            keyAllowed := stream.keyAllowed || !stream.inFlow }
      else stream.moved cursor

/-- Pass a comment on the line of the token that has just been read. -/
def skipLineComment (stream : Stream) : Stream :=
  let comment := stream.cursor.skipWhile isBlank
  if stream.tokens.getLast? = some .blockEntry || stream.cursor.freshLine ||
      !comment.atChar '#' then stream
  else stream.moved comment.skipLine

/-- Read the rest of a directive line. -/
def endDirective (cursor : Cursor) : Option Cursor :=
  let cursor := cursor.skipWhile isBlank
  let cursor := if cursor.atChar '#' then cursor.skipLine else cursor
  if cursor.endsLine then some cursor.skipBreak else none

/-- Read a number of a version, of at most two digits. -/
def readVersionNumber (cursor : Cursor) : Option (Nat × Cursor) := do
  let digits := cursor.rest.takeWhile Char.isDigit
  if digits.length > 2 then none
  else return (← Text.digits? 10 digits, cursor.skipMany digits.length)

/-- Characters of tags. -/
def isTagChar (char : Char) : Bool :=
  isNameChar char ||
    [';', '/', '?', ':', '@', '&', '=', '+', '$', ',', '.', '!', '~', '*',
      '\'', '(', ')', '[', ']'].contains char

/-- Read the rest of a tag or its replacement, with escapes resolved. -/
def readTagText : Nat → List Char → Cursor → Option (List Char × Cursor)
  | 0, text, cursor => some (text, cursor)
  | fuel + 1, text, cursor =>
      match cursor.next? with
      | some '%' => do
          let char ← codePoint? 2 cursor.skip.rest
          if char.toNat < 0x80 then
            readTagText fuel (text ++ [char]) (cursor.skipMany 3)
          else none
      | some char =>
          if isTagChar char then readTagText fuel (text ++ [char]) cursor.skip
          else some (text, cursor)
      | none => some (text, cursor)

/-- Read a tag handle: an exclamation mark, a name, and perhaps another. -/
def readHandle (cursor : Cursor) : Option (List Char × Cursor) :=
  if cursor.atChar '!' then
    let name := cursor.skip.rest.takeWhile isNameChar
    let after := cursor.skip.skipMany name.length
    if after.atChar '!' then some ('!' :: name ++ ['!'], after.skip)
    else some ('!' :: name, after)
  else none

/-- Read a directive. -/
def readDirective (cursor : Cursor) : Option (Token × Cursor) := do
  let name := cursor.skip.rest.takeWhile isNameChar
  let cursor := cursor.skip.skipMany name.length
  if name.isEmpty || !cursor.endsWord 0 then none
  else if name = "YAML".toList then
    let (major, cursor) ← readVersionNumber (cursor.skipWhile isBlank)
    if !cursor.atChar '.' then none
    else
      let (minor, cursor) ← readVersionNumber cursor.skip
      return (.version major minor, ← endDirective cursor)
  else if name = "TAG".toList then
    let (handle, cursor) ← readHandle (cursor.skipWhile isBlank)
    if handle.length ≠ 1 && handle.getLast? ≠ some '!' then none
    else if !cursor.atBlank then none
    else
      let cursor := cursor.skipWhile isBlank
      let (replacement, cursor) ← readTagText cursor.rest.length [] cursor
      if replacement.isEmpty || !cursor.endsWord 0 then none
      else return (.tagHandle handle replacement, ← endDirective cursor)
  else none

/-- Read the name of an anchor or an alias. -/
def readAnchor (cursor : Cursor) : Option (List Char × Cursor) :=
  let name := cursor.skip.rest.takeWhile isNameChar
  let cursor := cursor.skip.skipMany name.length
  if !name.isEmpty && (cursor.endsWord 0 ||
      cursor.sees 0 fun char =>
        ['?', ':', ',', ']', '}', '%', '@', '\x60'].contains char) then
    some (name, cursor)
  else none

/-- Read a tag. -/
def readTag (cursor : Cursor) : Option (Token × Cursor) := do
  let (token, cursor) ←
    if cursor.sees 1 (· == '<') then do
      let start := cursor.skip.skip
      let (suffix, cursor) ← readTagText start.rest.length [] start
      if suffix.isEmpty || !cursor.atChar '>' then none
      else some (Token.tag [] suffix, cursor.skip)
    else do
      let (handle, cursor) ← readHandle cursor
      if handle.length > 1 && handle.getLast? = some '!' then do
        let (suffix, cursor) ← readTagText cursor.rest.length [] cursor
        if suffix.isEmpty then none else some (Token.tag handle suffix, cursor)
      else do
        let (suffix, cursor) ←
          readTagText cursor.rest.length (handle.drop 1) cursor
        some (if suffix.isEmpty then Token.tag [] ['!']
          else Token.tag ['!'] suffix, cursor)
  if cursor.endsWord 0 then some (token, cursor) else none

/-- Read a scalar that may be a key. -/
def scalarToken (stream : Stream) (plain : Bool)
    (read : Cursor → Option (List Char × Cursor)) : Option Stream := do
  let saved ← stream.saveKey
  let (text, cursor) ← read saved.cursor
  some (((saved.allowKey false).moved cursor).emit (.scalar plain text))

/-- Read a plain scalar; behind a line end, a key may follow it. -/
def plainToken (stream : Stream) : Option Stream := do
  let saved ← stream.saveKey
  let (text, gap, cursor) ←
    readPlain (stream.indent + 1) stream.inFlow
      (saved.cursor.rest.length + 1) [] .nothing saved.cursor
  some (((saved.allowKey gap.crossesLine).moved cursor).emit
    (.scalar true text))

/-- Read a block scalar. -/
def blockToken (stream : Stream) (literal : Bool) : Option Stream := do
  let dropped ← stream.dropKey
  let (text, cursor) ←
    readBlock literal stream.indent dropped.cursor.skip
  some (((dropped.allowKey true).moved cursor).emit (.scalar false text))

/-- Open a flow collection. -/
def openFlow (stream : Stream) (token : Token) : Option Stream := do
  let saved ← stream.saveKey
  if saved.keys.length > maxNesting then none
  else
    let opened := { saved with keys := {} :: saved.keys }
    some ((opened.allowKey true).emitChar token)

/-- Close a flow collection. -/
def closeFlow (stream : Stream) (token : Token) : Option Stream := do
  let dropped ← stream.dropKey
  let closed :=
    if dropped.inFlow then { dropped with keys := dropped.keys.drop 1 }
    else dropped
  some ((closed.allowKey false).emitChar token)

/-- Read the indicator of a block sequence entry. -/
def entryToken (stream : Stream) : Option Stream := do
  let opened ←
    if stream.inFlow then some stream
    else if stream.keyAllowed then
      stream.roll stream.cursor.column none .blockSequenceStart
    else none
  let dropped ← opened.dropKey
  some ((dropped.allowKey true).emitChar .blockEntry)

/-- Read the indicator of an explicit key. -/
def keyToken (stream : Stream) : Option Stream := do
  let opened ←
    if stream.inFlow then some stream
    else if stream.keyAllowed then
      stream.roll stream.cursor.column none .blockMappingStart
    else none
  let dropped ← opened.dropKey
  some ((dropped.allowKey (!dropped.inFlow)).emitChar .key)

/-- Read the indicator of a value, which makes a possible key a key. -/
def valueToken (stream : Stream) : Option Stream := do
  let key := stream.innerKey
  if ← stream.keyValid key then
    let marked := stream.emitAt key.token .key
    let opened ← marked.roll key.column (some key.token) .blockMappingStart
    let used := opened.setKey { key with possible := false }
    some ((used.allowKey false).emitChar .value)
  else
    let opened ←
      if stream.inFlow then some stream
      else if stream.keyAllowed then
        stream.roll stream.cursor.column none .blockMappingStart
      else none
    let closed := opened.setKey { opened.innerKey with possible := false }
    some ((closed.allowKey (!closed.inFlow)).emitChar .value)

/-- Whether a plain scalar may start at the cursor. -/
def startsPlain (stream : Stream) : Bool :=
  let cursor := stream.cursor
  match cursor.next? with
  | none => false
  | some char =>
      if isBlank char || isBreak char then false
      else if char == '-' then !cursor.sees 1 isBlank
      else if char == '?' || char == ':' then
        !stream.inFlow && !cursor.endsWord 1
      else !([',', '[', ']', '{', '}', '#', '&', '*', '!', '|', '>', '\'',
        '"', '%', '@', '\x60'].contains char)

/-- Read the token at the cursor, which is not at a document marker. -/
def readToken (stream : Stream) (char : Char) : Option Stream :=
  let cursor := stream.cursor
  match char with
  | '[' => stream.openFlow .flowSequenceStart
  | '{' => stream.openFlow .flowMappingStart
  | ']' => stream.closeFlow .flowSequenceEnd
  | '}' => stream.closeFlow .flowMappingEnd
  | ',' => do
      let dropped ← stream.dropKey
      some ((dropped.allowKey true).emitChar .flowEntry)
  | '*' => do
      let saved ← stream.saveKey
      let (name, cursor) ← readAnchor cursor
      some (((saved.allowKey false).moved cursor).emit (.alias name))
  | '&' => do
      let saved ← stream.saveKey
      let (name, cursor) ← readAnchor cursor
      some (((saved.allowKey false).moved cursor).emit (.anchor name))
  | '!' => do
      let saved ← stream.saveKey
      let (token, cursor) ← readTag cursor
      some (((saved.allowKey false).moved cursor).emit token)
  | '\'' => stream.scalarToken false fun cursor =>
      readQuoted '\'' (cursor.rest.length + 1) [] cursor.skip
  | '"' => stream.scalarToken false fun cursor =>
      readQuoted '"' (cursor.rest.length + 1) [] cursor.skip
  | _ =>
      if char == '-' && cursor.endsWord 1 then stream.entryToken
      else if char == '?' && (stream.inFlow || cursor.endsWord 1) then
        stream.keyToken
      else if char == ':' && (stream.inFlow || cursor.endsWord 1) then
        stream.valueToken
      else if (char == '|' || char == '>') && !stream.inFlow then
        stream.blockToken (char == '|')
      else if stream.startsPlain then stream.plainToken
      else none

/-- Read the end of the document. -/
def readEnd (stream : Stream) : Option Stream := do
  let cursor := stream.cursor
  let ended :=
    if cursor.column = 0 then cursor
    else { cursor with column := 0, line := cursor.line + 1 }
  let closed ← (stream.moved ended).closeAll
  some (closed.emit .streamEnd)

/-- Read the next token, and those that the layout puts in front of it. -/
def fetch (stream : Stream) : Option Stream :=
  if !stream.started then
    some ({ stream with started := true, keys := [{}], keyAllowed := true }.emit
      .streamStart)
  else
    let stream := stream.skipToToken (stream.cursor.rest.length + 1)
    let stream := stream.unroll stream.cursor.column
    let cursor := stream.cursor
    match cursor.next? with
    | none => stream.readEnd
    | some char =>
        if cursor.column = 0 && char == '%' then do
          let closed ← stream.closeAll
          let (token, cursor) ← readDirective cursor
          some ((closed.moved cursor).emit token)
        else if cursor.atMarker '-' then do
          let closed ← stream.closeAll
          some ((closed.moved (cursor.skipMany 3)).emit .documentStart)
        else if cursor.atMarker '.' then do
          let closed ← stream.closeAll
          some ((closed.moved (cursor.skipMany 3)).emit .documentEnd)
        else (stream.readToken char).map skipLineComment

/--
Read tokens until the next one is certain: two more follow it, and it is not
the possible start of a key.
-/
def fill : Nat → Stream → Option Stream
  | 0, _ => none
  | fuel + 1, stream => do
      let key? := stream.keys.find? fun key =>
        key.possible && key.token = stream.taken
      let certain ←
        if stream.tokens.length ≤ 2 then some false
        else match key? with
          | none => some true
          | some key => (stream.keyValid key).map (!·)
      if certain then some stream
      else do
        let more ← stream.fetch
        fill fuel more

/-- The next token. -/
def peek (stream : Stream) : Option (Token × Stream) := do
  let filled ← stream.fill (stream.cursor.rest.length + 5)
  let token ← filled.tokens.head?
  some (token, filled)

/-- The stream behind the next token. -/
def advance (stream : Stream) : Stream :=
  { stream with
    tokens := stream.tokens.drop 1, taken := stream.taken + 1 }

end Stream

end PointsTo.Yaml
