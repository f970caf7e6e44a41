import PointsTo.Yaml.Token

/-!
# The node tree of a document

The tokens of a document form a tree of scalars, sequences and mappings.
Nodes may be named by an anchor and referred to by aliases; an alias carries
the node it refers to, unless that node is still being read when the alias
occurs.  Only the first document of a text is read.
-/

namespace PointsTo.Yaml

/-- A node of a document. -/
inductive Node where
  /-- A scalar with its explicit tag, if it has one. -/
  | scalar (tag : Option String) (plain : Bool) (text : String)
  | sequence (items : List Node)
  | mapping (entries : List (Node × Node))
  /-- A reference to a named node; there is no target inside that node. -/
  | alias (name : String) (target : Option Node)

namespace Node

instance : Inhabited Node := ⟨.scalar none true ""⟩

/-- The scalar that stands where nothing is written. -/
def empty : Node := .scalar none true ""

end Node

/-- The state of reading nodes. -/
structure NodeReader where
  stream : Stream
  /-- Named nodes, the latest first; those being read have no value yet. -/
  anchors : List (String × Option Node) := []
  /-- What the handles of tags stand for. -/
  handles : List (List Char × List Char) := []

/-- Computations that read nodes; failing means a malformed document. -/
abbrev ReadNode := StateT NodeReader Option

/-- The text that abbreviates the tags of the standard types. -/
def standardTag : List Char := "tag:yaml.org,2002:".toList

/-- The handles that every document knows. -/
def defaultHandles : List (List Char × List Char) :=
  [(['!'], ['!']), (['!', '!'], standardTag)]

namespace ReadNode

/-- The next token. -/
def peek : ReadNode Token := fun reader => do
  let (token, stream) ← reader.stream.peek
  some (token, { reader with stream })

/-- Take the next token. -/
def advance : ReadNode Unit :=
  modify fun reader => { reader with stream := reader.stream.advance }

/-- The malformed document. -/
def fail {α : Type} : ReadNode α := fun _ => none

/-- Give the name of an anchor a meaning. -/
def define (anchor : Option (List Char)) (node : Option Node) :
    ReadNode Unit :=
  match anchor with
  | none => pure ()
  | some name => modify fun reader =>
      { reader with anchors := (String.ofList name, node) :: reader.anchors }

/-- Give the entry of `name` that waits for its node that node. -/
def settled (name : String) (node : Node) :
    List (String × Option Node) → List (String × Option Node)
  | [] => []
  | (other, meaning) :: rest =>
      if other = name ∧ meaning.isNone then (name, some node) :: rest
      else (other, meaning) :: settled name node rest

/-- Read a collection, whose name has no meaning before its end. -/
def collection (anchor : Option (List Char)) (read : ReadNode Node) :
    ReadNode Node := do
  define anchor none
  let result ← read
  if let some name := anchor then
    modify fun reader =>
      { reader with
        anchors := settled (String.ofList name) result reader.anchors }
  return result

/-- The tag that a handle and a suffix denote, in short form. -/
def resolveTag (handle suffix : List Char) : ReadNode String := do
  let full ←
    if handle.isEmpty then pure suffix
    else
      match (← get).handles.lookup handle with
      | some replacement => pure (replacement ++ suffix)
      | none => fail
  if full.isEmpty then fail
  else if standardTag.isPrefixOf full then
    pure (String.ofList ('!' :: '!' :: full.drop standardTag.length))
  else pure (String.ofList full)

/-- The anchor and the tag in front of a node, in either order. -/
def properties : ReadNode (Option (List Char) × Option String) := do
  match ← peek with
  | .anchor name =>
      advance
      match ← peek with
      | .tag handle suffix =>
          advance
          return (some name, some (← resolveTag handle suffix))
      | _ => return (some name, none)
  | .tag handle suffix =>
      advance
      match ← peek with
      | .anchor name =>
          advance
          return (some name, some (← resolveTag handle suffix))
      | _ => return (none, some (← resolveTag handle suffix))
  | _ => return (none, none)

/-- The node that an alias refers to. -/
def aliased (name : List Char) : ReadNode Node := do
  match (← get).anchors.lookup (String.ofList name) with
  | some target => return .alias (String.ofList name) target
  | none => fail

/-- Whether a token ends a part of a block mapping entry. -/
def endsBlockPart : Token → Bool
  | .key | .value | .blockEnd => true
  | _ => false

mutual

/--
Read a node.  In a block context (`block`) block collections are allowed, and
after a key (`indentless`) also a sequence at the indentation of the key.
-/
def node (block indentless : Bool) : Nat → ReadNode Node
  | 0 => fail
  | fuel + 1 => do
      match ← peek with
      | .alias name =>
          advance
          aliased name
      | _ =>
          let (anchor, tag) ← properties
          let explicit := tag.filter (· ≠ "!")
          match ← peek with
          | .scalar plain text =>
              advance
              let result := Node.scalar explicit plain (String.ofList text)
              define anchor (some result)
              return result
          | .flowSequenceStart =>
              advance
              collection anchor (.sequence <$> flowItems true fuel)
          | .flowMappingStart =>
              advance
              collection anchor (.mapping <$> flowEntries true fuel)
          | .blockEntry =>
              if indentless then
                collection anchor (.sequence <$> indentlessItems fuel)
              else bare anchor explicit tag.isSome
          | .blockSequenceStart =>
              if block then do
                advance
                collection anchor (.sequence <$> blockItems fuel)
              else bare anchor explicit tag.isSome
          | .blockMappingStart =>
              if block then do
                advance
                collection anchor (.mapping <$> blockEntries fuel)
              else bare anchor explicit tag.isSome
          | _ => bare anchor explicit tag.isSome
where
  /-- A node that consists of its anchor or its tag alone. -/
  bare (anchor : Option (List Char)) (tag : Option String) (tagged : Bool) :
      ReadNode Node := do
    if anchor.isSome || tagged then
      let result := Node.scalar tag true ""
      define anchor (some result)
      return result
    else fail

/-- Read the entries of a block sequence. -/
def blockItems : Nat → ReadNode (List Node)
  | 0 => fail
  | fuel + 1 => do
      match ← peek with
      | .blockEntry =>
          advance
          let item ← match ← peek with
            | .blockEntry | .blockEnd => pure Node.empty
            | _ => node true false fuel
          return item :: (← blockItems fuel)
      | .blockEnd =>
          advance
          return []
      | _ => fail

/-- Read the entries of a sequence at the indentation of its key. -/
def indentlessItems : Nat → ReadNode (List Node)
  | 0 => fail
  | fuel + 1 => do
      match ← peek with
      | .blockEntry =>
          advance
          let next ← peek
          let item ←
            if next = .blockEntry || endsBlockPart next then pure Node.empty
            else node true false fuel
          return item :: (← indentlessItems fuel)
      | _ => return []

/-- Read the entries of a block mapping. -/
def blockEntries : Nat → ReadNode (List (Node × Node))
  | 0 => fail
  | fuel + 1 => do
      match ← peek with
      | .key =>
          advance
          let key ←
            if endsBlockPart (← peek) then pure Node.empty
            else node true true fuel
          let value ← match ← peek with
            | .value =>
                advance
                if endsBlockPart (← peek) then pure Node.empty
                else node true true fuel
            | _ => pure Node.empty
          return (key, value) :: (← blockEntries fuel)
      | .blockEnd =>
          advance
          return []
      | _ => fail

/-- Read the items of a flow sequence. -/
def flowItems (first : Bool) : Nat → ReadNode (List Node)
  | 0 => fail
  | fuel + 1 => do
      if (← peek) = .flowSequenceEnd then
        advance
        return []
      else
        if !first then
          match ← peek with
          | .flowEntry => advance
          | _ => fail
        match ← peek with
        | .flowSequenceEnd =>
            advance
            return []
        | .key =>
            advance
            let entry ← flowPair fuel
            return .mapping [entry] :: (← flowItems false fuel)
        | _ =>
            let item ← node false false fuel
            return item :: (← flowItems false fuel)

/-- Read a key and a value that form an item of a flow sequence. -/
def flowPair : Nat → ReadNode (Node × Node)
  | 0 => fail
  | fuel + 1 => do
      let key ← match ← peek with
        | .value | .flowEntry | .flowSequenceEnd =>
            advance
            pure Node.empty
        | _ => node false false fuel
      let value ← match ← peek with
        | .value =>
            advance
            match ← peek with
            | .flowEntry | .flowSequenceEnd => pure Node.empty
            | _ => node false false fuel
        | _ => pure Node.empty
      return (key, value)

/-- Read the entries of a flow mapping. -/
def flowEntries (first : Bool) : Nat → ReadNode (List (Node × Node))
  | 0 => fail
  | fuel + 1 => do
      if (← peek) = .flowMappingEnd then
        advance
        return []
      else
        if !first then
          match ← peek with
          | .flowEntry => advance
          | _ => fail
        match ← peek with
        | .flowMappingEnd =>
            advance
            return []
        | .key =>
            advance
            let key ← match ← peek with
              | .value | .flowEntry | .flowMappingEnd => pure Node.empty
              | _ => node false false fuel
            let value ← match ← peek with
              | .value =>
                  advance
                  match ← peek with
                  | .flowEntry | .flowMappingEnd => pure Node.empty
                  | _ => node false false fuel
              | _ => pure Node.empty
            return (key, value) :: (← flowEntries false fuel)
        | _ =>
            let key ← node false false fuel
            let _ ← peek
            return (key, .empty) :: (← flowEntries false fuel)

end

/-- Read the directives in front of a document. -/
def directives (versionSeen : Bool) : Nat → ReadNode Unit
  | 0 => fail
  | fuel + 1 => do
      match ← peek with
      | .version major minor =>
          if versionSeen || major ≠ 1 || minor ≠ 1 then fail
          else
            advance
            directives true fuel
      | .tagHandle handle replacement =>
          if ((← get).handles.lookup handle).isSome then fail
          else
            modify fun reader =>
              { reader with handles := (handle, replacement) :: reader.handles }
            advance
            directives versionSeen fuel
      | _ =>
          modify fun reader =>
            { reader with handles := reader.handles ++ defaultHandles }

/-- Whether a token ends a document that has no content. -/
def endsDocument : Token → Bool
  | .version .. | .tagHandle .. | .documentStart | .documentEnd
  | .streamEnd => true
  | _ => false

/-- Read the first document; there may be none. -/
def document (fuel : Nat) : ReadNode (Option Node) := do
  let _ ← peek
  advance
  match ← peek with
  | .streamEnd => return none
  | .version .. | .tagHandle .. | .documentStart =>
      directives false fuel
      match ← peek with
      | .documentStart =>
          advance
          let root ←
            if endsDocument (← peek) then pure Node.empty
            else node true false fuel
          let _ ← peek
          return some root
      | _ => fail
  | _ =>
      directives false fuel
      let root ← node true false fuel
      let _ ← peek
      return some root

end ReadNode

/-- What a text turns out to be. -/
inductive Document where
  | malformed
  /-- The text holds no document at all. -/
  | absent
  | root (node : Node)

/-- The first document of a text. -/
def Document.ofText (text : String) : Document :=
  let characters := text.toList
  if !characters.all isAllowed then .malformed
  else
    let characters :=
      if characters.head? = some byteOrderMark then characters.drop 1
      else characters
    let start : NodeReader := { stream := Stream.ofText characters }
    match (ReadNode.document (4 * characters.length + 16)).run start with
    | none => .malformed
    | some (none, _) => .absent
    | some (some node, _) => .root node

end PointsTo.Yaml
