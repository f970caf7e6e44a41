import PointsTo.Yaml.Value

/-!
# Reading records from nodes

Descriptions are read from node trees into records.  Every reader has three
outcomes: `none` if the node does not fit, `some none` if it denotes nothing,
and `some (some value)`.  Nothing leaves a field at its default, and a list
drops the items that are nothing.

The keys of a mapping must be distinct and known.  A merge key `<<` supplies
entries for the keys that the mapping does not have itself.
-/

namespace PointsTo.Yaml

/-- A reader of values of type `α`. -/
abbrev Decoder (α : Type) := Node → Option (Option α)

namespace Decoder

/-- Read a text; numbers and words count as what is written. -/
def text : Decoder String := fun node => do
  match ← node.target? with
  | .scalar tag plain written =>
      match ← Value.ofScalar? tag plain written with
      | .null => some none
      | _ => some (some written)
  | _ => none

/-- Further words for truth values, accepted where one is expected. -/
def truthWord? (word : String) : Option Bool :=
  if ["y", "Y", "yes", "Yes", "YES", "on", "On", "ON"].contains word then
    some true
  else if ["n", "N", "no", "No", "NO", "off", "Off", "OFF"].contains word then
    some false
  else none

/-- Read a truth value. -/
def bool : Decoder Bool := fun node => do
  let node ← node.target?
  match ← node.value? with
  | .null => some none
  | .bool value => some (some value)
  | .text word => (truthWord? word).map some
  | _ => none

/-- Read an integer of sixty-four bits. -/
def int : Decoder Int := fun node => do
  let node ← node.target?
  match ← node.value? with
  | .null => some none
  | .int value => (Text.fitting? value).map some
  | .real truncated => truncated.map some
  | _ => none

/-- Read the items that denote something. -/
def items {α : Type} (item : Decoder α) : List Node → Option (List α)
  | [] => some []
  | node :: rest => do
      let value ← item node
      let values ← items item rest
      some (value.toList ++ values)

/-- Read a list. -/
def list {α : Type} (item : Decoder α) : Decoder (List α) := fun node => do
  match ← node.target? with
  | .sequence nodes => (items item nodes).map some
  | node =>
      match ← node.value? with
      | .null => some none
      | _ => none

end Decoder

/-- How keys are compared: by kind and by what is written. -/
def keyMark : Node → Nat × String
  | .scalar _ _ text => (0, text)
  | .sequence _ => (1, "")
  | .mapping _ => (2, "")
  | .alias name _ => (3, name)

/-- Whether a key asks for merging. -/
def isMergeKey : Node → Bool
  | .scalar none true "<<" => true
  | .scalar (some "!!merge") _ "<<" => true
  | _ => false

/-- The own entries of a mapping with their keys as texts; keys that denote
nothing are passed over together with their values. -/
def ownEntries : List (Node × Node) → Option (List (String × Node))
  | [] => some []
  | (key, value) :: rest =>
      if isMergeKey key then ownEntries rest
      else do
        let name ← Decoder.text key
        let entries ← ownEntries rest
        some ((name.toList.map fun name => (name, value)) ++ entries)

/-- The mappings that a merge key refers to. -/
def mergeSources : Node → Option (List (List (Node × Node)))
  | .mapping entries => some [entries]
  | .alias _ (some (.mapping entries)) => some [entries]
  | .sequence nodes => nodes.mapM fun node =>
      match node with
      | .mapping entries => some entries
      | .alias _ (some (.mapping entries)) => some entries
      | _ => none
  | _ => none

/-- The first entries of all keys that are not known. -/
def unknownEntries (known : List String) :
    List (String × Node) → List (String × Node)
  | [] => []
  | (name, node) :: rest =>
      if known.contains name then unknownEntries known rest
      else (name, node) :: unknownEntries (name :: known) rest

/--
The entries of a mapping and of everything merged into it.  Entries whose key
is in `known` are passed over while merging; the result also has the keys that
are known afterwards.
-/
def mergedEntries : Nat → Option (List String) → List (Node × Node) →
    Option (List (String × Node) × List String)
  | 0, _, _ => none
  | fuel + 1, known, entries => do
      if !(entries.map fun (key, _) => keyMark key).Nodup then none
      else
        let own ← ownEntries entries
        let own :=
          match known with
          | none => own
          | some known => unknownEntries known own
        if known.isNone && !(own.map Prod.fst).Nodup then none
        else
          let known := known.getD [] ++ own.map Prod.fst
          match entries.find? fun (key, _) => isMergeKey key with
          | none => some (own, known)
          | some (_, source) => do
              let sources ← mergeSources source
              sources.foldlM
                (fun (collected, known) entries => do
                  let (more, known) ← mergedEntries fuel (some known) entries
                  some (collected ++ more, known))
                (own, known)

/-- How deep merge keys may refer to mappings with merge keys. -/
def mergeDepth : Nat := 1000

/--
Read a record: start from `default` and apply `field` to every entry.  `field`
fails on keys that the record does not have.
-/
def Decoder.record {α : Type} (default : α)
    (field : α → String → Node → Option α) : Decoder α := fun node => do
  match ← node.target? with
  | .mapping entries =>
      let (fields, _) ← mergedEntries mergeDepth none entries
      let result ← fields.foldlM (fun record (key, node) => field record key node)
        default
      some (some result)
  | node =>
      match ← node.value? with
      | .null => some none
      | _ => none

/-- Set a field unless the node denotes nothing. -/
def Decoder.set {α β : Type} (decoder : Decoder β) (node : Node) (record : α)
    (update : β → α) : Option α := do
  match ← decoder node with
  | none => some record
  | some value => some (update value)

end PointsTo.Yaml
