import PointsTo.Files
import PointsTo.Log
import PointsTo.Program.Signature
import PointsTo.Taint.Rules
import PointsTo.Text.Numeral
import PointsTo.Yaml.Record

/-!
# Reading taint rules

Taint rules are described by a document with three lists:

```
sources:
  - { method: "<Source: String get()>", type: String }
sinks:
  - { method: "<Sink: void take(String)>", index: 0 }
transfers:
  - { method: "<Util: String wrap(String)>", from: 0, to: result, type: String }
```

Rules that refer to unknown methods or types, or to slots that the method does
not have, are dropped with a warning.
-/

namespace PointsTo

open Text (quoted)

/-- The description of a source. -/
structure SourceSpec where
  method : String := ""
  type : String := ""

/-- The description of a sink. -/
structure SinkSpec where
  method : String := ""
  index : Int := 0

/-- The description of a transfer; slots are texts if they are scalars. -/
structure TransferSpec where
  method : String := ""
  source : Option String := none
  target : Option String := none
  type : String := ""

/-- The description of a list of rules. -/
structure RulesSpec where
  sources : List SourceSpec := []
  sinks : List SinkSpec := []
  transfers : List TransferSpec := []

namespace Decoder

open Yaml
open Yaml.Decoder

/-- Read the description of a source. -/
def sourceSpec : Decoder SourceSpec :=
  record {} fun spec key node =>
    match key with
    | "method" => text.set node spec fun method => { spec with method }
    | "type" => text.set node spec fun type => { spec with type }
    | _ => none

/-- Read the description of a sink. -/
def sinkSpec : Decoder SinkSpec :=
  record {} fun spec key node =>
    match key with
    | "method" => text.set node spec fun method => { spec with method }
    | "index" => int.set node spec fun index => { spec with index }
    | _ => none

/-- Read the description of a transfer. -/
def transferSpec : Decoder TransferSpec :=
  record {} fun spec key node =>
    match key with
    | "method" => text.set node spec fun method => { spec with method }
    | "from" => some { spec with source := node.scalarText? }
    | "to" => some { spec with target := node.scalarText? }
    | "type" => text.set node spec fun type => { spec with type }
    | _ => none

/-- Read the description of a list of rules. -/
def rulesSpec : Decoder RulesSpec :=
  record {} fun spec key node =>
    match key with
    | "sources" =>
        (list sourceSpec).set node spec fun sources => { spec with sources }
    | "sinks" => (list sinkSpec).set node spec fun sinks => { spec with sinks }
    | "transfers" =>
        (list transferSpec).set node spec fun transfers =>
          { spec with transfers }
    | _ => none

end Decoder

/-- Why a description of rules, or one rule, is rejected. -/
inductive RuleError where
  | notADocument
  | unreadable (name : String) (cause : FileError)
  | lookup (cause : Error)
  | negativeIndex (index : Int)
  | noBase (method : MethodId)
  | noResult (method : MethodId)
  | noArgument (method : MethodId) (index : Nat)
  | noSlot
  | badSlot (text : String)
  | fromResult (method : MethodId)
  /-- The cause, together with the slot that it concerns. -/
  | atSlot (place : String) (cause : RuleError)
deriving DecidableEq, Repr

/-- The wording of a rejection. -/
def RuleError.message : RuleError → String
  | .notADocument => "malformed taint configuration: yaml: not a list of rules"
  | .unreadable name cause =>
      "could not read taint config: " ++ cause.readMessage name
  | .lookup cause => cause.message
  | .negativeIndex index =>
      s!"malformed taint configuration: negative index {index}"
  | .noBase method =>
      s!"malformed taint configuration: static method {method.signature} has no base"
  | .noResult method =>
      s!"malformed taint configuration: {method.signature} has no result"
  | .noArgument method index =>
      s!"malformed taint configuration: {method.signature} has no argument {index}"
  | .noSlot => "malformed taint configuration: missing or non-scalar slot"
  | .badSlot text =>
      s!"malformed taint configuration: bad slot {quoted text}"
  | .fromResult method =>
      s!"{method.signature}: taint cannot flow out of the result"
  | .atSlot place cause => place ++ ": " ++ cause.message

namespace Slot

/-- The slot with the given number: `-1` is the base and `-2` the result. -/
def ofInt? : Int → Option Slot
  | .ofNat index => some (.argument index)
  | .negSucc 0 => some .base
  | .negSucc 1 => some .result
  | _ => none

/-- Read a slot from the text of a scalar. -/
def read (text : Option String) : Except RuleError Slot :=
  match text with
  | none => .error .noSlot
  | some "base" => .ok .base
  | some "result" => .ok .result
  | some text =>
      match (Text.decimal? text.toList).bind ofInt? with
      | some slot => .ok slot
      | none => .error (.badSlot text)

/-- Check that calls of a method have a slot. -/
def check (method : Method) (slot : Slot) : Except RuleError Slot :=
  match slot with
  | .base =>
      if method.isStatic then .error (.noBase method.id) else .ok slot
  | .result =>
      if method.result = .void then .error (.noResult method.id) else .ok slot
  | .argument index =>
      if index < method.paramTypes.length then .ok slot
      else .error (.noArgument method.id index)

end Slot

namespace Program

/-- The declared method that the signature of a rule denotes. -/
def ruleMethod (program : Program) (signature : String) :
    Except RuleError Method :=
  (program.findMethod signature).mapError .lookup

/-- The type that the name in a rule denotes. -/
def ruleType (program : Program) (name : String) : Except RuleError Ty :=
  match program.type? name with
  | some type => .ok type
  | none => .error (.lookup (.unknownQuotedType name))

/-- Check a source. -/
def readSource (program : Program) (spec : SourceSpec) :
    Except RuleError Source := do
  let method ← program.ruleMethod spec.method
  let type ← program.ruleType spec.type
  return { method := method.id, type }

/-- Check a sink. -/
def readSink (program : Program) (spec : SinkSpec) :
    Except RuleError Sink := do
  let method ← program.ruleMethod spec.method
  match spec.index with
  | .negSucc _ => throw (.negativeIndex spec.index)
  | .ofNat index =>
      let _ ← Slot.check method (.argument index)
      return { method := method.id, index := spec.index }

/-- Read a slot and check that the method has it. -/
def readSlot (method : Method) (place : String) (text : Option String) :
    Except RuleError Slot :=
  ((Slot.read text).bind (Slot.check method)).mapError (.atSlot place)

/-- Check a transfer. -/
def readTransfer (program : Program) (spec : TransferSpec) :
    Except RuleError Transfer := do
  let method ← program.ruleMethod spec.method
  let type ← program.ruleType spec.type
  let source ← readSlot method "from" spec.source
  let target ← readSlot method "to" spec.target
  if source = .result then throw (.fromResult method.id)
  return { method := method.id, source, target, type }

/-- The rules that pass a check, in order. -/
def kept {α β : Type} (check : α → Except RuleError β) (specs : List α) :
    List β :=
  specs.filterMap fun spec => (check spec).toOption

/-- One warning for every rule that does not pass a check. -/
def dropped {α β : Type} (kind : String) (check : α → Except RuleError β)
    (specs : List α) : Log :=
  specs.filterMap fun spec =>
    match check spec with
    | .ok _ => none
    | .error cause => some
        { level := .warning
          message := s!"Dropping taint {kind} rule: {cause.message}" }

/-- The valid rules of a description, and a warning for each of the others. -/
def resolveRules (program : Program) (spec : RulesSpec) : Rules × Log :=
  ({ sources := kept program.readSource spec.sources
     sinks := kept program.readSink spec.sinks
     transfers := kept program.readTransfer spec.transfers },
    dropped "source" program.readSource spec.sources ++
      dropped "sink" program.readSink spec.sinks ++
      dropped "transfer" program.readTransfer spec.transfers)

/-- Read taint rules from the text of their description. -/
def rulesOfText (program : Program) (text : String) :
    Except RuleError (Rules × Log) :=
  match Yaml.Document.ofText text with
  | .malformed => .error .notADocument
  | .absent => .ok ({}, [])
  | .root node =>
      match Decoder.rulesSpec node with
      | none => .error .notADocument
      | some spec => .ok (program.resolveRules (spec.getD {}))

/-- Read taint rules from a file. -/
def rulesOfFile (program : Program) (files : Files) (name : String) :
    Except RuleError (Rules × Log) :=
  match files.read name with
  | .error cause => .error (.unreadable name cause)
  | .ok text => program.rulesOfText text

end Program

end PointsTo
