import PointsTo.Proofs.Program.Signatures
import PointsTo.Proofs.Text.Numeral
import PointsTo.Taint.Description

/-!
# Validation of taint rules

A description denotes a rule if it names a method and a type of the program and
the slots are slots of the method.  Reading a list of descriptions keeps exactly
the rules that are denoted, in their order, and gives one warning for every other
description.  The slots of the rules that are kept are therefore slots of methods
of the program, and calls have variables in them.
-/

namespace PointsTo

open Checked

/-! ## Slots -/

namespace Slot

/-- The number of a slot. -/
def number : Slot → Int
  | .base => -1
  | .result => -2
  | .argument index => index

theorem ofInt?_eq_some_iff {given : Int} {slot : Slot} :
    ofInt? given = some slot ↔ slot.number = given := by
  constructor
  · intro known
    unfold ofInt? at known
    split at known <;> cases known <;> rfl
  · rintro rfl
    cases slot <;> rfl

/-- The spellings of a slot: the word for it, or a decimal numeral of its number
that fits in sixty-four bits. -/
inductive Written : String → Slot → Prop where
  | base : Written "base" .base
  | result : Written "result" .result
  | numeral {text : String} {slot : Slot}
      (written : Text.IsDecimal text.toList slot.number)
      (fits : Text.minInteger ≤ slot.number ∧
        slot.number ≤ Text.maxInteger) :
      Written text slot

theorem read_eq_ok_iff {text : Option String} {slot : Slot} :
    read text = .ok slot ↔
      ∃ spelling, text = some spelling ∧ Written spelling slot := by
  constructor
  · intro accepted
    unfold read at accepted
    split at accepted
    · cases accepted
    · cases accepted
      exact ⟨_, rfl, .base⟩
    · cases accepted
      exact ⟨_, rfl, .result⟩
    · split at accepted
      · rename_i known
        cases accepted
        rcases Option.bind_eq_some_iff.mp known with ⟨number, read, numbered⟩
        cases ofInt?_eq_some_iff.mp numbered
        rcases Text.decimal?_eq_some_iff.mp read with ⟨written, fits⟩
        exact ⟨_, rfl, .numeral written fits⟩
      · cases accepted
  · rintro ⟨spelling, rfl, written⟩
    cases written with
    | base => rfl
    | result => rfl
    | numeral written fits =>
        have known : (Text.decimal? spelling.toList).bind ofInt? =
            some slot := by
          rw [Text.decimal?_eq_some_iff.mpr ⟨written, fits⟩]
          exact ofInt?_eq_some_iff.mpr rfl
        unfold read
        split
        · contradiction
        · -- The words are no numerals.
          rename_i word
          cases word
          have noNumeral : Text.decimal? "base".toList = none := by decide
          rw [noNumeral] at known
          cases known
        · rename_i word
          cases word
          have noNumeral : Text.decimal? "result".toList = none := by decide
          rw [noNumeral] at known
          cases known
        · rename_i other
          cases other
          rw [known]

end Slot

namespace Method

/-- Methods that are not static have a base, those with a result type other than
`void` have a result, and there is an argument for every parameter type. -/
def HasSlot (method : Method) : Slot → Prop
  | .base => method.isStatic = false
  | .result => method.result ≠ .void
  | .argument index => index < method.paramTypes.length

theorem check_eq_ok_iff {method : Method} {slot checked : Slot} :
    slot.check method = .ok checked ↔ method.HasSlot slot ∧ slot = checked := by
  cases slot <;> simp only [Slot.check, HasSlot] <;> split <;> simp_all

/-- A text is the spelling of a slot of the method. -/
def FindsSlot (method : Method) (text : Option String) (slot : Slot) : Prop :=
  ∃ spelling, text = some spelling ∧ slot.Written spelling ∧
    method.HasSlot slot

theorem readSlot_eq_ok_iff {method : Method} {place : String}
    {text : Option String} {slot : Slot} :
    Program.readSlot method place text = .ok slot ↔
      method.FindsSlot text slot := by
  have bound : (Slot.read text).bind (Slot.check method) = .ok slot ↔
      ∃ read, Slot.read text = .ok read ∧ read.check method = .ok slot :=
    bind_eq_ok
  rw [Program.readSlot, mapError_eq_ok, bound]
  simp only [Slot.read_eq_ok_iff, check_eq_ok_iff]
  constructor
  · rintro ⟨_, ⟨spelling, given, written⟩, has, rfl⟩
    exact ⟨spelling, given, written, has⟩
  · rintro ⟨spelling, given, written, has⟩
    exact ⟨slot, ⟨spelling, given, written⟩, has, rfl⟩

end Method

/-! ## Rules that descriptions denote -/

section Rules

variable (program : Program)

/-- The method is found and the type is known. -/
def SourceSpec.Denotes (spec : SourceSpec) (rule : Source) : Prop :=
  ∃ method, program.findMethod spec.method = .ok method ∧
    program.type? spec.type = some rule.type ∧ rule.method = method.id

/-- The method is found and has a parameter with the index. -/
def SinkSpec.Denotes (spec : SinkSpec) (rule : Sink) : Prop :=
  ∃ method, program.findMethod spec.method = .ok method ∧
    (0 ≤ spec.index ∧ spec.index < method.paramTypes.length) ∧
    rule.method = method.id ∧ rule.index = spec.index

/-- The method is found, the type is known, both texts are spellings of slots of
the method, and the first slot is not the result. -/
def TransferSpec.Denotes (spec : TransferSpec) (rule : Transfer) : Prop :=
  ∃ method, program.findMethod spec.method = .ok method ∧
    program.type? spec.type = some rule.type ∧
    method.FindsSlot spec.source rule.source ∧
    method.FindsSlot spec.target rule.target ∧
    rule.source ≠ .result ∧ rule.method = method.id

variable {program}

theorem Program.ruleMethod_eq_ok_iff {signature : String} {method : Method} :
    program.ruleMethod signature = .ok method ↔
      program.findMethod signature = .ok method :=
  mapError_eq_ok

theorem Program.ruleType_eq_ok_iff {name : String} {type : Ty} :
    program.ruleType name = .ok type ↔ program.type? name = some type := by
  rw [ruleType]
  cases program.type? name <;> simp

theorem SourceSpec.readSource_eq_ok_iff {spec : SourceSpec} {rule : Source} :
    program.readSource spec = .ok rule ↔ spec.Denotes program rule := by
  simp only [Program.readSource, bind_eq_ok, Program.ruleMethod_eq_ok_iff,
    Program.ruleType_eq_ok_iff, pure_eq_ok]
  constructor
  · rintro ⟨method, found, type, known, rfl⟩
    exact ⟨method, found, known, rfl⟩
  · rintro ⟨method, found, known, named⟩
    exact ⟨method, found, rule.type, known, by rw [← named]⟩

theorem SinkSpec.readSink_eq_ok_iff {spec : SinkSpec} {rule : Sink} :
    program.readSink spec = .ok rule ↔ spec.Denotes program rule := by
  rcases spec with ⟨signature, index⟩
  simp only [Program.readSink, bind_eq_ok, Program.ruleMethod_eq_ok_iff,
    SinkSpec.Denotes]
  refine exists_congr fun method => and_congr_right fun found => ?_
  cases index with
  | ofNat index =>
      simp only [bind_eq_ok, Method.check_eq_ok_iff, pure_eq_ok]
      constructor
      · rintro ⟨_, ⟨has, rfl⟩, rfl⟩
        exact ⟨⟨Int.natCast_nonneg index, Int.ofNat_lt.mpr has⟩, rfl, rfl⟩
      · rintro ⟨⟨_, less⟩, named, same⟩
        exact ⟨.argument index, ⟨Int.ofNat_lt.mp less, rfl⟩,
          by rw [← named, ← same]⟩
  | negSucc index =>
      constructor
      · intro accepted
        cases accepted
      · rintro ⟨⟨nonnegative, _⟩, _⟩
        cases nonnegative

theorem TransferSpec.readTransfer_eq_ok_iff {spec : TransferSpec}
    {rule : Transfer} :
    program.readTransfer spec = .ok rule ↔ spec.Denotes program rule := by
  simp only [Program.readTransfer, bind_eq_ok, Program.ruleMethod_eq_ok_iff,
    Program.ruleType_eq_ok_iff, Method.readSlot_eq_ok_iff]
  constructor
  · rintro ⟨method, found, type, known, source, first, target, second, last⟩
    split at last
    · exact absurd last throw_bind_ne_ok
    · rename_i notResult
      cases last
      exact ⟨method, found, known, first, second, notResult, rfl⟩
  · rintro ⟨method, found, known, first, second, notResult, named⟩
    refine ⟨method, found, rule.type, known, rule.source, first, rule.target,
      second, ?_⟩
    rw [if_neg notResult, ← named]
    rfl

end Rules

/-! ## Lists of descriptions -/

/--
Going through a list of descriptions, each one that denotes a rule contributes
this rule, and each other one contributes one entry to the log.
-/
inductive Sifts {α β : Type} (denotes : α → β → Prop)
    (warns : α → Entry → Prop) : List α → List β → Log → Prop where
  | nil : Sifts denotes warns [] [] []
  | keep {spec : α} {rule : β} {specs : List α} {rules : List β} {log : Log}
      (valid : denotes spec rule)
      (only : ∀ other, denotes spec other → other = rule)
      (rest : Sifts denotes warns specs rules log) :
      Sifts denotes warns (spec :: specs) (rule :: rules) log
  | drop {spec : α} {entry : Entry} {specs : List α} {rules : List β}
      {log : Log} (invalid : ¬ ∃ rule, denotes spec rule)
      (warned : warns spec entry)
      (rest : Sifts denotes warns specs rules log) :
      Sifts denotes warns (spec :: specs) rules (entry :: log)

/-- The entry is a warning with the reason why a check rejects a description. -/
def Warns {α β : Type} (kind : String) (check : α → Except RuleError β)
    (spec : α) (entry : Entry) : Prop :=
  ∃ cause, check spec = .error cause ∧
    entry =
      { level := .warning
        message := s!"Dropping taint {kind} rule: {cause.message}" }

section Sifting

variable {α β : Type} {denotes : α → β → Prop}

theorem Sifts.exists_denotes {warns : α → Entry → Prop} {specs : List α}
    {rules : List β} {log : Log} (sifts : Sifts denotes warns specs rules log)
    {rule : β} (member : rule ∈ rules) : ∃ spec ∈ specs, denotes spec rule := by
  induction sifts with
  | nil => cases member
  | keep valid _ _ ih =>
      rcases List.mem_cons.mp member with rfl | later
      · exact ⟨_, .head _, valid⟩
      · rcases ih later with ⟨spec, listed, denoted⟩
        exact ⟨spec, .tail _ listed, denoted⟩
  | drop _ _ _ ih =>
      rcases ih member with ⟨spec, listed, denoted⟩
      exact ⟨spec, .tail _ listed, denoted⟩

/-- A check that accepts what is denoted sifts descriptions. -/
theorem sifts_kept (check : α → Except RuleError β)
    (accepts : ∀ spec rule, check spec = .ok rule ↔ denotes spec rule)
    (kind : String) (specs : List α) :
    Sifts denotes (Warns kind check) specs (Program.kept check specs)
      (Program.dropped kind check specs) := by
  induction specs with
  | nil => exact .nil
  | cons spec rest ih =>
      rw [Program.kept, Program.dropped, List.filterMap_cons,
        List.filterMap_cons]
      cases checked : check spec with
      | ok rule =>
          refine .keep ((accepts spec rule).mp checked) (fun other denoted => ?_)
            ih
          have again := (accepts spec other).mpr denoted
          rw [checked] at again
          exact (Except.ok.inj again).symm
      | error cause =>
          refine .drop ?_ ⟨cause, checked, rfl⟩ ih
          rintro ⟨rule, denoted⟩
          have accepted := (accepts spec rule).mpr denoted
          rw [checked] at accepted
          cases accepted

end Sifting

/-! ## Slots of methods and calls -/

/-- There is a receiver variable, a value to return, or a parameter. -/
def Method.Provides (method : Method) : Slot → Prop
  | .base => ∃ name, method.this? = some name
  | .result => method.result ≠ .void
  | .argument index => ∃ name, method.params[index]? = some name

/-- A call that passes a method what it takes and keeps what it returns. -/
structure Invoke.Completes (call : Invoke) (method : Method) : Prop where
  receiver : call.receiver.isSome = method.this?.isSome
  args : call.args.length = method.params.length
  result : call.result.isSome = decide (method.result ≠ .void)

/-- Calls have variables in the slots that the method provides. -/
theorem Invoke.Completes.exists_inSlot?_iff {call : Invoke} {method : Method}
    (completes : call.Completes method) {slot : Slot} :
    (∃ name, call.inSlot? slot = some name) ↔ method.Provides slot := by
  cases slot with
  | base =>
      simp only [inSlot?, Method.Provides, ← Option.isSome_iff_exists,
        completes.receiver]
  | result =>
      simp only [inSlot?, Method.Provides, ← Option.isSome_iff_exists,
        completes.result, decide_eq_true_eq]
  | argument index =>
      simp only [inSlot?, Method.Provides, ← Option.isSome_iff_exists,
        isSome_getElem?, completes.args]

namespace Program

theorem Built.length_params {program : Program} (built : program.Built)
    {id : MethodId} {method : Method}
    (found : program.method? id = some method) :
    method.params.length = method.paramTypes.length := by
  have each : program.Each fun method =>
      method.params.length = method.paramTypes.length := by
    refine built.each MethodHeading.length_params_declare ?_
    intro program method next edited counted
    rcases edited.heading with ⟨params, paramTypes, _⟩
    rw [params, paramTypes, counted]
  exact each.method found

/-- What is checked of a slot is that the method provides it. -/
theorem Built.hasSlot_iff {program : Program} (built : program.Built)
    {id : MethodId} {method : Method}
    (found : program.method? id = some method) {slot : Slot} :
    method.HasSlot slot ↔ method.Provides slot := by
  cases slot with
  | base => simp [Method.HasSlot, Method.Provides, Method.this?_eq_some_iff]
  | result => exact Iff.rfl
  | argument index =>
      simp only [Method.HasSlot, Method.Provides, ← Option.isSome_iff_exists,
        isSome_getElem?, built.length_params found]

theorem Coherent.method?_of_findMethod {program : Program}
    (coherent : program.Coherent) {text : String} {method : Method}
    (found : program.findMethod text = .ok method) :
    program.method? method.id = some method := by
  rcases findMethod_eq_ok_iff.mp found with ⟨owner, subsignature, _, present⟩
  rwa [(coherent.method present).2]

/-- The method is in the program and provides the slot, so that its calls have a
variable there. -/
def Offers (program : Program) (id : MethodId) (slot : Slot) : Prop :=
  ∃ method, program.method? id = some method ∧ method.Provides slot ∧
    ∀ call : Invoke, call.Completes method →
      ∃ name, call.inSlot? slot = some name

theorem Built.offers {program : Program} (built : program.Built)
    {text : String} {method : Method}
    (found : program.findMethod text = .ok method) {slot : Slot}
    (has : method.HasSlot slot) : program.Offers method.id slot := by
  have present := built.coherent.method?_of_findMethod found
  have provides := (built.hasSlot_iff present).mp has
  exact ⟨method, present, provides,
    fun _ completes => completes.exists_inSlot?_iff.mpr provides⟩

/-- The rules and the log that a description leads to. -/
structure Validates (program : Program) (spec : RulesSpec) (rules : Rules)
    (log : Log) : Prop where
  sifted : ∃ fromSources fromSinks fromTransfers : Log,
    log = fromSources ++ fromSinks ++ fromTransfers ∧
    Sifts (SourceSpec.Denotes program) (Warns "source" program.readSource)
      spec.sources rules.sources fromSources ∧
    Sifts (SinkSpec.Denotes program) (Warns "sink" program.readSink)
      spec.sinks rules.sinks fromSinks ∧
    Sifts (TransferSpec.Denotes program)
      (Warns "transfer" program.readTransfer) spec.transfers rules.transfers
      fromTransfers
  sources : ∀ rule ∈ rules.sources, ∃ method,
    program.method? rule.method = some method
  sinks : ∀ rule ∈ rules.sinks, ∃ index : Nat, rule.index = index ∧
    program.Offers rule.method (.argument index)
  transfers : ∀ rule ∈ rules.transfers, rule.source ≠ .result ∧
    program.Offers rule.method rule.source ∧
    program.Offers rule.method rule.target

end Program

/-- No sensitive argument has a negative index. -/
def Rules.NonNegative (rules : Rules) : Prop :=
  ∀ rule ∈ rules.sinks, 0 ≤ rule.index

/-- Descriptions with negative indices are dropped. -/
theorem Program.nonNegative_resolveRules (program : Program)
    (spec : RulesSpec) : (program.resolveRules spec).1.NonNegative := by
  intro rule member
  have sinks := sifts_kept program.readSink
    (fun _ _ => SinkSpec.readSink_eq_ok_iff) "sink" spec.sinks
  rcases sinks.exists_denotes member with
    ⟨_, _, _, _, ⟨nonnegative, _⟩, _, same⟩
  exact same ▸ nonnegative

/-- Rules with negative indices are never read from a text. -/
theorem Program.nonNegative_of_rulesOfText {program : Program} {text : String}
    {rules : Rules} {log : Log}
    (read : program.rulesOfText text = .ok (rules, log)) :
    rules.NonNegative := by
  unfold rulesOfText at read
  split at read
  · cases read
  · cases read
    intro rule member
    cases member
  · split at read
    · cases read
    · rename_i spec _
      have kept := program.nonNegative_resolveRules (spec.getD {})
      rwa [Except.ok.inj read] at kept

/-- Of the rules that a text describes, exactly the valid ones are kept, and
their slots are slots of methods of the program. -/
theorem rules_validated {program : Program} (made : program.Made)
    (spec : RulesSpec) :
    ∃ rules log, program.Validates spec rules log ∧
      program.resolveRules spec = (rules, log) ∧
      ∀ text node decoded, Yaml.Document.ofText text = .root node →
        Decoder.rulesSpec node = some decoded → decoded.getD {} = spec →
        program.rulesOfText text = .ok (rules, log) := by
  have built := made.built
  have sources := sifts_kept program.readSource
    (fun _ _ => SourceSpec.readSource_eq_ok_iff) "source" spec.sources
  have sinks := sifts_kept program.readSink
    (fun _ _ => SinkSpec.readSink_eq_ok_iff) "sink" spec.sinks
  have transfers := sifts_kept program.readTransfer
    (fun _ _ => TransferSpec.readTransfer_eq_ok_iff) "transfer" spec.transfers
  refine ⟨_, _, ⟨⟨_, _, _, rfl, sources, sinks, transfers⟩, ?_, ?_, ?_⟩, rfl,
    ?_⟩
  · intro rule member
    rcases sources.exists_denotes member with ⟨_, _, method, found, _, named⟩
    rw [named]
    exact ⟨method, built.coherent.method?_of_findMethod found⟩
  · intro rule member
    rcases sinks.exists_denotes member with
      ⟨spec, _, method, found, ⟨nonnegative, less⟩, named, same⟩
    obtain ⟨index, given⟩ := Int.eq_ofNat_of_zero_le nonnegative
    rw [given] at less
    rw [named]
    exact ⟨index, same.trans given,
      built.offers found (Int.ofNat_lt.mp less)⟩
  · intro rule member
    rcases transfers.exists_denotes member with
      ⟨_, _, method, found, _, ⟨_, _, _, first⟩, ⟨_, _, _, second⟩, notResult,
        named⟩
    rw [named]
    exact ⟨notResult, built.offers found first, built.offers found second⟩
  · rintro text node decoded document read rfl
    simp only [Program.rulesOfText, document, read]
    rfl

/-! ## Sample rules

The method `take` has every slot, while `drop` is static and has no result.  Of
the transfers, the first four are valid: slots are given by words and numerals,
with signs and leading zeros.
-/

namespace Ruled

def spec : ProgramSpec where
  classes :=
    [{ name := "A"
       methods :=
        [{ name := "take", params := ["A y"], result := "A" },
          { name := "drop", params := ["A y", "A z"], isStatic := true }] }]

def program : Program :=
  spec.load.toOption.getD {}

def take : String := "<A: A take(A)>"

def drop : String := "<A: void drop(A,A)>"

def transfer (method source target : String) : TransferSpec :=
  { method, source := some source, target := some target, type := "A" }

def rules : RulesSpec where
  sources := [⟨take, "A"⟩, ⟨take, "B"⟩, ⟨"<A: A give()>", "A"⟩]
  sinks := [⟨drop, 1⟩, ⟨drop, 2⟩, ⟨take, -1⟩]
  transfers :=
    [transfer take "base" "result", transfer take "-1" "-2",
      transfer take "+0" "base", transfer drop "01" "-0",
      transfer take "result" "base", transfer take "-3" "0",
      transfer take "9223372036854775808" "0", transfer take " 0" "base",
      transfer drop "0" "result", transfer drop "base" "0",
      transfer drop "0" "2", { transfer take "0" "0" with source := none }]

end Ruled

theorem rules_validated_ruled :
    Ruled.spec.load = .ok Ruled.program ∧
      ∃ rules log, Ruled.program.Validates Ruled.rules rules log ∧
        (rules.sources.length, rules.sinks.map Sink.index, log.length) =
          (1, [1], 12) ∧
        (rules.transfers.map fun rule => (rule.source, rule.target)) =
          [(.base, .result), (.base, .result), (.argument 0, .base),
            (.argument 1, .argument 0)] := by
  have loaded : Ruled.spec.load = .ok Ruled.program := by decide +kernel
  have counts : (fun outcome : Rules × Log => (outcome.1.sources.length,
      outcome.1.sinks.map Sink.index, outcome.2.length))
      (Ruled.program.resolveRules Ruled.rules) = (1, [1], 12) := by
    decide +kernel
  have slots : (fun outcome : Rules × Log =>
      outcome.1.transfers.map fun rule => (rule.source, rule.target))
      (Ruled.program.resolveRules Ruled.rules) =
        [(.base, .result), (.base, .result), (.argument 0, .base),
          (.argument 1, .argument 0)] := by decide +kernel
  rcases rules_validated (.inr ⟨Ruled.spec, loaded⟩) Ruled.rules with
    ⟨rules, log, validates, resolved, _⟩
  rw [resolved] at counts slots
  exact ⟨loaded, rules, log, validates, counts, slots⟩

end PointsTo
