import PointsTo.Proofs.Program.Grammar
import PointsTo.Proofs.Program.Meaning
import PointsTo.Proofs.Program.Naming

/-!
# Statements that texts express

Statements are printed in a canonical form.  A statement can be expressed in the
scope of a method if its names have the form of names, its types and methods can
be referred to, and its qualified names denote its fields.  The printed text of
such a statement spells its parts, and it is understood as the statement.
-/

namespace PointsTo

open Checked Text

/-- The shape of the text of a statement. -/
def Stmt.shape : Stmt → Shape
  | .new target type => .new target type.name
  | .copy target source => .copy target source
  | .loadField target base field => .loadField target base field.name
  | .loadStatic target field => .loadField target field.owner field.name
  | .storeField base field source => .storeField base field.name source
  | .storeStatic field source => .storeField field.owner field.name source
  | .loadArray target base => .loadArray target base
  | .storeArray base source => .storeArray base source
  | .invoke call =>
      .invoke call.result call.kind.name call.receiver call.ref.signature
        (", ".intercalate call.args)
  | .ret value => .ret value

/-! ## Names -/

/-- Identifiers as strings. -/
def IsIdent (name : String) : Prop :=
  Shape.isIdent name.toList = true

/-- Class names as strings. -/
def IsClassName (name : String) : Prop :=
  Shape.isClassName name.toList = true

theorem isIdent_ofList {name : List Char}
    (ident : Shape.isIdent name = true) : IsIdent (String.ofList name) := by
  rw [IsIdent, String.toList_ofList]
  exact ident

theorem isClassName_ofList {name : List Char}
    (named : Shape.isClassName name = true) :
    IsClassName (String.ofList name) := by
  rw [IsClassName, String.toList_ofList]
  exact named

/-- A text that ends with an identifier does not end with a blank. -/
theorem IsIdent.stops_reverse {name : String} (ident : IsIdent name)
    (front : List Char) : Stops isBlank (front ++ name.toList).reverse :=
  stops_reverse_name (isTypePart_of_isIdent ident) (ne_nil_of_isIdent ident)
    front

theorem CallKind.spelling_of_named? {name : String} {kind : CallKind}
    (found : CallKind.named? name = some kind) :
    kind.name.toList ≠ [] ∧
      ∀ char ∈ kind.name.toList, Shape.isWordChar char = true := by
  have spelled : CallKind.all.all (fun kind => !kind.name.toList.isEmpty &&
      kind.name.toList.all Shape.isWordChar) = true := by decide
  have known := List.all_eq_true.mp spelled kind
    (List.mem_of_find?_eq_some found)
  rw [Bool.and_eq_true, Bool.not_eq_true', List.isEmpty_eq_false_iff,
    List.all_eq_true] at known
  exact known

namespace Program

/-! ## Expressible statements -/

/-- The calls that a text can express. -/
structure ExpressesCall (program : Program) (call : Invoke) : Prop where
  result : ∀ name ∈ call.result, IsIdent name
  kind : CallKind.named? call.kind.name = some call.kind
  receiver : ∀ name ∈ call.receiver, IsIdent name
  ref : program.Refers call.ref
  name : IsIdent call.ref.name
  args : ∀ name ∈ call.args, IsIdent name
  balanced : call.receiver.isNone = decide (call.kind = .static)
  counted : call.args.length = call.ref.params.length

/-- The statements that a text can express in the scope of a method. -/
def Expresses (program : Program) (method : Method) : Stmt → Prop
  | .new target type => IsIdent target ∧ program.Denotes type
  | .copy target source => IsIdent target ∧ IsIdent source
  | .loadField target base field =>
      IsIdent target ∧ IsClassName base ∧ IsIdent field.name ∧
        program.access method base field.name = .ok (.ofVariable base field)
  | .loadStatic target field =>
      IsIdent target ∧ IsClassName field.owner ∧ IsIdent field.name ∧
        program.access method field.owner field.name = .ok (.ofClass field)
  | .storeField base field source =>
      IsClassName base ∧ IsIdent field.name ∧ IsIdent source ∧
        program.access method base field.name = .ok (.ofVariable base field)
  | .storeStatic field source =>
      IsClassName field.owner ∧ IsIdent field.name ∧ IsIdent source ∧
        program.access method field.owner field.name = .ok (.ofClass field)
  | .loadArray target base => IsIdent target ∧ IsIdent base
  | .storeArray base source => IsIdent base ∧ IsIdent source
  | .invoke call => program.ExpressesCall call
  | .ret value => ∀ name ∈ value, IsIdent name

/-! ## Arguments -/

theorem readArguments_map {gap : List Char}
    (blank : ∀ name : String, trim (gap ++ name.toList) = trim name.toList)
    {args : List String} (idents : ∀ name ∈ args, IsIdent name)
    (text : String) :
    readArguments text (args.map fun name => gap ++ name.toList) =
      .ok args := by
  induction args with
  | nil => rfl
  | cons name rest ih =>
      have ident : Shape.isIdent name.toList = true := idents name (.head _)
      rw [List.map_cons, readArguments, blank,
        trim_of_isIdent ident]
      simp only [ident, if_true,
        ih fun other later => idents other (.tail _ later),
        String.ofList_toList]
      rfl

theorem splitArguments_intercalate {args : List String}
    (idents : ∀ name ∈ args, IsIdent name) (text : String) :
    splitArguments text (", ".intercalate args) = .ok args := by
  cases args with
  | nil => rfl
  | cons first rest =>
      have solid : ∀ name ∈ first :: rest, ∀ char ∈ name.toList,
          isTypePart char = true := fun name listed =>
        isTypePart_of_isIdent (idents name listed)
      have present : ∀ name ∈ first :: rest, name.toList ≠ [] :=
        fun name listed => ne_nil_of_isIdent (idents name listed)
      have trimmed : trim (", ".intercalate (first :: rest)).toList =
          (", ".intercalate (first :: rest)).toList := by
        apply trim_eq_self
        · exact stops_intercalate (stops_isBlank (solid first (.head _)))
            (present first (.head _))
        · apply stops_reverse_intercalate
          intro name listed
          exact ⟨present name listed,
            stops_isBlank_reverse (solid name listed)⟩
      have pieces := splitWhen_intercalate
        (show ", ".toList = ',' :: [' '] from rfl) (by decide)
        fun name listed comma => by cases solid name listed ',' comma
      have spaced : ∀ name : String,
          trim ([' '] ++ name.toList) = trim name.toList := fun _ =>
        trim_cons_of_blank (by decide)
      have others := readArguments_map spaced
        (fun name later => idents name (.tail _ later)) text
      have ident : Shape.isIdent first.toList = true := idents first (.head _)
      rw [splitArguments, trimmed,
        if_neg fun empty => intercalate_ne_nil (present first (.head _))
          (List.isEmpty_iff.mp empty),
        pieces, readArguments, trim_of_isIdent ident]
      simp only [ident, if_true, others, String.ofList_toList]
      rfl

theorem isIdent_of_readArguments {text : String} {pieces : List (List Char)}
    {args : List String} (read : readArguments text pieces = .ok args) :
    ∀ name ∈ args, IsIdent name := by
  induction pieces generalizing args with
  | nil =>
      cases read
      intro name member
      cases member
  | cons piece rest ih =>
      simp only [readArguments] at read
      split at read
      · rename_i ident
        rw [bind_eq_ok] at read
        rcases read with ⟨names, later, same⟩
        cases same
        rintro name (_ | ⟨_, member⟩)
        · rw [IsIdent, String.toList_ofList]
          exact ident
        · exact ih later name member
      · cases read

theorem isIdent_of_splitArguments {text arguments : String}
    {args : List String} (split : splitArguments text arguments = .ok args) :
    ∀ name ∈ args, IsIdent name := by
  simp only [splitArguments] at split
  split at split
  · cases split
    intro name member
    cases member
  · exact isIdent_of_readArguments split

/-! ## Spelling -/

section Spelling

variable {program : Program} (wellNamed : program.WellNamed)

include wellNamed

theorem ExpressesCall.spells {call : Invoke}
    (expressed : program.ExpressesCall call) :
    Shape.Spells (Stmt.shape (.invoke call)) call.text.toList := by
  have spelled : ∀ {lead base : List Char},
      Shape.Assigns (call.result.map String.toList) lead →
      Shape.Receives (call.receiver.map String.toList) base →
      Shape.Spells (Stmt.shape (.invoke call))
        (lead ++ ("invoke".toList ++ (call.kind.name.toList ++ (" ".toList ++
          (base ++ (call.ref.signature.toList ++ ([] ++ '(' ::
            ((", ".intercalate call.args).toList ++ [')'])))))))) := by
    intro lead base assigns receives
    rcases exists_toList_signature wellNamed expressed.ref expressed.name with
      ⟨inside, closed, signed⟩
    rcases CallKind.spelling_of_named? expressed.kind with ⟨kinded, word⟩
    have oneLine : '\n' ∉ (", ".intercalate call.args).toList := by
      intro member
      rcases mem_intercalate member with between | ⟨name, listed, inside⟩
      · revert between
        decide
      · cases Shape.isIdentPart_of_mem (expressed.args name listed) '\n' inside
    have spelled := Shape.Spells.invoke assigns kinded word Shape.Gap.space
      (by decide) receives closed (show Shape.Gap [] by decide) oneLine
    rw [← signed] at spelled
    simp only [Option.map_map, Function.comp_def, String.ofList_toList,
      Option.map_id'] at spelled
    exact spelled
  rcases call with ⟨kind, ref, receiver, args, result⟩
  cases result with
  | none =>
      cases receiver with
      | none => simpa [Invoke.text] using spelled .none .none
      | some base =>
          simpa [Invoke.text] using
            spelled .none (.some (expressed.receiver base rfl))
  | some target =>
      have assigns := Shape.Assigns.some (expressed.result target rfl)
        Shape.Equals.spaced
      cases receiver with
      | none => simpa [Invoke.text] using spelled assigns .none
      | some base =>
          simpa [Invoke.text] using
            spelled assigns (.some (expressed.receiver base rfl))

theorem Expresses.spells {method : Method} {stmt : Stmt}
    (expressed : program.Expresses method stmt) :
    Shape.Spells stmt.shape stmt.text.toList := by
  cases stmt with
  | new target type =>
      rcases expressed with ⟨ident, denotes⟩
      have spelled := Shape.Spells.new ident Shape.Equals.spaced Shape.Gap.space (by decide)
        (denotes.name_ne_nil wellNamed) fun char member =>
          isGap_of_isTypePart (denotes.isTypePart wellNamed char member)
      simpa [Stmt.shape, Stmt.text, newText] using spelled
  | copy target source =>
      rcases expressed with ⟨ident, identSource⟩
      have spelled := Shape.Spells.copy ident Shape.Equals.spaced identSource
      simpa [Stmt.shape, Stmt.text] using spelled
  | loadField target base field =>
      rcases expressed with ⟨ident, named, identField, _⟩
      have spelled := Shape.Spells.loadField ident Shape.Equals.spaced named identField
      simpa [Stmt.shape, Stmt.text] using spelled
  | loadStatic target field =>
      rcases expressed with ⟨ident, named, identField, _⟩
      have spelled := Shape.Spells.loadField ident Shape.Equals.spaced named identField
      simpa [Stmt.shape, Stmt.text] using spelled
  | storeField base field source =>
      rcases expressed with ⟨named, identField, ident, _⟩
      have spelled := Shape.Spells.storeField named identField Shape.Equals.spaced ident
      simpa [Stmt.shape, Stmt.text] using spelled
  | storeStatic field source =>
      rcases expressed with ⟨named, identField, ident, _⟩
      have spelled := Shape.Spells.storeField named identField Shape.Equals.spaced ident
      simpa [Stmt.shape, Stmt.text] using spelled
  | loadArray target base =>
      rcases expressed with ⟨ident, identBase⟩
      have spelled := Shape.Spells.loadArray ident Shape.Equals.spaced identBase
        Shape.Index.star
      simpa [Stmt.shape, Stmt.text] using spelled
  | storeArray base source =>
      rcases expressed with ⟨identBase, ident⟩
      have spelled := Shape.Spells.storeArray identBase Shape.Index.star Shape.Equals.spaced
        ident
      simpa [Stmt.shape, Stmt.text] using spelled
  | invoke call => exact ExpressesCall.spells wellNamed expressed
  | ret value =>
      cases value with
      | none => exact .ret
      | some name =>
          have spelled := Shape.Spells.retValue Shape.Gap.space (by decide)
            (expressed name rfl)
          simpa [Stmt.shape, Stmt.text] using spelled

theorem Expresses.trim_text {method : Method} {stmt : Stmt}
    (expressed : program.Expresses method stmt) :
    trim stmt.text.toList = stmt.text.toList := by
  apply trim_eq_self
  · rcases (expressed.spells wellNamed).exists_ident with
      ⟨word, rest, whole, ident⟩
    rw [whole]
    exact (stops_isBlank (isTypePart_of_isIdent ident)).append
      (ne_nil_of_isIdent ident)
  · cases stmt with
    | new target type =>
        rw [Stmt.text, newText, String.toList_append]
        exact stops_reverse_name (expressed.2.isTypePart wellNamed)
          (expressed.2.name_ne_nil wellNamed) _
    | copy target source =>
        rw [Stmt.text, String.toList_append]
        exact IsIdent.stops_reverse expressed.2 _
    | loadField target base field =>
        rw [Stmt.text, String.toList_append]
        exact IsIdent.stops_reverse expressed.2.2.1 _
    | loadStatic target field =>
        rw [Stmt.text, String.toList_append]
        exact IsIdent.stops_reverse expressed.2.2.1 _
    | storeField base field source =>
        rw [Stmt.text, String.toList_append]
        exact IsIdent.stops_reverse expressed.2.2.1 _
    | storeStatic field source =>
        rw [Stmt.text, String.toList_append]
        exact IsIdent.stops_reverse expressed.2.2.1 _
    | loadArray target base =>
        rw [Stmt.text, String.toList_append]
        exact stops_reverse_append (by decide) (by decide)
    | storeArray base source =>
        rw [Stmt.text, String.toList_append]
        exact IsIdent.stops_reverse expressed.2 _
    | invoke call =>
        rw [Stmt.text, Invoke.text, String.toList_append]
        exact stops_reverse_append (by decide) (by decide)
    | ret value =>
        cases value with
        | none => decide
        | some name =>
            rw [Stmt.text, String.toList_append]
            exact IsIdent.stops_reverse (expressed name rfl) _

end Spelling

/-! ## Meaning -/

section Meaning

variable {program : Program} (wellNamed : program.WellNamed)

include wellNamed

theorem ExpressesCall.understandInvoke_eq {call : Invoke}
    (expressed : program.ExpressesCall call) (text : String) :
    program.understandInvoke text call.result call.kind.name call.receiver
      call.ref.signature (", ".intercalate call.args) = .ok call := by
  rw [understandInvoke, expressed.kind]
  simp only [readRef_signature wellNamed expressed.ref expressed.name,
    splitArguments_intercalate expressed.args, bind, Except.bind,
    expressed.balanced, expressed.counted, ne_eq, not_true, if_false]
  rfl

theorem Expresses.understand_shape {method : Method} {stmt : Stmt}
    (expressed : program.Expresses method stmt) (text : String) :
    program.understand method text stmt.shape = .ok stmt := by
  cases stmt with
  | new target type =>
      rw [Stmt.shape, understand, type?, expressed.2.readType?_name wellNamed]
  | copy | loadArray | storeArray | ret => rfl
  | loadField target base field =>
      rw [Stmt.shape, understand, expressed.2.2.2]
      rfl
  | loadStatic target field =>
      rw [Stmt.shape, understand, expressed.2.2.2]
      rfl
  | storeField base field source =>
      rw [Stmt.shape, understand, expressed.2.2.2]
      rfl
  | storeStatic field source =>
      rw [Stmt.shape, understand, expressed.2.2.2]
      rfl
  | invoke call =>
      rw [Stmt.shape, understand,
        ExpressesCall.understandInvoke_eq wellNamed expressed]
      rfl

/-- The text of a statement that can be expressed is read as the statement. -/
theorem Expresses.readStmt_text {method : Method} {stmt : Stmt}
    (expressed : program.Expresses method stmt) :
    program.readStmt method stmt.text = .ok (method.withStmt stmt) := by
  apply readStmt_eq_ok_iff.mpr
  refine ⟨stmt.shape, stmt, ?_, ?_, rfl⟩
  · rw [expressed.trim_text wellNamed]
    exact Shape.read?_eq_some_iff.mpr (expressed.spells wellNamed)
  · exact expressed.understand_shape wellNamed _

end Meaning

end Program

end PointsTo
