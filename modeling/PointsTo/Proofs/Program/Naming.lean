import PointsTo.Program.Signature
import PointsTo.Proofs.Checked
import PointsTo.Proofs.Program.Lexis

/-!
# Types and signatures are read back

A type that a text denotes is a primitive type, a class of the program or an
array of such types, and reading the name of such a type yields the type itself.
The same holds for references to methods, as long as the names in them have the
form of names: the marks that a signature is cut at do not occur inside of its
parts.
-/

namespace PointsTo

open Checked Text

/-! ## Names without blanks -/

/-- Characters of type names. -/
def isTypePart (char : Char) : Bool :=
  Shape.isClassPart char || char == '[' || char == ']'

/-- Letters and digits are not among the blanks. -/
theorem isBlank_of_isAlphanum {char : Char}
    (letter : char.isAlphanum = true) : isBlank char = false := by
  change ((decide (65 ≤ char.val ∧ char.val ≤ 90) ||
    decide (97 ≤ char.val) && decide (char.val ≤ 122)) ||
      decide (48 ≤ char.val) && decide (char.val ≤ 57)) = true at letter
  simp only [Bool.or_eq_true, Bool.and_eq_true, decide_eq_true_eq,
    UInt32.le_iff_toNat_le] at letter
  change ((65 ≤ char.toNat ∧ char.toNat ≤ 90) ∨
    (97 ≤ char.toNat ∧ char.toNat ≤ 122)) ∨
      (48 ≤ char.toNat ∧ char.toNat ≤ 57) at letter
  apply Bool.eq_false_iff.mpr
  intro blank
  simp only [isBlank, Bool.or_eq_true, Bool.and_eq_true, decide_eq_true_eq,
    beq_iff_eq] at blank
  omega

theorem isBlank_of_isTypePart {char : Char} (part : isTypePart char = true) :
    isBlank char = false := by
  simp only [isTypePart, Shape.isClassPart, Shape.isIdentPart,
    Shape.isWordChar, Bool.or_eq_true, beq_iff_eq] at part
  rcases part with (((((letter | rfl) | rfl) | rfl) | rfl) | rfl)
  · exact isBlank_of_isAlphanum letter
  all_goals decide

/-- Names of types have no gaps. -/
theorem isGap_of_isTypePart {char : Char} (part : isTypePart char = true) :
    isGap char = false := by
  apply Bool.eq_false_iff.mpr
  intro gap
  simp only [isGap, Bool.or_eq_true, beq_iff_eq] at gap
  rcases gap with (((rfl | rfl) | rfl) | rfl) | rfl <;> cases part

/-- A name does not begin with a blank. -/
theorem stops_isBlank {name : List Char}
    (parts : ∀ char ∈ name, isTypePart char = true) : Stops isBlank name := by
  intro char first
  exact isBlank_of_isTypePart (parts char (List.mem_of_mem_head? first))

/-- Nor does it end with one. -/
theorem stops_isBlank_reverse {name : List Char}
    (parts : ∀ char ∈ name, isTypePart char = true) :
    Stops isBlank name.reverse := by
  apply stops_isBlank
  intro char member
  exact parts char (List.mem_reverse.mp member)

/-- A text does not end with a blank if it ends with a name. -/
theorem stops_reverse_name {name : List Char}
    (parts : ∀ char ∈ name, isTypePart char = true) (present : name ≠ [])
    (front : List Char) : Stops isBlank (front ++ name).reverse :=
  stops_reverse_append (stops_isBlank_reverse parts) present

/-- Names without blanks are not trimmed. -/
theorem trim_of_isTypePart {name : List Char}
    (parts : ∀ char ∈ name, isTypePart char = true) :
    trim name = name :=
  trim_eq_self (stops_isBlank parts) (stops_isBlank_reverse parts)

/-- Class names are names of types. -/
theorem isTypePart_of_isClassName {name : List Char}
    (named : Shape.isClassName name = true) :
    ∀ char ∈ name, isTypePart char = true := by
  intro char member
  rw [isTypePart, Shape.isClassPart_of_mem named char member]
  rfl

theorem isTypePart_of_isIdent {name : List Char}
    (ident : Shape.isIdent name = true) :
    ∀ char ∈ name, isTypePart char = true :=
  isTypePart_of_isClassName (Shape.isClassName_of_isIdent ident)

/-- Identifiers are not trimmed. -/
theorem trim_of_isIdent {name : List Char}
    (ident : Shape.isIdent name = true) : trim name = name :=
  trim_of_isTypePart (isTypePart_of_isIdent ident)

theorem ne_nil_of_isClassName {name : List Char}
    (named : Shape.isClassName name = true) : name ≠ [] := by
  rintro rfl
  cases named

theorem ne_nil_of_isIdent {name : List Char}
    (ident : Shape.isIdent name = true) : name ≠ [] :=
  ne_nil_of_isClassName (Shape.isClassName_of_isIdent ident)

/-- The name of a class does not end in brackets. -/
theorem beforeBrackets?_of_isClassName {name : List Char}
    (named : Shape.isClassName name = true) :
    beforeBrackets? name = none := by
  unfold beforeBrackets?
  split
  · rename_i before shape
    have member : ']' ∈ name := by
      rw [← List.mem_reverse, shape]
      exact .head _
    cases Shape.isClassPart_of_mem named ']' member
  · rfl

theorem beforeBrackets?_eq_some {text element : List Char}
    (found : beforeBrackets? text = some element) :
    text = element ++ ['[', ']'] := by
  unfold beforeBrackets? at found
  split at found
  · rename_i before shape
    cases found
    rw [← List.reverse_inj, shape]
    simp
  · cases found

/-- Brackets are taken off an array type one pair at a time. -/
theorem beforeBrackets?_append (element : List Char) :
    beforeBrackets? (element ++ "[]".toList) = some element := by
  simp [beforeBrackets?]

/-! ## Types -/

theorem isClassName_prim (kind : Prim) :
    Shape.isClassName kind.name.toList = true := by
  cases kind <;> decide

namespace Program

/-- All class names have the form of class names. -/
def WellNamed (program : Program) : Prop :=
  ∀ cls ∈ program.declarations, Shape.isClassName cls.name.toList = true

/-- The types that texts denote.  A class that is called like a primitive type
is not denoted by its name. -/
inductive Denotes (program : Program) : Ty → Prop where
  | prim (kind : Prim) : Denotes program (.prim kind)
  | cls {cls : Class} (declared : program.class? cls.name = some cls)
      (proper : Prim.named? cls.name = none) :
      Denotes program (.cls cls.name)
  | array {element : Ty} (denotes : Denotes program element) :
      Denotes program (.array element)

variable {program : Program}

theorem name_of_class? {name : String} {cls : Class}
    (found : program.class? name = some cls) : cls.name = name := by
  simpa using List.find?_some found

/-- The names of declared classes have the form of class names. -/
theorem WellNamed.of_class? (wellNamed : program.WellNamed) {name : String}
    {cls : Class} (found : program.class? name = some cls) :
    Shape.isClassName name.toList = true := by
  rw [← name_of_class? found]
  exact wellNamed cls (List.mem_of_find?_eq_some found)

/-- No class has a comma in its name. -/
theorem WellNamed.class?_eq_none (wellNamed : program.WellNamed)
    {name : String} (comma : ',' ∈ name.toList) : program.class? name = none := by
  cases found : program.class? name with
  | none => rfl
  | some cls =>
      cases Shape.isClassPart_of_mem (wellNamed.of_class? found) ',' comma

/-- A name without brackets is that of a primitive type or of a declared class.
-/
theorem denotes_of_simpleType? {name : String} {type : Ty}
    (found : program.simpleType? name = some type) : program.Denotes type := by
  unfold simpleType? at found
  split at found
  · cases found
    exact .prim _
  · rename_i proper
    rcases Option.map_eq_some_iff.mp found with ⟨cls, declared, rfl⟩
    rw [← name_of_class? declared] at proper declared
    exact .cls declared proper

theorem readType?_of_array {text element : List Char}
    (found : beforeBrackets? (trim text) = some element) :
    program.readType? text = (program.readType? element).map .array := by
  rw [readType?]
  split
  · rename_i other again
    rw [Option.some.inj (found.symm.trans again)]
  · rename_i absent
    rw [found] at absent
    cases absent

theorem readType?_of_simple {text : List Char}
    (absent : beforeBrackets? (trim text) = none) :
    program.readType? text =
      program.simpleType? (String.ofList (trim text)) := by
  rw [readType?]
  split
  · rename_i other found
    rw [absent] at found
    cases found
  · rfl

/-- No type name contains a comma. -/
theorem WellNamed.readType?_eq_none (wellNamed : program.WellNamed)
    {text : List Char} (comma : ',' ∈ text) : program.readType? text = none := by
  induction text using Program.readType?.induct with
  | case1 text element found shorter ih =>
      rw [readType?_of_array found, ih, Option.map_none]
      rw [← mem_trim_iff (by decide), beforeBrackets?_eq_some found,
        List.mem_append] at comma
      exact comma.resolve_right (by decide)
  | case2 text absent =>
      rw [← mem_trim_iff (by decide),
        ← String.toList_ofList (l := trim text)] at comma
      rw [readType?_of_simple absent, simpleType?]
      split
      · rename_i kind named
        have same : kind.name = String.ofList (trim text) := by
          simpa using List.find?_some named
        rw [← same] at comma
        cases Shape.isClassPart_of_mem (isClassName_prim kind) ',' comma
      · rw [wellNamed.class?_eq_none comma, Option.map_none]

/-- Whatever is read as a type is a type of the program. -/
theorem denotes_of_readType? {text : List Char} {type : Ty}
    (read : program.readType? text = some type) : program.Denotes type := by
  induction text using Program.readType?.induct generalizing type with
  | case1 text element found shorter ih =>
      rw [readType?_of_array found] at read
      rcases Option.map_eq_some_iff.mp read with ⟨type, inner, rfl⟩
      exact .array (ih inner)
  | case2 text absent =>
      rw [readType?_of_simple absent] at read
      exact denotes_of_simpleType? read

/-- The name of a type has no blanks, commas or parentheses. -/
theorem Denotes.isTypePart {type : Ty} (denotes : program.Denotes type)
    (wellNamed : program.WellNamed) :
    ∀ char ∈ type.name.toList, isTypePart char = true := by
  induction denotes with
  | prim kind => exact isTypePart_of_isClassName (isClassName_prim kind)
  | cls declared proper =>
      exact isTypePart_of_isClassName (wellNamed.of_class? declared)
  | array denotes ih =>
      intro char member
      rw [Ty.name, String.toList_append, List.mem_append] at member
      rcases member with before | bracket
      · exact ih char before
      · exact List.all_eq_true.mp
          (show "[]".toList.all PointsTo.isTypePart = true by decide) char
          bracket

theorem readType?_of_isClassName {name : String}
    (named : Shape.isClassName name.toList = true) :
    program.readType? name.toList = program.simpleType? name := by
  have trimmed := trim_of_isTypePart (isTypePart_of_isClassName named)
  rw [readType?_of_simple, trimmed, String.ofList_toList]
  rw [trimmed, beforeBrackets?_of_isClassName named]

theorem Denotes.name_ne_nil {type : Ty} (denotes : program.Denotes type)
    (wellNamed : program.WellNamed) : type.name.toList ≠ [] := by
  cases denotes with
  | prim kind => exact ne_nil_of_isClassName (isClassName_prim kind)
  | cls declared proper =>
      exact ne_nil_of_isClassName (wellNamed.of_class? declared)
  | array denotes =>
      rw [Ty.name, String.toList_append]
      exact List.append_ne_nil_of_right_ne_nil _ (by decide)

/-- The name of a type is read as the type. -/
theorem Denotes.readType?_name {type : Ty} (denotes : program.Denotes type)
    (wellNamed : program.WellNamed) :
    program.readType? type.name.toList = some type := by
  induction denotes with
  | prim kind =>
      rw [Ty.name, readType?_of_isClassName (isClassName_prim kind),
        simpleType?, Prim.named?_name]
  | cls declared proper =>
      rw [Ty.name, readType?_of_isClassName (wellNamed.of_class? declared),
        simpleType?, proper, declared]
      rfl
  | @array element denotes ih =>
      have bracketed : beforeBrackets? (trim (Ty.array element).name.toList) =
          some element.name.toList := by
        rw [trim_of_isTypePart (denotes.array.isTypePart wellNamed), Ty.name,
          String.toList_append]
        exact beforeBrackets?_append _
      rw [readType?_of_array bracketed, ih]
      rfl

/-- Names of types are read back one by one. -/
theorem readTypes_names (wellNamed : program.WellNamed) {types : List Ty}
    (denotes : ∀ type ∈ types, program.Denotes type) :
    program.readTypes (types.map fun type => type.name.toList) = .ok types := by
  induction types with
  | nil => rfl
  | cons type rest ih =>
      rw [List.map_cons, readTypes,
        (denotes type (.head _)).readType?_name wellNamed,
        ih fun other member => denotes other (.tail _ member)]
      rfl

theorem denotes_of_readTypes {texts : List (List Char)} {types : List Ty}
    (read : program.readTypes texts = .ok types) :
    ∀ type ∈ types, program.Denotes type := by
  induction texts generalizing types with
  | nil =>
      cases read
      intro type member
      cases member
  | cons text rest ih =>
      rw [readTypes] at read
      split at read
      · cases read
      · rename_i type first
        rw [bind_eq_ok] at read
        rcases read with ⟨others, later, same⟩
        cases same
        rintro other (_ | ⟨_, member⟩)
        · exact denotes_of_readType? first
        · exact ih later other member

/-- The parameter types in the text of a signature. -/
def paramText (types : List Ty) : String :=
  ",".intercalate (types.map Ty.name)

theorem mem_paramText (wellNamed : program.WellNamed) {types : List Ty}
    (denotes : ∀ type ∈ types, program.Denotes type) {char : Char}
    (member : char ∈ (paramText types).toList) :
    char = ',' ∨ isTypePart char = true := by
  rcases mem_intercalate member with comma | ⟨name, listed, inside⟩
  · exact .inl (List.mem_singleton.mp comma)
  · rcases List.mem_map.mp listed with ⟨type, typed, rfl⟩
    exact .inr ((denotes type typed).isTypePart wellNamed char inside)

/-- The parameter types are read back from the text between the parentheses. -/
theorem readParams_paramText (wellNamed : program.WellNamed) {types : List Ty}
    (denotes : ∀ type ∈ types, program.Denotes type) :
    program.readParams (paramText types).toList = .ok types := by
  cases types with
  | nil => rfl
  | cons first rest =>
      have whole : ∀ name ∈ first.name :: rest.map Ty.name,
          ',' ∉ name.toList := by
        intro name listed comma
        change name ∈ (first :: rest).map Ty.name at listed
        rcases List.mem_map.mp listed with ⟨type, typed, rfl⟩
        cases (denotes type typed).isTypePart wellNamed ',' comma
      have pieces : splitWhen (· = ',') (paramText (first :: rest)).toList =
          (first :: rest).map fun type => type.name.toList := by
        rw [paramText, List.map_cons,
          splitWhen_intercalate rfl List.not_mem_nil whole]
        simp
      have present : (paramText (first :: rest)).toList ≠ [] :=
        intercalate_ne_nil ((denotes first (.head _)).name_ne_nil wellNamed)
      rw [readParams, if_neg (fun empty => present (List.isEmpty_iff.mp empty)),
        pieces]
      exact readTypes_names wellNamed denotes

theorem denotes_of_readParams {text : List Char} {types : List Ty}
    (read : program.readParams text = .ok types) :
    ∀ type ∈ types, program.Denotes type := by
  unfold readParams at read
  split at read
  · cases read
    intro type member
    cases member
  · exact denotes_of_readTypes read

/-- Types are still denoted when there are further classes. -/
theorem Denotes.mono {next : Program}
    (kept : ∀ name, (program.class? name).isSome = true →
      (next.class? name).isSome = true) {type : Ty}
    (denotes : program.Denotes type) : next.Denotes type := by
  induction denotes with
  | prim kind => exact .prim kind
  | @cls cls declared proper =>
      rcases Option.isSome_iff_exists.mp
        (kept cls.name (declared ▸ rfl)) with ⟨later, found⟩
      have same := name_of_class? found
      rw [← same] at found proper ⊢
      exact .cls found proper
  | array _ ih => exact .array ih

/-! ## References -/

/-- The references that texts denote. -/
structure Refers (program : Program) (ref : MethodRef) : Prop where
  owner : (program.class? ref.owner).isSome = true
  named : ref.name.toList ≠ []
  closed : '(' ∉ ref.name.toList
  result : program.Denotes ref.result
  params : ∀ type ∈ ref.params, program.Denotes type

/-- A method has a name, and the name ends before the parenthesis. -/
theorem splitSubsignature?_eq_some {text result name params : List Char}
    (split : splitSubsignature? text = some (result, name, params)) :
    name ≠ [] ∧ '(' ∉ name := by
  simp only [splitSubsignature?, Option.bind_eq_bind, Option.bind_eq_some_iff,
    Prod.exists, Option.ite_none_left_eq_some, Option.some.injEq,
    Prod.mk.injEq, List.isEmpty_iff] at split
  rcases split with ⟨_, rest, _, inside, _, _, _, cut, named, _, rfl, _⟩
  exact ⟨named, (cut?_eq_some cut).2⟩

/-- Whatever is read as a reference refers to a class and to types of the
program. -/
theorem refers_of_readRef {signature : String} {ref : MethodRef}
    (read : program.readRef signature = .ok ref) : program.Refers ref := by
  unfold readRef at read
  split at read
  · cases read
  rename_i owner subsignature _
  split at read
  · cases read
  rename_i cls declared
  rw [mapError_eq_ok] at read
  unfold readSubsignature at read
  split at read
  · cases read
  rename_i _ name _ split
  rcases splitSubsignature?_eq_some split with ⟨named, closed⟩
  split at read
  · cases read
  rename_i result readResult
  rw [bind_eq_ok] at read
  rcases read with ⟨params, readParams, same⟩
  cases same
  rw [← String.toList_ofList (l := name)] at named closed
  refine ⟨?_, named, closed, denotes_of_readType? readResult,
    denotes_of_readParams readParams⟩
  rw [name_of_class? declared, declared]
  rfl

/-- References stay good when classes are added. -/
theorem Refers.mono {next : Program}
    (kept : ∀ name, (program.class? name).isSome = true →
      (next.class? name).isSome = true) {ref : MethodRef}
    (refers : program.Refers ref) : next.Refers ref where
  owner := kept _ refers.owner
  named := refers.named
  closed := refers.closed
  result := refers.result.mono kept
  params type member := (refers.params type member).mono kept

section Signatures

variable {ref : MethodRef} (wellNamed : program.WellNamed)
  (refers : program.Refers ref) (ident : Shape.isIdent ref.name.toList = true)

theorem toList_subsignature (ref : MethodRef) :
    ref.subsignature.toList =
      ref.result.name.toList ++ ' ' :: (ref.name.toList ++ '(' ::
        ((paramText ref.params).toList ++ [')'])) := by
  simp [MethodRef.subsignature, subsignature, paramText]

/-- How a signature is spelled. -/
theorem toList_signature (ref : MethodRef) :
    ref.signature.toList =
      '<' :: (ref.owner.toList ++ ':' :: ' ' ::
        (ref.subsignature.toList ++ ['>'])) := by
  simp [MethodRef.signature, toString]

include wellNamed refers

theorem trim_subsignature :
    trim ref.subsignature.toList = ref.subsignature.toList := by
  rw [toList_subsignature]
  apply trim_eq_self
  · exact (stops_isBlank (refers.result.isTypePart wellNamed)).append
      (refers.result.name_ne_nil wellNamed)
  · simp [isBlank]

/-- A printed subsignature is cut into what it was printed from. -/
theorem splitSubsignature?_subsignature :
    splitSubsignature? ref.subsignature.toList =
      some (ref.result.name.toList, ref.name.toList,
        (paramText ref.params).toList) := by
  have first : cut? ' ' ref.subsignature.toList = some _ :=
    cut?_eq_some_iff.mpr ⟨toList_subsignature ref, fun space => by
      cases refers.result.isTypePart wellNamed ' ' space⟩
  have second : cut? '(' (ref.name.toList ++ '(' ::
      (paramText ref.params).toList) = some _ :=
    cut?_eq_some_iff.mpr ⟨rfl, refers.closed⟩
  simp [splitSubsignature?, first, beforeParenthesis?, second, refers.named]

/-- The subsignature of a reference is read as the reference. -/
theorem readSubsignature_subsignature :
    program.readSubsignature ref.owner ref.subsignature.toList = .ok ref := by
  rw [readSubsignature, splitSubsignature?_subsignature wellNamed refers]
  simp only [refers.result.readType?_name wellNamed,
    readParams_paramText wellNamed refers.params, String.ofList_toList]
  rfl

include ident

/-- A signature ends with its first closing bracket. -/
theorem exists_toList_signature :
    ∃ inside, '>' ∉ inside ∧
      ref.signature.toList = '<' :: (inside ++ ['>']) := by
  rcases Option.isSome_iff_exists.mp refers.owner with ⟨cls, declared⟩
  refine ⟨ref.owner.toList ++ ':' :: ' ' :: ref.subsignature.toList, ?_, ?_⟩
  · simp only [toList_subsignature, List.mem_append, List.mem_cons,
      List.not_mem_nil]
    rintro (owner | colon | space | result | gap | name | opening | params |
      closing | none)
    · cases Shape.isClassPart_of_mem (wellNamed.of_class? declared) '>' owner
    · cases colon
    · cases space
    · cases refers.result.isTypePart wellNamed '>' result
    · cases gap
    · cases Shape.isIdentPart_of_mem ident '>' name
    · cases opening
    · rcases mem_paramText wellNamed refers.params params with comma | part
      · cases comma
      · cases part
    · cases closing
    · exact none
  · simp [toList_signature]

/-- There is no comma before the parenthesis and no space after it. -/
theorem exists_toList_subsignature :
    ∃ front back, ref.subsignature.toList = front ++ back ∧ ',' ∉ front ∧
      ' ' ∉ back := by
  refine ⟨ref.result.name.toList ++ ' ' :: (ref.name.toList ++ ['(']),
    (paramText ref.params).toList ++ [')'], ?_, ?_, ?_⟩
  · simp [toList_subsignature]
  · simp only [List.mem_append, List.mem_cons, List.not_mem_nil]
    rintro (result | space | name | parenthesis | none)
    · cases refers.result.isTypePart wellNamed ',' result
    · cases space
    · cases Shape.isIdentPart_of_mem ident ',' name
    · cases parenthesis
    · exact none
  · simp only [List.mem_append, List.mem_cons, List.not_mem_nil]
    rintro (params | parenthesis | none)
    · rcases mem_paramText wellNamed refers.params params with comma | part
      · cases comma
      · cases part
    · cases parenthesis
    · exact none

/-- Subsignatures are printed without blanks after commas. -/
theorem dropSpaceAfterComma_subsignature :
    dropSpaceAfterComma ref.subsignature.toList = ref.subsignature.toList := by
  rcases exists_toList_subsignature wellNamed refers ident with
    ⟨front, back, whole, noComma, noSpace⟩
  rw [whole, dropSpaceAfterComma_append noComma,
    dropSpaceAfterComma_of_not_mem noSpace]

/-- A printed signature is cut into its class and its subsignature. -/
theorem splitSignature?_signature :
    splitSignature? ref.signature.toList =
      some (ref.owner, ref.subsignature.toList) := by
  rcases Option.isSome_iff_exists.mp refers.owner with ⟨cls, declared⟩
  have named := wellNamed.of_class? declared
  have angles : insideAngles? (trim ref.signature.toList) =
      some (ref.owner.toList ++ ':' :: ' ' :: ref.subsignature.toList) := by
    rw [trim_eq_self]
    · simp [toList_signature, insideAngles?]
    · simp [toList_signature, isBlank]
    · simp [toList_signature, isBlank]
  have cut : cut? ':' (ref.owner.toList ++ ':' :: ' ' ::
      ref.subsignature.toList) = some _ :=
    cut?_eq_some_iff.mpr ⟨rfl, fun colon => by
      cases Shape.isClassPart_of_mem named ':' colon⟩
  have present : ref.subsignature.toList ≠ [] := by
    rw [toList_subsignature]
    exact List.append_ne_nil_of_right_ne_nil _ (List.cons_ne_nil _ _)
  simp [splitSignature?, angles, cut,
    trim_of_isTypePart (isTypePart_of_isClassName named),
    trim_cons_of_blank (show isBlank ' ' = true by decide),
    trim_subsignature wellNamed refers,
    dropSpaceAfterComma_subsignature wellNamed refers ident,
    ne_nil_of_isClassName named, present]

/-- The signature of a reference is read as the reference. -/
theorem readRef_signature : program.readRef ref.signature = .ok ref := by
  rcases Option.isSome_iff_exists.mp refers.owner with ⟨cls, declared⟩
  rw [readRef, splitSignature?_signature wellNamed refers ident]
  simp only [declared, name_of_class? declared,
    readSubsignature_subsignature wellNamed refers]
  rfl

end Signatures

end Program

end PointsTo
