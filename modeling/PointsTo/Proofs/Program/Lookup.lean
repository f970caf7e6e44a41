import PointsTo.Proofs.Program.Naming

/-!
# Parts of signatures and outcomes of looking them up

A signature is cut into the name of a class and a subsignature, and a subsignature
into a result type, a name and parameter types.  What a look-up results in, up to
the wording of errors, is determined by these parts.
-/

namespace PointsTo

open Checked Text

/-! ## Parts -/

section Parts

variable {text inside front back subsignature : List Char} {owner : String}

/-- The angles are the first and the last character. -/
theorem insideAngles?_eq_some_iff :
    insideAngles? text = some inside ↔ text = '<' :: (inside ++ ['>']) := by
  constructor
  · intro found
    unfold insideAngles? at found
    split at found
    · split at found
      · rename_i before shape
        cases found
        rw [← List.reverse_cons, ← shape, List.reverse_reverse]
      · cases found
    · cases found
  · rintro rfl
    simp [insideAngles?]

theorem beforeParenthesis?_eq_some_iff :
    Program.beforeParenthesis? text = some inside ↔
      text = inside ++ [')'] := by
  constructor
  · intro found
    unfold Program.beforeParenthesis? at found
    split at found
    · rename_i before shape
      cases found
      rw [← List.reverse_cons, ← shape, List.reverse_reverse]
    · cases found
  · rintro rfl
    simp [Program.beforeParenthesis?]

/-- A signature is cut at its first colon, and one blank is dropped after each
comma of what follows.  Neither part may be empty. -/
theorem splitSignature?_eq_some_iff :
    splitSignature? text = some (owner, subsignature) ↔
      ∃ inside front back, insideAngles? (trim text) = some inside ∧
        cut? ':' inside = some (front, back) ∧
        (trim front ≠ [] ∧ dropSpaceAfterComma (trim back) ≠ []) ∧
        String.ofList (trim front) = owner ∧
        dropSpaceAfterComma (trim back) = subsignature := by
  simp only [splitSignature?, Option.bind_eq_bind, Option.bind_eq_some_iff,
    Prod.exists, Option.ite_none_left_eq_some, Option.some.injEq,
    Prod.mk.injEq, Bool.or_eq_true, List.isEmpty_iff, not_or,
    exists_and_left]

theorem splitSubsignature?_of_none (absent : cut? ' ' text = none) :
    Program.splitSubsignature? text = none := by
  simp [Program.splitSubsignature?, absent]

/-- A subsignature is cut at its first blank, and the rest at its first
parenthesis. -/
theorem splitSubsignature?_of_some
    (first : cut? ' ' text = some (front, back)) :
    Program.splitSubsignature? text =
      (Program.beforeParenthesis? back).bind fun inside =>
        (cut? '(' inside).bind fun parts =>
          if parts.1.isEmpty then none
          else some (front, parts.1, parts.2) := by
  simp [Program.splitSubsignature?, first]

/-- The result type is what comes before the first blank. -/
theorem cut?_of_splitSubsignature? {result name params : List Char}
    (split : Program.splitSubsignature? text = some (result, name, params)) :
    ∃ rest, cut? ' ' text = some (result, rest) := by
  cases first : cut? ' ' text with
  | none =>
      rw [splitSubsignature?_of_none first] at split
      cases split
  | some parts =>
      rcases parts with ⟨front, back⟩
      rw [splitSubsignature?_of_some first] at split
      simp only [Option.bind_eq_some_iff, Option.ite_none_left_eq_some,
        Option.some.injEq, Prod.mk.injEq] at split
      rcases split with ⟨_, _, _, _, _, rfl, _⟩
      exact ⟨back, rfl⟩

end Parts

/-! ## Outcomes -/

/-- What users can tell apart: the value, or the kind of the error. -/
def outcome {α : Type} (result : Except Error α) : Except ErrorKind α :=
  result.mapError Error.kind

section Outcomes

variable {α β : Type}

/-- Values are kept. -/
@[simp]
theorem outcome_ok (value : α) :
    outcome (.ok value : Except Error α) = .ok value := rfl

/-- Of an error only its kind is kept. -/
@[simp]
theorem outcome_error (problem : Error) :
    outcome (.error problem : Except Error α) = .error problem.kind := rfl

/-- Outcomes tell which value there is, if there is one. -/
theorem outcome_eq_ok {result : Except Error α} {value : α} :
    outcome result = .ok value ↔ result = .ok value :=
  mapError_eq_ok

/-- The place of an error does not matter. -/
@[simp]
theorem outcome_within (place : String) (result : Except Error α) :
    outcome (result.mapError (.within place)) = outcome result := by
  cases result <;> rfl

/-- The outcome of two computations in a row is found from their outcomes. -/
theorem outcome_bind (first : Except Error α) (next : α → Except Error β) :
    outcome (first >>= next) =
      outcome first >>= fun value => outcome (next value) := by
  cases first <;> rfl

@[simp]
theorem isOk_outcome (result : Except Error α) :
    (outcome result).isOk = result.isOk := by
  cases result <;> rfl

end Outcomes

namespace Program

variable {program : Program} {text : String} {owner : String}
  {subsignature : List Char}

/-- A text that cannot be cut is no signature, whatever the program declares. -/
theorem outcome_findMethod_of_none
    (malformed : splitSignature? text.toList = none) :
    outcome (program.findMethod text) = .error .malformedSignature := by
  rw [findMethod, malformed]
  rfl

/-- A method is looked up by the texts of its class and its subsignature. -/
theorem outcome_findMethod
    (split : splitSignature? text.toList = some (owner, subsignature)) :
    outcome (program.findMethod text) =
      (program.method? ⟨owner, String.ofList subsignature⟩).elim
        (.error .unknownMethod) .ok := by
  rw [findMethod, split]
  simp only [method?]
  cases program.class? owner with
  | none => rfl
  | some cls =>
      simp only [Option.bind_some]
      cases cls.method? (String.ofList subsignature) <;> rfl

theorem outcome_readRef_of_none
    (malformed : splitSignature? text.toList = none) :
    outcome (program.readRef text) = .error .malformedSignature := by
  rw [readRef, malformed]
  rfl

/-- A reference needs a class that is known and types that can be read, but no
method. -/
theorem outcome_readRef
    (split : splitSignature? text.toList = some (owner, subsignature)) :
    outcome (program.readRef text) =
      (program.class? owner).elim (.error .unknownType) fun cls =>
        outcome (program.readSubsignature cls.name subsignature) := by
  rw [readRef, split]
  simp only []
  cases program.class? owner with
  | none => rfl
  | some cls => exact outcome_within _ _

/-- Blanks around the name of a type make no difference. -/
theorem readType?_congr {text other : List Char}
    (same : trim text = trim other) :
    program.readType? text = program.readType? other := by
  cases found : beforeBrackets? (trim text) with
  | none =>
      rw [readType?_of_simple found, readType?_of_simple (same ▸ found), same]
  | some element =>
      have again := found
      rw [same] at again
      rw [readType?_of_array found, readType?_of_array again]

/-- Nor do blanks around the names in a list of types. -/
theorem outcome_readTypes_congr {texts others : List (List Char)}
    (same : texts.map trim = others.map trim) :
    outcome (program.readTypes texts) =
      outcome (program.readTypes others) := by
  induction texts generalizing others with
  | nil =>
      rw [List.map_eq_nil_iff.mp same.symm]
  | cons text rest ih =>
      rcases List.map_eq_cons_iff.mp same.symm with
        ⟨other, later, rfl, first, last⟩
      rw [readTypes, readTypes, readType?_congr first]
      cases program.readType? text with
      | none => rfl
      | some type =>
          simp only []
          rw [outcome_bind, outcome_bind, ih last.symm]

theorem outcome_readSubsignature_of_none
    (malformed : splitSubsignature? subsignature = none) :
    outcome (program.readSubsignature owner subsignature) =
      .error .malformedSignature := by
  rw [readSubsignature, malformed]
  rfl

/-- The result type is read before the parameter types. -/
theorem outcome_readSubsignature {result name params : List Char}
    (split : splitSubsignature? subsignature = some (result, name, params)) :
    outcome (program.readSubsignature owner subsignature) =
      (program.readType? result).elim (.error .unknownType) fun type =>
        (outcome (program.readParams params)).map fun types =>
          ⟨owner, String.ofList name, types, type⟩ := by
  rw [readSubsignature, split]
  simp only []
  cases program.readType? result with
  | none => rfl
  | some type =>
      simp only []
      rw [outcome_bind]
      cases outcome (program.readParams params) <;> rfl

/-- The name of a reference is taken over as it is written. -/
theorem name_of_readSubsignature {result name params : List Char}
    (split : splitSubsignature? subsignature = some (result, name, params))
    {ref : MethodRef}
    (read : program.readSubsignature owner subsignature = .ok ref) :
    ref.name = String.ofList name := by
  have known : outcome (program.readSubsignature owner subsignature) = _ :=
    outcome_readSubsignature split
  rw [read] at known
  cases typed : program.readType? result with
  | none =>
      rw [typed] at known
      cases known
  | some type =>
      rw [typed] at known
      cases listed : outcome (program.readParams params) with
      | error kind =>
          rw [listed] at known
          cases known
      | ok types =>
          rw [listed] at known
          cases known
          rfl

end Program

end PointsTo
