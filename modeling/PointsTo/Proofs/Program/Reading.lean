import PointsTo.Proofs.Program.Coherent

/-!
# Reading statements breaks no rule of construction

The building steps refuse whatever would break a rule of program construction.
A text is checked before it leads to a building step, and the checks match the
rules: the variables of a statement are created first, fields are accessed
without base exactly when they are static, and calls have a receiver exactly
when they are not static.  So a text that is rejected is rejected by one of the
checks, and never by a building step.
-/

namespace PointsTo

open Checked

/-- A check has found the error; no building step has. -/
def Error.Found (problem : Error) : Prop :=
  decide (problem.kind = .construction) = false

@[simp]
theorem Error.not_found_construction {cause : BuildError} :
    ¬ (construction cause).Found := by
  intro found
  cases found

/-- No building step is refused, and the result has a property. -/
abbrev Guarded {α : Type} (returned : α → Prop)
    (computed : Except Error α) : Prop :=
  Ensures Error.Found returned computed

/-- It does not matter where a problem arose. -/
theorem guarded_within {α : Type} {returned : α → Prop} {place : String}
    {computed : Except Error α} :
    Guarded returned (computed.mapError (.within place)) ↔
      Guarded returned computed :=
  ensures_mapError

/-- A building step is guarded if it is not refused. -/
theorem guarded_construction {α : Type} {returned : α → Prop}
    {computed : Except BuildError α} :
    Guarded returned (computed.mapError .construction) ↔
      Ensures (fun _ => False) returned computed := by
  simp

/-! ## Types and methods by name -/

namespace Program

variable (program : Program)

theorem guarded_findMethod (signature : String) :
    Guarded (fun _ => True) (program.findMethod signature) := by
  unfold findMethod
  split
  · exact .error rfl
  · split
    · exact .error rfl
    · split
      · exact .error rfl
      · exact .ok trivial

theorem guarded_readTypes (texts : List (List Char)) :
    Guarded (fun _ => True) (program.readTypes texts) := by
  induction texts with
  | nil => exact .ok trivial
  | cons text rest ih =>
      rw [readTypes]
      split
      · exact .error rfl
      · simpa using ih

theorem guarded_readParams (text : List Char) :
    Guarded (fun _ => True) (program.readParams text) := by
  unfold readParams
  split
  · exact .ok trivial
  · exact program.guarded_readTypes _

theorem guarded_readSubsignature (owner : String) (text : List Char) :
    Guarded (fun _ => True) (program.readSubsignature owner text) := by
  unfold readSubsignature
  split
  · exact .error rfl
  · split
    · exact .error rfl
    · simpa using program.guarded_readParams _

theorem guarded_readRef (signature : String) :
    Guarded (fun _ => True) (program.readRef signature) := by
  unfold readRef
  split
  · exact .error rfl
  · split
    · exact .error rfl
    · exact guarded_within.mpr (program.guarded_readSubsignature _ _)

omit program in
theorem guarded_splitArguments (text arguments : String) :
    Guarded (fun _ => True) (splitArguments text arguments) := by
  have read : ∀ pieces,
      Guarded (fun _ => True) (readArguments text pieces) := by
    intro pieces
    induction pieces with
    | nil => exact .ok trivial
    | cons piece rest ih =>
        rw [readArguments]
        split
        · exact ih.bind fun _ _ => .ok trivial
        · exact .error rfl
  simp [splitArguments, read]

end Program

theorem Program.guarded_access (program : Program) (method : Method)
    (qualifier name : String) :
    Guarded (fun _ => True) (program.access method qualifier name) := by
  unfold access
  split
  · split
    · split
      · exact .error rfl
      · exact .ok trivial
    · exact .error rfl
  · split
    · split
      · exact .ok trivial
      · exact .error rfl
    · exact .error rfl

/-! ## Statements -/

/-- Calls are of kinds that the analysis knows. -/
def Stmt.Known : Stmt → Prop
  | .invoke call => call.kind.isKnown = true
  | _ => True

theorem CallKind.isKnown_of_named {name : String} {kind : CallKind}
    (found : CallKind.named? name = some kind) : kind.isKnown = true := by
  have listed : kind ∈ all := List.mem_of_find?_eq_some found
  clear found
  revert kind
  decide

/-- The body of a method has got one more statement, and it is known. -/
def Method.Extends (method next : Method) : Prop :=
  ∃ stmt : Stmt, stmt.Known ∧ next.body = method.body ++ [stmt]

namespace Program

variable (program : Program) (method : Method)

omit method in
theorem guarded_understandInvoke (text kind signature arguments : String)
    (result receiver : Option String) :
    Guarded (fun call => (Stmt.invoke call).Known)
      (program.understandInvoke text result kind receiver signature
        arguments) := by
  unfold understandInvoke
  split
  · exact .error rfl
  · rename_i kind named
    refine (program.guarded_readRef signature).bind fun ref _ => ?_
    split
    · exact .error rfl
    refine (guarded_splitArguments text arguments).bind fun args _ => ?_
    split
    · exact .error rfl
    exact .ok (CallKind.isKnown_of_named named)

theorem guarded_understand (text : String) (shape : Shape) :
    Guarded Stmt.Known (program.understand method text shape) := by
  cases shape with
  | ret | loadArray | storeArray | copy => exact .ok trivial
  | invoke result kind receiver signature arguments =>
      exact ensures_map.mpr (program.guarded_understandInvoke ..)
  | new target type =>
      simp only [understand]
      split
      · exact .error rfl
      · exact .ok trivial
  | loadField target qualifier name =>
      refine ensures_map.mpr (guarded_within.mpr
        ((program.guarded_access method qualifier name).mono ?_))
      rintro (_ | _) _ <;> trivial
  | storeField qualifier name source =>
      refine ensures_map.mpr (guarded_within.mpr
        ((program.guarded_access method qualifier name).mono ?_))
      rintro (_ | _) _ <;> trivial

/-- A statement text is rejected by a check, or it extends the body. -/
theorem guarded_readStmt (text : String) :
    Guarded method.Extends (program.readStmt method text) := by
  rw [readStmt]
  split
  · exact .error rfl
  · rw [addShape_eq]
    refine ensures_map.mpr ((program.guarded_understand method ..).mono ?_)
    exact fun stmt known => ⟨stmt, known, method.body_withStmt stmt⟩

end Program

end PointsTo
