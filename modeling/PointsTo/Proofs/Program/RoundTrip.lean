import PointsTo.Proofs.Program.Expressible
import PointsTo.Proofs.Program.Fields
import PointsTo.Proofs.Program.Transaction

/-!
# Statements are read back

A statement that has been read from a text is printed without superfluous blanks,
with a star for an index, with normal type names, and with a static field under
the class that declares it.  Reading the printed text in the scope of the method
as it is then yields the same statement once more and creates no variable.
-/

namespace PointsTo

open Checked Text

namespace Program

/-! ## What has been read can be expressed -/

section Reading

variable {program : Program} {method : Method} {shape : Shape}
  {source : List Char} {text : String} {stmt : Stmt}

/-- A field of a variable is found again once the variable exists. -/
theorem access_withStmt_ofVariable {qualifier name base : String}
    {field : Field} (mentioned : base ∈ stmt.names)
    (denoted : program.access method qualifier name =
      .ok (.ofVariable base field)) :
    qualifier = base ∧ field.name = name ∧
      program.access (method.withStmt stmt) base field.name =
        .ok (.ofVariable base field) := by
  rcases access_eq_ofVariable_iff.mp denoted with
    ⟨rfl, _, found, instanceField⟩
  rcases exists_field?_of_instanceField? found with ⟨cls, _, here⟩
  have named := (field?_eq_some here).2
  refine ⟨rfl, named, access_eq_ofVariable_iff.mpr ⟨rfl, ?_, ?_, instanceField⟩⟩
  · exact .inl (Method.hasLocal_withStmt.mpr (.inr mentioned))
  · -- A variable that is new has no type, so its class stays unknown.
    rw [named, ← found, instanceField?, instanceField?,
      Method.classOf?_withStmt]

/-- A static field is found again under the class that declares it. -/
theorem access_ofClass (layered : Layered program.declarations)
    (owns : program.OwnsFields) {next : Method}
    (apart : ∀ name, next.hasLocal name = true → program.class? name = none)
    {qualifier name : String} {field : Field}
    (denoted : program.access method qualifier name = .ok (.ofClass field)) :
    (∃ cls, program.class? field.owner = some cls) ∧ field.name = name ∧
      program.access next field.owner field.name = .ok (.ofClass field) := by
  rcases access_eq_ofClass_iff.mp denoted with ⟨_, _, found, isStatic⟩
  rcases exists_field?_of_lookupField? found with ⟨cls, _, here⟩
  have named := (field?_eq_some here).2
  rcases lookupField?_owner layered owns found with ⟨declared, again⟩
  refine ⟨Option.isSome_iff_exists.mp declared, named,
    access_eq_ofClass_iff.mpr ⟨?_, declared, named ▸ again, isStatic⟩⟩
  apply Bool.eq_false_iff.mpr
  intro taken
  rw [apart _ taken] at declared
  cases declared

theorem expressesCall_of_understandInvoke
    {result receiver : Option (List Char)} {lead base : List Char}
    {kind signature arguments : String} {call : Invoke}
    (assigns : Shape.Assigns result lead)
    (receives : Shape.Receives receiver base)
    (understood : program.understandInvoke text (result.map String.ofList) kind
      (receiver.map String.ofList) signature arguments = .ok call)
    (named : IsIdent call.ref.name) : program.ExpressesCall call := by
  rcases understandInvoke_eq_ok understood with
    ⟨known, read, split, received, resulted, balanced, counted⟩
  have spelling : call.kind.name = kind := by simpa using List.find?_some known
  constructor
  · rw [resulted]
    intro name member
    cases assigns with
    | none => cases member
    | some ident equals =>
        cases member
        exact isIdent_ofList ident
  · rw [spelling, known]
  · rw [received]
    intro name member
    cases receives with
    | none => cases member
    | some ident =>
        cases member
        exact isIdent_ofList ident
  · exact refers_of_readRef read
  · exact named
  · exact isIdent_of_splitArguments split
  · exact balanced
  · exact counted

/-- A statement that has been read can be expressed afterwards, unless one of
its variables is called like a class. -/
theorem expresses_of_understand (layered : Layered program.declarations)
    (owns : program.OwnsFields) (wellNamed : program.WellNamed)
    (spelled : Shape.Spells shape source)
    (understood : program.understand method text shape = .ok stmt)
    (named : ∀ call, stmt = .invoke call → IsIdent call.ref.name)
    (apart : ∀ name, (method.withStmt stmt).hasLocal name = true →
      program.class? name = none) :
    program.Expresses (method.withStmt stmt) stmt := by
  cases spelled with
  | ret =>
      cases understood
      intro name member
      cases member
  | retValue blank separate ident =>
      cases understood
      intro name member
      cases member
      exact isIdent_ofList ident
  | invoke assigns kinded word blank separate receives closed blankAfter
      oneLine =>
      rcases map_eq_ok.mp understood with ⟨call, parts, rfl⟩
      exact expressesCall_of_understandInvoke assigns receives parts
        (named call rfl)
  | new ident equals blank separate typed solid =>
      rw [understand] at understood
      split at understood
      · cases understood
      · rename_i type found
        cases understood
        exact ⟨isIdent_ofList ident, denotes_of_readType? found⟩
  | loadArray ident equals identBase indexed =>
      cases understood
      exact ⟨isIdent_ofList ident, isIdent_ofList identBase⟩
  | storeArray identBase indexed equals ident =>
      cases understood
      exact ⟨isIdent_ofList identBase, isIdent_ofList ident⟩
  | @loadField target _ _ _ ident equals qualified identField =>
      rcases map_eq_ok.mp understood with ⟨access, found, rfl⟩
      have denoted := mapError_eq_ok.mp found
      cases access with
      | ofVariable base field =>
          have mentioned :
              base ∈ (Stmt.loadField (String.ofList target) base field).names :=
            .tail _ (.head _)
          rcases access_withStmt_ofVariable mentioned denoted with
            ⟨rfl, same, again⟩
          exact ⟨isIdent_ofList ident, isClassName_ofList qualified,
            same ▸ isIdent_ofList identField, again⟩
      | ofClass field =>
          rcases access_ofClass layered owns apart denoted with
            ⟨⟨cls, declared⟩, same, again⟩
          exact ⟨isIdent_ofList ident, wellNamed.of_class? declared,
            same ▸ isIdent_ofList identField, again⟩
  | @storeField _ _ _ source qualified identField equals ident =>
      rcases map_eq_ok.mp understood with ⟨access, found, rfl⟩
      have denoted := mapError_eq_ok.mp found
      cases access with
      | ofVariable base field =>
          have mentioned :
              base ∈ (Stmt.storeField base field (String.ofList source)).names :=
            .head _
          rcases access_withStmt_ofVariable mentioned denoted with
            ⟨rfl, same, again⟩
          exact ⟨isClassName_ofList qualified, same ▸ isIdent_ofList identField,
            isIdent_ofList ident, again⟩
      | ofClass field =>
          rcases access_ofClass layered owns apart denoted with
            ⟨⟨cls, declared⟩, same, again⟩
          exact ⟨wellNamed.of_class? declared, same ▸ isIdent_ofList identField,
            isIdent_ofList ident, again⟩
  | copy ident equals identSource =>
      cases understood
      exact ⟨isIdent_ofList ident, isIdent_ofList identSource⟩

end Reading

/-! ## Editing methods -/

section Edits

variable {program : Program} (next : Method)

theorem isSome_class?_setMethod (name : String)
    (declared : (program.class? name).isSome = true) :
    ((program.setMethod next).class? name).isSome = true := by
  have same := program.map_name_class?_setMethod next name
  rw [← Option.isSome_map (f := Class.name), same, Option.isSome_map]
  exact declared

theorem WellNamed.setMethod (wellNamed : program.WellNamed) :
    (program.setMethod next).WellNamed := by
  rcases program.exists_declarations_setMethod next with ⟨change, same, edited⟩
  intro cls declared
  rw [edited] at declared
  rcases List.mem_map.mp declared with ⟨old, member, rfl⟩
  rw [(same old).name]
  exact wellNamed old member

theorem Expresses.setMethod {method : Method} {stmt : Stmt}
    (expressed : program.Expresses method stmt) :
    (program.setMethod next).Expresses method stmt := by
  cases stmt with
  | new target type => exact ⟨expressed.1, expressed.2.mono (isSome_class?_setMethod next)⟩
  | copy | loadArray | storeArray | ret => exact expressed
  | loadField | loadStatic | storeField | storeStatic =>
      simpa only [Expresses, access_setMethod] using expressed
  | invoke call =>
      exact { expressed with
        ref := expressed.ref.mono (isSome_class?_setMethod next) }

end Edits

end Program

/-- What a statement text leads to, seen from the program afterwards. -/
theorem Editing.exists_of_run_readStmt {program : Program}
    (coherent : program.Coherent) {method : Method}
    (found : program.method? method.id = some method) {text : String}
    {site : Site} {after : Program}
    (read : (readStmt method.id text).run program = .ok site after) :
    ∃ shape stmt, Shape.Spells shape (Text.trim text.toList) ∧
      program.understand method (Text.trimmed text) shape = .ok stmt ∧
      after = program.setMethod (method.withStmt stmt) ∧
      after.Coherent ∧
      after.method? method.id = some (method.withStmt stmt) ∧
      after.stmt? site = some stmt := by
  rw [run_readStmt coherent found] at read
  cases computed : program.readStmt method text with
  | error problem =>
      rw [computed] at read
      cases read
  | ok next =>
      rw [computed] at read
      cases read
      have whole := (coherent.method found).1.reads
        (Program.readStmt_eq_ok computed)
      rcases Program.readStmt_eq_ok_iff.mp computed with
        ⟨shape, stmt, shaped, understood, rfl⟩
      have here := Program.method?_setMethod coherent found
        (method.id_withStmt stmt)
      refine ⟨shape, stmt, Shape.read?_eq_some_iff.mp shaped, understood, rfl,
        coherent.setMethod whole, here, ?_⟩
      rw [Program.stmt?, Method.site, here, Option.bind_some,
        Method.body_withStmt]
      simp

/-- The text of a statement that has been read is read as the same statement;
only the statement itself is added to the method. -/
theorem reread_of_made {program : Program} (made : program.Made)
    (wellNamed : program.WellNamed) {method : Method}
    (found : program.method? method.id = some method) {text : String}
    {site : Site} {after : Program}
    (read : (Editing.readStmt method.id text).run program = .ok site after)
    {next : Method} (grown : after.method? method.id = some next)
    {stmt : Stmt} (stored : after.stmt? site = some stmt)
    (named : ∀ call, stmt = .invoke call → IsIdent call.ref.name)
    (apart : ∀ name, next.hasLocal name = true → after.class? name = none) :
    ∃ again final last,
      (Editing.readStmt method.id stmt.text).run after = .ok again final ∧
      final.method? method.id = some last ∧
      final.stmt? again = some stmt ∧
      last.body = next.body ++ [stmt] ∧
      last.locals.map Local.name = next.locals.map Local.name := by
  rcases Editing.exists_of_run_readStmt made.coherent found read with
    ⟨shape, _, spelled, understood, rfl, coherent, here, storedHere⟩
  cases here.symm.trans grown
  cases storedHere.symm.trans stored
  have expressed : (program.setMethod (method.withStmt stmt)).Expresses
      (method.withStmt stmt) stmt := by
    apply Program.Expresses.setMethod
    apply Program.expresses_of_understand made.built.layered
      made.built.ownsFields wellNamed spelled understood named
    intro name present
    have absent := program.map_name_class?_setMethod (method.withStmt stmt) name
    rw [apart name present] at absent
    exact Option.map_eq_none_iff.mp absent.symm
  have present : (program.setMethod (method.withStmt stmt)).method?
      (method.withStmt stmt).id = some (method.withStmt stmt) := by
    rw [Method.id_withStmt]
    exact here
  have reread := Editing.run_readStmt coherent present stmt.text
  have last := Program.method?_setMethod coherent present
    (show ((method.withStmt stmt).record stmt).id = _ from rfl)
  rw [expressed.readStmt_text (wellNamed.setMethod _),
    Method.withStmt_withStmt, Method.id_withStmt] at reread
  rw [Method.id_withStmt] at last
  refine ⟨_, _, _, reread, last, ?_, rfl, Method.names_record _ _⟩
  rw [Program.stmt?, Method.site, Method.id_withStmt, last, Option.bind_some]
  exact List.getElem?_concat_length

/-! ## Sample program

A class inherits a static field, and one of its methods is called with blanks in
unusual places.
-/

namespace Printed

def spec : ProgramSpec where
  classes :=
    [{ name := "p.A"
       fields := [{ name := "s", type := "p.A[]", isStatic := true }]
       methods :=
        [{ name := "m", params := ["p.A[] y", "int n"], result := "p.A" }] },
      { name := "B", super := "p.A", methods := [{ name := "run" }] }]

def id : MethodId :=
  ⟨"B", "void run()"⟩

/-- Texts and the form in which their statements are printed. -/
def texts : List (String × String) :=
  [(" r=invokevirtual\t this.<B:p.A m( p.A [],int)> ( x ,y)",
      "r = invokevirtual this.<B: p.A m(p.A[],int)>(x, y)"),
    ("z  =B.s", "z = p.A.s")]

/-- The method name of a call has the form of a name. -/
def namesMethod : Stmt → Bool
  | .invoke call => Shape.isIdent call.ref.name.toList
  | _ => true

/-- The answer to a text, if it is accepted. -/
def answer (program : Program) (text : String) : Option (Site × Program) :=
  match (Editing.readStmt id text).run program with
  | .ok site after => some (site, after)
  | .error _ _ => none

/-- The printed text, and whether the names are as they should be. -/
def printed (program : Program) (text : String) : Option (String × Bool) := do
  let (site, after) ← answer program text
  let next ← after.method? id
  let stmt ← after.stmt? site
  return (stmt.text, namesMethod stmt &&
    next.locals.all fun entry => (after.class? entry.name).isNone)

theorem exists_of_printed {program : Program} {text shown : String}
    (found : printed program text = some (shown, true)) :
    ∃ site after next stmt,
      (Editing.readStmt id text).run program = .ok site after ∧
      after.method? id = some next ∧ after.stmt? site = some stmt ∧
      stmt.text = shown ∧
      (∀ call, stmt = .invoke call → IsIdent call.ref.name) ∧
      ∀ name, next.hasLocal name = true → after.class? name = none := by
  simp only [printed, Option.bind_eq_bind, Option.bind_eq_some_iff,
    Prod.exists] at found
  rcases found with ⟨site, after, answered, next, grown, stmt, stored, same⟩
  simp only [Option.pure_def, Option.some.injEq, Prod.mk.injEq,
    Bool.and_eq_true, List.all_eq_true, Option.isNone_iff_eq_none] at same
  rcases same with ⟨rfl, named, apart⟩
  refine ⟨site, after, next, stmt, ?_, grown, stored, rfl, ?_, ?_⟩
  · unfold answer at answered
    split at answered
    · rename_i read
      cases answered
      exact read
    · cases answered
  · rintro call rfl
    exact named
  · intro name present
    rcases List.mem_map.mp ((next.hasLocal_iff name).mp present) with
      ⟨entry, member, rfl⟩
    exact apart entry member

end Printed

/-- A call and the load of an inherited static field, read and read again. -/
theorem reread_of_made_printed :
    ∃ program, Printed.spec.load = .ok program ∧ program.WellNamed ∧
      ∀ text shown, (text, shown) ∈ Printed.texts →
        ∃ site after stmt again final,
          (Editing.readStmt Printed.id text).run program = .ok site after ∧
          after.stmt? site = some stmt ∧ stmt.text = shown ∧
          (Editing.readStmt Printed.id shown).run after = .ok again final ∧
          final.stmt? again = some stmt := by
  have computed : Printed.spec.load.toOption.map (fun program =>
      Printed.texts.map fun pair => Printed.printed program pair.1) =
        some (Printed.texts.map fun pair => some (pair.2, true)) := by
    decide +kernel
  have lexical : Printed.spec.load.toOption.map (fun program =>
      program.declarations.all fun cls =>
        Shape.isClassName cls.name.toList) = some true := by decide +kernel
  have declared : (Printed.spec.load.toOption.bind fun program =>
      program.method? Printed.id).isSome = true := by decide +kernel
  cases loaded : Printed.spec.load with
  | error problem =>
      rw [loaded] at computed
      cases computed
  | ok program =>
      rw [loaded] at computed lexical declared
      have made : program.Made := .inr ⟨Printed.spec, loaded⟩
      have wellNamed : program.WellNamed :=
        List.all_eq_true.mp (Option.some.inj lexical)
      rcases Option.isSome_iff_exists.mp declared with ⟨method, found⟩
      have same : method.id = Printed.id := (made.coherent.method found).2
      change program.method? Printed.id = some method at found
      refine ⟨program, rfl, wellNamed, fun text shown listed => ?_⟩
      have printed :=
        List.map_inj_left.mp (Option.some.inj computed) (text, shown) listed
      rcases Printed.exists_of_printed printed with
        ⟨site, after, next, stmt, read, grown, stored, rfl, named, apart⟩
      rw [← same] at found read grown ⊢
      rcases reread_of_made made wellNamed found read grown stored named
        apart with ⟨again, final, last, reread, _, kept, _⟩
      exact ⟨site, after, stmt, again, final, read, stored, rfl, reread, kept⟩

end PointsTo
