import PointsTo.Program.Load
import PointsTo.Proofs.Program.Built
import PointsTo.Proofs.Program.Naming

/-!
# Loaded programs are built

The loader declares classes, fields, methods and variables and appends
statements through the building steps alone, so whatever it accepts is a
built program.  It appends only statements that it has read from a text, and
the types of the methods that it declares are types of the program.
-/

namespace PointsTo

namespace Program

/-! ## Methods that are edited in place -/

theorem class?_modifyClass {program : Program} {name wanted : String}
    {change : Class → Class} (sameName : ∀ cls, (change cls).name = cls.name) :
    (program.modifyClass name change).class? wanted =
      (program.class? wanted).map fun cls =>
        if cls.name = name then change cls else cls := by
  have kept : ∀ cls : Class,
      (if cls.name = name then change cls else cls).name = cls.name := by
    intro cls
    split
    · exact sameName cls
    · rfl
  simp only [class?, modifyClass, List.find?_map, Function.comp_def, kept]

/-- An edited method is found under its identity. -/
theorem method?_setMethod {program : Program} {method next : Method}
    (coherent : program.Coherent)
    (found : program.method? method.id = some method)
    (same : next.id = method.id) :
    (program.setMethod next).method? method.id = some next := by
  obtain ⟨owner, subsignature⟩ := MethodId.mk.inj same
  obtain ⟨cls, foundClass, foundMethod⟩ := Option.bind_eq_some_iff.mp found
  have named : cls.name = next.owner :=
    (coherent.class?_eq_some_iff.mp foundClass).2.trans owner.symm
  have sameKey : ∀ other : Method,
      (if other.subsignature = next.subsignature then next
        else other).subsignature = other.subsignature := by
    intro other
    split
    · rename_i equal
      exact equal.symm
    · rfl
  have here : method.subsignature = next.subsignature := subsignature.symm
  rw [method?, setMethod, class?_modifyClass]
  · simp only [Class.method?, Method.id, here] at foundMethod foundClass
    simp only [Method.id, foundClass, Option.map_some, named, if_true,
      Option.bind_some, Class.method?, List.find?_map, Function.comp_def,
      sameKey, here, foundMethod]
  · exact fun _ => rfl

/-- The other methods are found as before. -/
theorem method?_setMethod_of_ne {program : Program} {next : Method}
    {id : MethodId} (different : id ≠ next.id) :
    (program.setMethod next).method? id = program.method? id := by
  rw [method?, method?, setMethod, class?_modifyClass]
  · cases found : program.class? id.owner with
    | none => rfl
    | some cls =>
        simp only [Option.map_some, Option.bind_some]
        have named : cls.name = id.owner := by
          simpa using List.find?_some found
        split
        · rename_i edited
          have elsewhere : id.subsignature ≠ next.subsignature := by
            intro same
            apply different
            rw [Method.id, ← edited, named, ← same]
          have kept : ∀ method : Method,
              (if method.subsignature = next.subsignature then next
                else method).subsignature = method.subsignature := by
            intro method
            split
            · rename_i equal
              exact equal.symm
            · rfl
          simp only [Class.method?, List.find?_map, Function.comp_def, kept]
          cases other : cls.methods.find? fun method =>
              method.subsignature = id.subsignature with
          | none => rfl
          | some method =>
              have wanted : method.subsignature = id.subsignature := by
                simpa using List.find?_some other
              rw [Option.map_some, wanted, if_neg elsewhere]
        · rfl
  · exact fun _ => rfl

/-- Of two edits of one method only the second is seen. -/
theorem setMethod_setMethod {program : Program} {first second : Method}
    (same : second.id = first.id) :
    (program.setMethod first).setMethod second =
      program.setMethod second := by
  obtain ⟨owner, subsignature⟩ := MethodId.mk.inj same
  simp only [setMethod, modifyClass, List.map_map, Program.mk.injEq, and_true]
  apply List.map_congr_left
  intro cls _
  simp only [Function.comp_apply, owner]
  by_cases named : cls.name = first.owner
  · simp only [named, if_true, List.map_map, Class.mk.injEq, true_and]
    apply List.map_congr_left
    intro method _
    simp only [Function.comp_apply, subsignature]
    by_cases equal : method.subsignature = first.subsignature <;>
      simp [equal]
  · simp [named]

theorem setMethod_self {program : Program} {method : Method}
    (coherent : program.Coherent)
    (found : program.method? method.id = some method) :
    program.setMethod method = program := by
  have kept : ∀ cls ∈ program.declarations,
      (if cls.name = method.owner then
        { cls with
          methods := cls.methods.map fun other =>
            if other.subsignature = method.subsignature then method
            else other }
      else cls) = cls := by
    intro cls declared
    split
    · rename_i named
      have foundClass : program.class? method.owner = some cls :=
        coherent.class?_eq_some_iff.mpr ⟨declared, named⟩
      have foundMethod : cls.method? method.subsignature = some method := by
        simpa [method?, Method.id, foundClass] using found
      have same : ∀ other ∈ cls.methods,
          (if other.subsignature = method.subsignature then method
            else other) = other := by
        intro other member
        split
        · rename_i equal
          have foundOther : cls.method? method.subsignature = some other :=
            (find?_key_eq_some_iff
              (coherent.classes cls declared).distinct).mpr ⟨member, equal⟩
          exact Option.some.inj (foundMethod.symm.trans foundOther)
        · rfl
      rw [List.map_congr_left same, List.map_id']
    · rfl
  simp only [setMethod, modifyClass]
  rw [List.map_congr_left kept, List.map_id']

/-- The types in a heading are types of the program. -/
structure MethodHeading.Typed (program : Program) (heading : MethodHeading) :
    Prop where
  result : program.Denotes heading.result
  params : ∀ type ∈ heading.paramTypes, program.Denotes type

/-- The programs that the steps of the loader produce. -/
inductive Loaded : Program → Prop where
  | empty : Loaded {}
  | newClass {program next : Program} {heading : ClassHeading}
      (loaded : Loaded program)
      (declared : program.newClass heading = .ok next) :
      Loaded next
  | newField {program next : Program} {field : Field}
      (loaded : Loaded program)
      (declared : program.newField field = .ok next) :
      Loaded next
  | newMethod {program next : Program} {heading : MethodHeading}
      (loaded : Loaded program) (typed : heading.Typed program)
      (declared : program.newMethod heading = .ok next) :
      Loaded next
  | newVar {program : Program} {id : MethodId} {method next : Method}
      {name : String} {type : Option Ty} (loaded : Loaded program)
      (found : program.method? id = some method)
      (created : method.newVar name type = .ok next) :
      Loaded (program.setMethod next)
  | readStmt {program : Program} {id : MethodId} {method next : Method}
      {text : String} (loaded : Loaded program)
      (found : program.method? id = some method)
      (read : program.readStmt method text = .ok next) :
      Loaded (program.setMethod next)
  | setMain {program : Program} (loaded : Loaded program)
      (main : Option MethodId) :
      Loaded { program with main }

theorem Loaded.built {program : Program} (loaded : program.Loaded) :
    program.Built := by
  induction loaded with
  | empty => exact .empty
  | newClass _ declared ih => exact ih.newClass declared
  | newField _ declared ih => exact ih.newField declared
  | newMethod _ _ declared ih => exact ih.newMethod declared
  | newVar _ found created ih => exact ih.edit found (.newVar created)
  | readStmt _ found read ih => exact ih.edit found (.readStmt read)
  | setMain _ main ih => exact ih.setMain main

/-- What holds of declared methods, is kept by the steps of the loader on them
and does not depend on the absence of classes holds of all methods of loaded
programs. -/
theorem Loaded.each {holds : Program → Method → Prop}
    (grows : ∀ {program next : Program} {method : Method},
      program.names ⊆ next.names → holds program method → holds next method)
    (declares : ∀ {program : Program} {heading : MethodHeading} {cls : Class}
      {method : Method}, heading.Typed program →
      heading.declare cls = .ok method → holds program method)
    (creates : ∀ {program : Program} {method next : Method} {name : String}
      {type : Option Ty}, method.newVar name type = .ok next →
      holds program method → holds program next)
    (reads : ∀ {program : Program} {method next : Method} {text : String},
      program.readStmt method text = .ok next → holds program method →
      holds program next)
    {program : Program} (loaded : program.Loaded) :
    program.Each (holds program) := by
  have edited : ∀ {program : Program} {id : MethodId} {method next : Method},
      program.Each (holds program) → program.method? id = some method →
      (holds program method → holds program next) →
      (program.setMethod next).Each (holds (program.setMethod next)) := by
    intro program id method next each found kept
    refine (each.setMethod (kept (each.method found))).imp fun _ => grows ?_
    rw [names_setMethod]
    exact List.Subset.refl _
  induction loaded with
  | empty => exact fun _ member => nomatch member
  | newClass _ declared ih =>
      refine (ih.newClass declared).imp fun _ => grows ?_
      rcases newClass_eq_ok_iff.mp declared with ⟨_, _, rfl⟩
      exact List.subset_cons_self _ _
  | newField _ declared ih =>
      refine (ih.newField declared).imp fun _ => grows ?_
      rw [newField_eq_ok declared, names_modifyClass]
      · exact List.Subset.refl _
      · exact fun _ => rfl
  | newMethod _ typed declared ih =>
      refine (ih.newMethod (declares typed) declared).imp fun _ => grows ?_
      rcases newMethod_eq_ok declared with ⟨_, _, _, _, _, rfl⟩
      rw [names_modifyClass]
      · exact List.Subset.refl _
      · exact fun _ => rfl
  | newVar _ found created ih => exact edited ih found (creates created)
  | readStmt _ found read ih => exact edited ih found (reads read)
  | setMain _ _ ih => exact ih.imp fun _ => grows (List.Subset.refl _)

end Program

namespace Load

open Program

theorem Built.modifyMethod {ε : Type} {program next : Program}
    {id : MethodId} {change : Method → Except ε Method}
    (built : program.Built)
    (each : ∀ {method changed : Method},
      change method = .ok changed → Method.Edit program method changed)
    (modified : program.modifyMethod id change = .ok next) :
    next.Built := by
  unfold Program.modifyMethod at modified
  split at modified
  · cases modified
    exact built
  · rename_i method found
    simp only [Checked.bind_eq_ok, Checked.pure_eq_ok] at modified
    obtain ⟨changed, applied, rfl⟩ := modified
    exact built.edit found (each applied)

theorem Loaded.declareVars {lookup program : Program} {texts : List String}
    {method next : Method} (loaded : program.Loaded)
    (found : program.method? method.id = some method)
    (declared : Load.declareVars lookup texts method = .ok next) :
    (program.setMethod next).Loaded ∧ next.id = method.id := by
  induction texts generalizing program method with
  | nil =>
      cases declared
      rw [setMethod_self loaded.built.coherent found]
      exact ⟨loaded, rfl⟩
  | cons text rest ih =>
      rw [Load.declareVars, Checked.bind_eq_ok] at declared
      obtain ⟨declaration, _, declared⟩ := declared
      split at declared
      · exact absurd declared Checked.throw_bind_ne_ok
      · simp only [Checked.bind_eq_ok, Checked.mapError_eq_ok] at declared
        obtain ⟨grown, created, declared⟩ := declared
        have same := Method.id_newVar created
        have foundGrown : (program.setMethod grown).method? grown.id =
            some grown := by
          rw [same]
          exact method?_setMethod loaded.built.coherent found same
        obtain ⟨loadedLater, sameLater⟩ :=
          ih (loaded.newVar found created) foundGrown declared
        rw [setMethod_setMethod sameLater] at loadedLater
        exact ⟨loadedLater, sameLater.trans same⟩

/-! ## Declarations of classes -/

/-- The heading of the class that a description is about. -/
def headingOf (spec : ClassSpec) : ClassHeading where
  name := spec.name
  super := if spec.super.isEmpty then none else some spec.super
  interfaces := spec.interfaces
  isInterface := spec.isInterface
  isAbstract := spec.isAbstract

/-- Declare the superclass of a class, if it has one. -/
def declareSuper (specs pending : List ClassSpec) (spec : ClassSpec)
    (program : Program) : Except Error Program :=
  if spec.super.isEmpty then pure program
  else do
    let program ← declareClass specs pending program spec.super
    if isInterface program spec.super then
      throw (.extendsInterface spec.name spec.super)
    pure program

/-- Declare one of the interfaces of a class. -/
def declareInterface (specs pending : List ClassSpec) (spec : ClassSpec)
    (program : Program) (interface : String) : Except Error Program := do
  let program ← declareClass specs pending program interface
  if !isInterface program interface then
    throw (.implementsClass spec.name interface)
  pure program

section Equations

variable {specs pending : List ClassSpec} {program : Program} {name : String}

theorem declareClass_of_declared
    (declared : (program.class? name).isSome = true) :
    declareClass specs pending program name = .ok program := by
  rw [declareClass, if_pos declared]

theorem declareClass_of_absent
    (fresh : ¬ (program.class? name).isSome = true)
    (absent : pending.find? (fun spec => spec.name = name) = none) :
    declareClass specs pending program name =
      if specs.any fun spec => spec.name = name then
        .error (.cyclicInheritance name)
      else .error (.unknownType name) := by
  rw [declareClass, if_neg fresh]
  split
  · rfl
  · rename_i found
    cases absent.symm.trans found

/-- A pending class is declared after its parents. -/
theorem declareClass_of_pending {spec : ClassSpec}
    (fresh : ¬ (program.class? name).isSome = true)
    (found : pending.find? (fun spec => spec.name = name) = some spec) :
    declareClass specs pending program name = (do
      let program ← declareSuper specs (without pending name) spec program
      let program ← spec.interfaces.foldlM
        (declareInterface specs (without pending name) spec) program
      (program.newClass (headingOf spec)).mapError .construction) := by
  have named : spec.name = name := by simpa using List.find?_some found
  subst named
  rw [declareClass, if_neg fresh]
  split
  · rename_i absent
    cases absent.symm.trans found
  · rename_i other foundOther
    cases found.symm.trans foundOther
    simp only [declareSuper, headingOf]
    split
    · rfl
    · rw [bind_assoc]
      congr 1
      funext grown
      split <;> rfl

end Equations

/-! ## The phases of the loader -/

section Parents

variable {specs pending : List ClassSpec}
  (declares : ∀ {program next : Program} {name : String}, program.Loaded →
    Load.declareClass specs pending program name = .ok next → next.Loaded)
  {spec : ClassSpec} {program next : Program} (loaded : program.Loaded)

include declares loaded

theorem Loaded.declareSuper
    (declared : Load.declareSuper specs pending spec program = .ok next) :
    next.Loaded := by
  unfold Load.declareSuper at declared
  split at declared
  · cases declared
    exact loaded
  · rw [Checked.bind_eq_ok] at declared
    rcases declared with ⟨grown, parent, declared⟩
    split at declared
    · exact absurd declared Checked.throw_bind_ne_ok
    · cases declared
      exact declares loaded parent

theorem Loaded.declareInterface {interface : String}
    (declared : Load.declareInterface specs pending spec program interface =
      .ok next) : next.Loaded := by
  rw [Load.declareInterface, Checked.bind_eq_ok] at declared
  rcases declared with ⟨grown, parent, declared⟩
  split at declared
  · exact absurd declared Checked.throw_bind_ne_ok
  · cases declared
    exact declares loaded parent

end Parents

theorem Loaded.declareClass {specs pending : List ClassSpec}
    {program next : Program} {name : String} (loaded : program.Loaded)
    (declared : Load.declareClass specs pending program name = .ok next) :
    next.Loaded := by
  induction size : pending.length using Nat.strongRecOn
    generalizing pending program next name with
  | _ size ih =>
      by_cases present : (program.class? name).isSome = true
      · rw [declareClass_of_declared present] at declared
        cases declared
        exact loaded
      cases found : pending.find? fun spec => spec.name = name with
      | none =>
          rw [declareClass_of_absent present found] at declared
          split at declared <;> cases declared
      | some spec =>
          have smaller : ∀ {program next : Program} {parent : String},
              program.Loaded →
              Load.declareClass specs (without pending name) program parent =
                .ok next → next.Loaded :=
            fun loaded declared =>
              ih _ (size ▸ length_without_lt found) loaded declared rfl
          rw [declareClass_of_pending present found] at declared
          simp only [Checked.bind_eq_ok, Checked.mapError_eq_ok] at declared
          rcases declared with ⟨middle, first, final, second, created⟩
          refine .newClass (Checked.foldlM_keeps Loaded ?_
            (Loaded.declareSuper smaller loaded first) second) created
          exact fun _ _ _ _ before stepped =>
            Loaded.declareInterface smaller before stepped

theorem Loaded.declareField {owner : String} {program next : Program}
    {spec : FieldSpec} (loaded : program.Loaded)
    (declared : Load.declareField owner program spec = .ok next) :
    next.Loaded := by
  unfold Load.declareField at declared
  split at declared
  · cases declared
  · split at declared
    · cases declared
    · exact loaded.newField (Checked.mapError_eq_ok.mp declared)

theorem denotes_of_readDeclarations {program : Program} {texts : List String}
    {declarations : List Declaration}
    (read : readDeclarations program texts = .ok declarations) :
    ∀ declaration ∈ declarations, program.Denotes declaration.type := by
  induction texts generalizing declarations with
  | nil =>
      cases read
      intro declaration member
      cases member
  | cons text rest ih =>
      simp only [readDeclarations, Checked.bind_eq_ok,
        Checked.pure_eq_ok] at read
      rcases read with ⟨first, readFirst, others, readOthers, rfl⟩
      refine List.forall_mem_cons.mpr ⟨?_, ih readOthers⟩
      unfold readDeclaration at readFirst
      split at readFirst
      · split at readFirst
        · rename_i type found
          cases readFirst
          exact denotes_of_readType? found
        · cases readFirst
      · cases readFirst

theorem denotes_of_readResult {program : Program} {name : String} {type : Ty}
    (read : readResult program name = .ok type) : program.Denotes type := by
  unfold readResult at read
  split at read
  · cases read
    exact .prim _
  · split at read
    · rename_i found
      cases read
      exact denotes_of_readType? found
    · cases read

theorem Loaded.declareMethod {owner : String} {program next : Program}
    {spec : MethodSpec} {id : MethodId} (loaded : program.Loaded)
    (declared : Load.declareMethod owner program spec = .ok (next, id)) :
    next.Loaded := by
  simp only [Load.declareMethod, Checked.bind_eq_ok] at declared
  obtain ⟨params, readParams, _, _, result, readResult, declared⟩ := declared
  split at declared
  · exact absurd declared Checked.throw_bind_ne_ok
  · simp only [Checked.bind_eq_ok, Checked.mapError_eq_ok, Checked.pure_eq_ok,
      Prod.mk.injEq] at declared
    obtain ⟨grown, created, final, modified, rfl, rfl⟩ := declared
    have typed : ∀ type ∈ params.map Declaration.type,
        program.Denotes type :=
      List.forall_mem_map.mpr (denotes_of_readDeclarations readParams)
    have loadedGrown := loaded.newMethod
      ⟨denotes_of_readResult readResult, typed⟩ created
    unfold Program.modifyMethod at modified
    split at modified
    · cases modified
      exact loadedGrown
    · rename_i method found
      simp only [Checked.bind_eq_ok, Checked.pure_eq_ok] at modified
      obtain ⟨changed, declaredVars, rfl⟩ := modified
      have same := (loadedGrown.built.coherent.method found).2
      exact (Loaded.declareVars loadedGrown (same ▸ found) declaredVars).1

theorem Loaded.declareMembers {state next : Program × List Body}
    {spec : ClassSpec} (loaded : state.1.Loaded)
    (declared : Load.declareMembers state spec = .ok next) :
    next.1.Loaded := by
  simp only [Load.declareMembers, Checked.bind_eq_ok] at declared
  obtain ⟨program, fields, methods⟩ := declared
  have loadedFields : program.Loaded :=
    Checked.foldlM_keeps Loaded (fun _ _ => Loaded.declareField) loaded fields
  refine Checked.foldlM_keeps (fun state => state.1.Loaded) ?_ loadedFields
    methods
  intro method _ before after loadedBefore stepped
  simp only [Load.declareBody, Checked.bind_eq_ok, Checked.mapError_eq_ok]
    at stepped
  obtain ⟨⟨grown, id⟩, created, stepped⟩ := stepped
  have loadedGrown := Loaded.declareMethod loadedBefore created
  simp only at stepped
  split at stepped
  · rw [Checked.pure_eq_ok] at stepped
    exact stepped ▸ loadedGrown
  · split at stepped
    · simp at stepped
    · rw [Checked.pure_eq_ok] at stepped
      exact stepped ▸ loadedGrown

theorem Loaded.readBody {program next : Program} {body : Body}
    (loaded : program.Loaded)
    (read : Load.readBody program body = .ok next) :
    next.Loaded := by
  rw [Load.readBody, Checked.mapError_eq_ok] at read
  refine Checked.foldlM_keeps Loaded ?_ loaded read
  intro text _ before after loadedBefore stepped
  unfold Program.addStmt Program.modifyMethod at stepped
  split at stepped
  · cases stepped
    exact loadedBefore
  · rename_i method found
    simp only [Checked.bind_eq_ok, Checked.pure_eq_ok] at stepped
    obtain ⟨changed, read, rfl⟩ := stepped
    exact loadedBefore.readStmt found read

end Load

/-- The loader takes no other steps. -/
theorem Program.loaded_of_load {spec : ProgramSpec} {program : Program}
    (loaded : spec.load = .ok program) :
    program.Loaded := by
  simp only [ProgramSpec.load, Checked.bind_eq_ok] at loaded
  obtain ⟨_, _, declared, classes, ⟨members, bodies⟩, grown, read, texts,
    loaded⟩ := loaded
  have loadedClasses : declared.Loaded :=
    Checked.foldlM_keeps Loaded (fun _ _ => Load.Loaded.declareClass) .empty
      classes
  have loadedMembers : members.Loaded :=
    Checked.foldlM_keeps (fun state => state.1.Loaded)
      (fun _ _ => Load.Loaded.declareMembers) loadedClasses grown
  have loadedBodies : read.Loaded :=
    Checked.foldlM_keeps Loaded (fun _ _ => Load.Loaded.readBody)
      loadedMembers texts
  split at loaded
  · rw [Checked.pure_eq_ok] at loaded
    exact loaded ▸ loadedBodies
  · simp only [Checked.bind_eq_ok, Checked.pure_eq_ok] at loaded
    obtain ⟨main, _, rfl⟩ := loaded
    exact loadedBodies.setMain _

namespace Program

/-- Programs are built step by step or loaded from a description. -/
def Made (program : Program) : Prop :=
  program.Built ∨ ∃ spec : ProgramSpec, spec.load = .ok program

theorem Made.built {program : Program} (made : program.Made) :
    program.Built := by
  rcases made with built | ⟨spec, loaded⟩
  · exact built
  · exact (loaded_of_load loaded).built

theorem Made.coherent {program : Program} (made : program.Made) :
    program.Coherent :=
  made.built.coherent

end Program

end PointsTo
