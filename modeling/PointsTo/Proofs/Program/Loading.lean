import PointsTo.Proofs.Program.Hierarchy

/-!
# Loading breaks no rule of construction

The loader checks a description before it takes a building step: classes are
declared after the classes that they build on and only once, members are
compared with those that are there, parameters with each other and with the
receiver, and further variables with the parameters.  So no building step is
ever refused, and a description is rejected by a check or becomes a program.
-/

namespace PointsTo

open Checked

/-! ## Building steps that are not refused -/

namespace Program

theorem ensures_newField {program : Program} {field : Field} {cls : Class}
    (found : program.class? field.owner = some cls)
    (fresh : ¬ (cls.field? field.name).isSome = true) :
    Ensures (fun _ => False) (fun next => next.names = program.names)
      (program.newField field) := by
  simp only [newField, found, if_neg fresh]
  exact .ok (names_modifyClass fun _ => rfl)

/-- Parameters are created if their names are new and distinct. -/
theorem ensures_addParams {method : Method} {pairs : List (String × Ty)}
    (distinct : (pairs.map Prod.fst).Nodup)
    (fresh : ∀ name ∈ pairs.map Prod.fst, ¬ method.hasLocal name = true) :
    Ensures (fun _ => False) (fun _ => True) (addParams method pairs) := by
  induction pairs generalizing method with
  | nil => exact .ok trivial
  | cons pair rest ih =>
      rcases pair with ⟨name, type⟩
      rw [List.map_cons, List.nodup_cons] at distinct
      rcases distinct with ⟨once, distinct⟩
      rw [addParams,
        Method.newVar_eq_ok_iff.mpr ⟨fresh name (.head _), rfl⟩]
      apply ih distinct
      intro other listed
      have old := fresh other (.tail _ listed)
      have different : other ≠ name := fun same => once (same ▸ listed)
      rw [Method.hasLocal_iff] at old ⊢
      simp [Method.withLocals, different, old]

/-- A method is declared if its subsignature is new in its class, and its
parameters have distinct names, none of them that of the receiver. -/
theorem ensures_newMethod {program : Program} {heading : MethodHeading}
    {cls : Class} (found : program.class? heading.owner = some cls)
    (fresh : ¬ (cls.method? heading.id.subsignature).isSome = true)
    (counted : heading.names.length = heading.paramTypes.length)
    (distinct : heading.names.Nodup)
    (notThis : heading.isStatic = false →
      Method.thisName ∉ heading.names) :
    Ensures (fun _ => False) (fun next => next.names = program.names)
      (program.newMethod heading) := by
  have names : (heading.paramNames.zip heading.paramTypes).map Prod.fst =
      heading.names := by
    rw [MethodHeading.paramNames, if_pos counted]
    exact List.map_fst_zip (Nat.le_of_eq counted)
  have declares : Ensures (fun _ => False) (fun _ => True)
      (heading.declare cls) := by
    rw [heading.declare_eq]
    apply ensures_addParams
    · rwa [names]
    · intro name listed present
      rw [names] at listed
      rcases MethodHeading.hasLocal_bare.mp present with ⟨isStatic, rfl⟩
      exact notThis isStatic listed
  simp only [newMethod, found]
  split
  · contradiction
  · exact declares.bind fun _ _ => .ok (names_modifyClass fun _ => rfl)

theorem guarded_modifyMethod {program : Program} {id : MethodId}
    {change : Method → Except Error Method}
    (guarded : ∀ method, Guarded (fun _ => True) (change method)) :
    Guarded (fun next => next.names = program.names)
      (program.modifyMethod id change) := by
  unfold modifyMethod
  split
  · exact .ok rfl
  · exact (guarded _).bind fun changed _ =>
      .ok (program.names_setMethod changed)

end Program

namespace Load

open Program

/-! ## Fields and methods -/

theorem guarded_readDeclaration (program : Program) (text : String) :
    Guarded (fun _ => True) (readDeclaration program text) := by
  unfold readDeclaration
  split
  · split
    · exact .ok trivial
    · exact .error rfl
  · exact .error rfl

theorem guarded_readDeclarations (program : Program) (texts : List String) :
    Guarded (fun _ => True) (readDeclarations program texts) := by
  induction texts with
  | nil => exact .ok trivial
  | cons text rest ih =>
      refine (guarded_readDeclaration program text).bind fun _ _ => ?_
      exact ih.bind fun _ _ => .ok trivial

/-- Parameters that pass the check differ from each other and from what has
been seen before. -/
theorem guarded_checkParams (seen : List String) (params : List Declaration) :
    Guarded (fun _ => (params.map Declaration.name).Nodup ∧
        ∀ name ∈ params.map Declaration.name, name ∉ seen)
      (checkParams seen params) := by
  induction params generalizing seen with
  | nil => exact .ok ⟨.nil, nofun⟩
  | cons param rest ih =>
      rw [checkParams]
      split
      · exact .error rfl
      · rename_i fresh
        refine (ih _).mono ?_
        rintro _ ⟨distinct, others⟩
        rw [List.map_cons, List.nodup_cons, List.forall_mem_cons]
        refine ⟨⟨?_, distinct⟩, by simpa using fresh, ?_⟩
        · exact fun listed => others _ listed (.head _)
        · exact fun name listed taken => others name listed (.tail _ taken)

theorem guarded_readResult (program : Program) (name : String) :
    Guarded (fun _ => True) (readResult program name) := by
  unfold readResult
  split
  · exact .ok trivial
  · split
    · exact .ok trivial
    · exact .error rfl

theorem guarded_declareField {owner : String} {program : Program}
    (declared : owner ∈ program.names) (spec : FieldSpec) :
    Guarded (fun next => next.names = program.names)
      (declareField owner program spec) := by
  rcases exists_class?_eq declared with ⟨cls, found⟩
  unfold declareField
  split
  · exact .error rfl
  · split
    · exact .error rfl
    · rename_i fresh
      rw [found, Option.any_some] at fresh
      exact guarded_construction.mpr (ensures_newField found fresh)

theorem guarded_declareVars (program : Program) (texts : List String)
    (method : Method) :
    Guarded (fun _ => True) (declareVars program texts method) := by
  induction texts generalizing method with
  | nil => exact .ok trivial
  | cons text rest ih =>
      refine (guarded_readDeclaration program text).bind fun _ _ => ?_
      split
      · exact .error rfl
      · rename_i fresh
        rw [Method.newVar_eq_ok_iff.mpr ⟨fresh, rfl⟩]
        exact ih _

theorem guarded_declareMethod {owner : String} {program : Program}
    (declared : owner ∈ program.names) (spec : MethodSpec) :
    Guarded (fun next => next.1.names = program.names)
      (declareMethod owner program spec) := by
  rcases exists_class?_eq declared with ⟨cls, found⟩
  refine (guarded_readDeclarations program spec.params).bind
    fun params _ => ?_
  refine (guarded_checkParams _ params).bind ?_
  rintro _ ⟨distinct, others⟩
  refine (guarded_readResult program spec.result).bind fun result _ => ?_
  simp only
  split
  · exact .error rfl
  · rename_i fresh
    -- The check and the building step look for the same subsignature.
    simp only [method?, found, Option.bind_some] at fresh
    refine Ensures.bind (guarded_construction.mpr (ensures_newMethod found
      fresh (by simp) distinct ?_)) ?_
    · intro isStatic listed
      have instanceMethod : spec.isStatic = false := isStatic
      simpa [instanceMethod] using others _ listed
    · intro grown same
      refine (guarded_modifyMethod
        (guarded_declareVars grown spec.vars)).bind ?_
      exact fun next kept => .ok (kept.trans same)

theorem guarded_declareBody {owner : String} {state : Program × List Body}
    (declared : owner ∈ state.1.names) (spec : MethodSpec) :
    Guarded (fun next => next.1.names = state.1.names)
      (declareBody owner state spec) := by
  refine (guarded_within.mpr (guarded_declareMethod declared spec)).bind ?_
  rintro ⟨grown, id⟩ same
  simp only
  split
  · exact .ok same
  · split
    · exact .error rfl
    · exact .ok same

theorem guarded_declareMembers {state : Program × List Body}
    {spec : ClassSpec} (declared : spec.name ∈ state.1.names) :
    Guarded (fun next => next.1.names = state.1.names)
      (declareMembers state spec) := by
  have fields : Guarded (fun next => next.names = state.1.names)
      (spec.fields.foldlM (declareField spec.name) state.1) := by
    apply Ensures.foldlM_keeps
    · intro field _ before same
      refine (guarded_declareField (same ▸ declared) field).mono ?_
      exact fun _ kept => kept.trans same
    · rfl
  refine fields.bind fun program same => ?_
  apply Ensures.foldlM_keeps
  · intro method _ before same
    refine (guarded_declareBody (same ▸ declared) method).mono ?_
    exact fun _ kept => kept.trans same
  · exact same

theorem guarded_readBody (program : Program) (body : Body) :
    Guarded (fun _ => True) (readBody program body) := by
  rw [readBody, guarded_within]
  apply Ensures.foldlM_keeps
  · intro text _ before _
    refine (guarded_modifyMethod fun method => ?_).mono fun _ _ => trivial
    exact (before.guarded_readStmt method text).mono fun _ _ => trivial
  · trivial

theorem guarded_checkNames (seen : List String) (specs : List ClassSpec) :
    Guarded (fun _ => True) (checkNames seen specs) := by
  induction specs generalizing seen with
  | nil => exact .ok trivial
  | cons spec rest ih =>
      rw [checkNames]
      split
      · exact .error rfl
      · exact ih _

end Load

/-! ## Programs -/

namespace ProgramSpec

open Load

theorem guarded_declareClasses (spec : ProgramSpec) :
    Guarded (fun next => ∀ cls ∈ spec.classes, cls.name ∈ next.names)
      (declareClasses spec.classes) := by
  refine ((ensures_declareClasses spec.classes).imp
    fun problem broken => broken.found).mono ?_
  rintro next ⟨order, realizes, all⟩
  rw [realizes.names_eq]
  exact all

/-- A description is rejected by a check, or it is loaded. -/
theorem guarded_load (spec : ProgramSpec) :
    Guarded (fun _ => True) spec.load := by
  refine (guarded_checkNames [] spec.classes).bind fun _ _ => ?_
  refine spec.guarded_declareClasses.bind fun declared all => ?_
  have members : Guarded (fun next => next.1.names = declared.names)
      (spec.classes.foldlM declareMembers (declared, [])) := by
    apply Ensures.foldlM_keeps
    · intro cls listed before same
      refine (guarded_declareMembers (same ▸ all cls listed)).mono ?_
      exact fun _ kept => kept.trans same
    · rfl
  refine members.bind ?_
  rintro ⟨program, bodies⟩ _
  have read : Guarded (fun _ => True) (bodies.foldlM readBody program) := by
    apply Ensures.foldlM_keeps
    · exact fun body _ before _ => guarded_readBody before body
    · trivial
  refine read.bind fun complete _ => ?_
  split
  · exact .ok trivial
  · exact (guarded_within.mpr (complete.guarded_findMethod spec.main)).bind
      fun _ _ => .ok trivial

end ProgramSpec

/-! ## Calls of known kinds -/

/-- The statements of loaded programs have been read from texts. -/
theorem Program.Loaded.known {program : Program} (loaded : program.Loaded) :
    program.Each fun method => ∀ stmt ∈ method.body, stmt.Known := by
  refine @Loaded.each (fun _ method => ∀ stmt ∈ method.body, stmt.Known)
    (fun _ known => known) ?_ ?_ ?_ program loaded
  · intro _ heading cls method _ created
    rw [body_declare created]
    nofun
  · intro _ method next name type created known
    rcases Method.newVar_eq_ok_iff.mp created with ⟨_, rfl⟩
    exact known
  · intro program method next text read known
    have extended := program.guarded_readStmt method text
    rw [read] at extended
    rcases ensures_ok.mp extended with ⟨stmt, knownNew, body⟩
    rw [body]
    intro other member
    rcases List.mem_append.mp member with old | new
    · exact known other old
    · rw [List.mem_singleton.mp new]
      exact knownNew

end PointsTo
