import PointsTo.Proofs.Program.Coherent

/-!
# Built programs

The programs that the building steps produce from the empty program.  Built
programs are coherent, so that a method is found under its identity and its
records can be relied on.
-/

namespace PointsTo

/-- One building step on a method of `program`. -/
inductive Method.Edit (program : Program) : Method → Method → Prop where
  | newVar {method next : Method} {name : String} {type : Option Ty}
      (created : method.newVar name type = .ok next) :
      Edit program method next
  | addNew {method next : Method} {target : Var} {type : Ty}
      (added : method.addNew target type = .ok next) :
      Edit program method next
  | addCopy {method next : Method} {target source : Var}
      (added : method.addCopy target source = .ok next) :
      Edit program method next
  | addLoadField {method next : Method} {target : Var} {base : Option Var}
      {field : Field}
      (added : method.addLoadField target base field = .ok next) :
      Edit program method next
  | addStoreField {method next : Method} {base : Option Var} {field : Field}
      {source : Var}
      (added : method.addStoreField base field source = .ok next) :
      Edit program method next
  | addLoadArray {method next : Method} {target base : Var}
      (added : method.addLoadArray target base = .ok next) :
      Edit program method next
  | addStoreArray {method next : Method} {base source : Var}
      (added : method.addStoreArray base source = .ok next) :
      Edit program method next
  | addInvoke {method next : Method} {kind : CallKind} {ref : MethodRef}
      {receiver : Option Var} {args : List Var} {result : Option Var}
      (added : method.addInvoke kind ref receiver args result = .ok next) :
      Edit program method next
  | addReturn {method next : Method} {value : Option Var}
      (added : method.addReturn value = .ok next) :
      Edit program method next
  | readStmt {method next : Method} {text : String}
      (read : program.readStmt method text = .ok next) :
      Edit program method next

/-- The programs that the building steps produce. -/
inductive Program.Built : Program → Prop where
  | empty : Built {}
  | newClass {program next : Program} {heading : ClassHeading}
      (built : Built program)
      (declared : program.newClass heading = .ok next) :
      Built next
  | newField {program next : Program} {field : Field}
      (built : Built program)
      (declared : program.newField field = .ok next) :
      Built next
  | newMethod {program next : Program} {heading : MethodHeading}
      (built : Built program)
      (declared : program.newMethod heading = .ok next) :
      Built next
  | edit {program : Program} {id : MethodId} {method next : Method}
      (built : Built program)
      (found : program.method? id = some method)
      (edited : Method.Edit program method next) :
      Built (program.setMethod next)
  | setMain {program : Program} (built : Built program)
      (main : Option MethodId) :
      Built { program with main }

/-! ## Edits -/

namespace Method

/-- An edit creates a variable or reads or appends a statement. -/
theorem Edit.cases {program : Program} {method next : Method}
    (edited : Edit program method next) :
    (∃ name type, method.newVar name type = .ok next) ∨
      Program.Reads method next := by
  cases edited with
  | newVar created => exact Or.inl ⟨_, _, created⟩
  | addNew added => exact Or.inr ⟨[], _, addNew_eq_ok added⟩
  | addCopy added => exact Or.inr ⟨[], _, addCopy_eq_ok added⟩
  | addLoadField added => exact Or.inr ⟨[], _, addLoadField_eq_ok added⟩
  | addStoreField added => exact Or.inr ⟨[], _, addStoreField_eq_ok added⟩
  | addLoadArray added => exact Or.inr ⟨[], _, addLoadArray_eq_ok added⟩
  | addStoreArray added => exact Or.inr ⟨[], _, addStoreArray_eq_ok added⟩
  | addInvoke added => exact Or.inr ⟨[], _, addInvoke_eq_ok added⟩
  | addReturn added => exact Or.inr ⟨[], _, addReturn_eq_ok added⟩
  | readStmt read => exact Or.inr (Program.readStmt_eq_ok read)

theorem id_newVar {method next : Method} {name : String}
    {type : Option Ty} (created : method.newVar name type = .ok next) :
    next.id = method.id := by
  rcases newVar_eq_ok_iff.mp created with ⟨_, rfl⟩
  rfl

theorem Edit.coherent {program : Program} {method next : Method}
    (edited : Edit program method next) (coherent : method.Coherent) :
    next.Coherent := by
  rcases edited.cases with ⟨name, type, created⟩ | read
  · exact coherent.newVar created
  · exact coherent.reads read

/-- An edit changes neither the parameters nor whether there is a receiver. -/
theorem Edit.heading {program : Program} {method next : Method}
    (edited : Edit program method next) :
    next.params = method.params ∧ next.paramTypes = method.paramTypes ∧
      next.isStatic = method.isStatic := by
  rcases edited.cases with ⟨name, type, created⟩ | ⟨names, stmt, _, rfl⟩
  · rcases newVar_eq_ok_iff.mp created with ⟨_, rfl⟩
    exact ⟨rfl, rfl, rfl⟩
  · rcases method.exists_ensureVars_eq names with ⟨_, grown, _⟩
    rw [grown]
    exact ⟨rfl, rfl, rfl⟩

end Method

/-! ## Declared methods -/

theorem Method.this?_eq_some_iff {method : Method} {name : String} :
    method.this? = some name ↔
      method.isStatic = false ∧ thisName = name := by
  simp [this?]

namespace Program

/-- Parameters are further variables that no statement uses. -/
theorem addParams_eq_ok {method next : Method} {pairs : List (String × Ty)}
    (added : addParams method pairs = .ok next)
    (coherent : method.Coherent) :
    next.id = method.id ∧ next.Coherent := by
  induction pairs generalizing method with
  | nil =>
      cases added
      exact ⟨rfl, coherent⟩
  | cons pair rest ih =>
      rw [addParams, Checked.bind_eq_ok] at added
      obtain ⟨grown, created, added⟩ := added
      have present := Method.hasLocal_newVar created
      have named := Method.id_newVar created
      obtain ⟨same, whole⟩ :=
        ih added ((coherent.newVar created).addParam present)
      exact ⟨same.trans named, whole⟩

/-- Nothing else changes. -/
theorem exists_addParams_eq {method next : Method}
    {pairs : List (String × Ty)}
    (added : addParams method pairs = .ok next) :
    ∃ entries params, next = { method.withLocals entries with params } := by
  induction pairs generalizing method with
  | nil =>
      cases added
      exact ⟨[], next.params, by simp [Method.withLocals]⟩
  | cons pair rest ih =>
      rw [addParams, Checked.bind_eq_ok] at added
      rcases added with ⟨grown, created, added⟩
      rcases Method.newVar_eq_ok_iff.mp created with ⟨_, rfl⟩
      rcases ih added with ⟨entries, params, rfl⟩
      refine ⟨{ name := pair.1, type := some pair.2 } :: entries, params, ?_⟩
      simp [Method.withLocals]

namespace MethodHeading

/-- The identity of the method that a heading declares. -/
def id (heading : MethodHeading) : MethodId :=
  ⟨heading.owner,
    PointsTo.subsignature heading.name heading.paramTypes heading.result⟩

/-- The method that a heading declares, before it has its parameters. -/
def bare (heading : MethodHeading) (cls : Class) : Method where
  owner := heading.owner
  name := heading.name
  paramTypes := heading.paramTypes
  result := heading.result
  isStatic := heading.isStatic
  isAbstract := heading.isAbstract || cls.isInterface
  params := []
  locals :=
    if heading.isStatic then []
    else [{ name := Method.thisName, type := some (.cls heading.owner) }]

theorem declare_eq (heading : MethodHeading) (cls : Class) :
    heading.declare cls =
      addParams (heading.bare cls)
        (heading.paramNames.zip heading.paramTypes) := by
  rcases heading with ⟨_, _, _, _, isStatic, _, _⟩
  cases isStatic <;> rfl

/-- Before it has its parameters, a method has only its receiver. -/
theorem hasLocal_bare {heading : MethodHeading} {cls : Class}
    {name : String} :
    (heading.bare cls).hasLocal name = true ↔
      heading.isStatic = false ∧ name = Method.thisName := by
  cases isStatic : heading.isStatic <;>
    simp [bare, Method.hasLocal, isStatic, eq_comm]

theorem bare_coherent (heading : MethodHeading) (cls : Class) :
    (heading.bare cls).Coherent := by
  refine .ofEmpty rfl rfl rfl ?_ ?_ ?_
  · cases isStatic : heading.isStatic <;> simp [bare, isStatic]
  · intro entry member use
    cases isStatic : heading.isStatic with
    | true => simp [bare, isStatic] at member
    | false =>
        simp only [bare, isStatic, Bool.false_eq_true, if_false,
          List.mem_singleton] at member
        rw [member]
        cases use <;> rfl
  · intro name bound
    rcases Method.this?_eq_some_iff.mp bound with ⟨isStatic, named⟩
    exact hasLocal_bare.mpr ⟨isStatic, named.symm⟩

end MethodHeading

/-- A declared method has its receiver and its parameters as variables. -/
theorem declare_eq_ok {heading : MethodHeading} {cls : Class}
    {method : Method} (declared : heading.declare cls = .ok method) :
    method.id = heading.id ∧ method.Coherent := by
  rw [heading.declare_eq] at declared
  exact addParams_eq_ok declared (heading.bare_coherent cls)

/-- A declared method has no statements. -/
theorem body_declare {heading : MethodHeading} {cls : Class}
    {method : Method} (declared : heading.declare cls = .ok method) :
    method.body = [] := by
  rw [heading.declare_eq] at declared
  rcases exists_addParams_eq declared with ⟨entries, params, rfl⟩
  rfl

end Program

/-! ## Coherent programs -/

/-- The methods of a class belong to it and can be told apart. -/
structure Class.Coherent (cls : Class) : Prop where
  owned : ∀ method ∈ cls.methods, method.owner = cls.name
  distinct : (cls.methods.map Method.subsignature).Nodup
  methods : ∀ method ∈ cls.methods, method.Coherent

namespace Program

/-- The classes can be told apart and are coherent. -/
structure Coherent (program : Program) : Prop where
  distinct : (program.declarations.map Class.name).Nodup
  classes : ∀ cls ∈ program.declarations, cls.Coherent

theorem Coherent.class?_eq_some_iff {program : Program}
    (coherent : program.Coherent) {name : String} {cls : Class} :
    program.class? name = some cls ↔
      cls ∈ program.declarations ∧ cls.name = name :=
  find?_key_eq_some_iff coherent.distinct

/-- A method is found under the identity that it has in its class. -/
theorem Coherent.method?_eq_some_iff {program : Program}
    (coherent : program.Coherent) {id : MethodId} {method : Method} :
    program.method? id = some method ↔
      ∃ cls ∈ program.declarations, method ∈ cls.methods ∧
        method.id = id := by
  simp only [method?, Option.bind_eq_some_iff, coherent.class?_eq_some_iff,
    and_assoc]
  constructor
  · rintro ⟨cls, declared, named, found⟩
    have whole := coherent.classes cls declared
    obtain ⟨member, same⟩ :=
      (find?_key_eq_some_iff whole.distinct).mp found
    refine ⟨cls, declared, member, ?_⟩
    simp only [Method.id, whole.owned method member, same, named]
  · rintro ⟨cls, declared, member, rfl⟩
    have whole := coherent.classes cls declared
    exact ⟨cls, declared, (whole.owned method member).symm,
      (find?_key_eq_some_iff whole.distinct).mpr ⟨member, rfl⟩⟩

theorem Coherent.method {program : Program} (coherent : program.Coherent)
    {id : MethodId} {method : Method}
    (found : program.method? id = some method) :
    method.Coherent ∧ method.id = id := by
  obtain ⟨cls, declared, member, same⟩ :=
    coherent.method?_eq_some_iff.mp found
  exact ⟨(coherent.classes cls declared).methods method member, same⟩

theorem mem_methods_of_method? {program : Program}
    (coherent : program.Coherent) {id : MethodId} {method : Method}
    (found : program.method? id = some method) :
    method ∈ program.methods ∧ method.id = id := by
  refine ⟨?_, (coherent.method found).2⟩
  obtain ⟨cls, declared, listed⟩ := Option.bind_eq_some_iff.mp found
  refine List.mem_flatMap.mpr ⟨cls, ?_, List.mem_of_find?_eq_some listed⟩
  exact List.mem_reverse.mpr (List.mem_of_find?_eq_some declared)

theorem Coherent.method?_of_mem {program : Program}
    (coherent : program.Coherent) {method : Method}
    (member : method ∈ program.methods) :
    program.method? method.id = some method := by
  rcases List.mem_flatMap.mp member with ⟨cls, declared, listed⟩
  exact coherent.method?_eq_some_iff.mpr
    ⟨cls, List.mem_reverse.mp declared, listed, rfl⟩

/-- The names of the declared classes, the newest first. -/
def names (program : Program) : List String :=
  program.declarations.map Class.name

theorem isSome_class?_iff {program : Program} {name : String} :
    (program.class? name).isSome = true ↔ name ∈ program.names := by
  simp [class?, names, List.find?_isSome]

theorem names_modifyClass {program : Program} {name : String}
    {change : Class → Class}
    (sameName : ∀ cls, (change cls).name = cls.name) :
    (program.modifyClass name change).names = program.names := by
  simp only [names, modifyClass, List.map_map]
  apply List.map_congr_left
  intro cls _
  simp only [Function.comp_apply]
  split
  · exact sameName cls
  · rfl

theorem names_setMethod (program : Program) (method : Method) :
    (program.setMethod method).names = program.names :=
  names_modifyClass fun _ => rfl

/-! ### Declarations -/

/-- The class that a heading declares. -/
def ClassHeading.declare (heading : ClassHeading) : Class where
  name := heading.name
  super := heading.super
  interfaces := heading.interfaces
  isInterface := heading.isInterface
  isAbstract := heading.isInterface || heading.isAbstract

/-- A class is declared if its name is new and its parents are declared. -/
theorem newClass_eq_ok_iff {program next : Program} {heading : ClassHeading} :
    program.newClass heading = .ok next ↔
      heading.name ∉ program.names ∧
        (∀ parent ∈ heading.declare.parents, parent ∈ program.names) ∧
        next = { program with
          declarations := heading.declare :: program.declarations } := by
  have known : (heading.super.toList ++ heading.interfaces).find?
      (fun parent => (program.class? parent).isNone) = none ↔
        ∀ parent ∈ heading.declare.parents, parent ∈ program.names := by
    rw [List.find?_eq_none]
    refine forall₂_congr fun parent _ => ?_
    rw [← isSome_class?_iff, Option.isNone_iff_eq_none, ← ne_eq,
      Option.ne_none_iff_isSome]
  rw [newClass, ← known]
  split
  · rename_i taken
    exact ⟨nofun, fun declared =>
      absurd (isSome_class?_iff.mp taken) declared.1⟩
  · rename_i fresh
    rw [isSome_class?_iff] at fresh
    split
    · rename_i missing
      rw [missing]
      exact ⟨nofun, fun declared => nomatch declared.2.1⟩
    · rename_i complete
      rw [complete, Except.ok.injEq]
      exact ⟨fun same => ⟨fresh, rfl, same.symm⟩, fun same => same.2.2.symm⟩

/-- A field becomes the last one of its class. -/
theorem newField_eq_ok {program next : Program} {field : Field}
    (declared : program.newField field = .ok next) :
    next = program.modifyClass field.owner fun cls =>
      { cls with fields := cls.fields ++ [field] } := by
  unfold newField at declared
  split at declared
  · cases declared
  · split at declared
    · cases declared
    · cases declared
      rfl

/-- A method becomes the last one of its class, where it is new. -/
theorem newMethod_eq_ok {program next : Program} {heading : MethodHeading}
    (declared : program.newMethod heading = .ok next) :
    ∃ cls method, program.class? heading.owner = some cls ∧
      ¬ (cls.method? heading.id.subsignature).isSome = true ∧
      heading.declare cls = .ok method ∧
      next = program.modifyClass heading.owner fun cls =>
        { cls with methods := cls.methods ++ [method] } := by
  unfold newMethod at declared
  split at declared
  · cases declared
  · rename_i cls found
    simp only at declared
    split at declared
    · exact absurd declared Checked.throw_bind_ne_ok
    · rename_i fresh
      simp only [Checked.bind_eq_ok, Checked.pure_eq_ok] at declared
      rcases declared with ⟨method, created, rfl⟩
      exact ⟨cls, method, found, fresh, created, rfl⟩

/-! ### Coherence -/

/-- Changing one class keeps a program coherent if it keeps the class so. -/
theorem Coherent.modifyClass {program : Program}
    (coherent : program.Coherent) {name : String} {change : Class → Class}
    (sameName : ∀ cls, (change cls).name = cls.name)
    (changed : ∀ cls, program.class? name = some cls → cls.Coherent →
      (change cls).Coherent) :
    (program.modifyClass name change).Coherent where
  distinct := by
    change (program.modifyClass name change).names.Nodup
    rw [names_modifyClass sameName]
    exact coherent.distinct
  classes := by
    intro cls member
    simp only [Program.modifyClass, List.mem_map] at member
    obtain ⟨old, declared, rfl⟩ := member
    have whole := coherent.classes old declared
    split
    · rename_i named
      exact changed old
        (coherent.class?_eq_some_iff.mpr ⟨declared, named⟩) whole
    · exact whole

theorem Coherent.newClass {program next : Program}
    (coherent : program.Coherent) {heading : ClassHeading}
    (declared : program.newClass heading = .ok next) :
    next.Coherent := by
  rcases newClass_eq_ok_iff.mp declared with ⟨fresh, _, rfl⟩
  refine ⟨List.nodup_cons.mpr ⟨fresh, coherent.distinct⟩, ?_⟩
  intro cls member
  rcases List.mem_cons.mp member with rfl | old
  · exact ⟨nofun, .nil, nofun⟩
  · exact coherent.classes cls old

theorem Coherent.newField {program next : Program}
    (coherent : program.Coherent) {field : Field}
    (declared : program.newField field = .ok next) :
    next.Coherent := by
  rw [newField_eq_ok declared]
  exact coherent.modifyClass (fun _ => rfl)
    fun cls _ whole => ⟨whole.owned, whole.distinct, whole.methods⟩

theorem Coherent.newMethod {program next : Program}
    (coherent : program.Coherent) {heading : MethodHeading}
    (declared : program.newMethod heading = .ok next) :
    next.Coherent := by
  rcases newMethod_eq_ok declared with ⟨cls, method, found, fresh, created, rfl⟩
  obtain ⟨same, whole⟩ := declare_eq_ok created
  obtain ⟨owner, subsignature⟩ := MethodId.mk.inj same
  refine coherent.modifyClass (fun _ => rfl) ?_
  intro same foundAgain oldWhole
  obtain rfl : cls = same := by simpa [found] using foundAgain
  have named := (coherent.class?_eq_some_iff.mp found).2
  refine ⟨?_, ?_, ?_⟩
  · intro other member
    rcases List.mem_append.mp member with old | new
    · exact oldWhole.owned other old
    · rw [List.mem_singleton.mp new, owner, named]
  · have absent : method.subsignature ∉
        cls.methods.map Method.subsignature := by
      intro taken
      obtain ⟨other, member, same⟩ := List.mem_map.mp taken
      refine fresh (Option.isSome_iff_exists.mpr ⟨other, ?_⟩)
      exact (find?_key_eq_some_iff oldWhole.distinct).mpr
        ⟨member, same.trans subsignature⟩
    simpa using List.Nodup.concat absent oldWhole.distinct
  · intro other member
    rcases List.mem_append.mp member with old | new
    · exact oldWhole.methods other old
    · rw [List.mem_singleton.mp new]
      exact whole

theorem Coherent.setMethod {program : Program} (coherent : program.Coherent)
    {next : Method} (whole : next.Coherent) :
    (program.setMethod next).Coherent := by
  refine coherent.modifyClass (fun _ => rfl) ?_
  intro target foundClass targetWhole
  have named : next.owner = target.name :=
    (coherent.class?_eq_some_iff.mp foundClass).2.symm
  refine ⟨?_, ?_, ?_⟩
  · intro other changed
    obtain ⟨old, present, rfl⟩ := List.mem_map.mp changed
    split
    · exact named
    · exact targetWhole.owned old present
  · have subsignatures : (target.methods.map fun other =>
        if other.subsignature = next.subsignature then next
        else other).map Method.subsignature =
          target.methods.map Method.subsignature := by
      rw [List.map_map]
      apply List.map_congr_left
      intro other _
      simp only [Function.comp_apply]
      split
      · rename_i equal
        exact equal.symm
      · rfl
    rw [subsignatures]
    exact targetWhole.distinct
  · intro other changed
    obtain ⟨old, present, rfl⟩ := List.mem_map.mp changed
    split
    · exact whole
    · exact targetWhole.methods old present

/-- Built programs are coherent. -/
theorem Built.coherent {program : Program} (built : program.Built) :
    program.Coherent := by
  induction built with
  | empty => exact ⟨by simp, by simp⟩
  | newClass built declared ih => exact ih.newClass declared
  | newField built declared ih => exact ih.newField declared
  | newMethod built declared ih => exact ih.newMethod declared
  | edit built found edited ih =>
      exact ih.setMethod (edited.coherent (ih.method found).1)
  | setMain built main ih => exact ⟨ih.distinct, ih.classes⟩

/-! ## Properties of all methods -/

/-- All methods of a program have a property. -/
def Each (holds : Method → Prop) (program : Program) : Prop :=
  ∀ cls ∈ program.declarations, ∀ method ∈ cls.methods, holds method

namespace Each

variable {holds : Method → Prop} {program next : Program}
  (each : program.Each holds)

include each

theorem method {id : MethodId} {method : Method}
    (found : program.method? id = some method) : holds method := by
  rcases Option.bind_eq_some_iff.mp found with ⟨cls, declared, here⟩
  exact each cls (List.mem_of_find?_eq_some declared) method
    (List.mem_of_find?_eq_some here)

theorem imp {weaker : Method → Prop}
    (implies : ∀ method, holds method → weaker method) :
    program.Each weaker :=
  fun cls declared method member =>
    implies method (each cls declared method member)

theorem modifyClass {name : String} {change : Class → Class}
    (changed : ∀ cls, (∀ method ∈ cls.methods, holds method) →
      ∀ method ∈ (change cls).methods, holds method) :
    (program.modifyClass name change).Each holds := by
  intro cls member
  rcases List.mem_map.mp member with ⟨old, declared, rfl⟩
  split
  · exact changed old (each old declared)
  · exact each old declared

theorem newClass {heading : ClassHeading}
    (declared : program.newClass heading = .ok next) : next.Each holds := by
  rcases newClass_eq_ok_iff.mp declared with ⟨_, _, rfl⟩
  intro cls member
  rcases List.mem_cons.mp member with rfl | old
  · exact nofun
  · exact each cls old

theorem newField {field : Field}
    (declared : program.newField field = .ok next) : next.Each holds := by
  rw [newField_eq_ok declared]
  exact each.modifyClass fun _ old => old

theorem newMethod {heading : MethodHeading}
    (holdsNew : ∀ {cls : Class} {method : Method},
      heading.declare cls = .ok method → holds method)
    (declared : program.newMethod heading = .ok next) : next.Each holds := by
  rcases newMethod_eq_ok declared with ⟨_, method, _, _, created, rfl⟩
  apply each.modifyClass
  intro cls old other member
  rcases List.mem_append.mp member with earlier | new
  · exact old other earlier
  · rw [List.mem_singleton.mp new]
    exact holdsNew created

theorem setMethod {updated : Method} (holdsNew : holds updated) :
    (program.setMethod updated).Each holds := by
  apply each.modifyClass
  intro cls old other member
  rcases List.mem_map.mp member with ⟨method, present, rfl⟩
  split
  · exact holdsNew
  · exact old method present

end Each

/-- What holds of declared methods and is kept by edits holds of all methods of
built programs. -/
theorem Built.each {holds : Method → Prop}
    (declares : ∀ {heading : MethodHeading} {cls : Class} {method : Method},
      heading.declare cls = .ok method → holds method)
    (edits : ∀ {program : Program} {method next : Method},
      Method.Edit program method next → holds method → holds next)
    {program : Program} (built : program.Built) : program.Each holds := by
  induction built with
  | empty => exact fun _ member => nomatch member
  | newClass _ declared ih => exact ih.newClass declared
  | newField _ declared ih => exact ih.newField declared
  | newMethod _ declared ih => exact ih.newMethod declares declared
  | edit _ found edited ih => exact ih.setMethod (edits edited (ih.method found))
  | setMain _ _ ih => exact ih

/-! ## Callees -/

theorem mem_of_mem_chainIn {declarations : List Class} {name : String}
    {cls : Class} (member : cls ∈ chainIn declarations name) :
    cls ∈ declarations := by
  induction declarations generalizing name with
  | nil => cases member
  | cons first older ih =>
      unfold chainIn at member
      split at member
      · rcases List.mem_cons.mp member with rfl | later
        · exact List.mem_cons_self ..
        · split at later
          · exact List.mem_cons_of_mem _ (ih later)
          · cases later
      · exact List.mem_cons_of_mem _ (ih member)

/-- A method that is found along a chain is found under its identity. -/
theorem Coherent.method?_of_chain {program : Program}
    (coherent : program.Coherent) {name subsignature : String}
    {cls : Class} {method : Method}
    (above : cls ∈ program.chain name)
    (found : cls.method? subsignature = some method) :
    program.method? method.id = some method :=
  coherent.method?_eq_some_iff.mpr
    ⟨cls, mem_of_mem_chainIn above, List.mem_of_find?_eq_some found, rfl⟩

theorem Coherent.dispatch? {program : Program} (coherent : program.Coherent)
    {type : Option Ty} {ref : MethodRef} {callee : Method}
    (found : program.dispatch? type ref = some callee) :
    program.method? callee.id = some callee := by
  obtain ⟨cls, above, concrete⟩ := List.exists_of_findSome?_eq_some found
  cases start : type.bind program.dispatchClass? with
  | none => simp [start] at above
  | some name =>
      simp only [start, Option.map_some, Option.getD_some] at above
      obtain ⟨here, _⟩ := Option.filter_eq_some_iff.mp concrete
      exact coherent.method?_of_chain above here

/-- The callee of an invocation is found under its identity. -/
theorem Coherent.callee? {program : Program} (coherent : program.Coherent)
    {receiver : Option Ty} {call : Invoke} {callee : Method}
    (found : program.callee? receiver call = some callee) :
    program.method? callee.id = some callee := by
  unfold Program.callee? at found
  have resolved : ∀ {method : Method},
      (program.resolve? call.ref).filter (fun method => !method.isAbstract) =
        some method → program.method? method.id = some method := by
    intro method found
    obtain ⟨found, _⟩ := Option.filter_eq_some_iff.mp found
    obtain ⟨cls, above, here⟩ := List.exists_of_findSome?_eq_some found
    exact coherent.method?_of_chain above here
  split at found
  · exact resolved found
  · exact resolved found
  · split at found
    · split at found
      · cases found
      · exact coherent.dispatch? found
    · exact coherent.dispatch? found
  · exact coherent.dispatch? found
  · exact coherent.dispatch? found
  · cases found

/-- The statements of a coherent program were allowed in their methods. -/
theorem Coherent.allows {program : Program} (coherent : program.Coherent)
    {site : Site} {stmt : Stmt} (here : program.stmt? site = some stmt) :
    ∃ method, program.method? site.method = some method ∧
      method.Allows stmt := by
  obtain ⟨method, found, inBody⟩ := Option.bind_eq_some_iff.mp here
  exact ⟨method, found,
    (coherent.method found).1.allowed stmt (List.mem_of_getElem? inBody)⟩

/-- Calls that are not static have a receiver. -/
theorem Coherent.receiver_of_ne_static {program : Program}
    (coherent : program.Coherent) {site : Site} {call : Invoke}
    (here : program.stmt? site = some (.invoke call))
    (other : call.kind ≠ .static) :
    ∃ base, call.receiver = some base := by
  obtain ⟨method, _, allowed⟩ := coherent.allows here
  have balanced : call.receiver.isNone = decide (call.kind = .static) :=
    allowed.balanced
  rw [decide_eq_false other, Option.isNone_eq_false_iff] at balanced
  exact Option.isSome_iff_exists.mp balanced

end Program

end PointsTo
