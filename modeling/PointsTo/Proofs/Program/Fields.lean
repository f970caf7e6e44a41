import PointsTo.Proofs.Program.Dispatch

/-!
# Fields

In a built program every field belongs to the class that declares it.  So a
field is found again under its name and the name of its class, wherever the
search for it has started.  Editing methods has no effect on the search for
fields.
-/

namespace PointsTo

namespace Program

/-! ## Fields belong to their classes -/

/-- The fields of a class name the class as their owner. -/
def OwnsFields (program : Program) : Prop :=
  ∀ cls ∈ program.declarations, ∀ field ∈ cls.fields, field.owner = cls.name

theorem OwnsFields.modifyClass {program : Program} {name : String}
    {change : Class → Class} (owns : program.OwnsFields)
    (sameName : ∀ cls, (change cls).name = cls.name)
    (changed : ∀ cls, cls.name = name → ∀ field ∈ (change cls).fields,
      field ∈ cls.fields ∨ field.owner = cls.name) :
    (program.modifyClass name change).OwnsFields := by
  intro cls member field declared
  rcases List.mem_map.mp member with ⟨old, present, rfl⟩
  split at declared
  · rename_i named
    rw [if_pos named, sameName]
    rcases changed old named field declared with kept | owned
    · exact owns old present field kept
    · exact owned
  · rename_i other
    rw [if_neg other]
    exact owns old present field declared

theorem Built.ownsFields {program : Program} (built : program.Built) :
    program.OwnsFields := by
  induction built with
  | empty =>
      intro cls member
      cases member
  | newClass _ declared ih =>
      rcases newClass_eq_ok_iff.mp declared with ⟨_, _, rfl⟩
      rintro cls (_ | ⟨_, old⟩) field member
      · cases member
      · exact ih cls old field member
  | newField _ declared ih =>
      rw [newField_eq_ok declared]
      refine ih.modifyClass (fun _ => rfl) fun cls named field member => ?_
      rcases List.mem_append.mp member with old | new
      · exact .inl old
      · rw [List.mem_singleton.mp new, named]
        exact .inr rfl
  | newMethod _ declared ih =>
      rcases newMethod_eq_ok declared with ⟨_, _, _, _, _, rfl⟩
      exact ih.modifyClass (fun _ => rfl) fun _ _ _ => .inl
  | edit _ _ _ ih =>
      exact ih.modifyClass (fun _ => rfl) fun _ _ _ => .inl
  | setMain _ _ ih => exact ih

/-! ## Finding fields -/

theorem field?_eq_some {cls : Class} {name : String} {field : Field}
    (found : cls.field? name = some field) :
    field ∈ cls.fields ∧ field.name = name :=
  ⟨List.mem_of_find?_eq_some found, by simpa using List.find?_some found⟩

section Lookups

variable {program : Program} {name : String} {field : Field}

theorem exists_field?_of_lookupField? {owner : String}
    (found : program.lookupField? owner name = some field) :
    ∃ cls ∈ program.declarations, cls.field? name = some field := by
  rcases List.exists_of_findSome?_eq_some found with ⟨cls, onChain, here⟩
  exact ⟨cls, mem_of_mem_chainIn onChain, here⟩

theorem exists_field?_of_uniqueField?
    (found : program.uniqueField? name = some field) :
    ∃ cls ∈ program.declarations, cls.field? name = some field := by
  unfold uniqueField? at found
  split at found
  · rename_i only single
    cases found
    have member : field ∈ program.classes.filterMap fun cls =>
        (cls.field? name).filter fun field => !field.isStatic := by
      rw [single]
      exact .head _
    rcases List.mem_filterMap.mp member with ⟨cls, declared, here⟩
    exact ⟨cls, List.mem_reverse.mp declared,
      (Option.filter_eq_some_iff.mp here).1⟩
  · cases found

theorem exists_field?_of_instanceField? {method : Method} {base : String}
    (found : program.instanceField? method base name = some field) :
    ∃ cls ∈ program.declarations, cls.field? name = some field := by
  unfold instanceField? at found
  split at found
  · rename_i inherited
    cases found
    rcases Option.bind_eq_some_iff.mp inherited with ⟨owner, _, looked⟩
    exact exists_field?_of_lookupField? looked
  · exact exists_field?_of_uniqueField? found

/-- A field that is found anywhere is found under the name of its owner. -/
theorem lookupField?_owner (layered : Layered program.declarations)
    (owns : program.OwnsFields) {start : String}
    (found : program.lookupField? start name = some field) :
    (program.class? field.owner).isSome = true ∧
      program.lookupField? field.owner name = some field := by
  rcases exists_field?_of_lookupField? found with ⟨cls, declared, here⟩
  have owned := owns cls declared field (field?_eq_some here).1
  have class?_eq : program.class? field.owner = some cls :=
    (class?_eq_some_iff_of_layered layered).mpr ⟨declared, owned.symm⟩
  refine ⟨Option.isSome_iff_exists.mpr ⟨cls, class?_eq⟩, ?_⟩
  rw [lookupField?, chain_eq layered class?_eq, List.findSome?_cons, here]

end Lookups

/-! ## Editing methods -/

/-- Classes that differ in their methods only, as far as lookups are
concerned. -/
structure SameHeading (cls other : Class) : Prop where
  name : other.name = cls.name
  super : other.super = cls.super
  fields : other.fields = cls.fields

theorem exists_declarations_setMethod (program : Program) (next : Method) :
    ∃ change : Class → Class, (∀ cls, SameHeading cls (change cls)) ∧
      (program.setMethod next).declarations =
        program.declarations.map change := by
  refine ⟨_, fun cls => ?_, rfl⟩
  split
  · exact ⟨rfl, rfl, rfl⟩
  · exact ⟨rfl, rfl, rfl⟩

theorem chainIn_map {change : Class → Class} {declarations : List Class}
    (same : ∀ cls, SameHeading cls (change cls)) (name : String) :
    chainIn (declarations.map change) name =
      (chainIn declarations name).map change := by
  induction declarations generalizing name with
  | nil => rfl
  | cons cls older ih =>
      rw [List.map_cons, chainIn, chainIn, (same cls).name, (same cls).super]
      split
      · rw [List.map_cons]
        cases cls.super with
        | none => rfl
        | some super => exact congrArg _ (ih super)
      · exact ih name

section Edits

variable (program : Program) (next : Method)

theorem map_name_class?_setMethod (name : String) :
    ((program.setMethod next).class? name).map Class.name =
      (program.class? name).map Class.name := by
  rcases program.exists_declarations_setMethod next with ⟨change, same, edited⟩
  simp only [class?, edited, List.find?_map, Function.comp_def,
    (same _).name, Option.map_map]

theorem lookupField?_setMethod (owner name : String) :
    (program.setMethod next).lookupField? owner name =
      program.lookupField? owner name := by
  rcases program.exists_declarations_setMethod next with ⟨change, same, edited⟩
  simp only [lookupField?, chain, edited, chainIn_map same,
    List.findSome?_map, Function.comp_def, Class.field?, (same _).fields]

theorem uniqueField?_setMethod (name : String) :
    (program.setMethod next).uniqueField? name =
      program.uniqueField? name := by
  rcases program.exists_declarations_setMethod next with ⟨change, same, edited⟩
  simp only [uniqueField?, classes, edited, ← List.map_reverse,
    List.filterMap_map, Function.comp_def, Class.field?, (same _).fields]

theorem instanceField?_setMethod (method : Method) (base name : String) :
    (program.setMethod next).instanceField? method base name =
      program.instanceField? method base name := by
  simp only [instanceField?, lookupField?_setMethod, uniqueField?_setMethod]

/-- Qualified names denote the same fields as before. -/
theorem access_setMethod (method : Method) (qualifier name : String) :
    (program.setMethod next).access method qualifier name =
      program.access method qualifier name := by
  have declared : ((program.setMethod next).class? qualifier).isNone =
      (program.class? qualifier).isNone := by
    rw [← Option.isNone_map, map_name_class?_setMethod, Option.isNone_map]
  simp only [access, declared, instanceField?_setMethod,
    lookupField?_setMethod]

end Edits

end Program

end PointsTo
