import Mathlib.Data.List.Nodup
import Mathlib.Logic.Relation
import Mathlib.Order.WellFounded
import PointsTo.Proofs.Program.Hierarchy

/-!
# Subtyping

A class may only build on classes that are declared before it, so the walks
along superclasses and interfaces go from newer to older declarations and come
to an end.  Looking for the parents of a class among the older declarations is
therefore the same as looking for them in the whole program, and the search of
`Program.isSubclass` is the plain recursion along the links.  With this, being a
subclass is shown to be the reflexive and transitive closure of the links.
-/

namespace PointsTo

open Relation

/-! ## Orders of declaration -/

/-- Each class is new and builds on classes behind it. -/
inductive Layered : List Class → Prop where
  | nil : Layered []
  | cons {cls : Class} {older : List Class}
      (fresh : cls.name ∉ older.map Class.name)
      (behind : ∀ parent ∈ cls.parents, parent ∈ older.map Class.name)
      (rest : Layered older) : Layered (cls :: older)

namespace Layered

variable {declarations : List Class} (layered : Layered declarations)

include layered

/-- The members of the classes do not matter. -/
theorem map {change : Class → Class}
    (sameName : ∀ cls, (change cls).name = cls.name)
    (sameParents : ∀ cls, (change cls).parents = cls.parents) :
    Layered (declarations.map change) := by
  have names : ∀ classes : List Class,
      (classes.map change).map Class.name = classes.map Class.name := by
    intro classes
    rw [List.map_map]
    exact List.map_congr_left fun cls _ => sameName cls
  induction layered with
  | nil => exact .nil
  | cons fresh behind _ ih =>
      refine .cons ?_ ?_ ih
      · rwa [sameName, names]
      · intro parent named
        rw [sameParents] at named
        rw [names]
        exact behind parent named

theorem mem_names {cls : Class} (declared : cls ∈ declarations)
    {parent : String} (named : parent ∈ cls.parents) :
    parent ∈ declarations.map Class.name := by
  induction layered with
  | nil => cases declared
  | cons _ behind _ ih =>
      apply List.mem_cons_of_mem
      rcases List.mem_cons.mp declared with rfl | older
      · exact behind parent named
      · exact ih older

/-- What a class builds on comes behind it. -/
theorem idxOf_lt {cls : Class} (declared : cls ∈ declarations)
    {parent : String} (named : parent ∈ cls.parents) :
    (declarations.map Class.name).idxOf cls.name <
      (declarations.map Class.name).idxOf parent := by
  induction layered with
  | nil => cases declared
  | @cons first older fresh behind rest ih =>
      have others : ∀ {name : String}, name ∈ older.map Class.name →
          first.name ≠ name :=
        fun member same => fresh (same ▸ member)
      rw [List.map_cons]
      rcases List.mem_cons.mp declared with rfl | member
      · rw [List.idxOf_cons_self,
          List.idxOf_cons_ne _ (others (behind parent named))]
        exact Nat.succ_pos _
      · rw [List.idxOf_cons_ne _ (others (List.mem_map_of_mem member)),
          List.idxOf_cons_ne _ (others (rest.mem_names member named))]
        exact Nat.succ_lt_succ (ih member)

/-- The search for a class goes on from its parents with all declarations. -/
theorem subclassIn_eq (super : String) {cls : Class}
    (declared : cls ∈ declarations) :
    subclassIn declarations super cls.name =
      (cls.name == super ||
        cls.parents.any fun parent => subclassIn declarations super parent) := by
  induction layered with
  | nil => cases declared
  | @cons first older fresh behind rest ih =>
      have skipped : ∀ {name : String}, name ∈ older.map Class.name →
          subclassIn (first :: older) super name =
            subclassIn older super name :=
        fun member => if_neg fun same : first.name = _ => fresh (same ▸ member)
      have parents : ∀ {child : Class}, (∀ parent ∈ child.parents,
          parent ∈ older.map Class.name) →
          (child.parents.any fun parent =>
            subclassIn (first :: older) super parent) =
          child.parents.any fun parent => subclassIn older super parent := by
        intro child known
        rw [Bool.eq_iff_iff, List.any_eq_true, List.any_eq_true]
        constructor
        · rintro ⟨parent, named, found⟩
          exact ⟨parent, named, skipped (known parent named) ▸ found⟩
        · rintro ⟨parent, named, found⟩
          exact ⟨parent, named, (skipped (known parent named)).symm ▸ found⟩
      rcases List.mem_cons.mp declared with rfl | member
      · rw [parents behind]
        exact if_pos rfl
      · rw [skipped (List.mem_map_of_mem member), ih member,
          parents fun parent named => rest.mem_names member named]

/-- The chain of a class goes on from its superclass with all declarations. -/
theorem chainIn_eq {cls : Class} (declared : cls ∈ declarations) :
    chainIn declarations cls.name =
      cls :: (cls.super.elim [] fun super => chainIn declarations super) := by
  induction layered with
  | nil => cases declared
  | @cons first older fresh behind rest ih =>
      have skipped : ∀ {name : String}, name ∈ older.map Class.name →
          chainIn (first :: older) name = chainIn older name :=
        fun member => if_neg fun same : first.name = _ => fresh (same ▸ member)
      have onward : ∀ {child : Class}, (∀ parent ∈ child.parents,
          parent ∈ older.map Class.name) →
          (child.super.elim [] fun super => chainIn (first :: older) super) =
            child.super.elim [] fun super => chainIn older super := by
        intro child known
        cases extended : child.super with
        | none => rfl
        | some super =>
            apply skipped (known super _)
            simp [Class.parents, extended]
      rcases List.mem_cons.mp declared with rfl | member
      · rw [onward behind]
        refine (if_pos rfl).trans ?_
        cases cls.super <;> rfl
      · rw [skipped (List.mem_map_of_mem member), ih member,
          onward fun parent named => rest.mem_names member named]

theorem distinct : (declarations.map Class.name).Nodup := by
  induction layered with
  | nil => exact .nil
  | cons fresh _ _ ih => exact .cons fresh ih

end Layered

namespace Program

/-- Changes of the members of a class keep the order of declaration. -/
theorem layered_modifyClass {program : Program} {name : String}
    {change : Class → Class} (layered : Layered program.declarations)
    (sameName : ∀ cls, (change cls).name = cls.name)
    (sameParents : ∀ cls, (change cls).parents = cls.parents) :
    Layered (program.modifyClass name change).declarations := by
  apply layered.map
  · intro cls
    split
    · exact sameName cls
    · rfl
  · intro cls
    split
    · exact sameParents cls
    · rfl

theorem Built.layered {program : Program} (built : program.Built) :
    Layered program.declarations := by
  induction built with
  | empty => exact .nil
  | newClass _ declared ih =>
      rcases newClass_eq_ok_iff.mp declared with ⟨fresh, behind, rfl⟩
      exact .cons fresh behind ih
  | newField _ declared ih =>
      rw [newField_eq_ok declared]
      exact layered_modifyClass ih (fun _ => rfl) fun _ => rfl
  | newMethod _ declared ih =>
      rcases newMethod_eq_ok declared with ⟨_, _, _, _, _, rfl⟩
      exact layered_modifyClass ih (fun _ => rfl) fun _ => rfl
  | edit _ _ _ ih => exact layered_modifyClass ih (fun _ => rfl) fun _ => rfl
  | setMain _ _ ih => exact ih

/-! ## Links -/

/-- A class has another one as its superclass or as an interface. -/
def Link (program : Program) (sub super : String) : Prop :=
  ∃ cls, program.class? sub = some cls ∧ super ∈ cls.parents

section Links

variable {program : Program} (layered : Layered program.declarations)

include layered

theorem class?_eq_some_iff_of_layered {name : String} {cls : Class} :
    program.class? name = some cls ↔
      cls ∈ program.declarations ∧ cls.name = name :=
  find?_key_eq_some_iff layered.distinct

/-- The ends of a link are declared. -/
theorem Link.mem_names {sub super : String} (link : program.Link sub super) :
    super ∈ program.names := by
  rcases link with ⟨cls, found, named⟩
  exact layered.mem_names (List.mem_of_find?_eq_some found) named

/-- There is no infinite walk along links. -/
theorem wellFounded_link :
    WellFounded fun super sub => program.Link sub super := by
  refine Subrelation.wf ?_
    (measure fun name => program.names.length - program.names.idxOf name).wf
  rintro super sub ⟨cls, found, named⟩
  rcases (class?_eq_some_iff_of_layered layered).mp found with
    ⟨declared, rfl⟩
  have later := layered.idxOf_lt declared named
  have bounded : program.names.idxOf super ≤ program.names.length :=
    List.idxOf_le_length
  exact Nat.sub_lt_sub_left (Nat.lt_of_lt_of_le later bounded) later

theorem not_transGen_link (name : String) :
    ¬ TransGen program.Link name name := by
  intro cycle
  apply (wellFounded_link layered).transGen.irrefl.irrefl name
  exact transGen_swap.mpr cycle

/-- The search follows all links of a class, one after the other. -/
theorem isSubclass_eq (super : Option String) {sub : String} {cls : Class}
    (found : program.class? sub = some cls) :
    program.isSubclass super (some sub) =
      (super == some sub ||
        cls.parents.any fun parent =>
          program.isSubclass super (some parent)) := by
  rcases (class?_eq_some_iff_of_layered layered).mp found with
    ⟨declared, rfl⟩
  cases super with
  | none => simp [isSubclass]
  | some super =>
      refine (layered.subclassIn_eq super declared).trans ?_
      rw [Option.some_beq_some, BEq.comm]
      rfl

/-- A class is found from another one exactly if it can be reached by links. -/
theorem isSubclass_iff_link {super sub : String}
    (declared : sub ∈ program.names) :
    program.isSubclass (some super) (some sub) = true ↔
      ReflTransGen program.Link sub super := by
  -- On the links that lead away from `sub`.
  induction sub using (wellFounded_link layered).induction with
  | _ sub ih =>
      rcases exists_class?_eq declared with ⟨cls, found⟩
      rw [isSubclass_eq layered _ found, ReflTransGen.cases_head_iff,
        Bool.or_eq_true, beq_iff_eq, Option.some.injEq, eq_comm,
        List.any_eq_true]
      refine or_congr_right ⟨?_, ?_⟩
      · rintro ⟨parent, named, reached⟩
        have link : program.Link sub parent := ⟨cls, found, named⟩
        exact ⟨parent, link,
          (ih parent link (link.mem_names layered)).mp reached⟩
      · rintro ⟨parent, link, path⟩
        have reached := (ih parent link (link.mem_names layered)).mpr path
        rcases link with ⟨other, foundOther, named⟩
        cases found.symm.trans foundOther
        exact ⟨parent, named, reached⟩

/-- The same holds if one of the classes is absent. -/
theorem isSubclass_iff_rel {super sub : Option String}
    (declared : ∀ name ∈ sub, name ∈ program.names) :
    program.isSubclass super sub = true ↔
      Option.Rel (ReflTransGen program.Link) sub super := by
  cases sub with
  | none =>
      cases super with
      | none => exact ⟨fun _ => .none, fun _ => rfl⟩
      | some super => exact ⟨nofun, nofun⟩
  | some sub =>
      cases super with
      | none => exact ⟨nofun, nofun⟩
      | some super =>
          rw [isSubclass_iff_link layered (declared sub rfl)]
          constructor
          · exact .some
          · rintro ⟨path⟩
            exact path

/-- Two classes that reach each other are the same. -/
theorem eq_of_link_paths {first second : String}
    (up : ReflTransGen program.Link first second)
    (down : ReflTransGen program.Link second first) : first = second := by
  rcases reflTransGen_iff_eq_or_transGen.mp up with same | path
  · exact same.symm
  · exact absurd (path.trans_left down) (not_transGen_link layered first)

theorem mem_implementers_iff {interface cls : Class} :
    cls ∈ program.implementers interface ↔
      interface.isInterface = true ∧ cls ∈ program.classes ∧
        cls.isAbstract = false ∧
        ReflTransGen program.Link cls.name interface.name := by
  rw [implementers, List.mem_filter, Bool.and_eq_true, implements,
    Bool.and_eq_true, Bool.not_eq_true']
  constructor
  · rintro ⟨listed, concrete, isInterface, reached⟩
    have declared : cls.name ∈ program.names :=
      List.mem_map_of_mem (List.mem_reverse.mp listed)
    exact ⟨isInterface, listed, concrete,
      (isSubclass_iff_link layered declared).mp reached⟩
  · rintro ⟨isInterface, listed, concrete, path⟩
    have declared : cls.name ∈ program.names :=
      List.mem_map_of_mem (List.mem_reverse.mp listed)
    exact ⟨listed, concrete, isInterface,
      (isSubclass_iff_link layered declared).mpr path⟩

end Links

/--
Subtyping is the closure of the declarations.  The search for a superclass is a
recursion along the links, which lead to no infinite walk, and it finds exactly
what can be reached by them.  An absent class is reached only from an absent
class.
-/
structure Subtyping (program : Program) : Prop where
  grounded : WellFounded fun super sub => program.Link sub super
  recursive : ∀ (super : Option String) (sub : String) (cls : Class),
    program.class? sub = some cls →
      program.isSubclass super (some sub) =
        (super == some sub ||
          cls.parents.any fun parent =>
            program.isSubclass super (some parent))
  closure : ∀ super sub : Option String,
    (∀ name ∈ sub, name ∈ program.names) →
      (program.isSubclass super sub = true ↔
        Option.Rel (ReflTransGen program.Link) sub super)
  refl : ∀ name ∈ program.names,
    program.isSubclass (some name) (some name) = true
  trans : ∀ first ∈ program.names, ∀ second ∈ program.names,
    ∀ third ∈ program.names,
      program.isSubclass (some first) (some second) = true →
        program.isSubclass (some second) (some third) = true →
          program.isSubclass (some first) (some third) = true
  antisymm : ∀ first ∈ program.names, ∀ second ∈ program.names,
    program.isSubclass (some first) (some second) = true →
      program.isSubclass (some second) (some first) = true → first = second
  /-- The implementers of an interface are the concrete classes below it. -/
  implementers : ∀ interface ∈ program.classes,
    (program.implementers interface).Sublist program.classes ∧
      (program.implementers interface).Nodup ∧
      (∀ cls, cls ∈ program.implementers interface ↔
        interface.isInterface = true ∧ cls ∈ program.classes ∧
          cls.isAbstract = false ∧
          ReflTransGen program.Link cls.name interface.name) ∧
      (interface.isInterface = false → program.implementers interface = [])

end Program

/-- Programs that are built or loaded declare their subtyping. -/
theorem subtyping_of_made {program : Program} (made : program.Made) :
    program.Subtyping := by
  have layered : Layered program.declarations := made.built.layered
  constructor
  · exact Program.wellFounded_link layered
  · exact fun super sub cls found =>
      Program.isSubclass_eq layered super found
  · exact fun super sub declared =>
      Program.isSubclass_iff_rel layered declared
  · intro name declared
    exact (Program.isSubclass_iff_link layered declared).mpr .refl
  · intro first _ second knownSecond third knownThird lower upper
    rw [Program.isSubclass_iff_link layered knownSecond] at lower
    rw [Program.isSubclass_iff_link layered knownThird] at upper ⊢
    exact upper.trans lower
  · intro first knownFirst second knownSecond up down
    rw [Program.isSubclass_iff_link layered knownSecond] at up
    rw [Program.isSubclass_iff_link layered knownFirst] at down
    exact Program.eq_of_link_paths layered down up
  · intro interface _
    have distinct : program.classes.Nodup :=
      List.nodup_reverse.mpr layered.distinct.of_map
    refine ⟨List.filter_sublist, distinct.filter _,
      fun cls => Program.mem_implementers_iff layered, fun other => ?_⟩
    rw [List.eq_nil_iff_forall_not_mem]
    intro cls listed
    have isInterface := (Program.mem_implementers_iff layered).mp listed
    cases other.symm.trans isInterface.1

/-! ## Sample program

The scattered classes: two interfaces of one class build on the same interface,
and its superclass is abstract.
-/

/-- The classes of a sample and no main method. -/
def Load.Sample.whole : ProgramSpec where
  classes := scattered

/-- Whether two classes of the sample are below the common interface, and what
implements that. -/
def Load.Sample.measured (program : Program) :
    Bool × Bool × Option (List String) :=
  (program.isSubclass (some "K") (some "C"),
    program.isSubclass (some "K") (some "B"),
    (program.class? "K").map fun cls =>
      (program.implementers cls).map Class.name)

/-- A class implements an interface that it reaches on two ways; its superclass
does not. -/
theorem subtyping_of_made_scattered :
    ∃ program, Load.Sample.whole.load = .ok program ∧ program.Subtyping ∧
      Load.Sample.measured program = (true, false, some ["C"]) := by
  have found : Load.Sample.whole.load.toOption.map Load.Sample.measured =
      some (true, false, some ["C"]) := by decide +kernel
  cases loaded : Load.Sample.whole.load with
  | error problem =>
      rw [loaded] at found
      cases found
  | ok program =>
      rw [loaded] at found
      exact ⟨program, rfl,
        subtyping_of_made (.inr ⟨Load.Sample.whole, loaded⟩),
        Option.some.inj found⟩

end PointsTo
