import Mathlib.Data.List.Nodup
import Mathlib.Data.List.Perm.Basic
import Mathlib.Logic.Relation
import PointsTo.Proofs.Program.Loaded
import PointsTo.Proofs.Program.Reading

/-!
# Hierarchies of classes

Classes are described in any order and declared after the classes that they
build on.  This goes through exactly if the descriptions form a hierarchy: what
a class builds on is described and of the right kind, and no class builds on
itself.

While a class is being declared, it is neither pending nor declared, and it
builds on the class that is declared next.  This is what the search for cycles
relies on: if the next class is itself being declared, it builds on itself.
The classes that have been declared, the newest first, each fit the classes
behind them, so that there is no cycle among them.
-/

namespace PointsTo

open Checked Relation

theorem Program.exists_class?_eq {program : Program} {name : String}
    (declared : name ∈ program.names) :
    ∃ cls, program.class? name = some cls :=
  Option.isSome_iff_exists.mp (isSome_class?_iff.mpr declared)

namespace Load

open Program

/-! ## Descriptions -/

/-- The class that a description is about, without its members. -/
def classOf (spec : ClassSpec) : Class :=
  (headingOf spec).declare

/-- A class is described to have another one as its superclass or as an
interface. -/
def Builds (specs : List ClassSpec) (name parent : String) : Prop :=
  ∃ spec ∈ specs, spec.name = name ∧ parent ∈ (classOf spec).parents

/-- A class or an interface is described under a name. -/
def Offers (specs : List ClassSpec) (isInterface : Bool) (name : String) :
    Prop :=
  ∃ spec ∈ specs, spec.name = name ∧ spec.isInterface = isInterface

/-- What a class builds on is described: its superclass as a class and its
interfaces as interfaces. -/
structure Fits (specs : List ClassSpec) (spec : ClassSpec) : Prop where
  super : ∀ parent ∈ (classOf spec).super, Offers specs false parent
  interfaces : ∀ parent ∈ spec.interfaces, Offers specs true parent

/-- All classes fit each other, and none builds on itself, directly or through
others. -/
structure Hierarchy (specs : List ClassSpec) : Prop where
  fits : ∀ spec ∈ specs, Fits specs spec
  acyclic : ∀ name, ¬ TransGen (Builds specs) name name

section Descriptions

variable {fewer specs : List ClassSpec}

theorem Builds.mono (included : fewer ⊆ specs) {name parent : String}
    (builds : Builds fewer name parent) : Builds specs name parent := by
  rcases builds with ⟨spec, listed, same, named⟩
  exact ⟨spec, included listed, same, named⟩

theorem Offers.mono (included : fewer ⊆ specs) {isInterface : Bool}
    {name : String} (offers : Offers fewer isInterface name) :
    Offers specs isInterface name := by
  rcases offers with ⟨spec, listed, same, kind⟩
  exact ⟨spec, included listed, same, kind⟩

theorem Fits.mono (included : fewer ⊆ specs) {spec : ClassSpec}
    (fits : Fits fewer spec) : Fits specs spec where
  super parent extended := (fits.super parent extended).mono included
  interfaces parent implemented :=
    (fits.interfaces parent implemented).mono included

/-- Everything that a class builds on is described. -/
theorem Fits.mem_names {spec : ClassSpec} (fits : Fits specs spec)
    {parent : String} (named : parent ∈ (classOf spec).parents) :
    parent ∈ specs.map ClassSpec.name := by
  rw [List.mem_map]
  rcases List.mem_append.mp named with super | interface
  · rcases fits.super parent (Option.mem_toList.mp super) with
      ⟨other, listed, same, _⟩
    exact ⟨other, listed, same⟩
  · rcases fits.interfaces parent interface with ⟨other, listed, same, _⟩
    exact ⟨other, listed, same⟩

/-- The order of the descriptions does not matter. -/
theorem Hierarchy.of_subset (hierarchy : Hierarchy fewer)
    (included : fewer ⊆ specs) (all : specs ⊆ fewer) : Hierarchy specs where
  fits spec listed := (hierarchy.fits spec (all listed)).mono included
  acyclic name cycle :=
    hierarchy.acyclic name
      (TransGen.mono (fun _ _ builds => Builds.mono all builds) _ _ cycle)

variable (distinct : (specs.map ClassSpec.name).Nodup)

include distinct

/-- Descriptions are told apart by name. -/
theorem eq_of_name_eq {spec other : ClassSpec} (listed : spec ∈ specs)
    (known : other ∈ specs) (same : spec.name = other.name) : spec = other :=
  List.inj_on_of_nodup_map distinct listed known same

theorem Offers.isInterface_eq {spec : ClassSpec} (listed : spec ∈ specs)
    {isInterface : Bool} (offers : Offers specs isInterface spec.name) :
    spec.isInterface = isInterface := by
  rcases offers with ⟨other, known, same, kind⟩
  rw [eq_of_name_eq distinct listed known same.symm]
  exact kind

end Descriptions

/-! ## Orders of declaration -/

/-- Each class is new and fits the classes behind it. -/
inductive Arranged : List ClassSpec → Prop where
  | nil : Arranged []
  | cons {spec : ClassSpec} {earlier : List ClassSpec}
      (fresh : spec.name ∉ earlier.map ClassSpec.name)
      (fits : Fits earlier spec) (rest : Arranged earlier) :
      Arranged (spec :: earlier)

namespace Arranged

variable {order : List ClassSpec} (arranged : Arranged order)

include arranged

theorem distinct : (order.map ClassSpec.name).Nodup := by
  induction arranged with
  | nil => exact .nil
  | cons fresh _ _ ih => exact .cons fresh ih

theorem fits (spec : ClassSpec) (listed : spec ∈ order) : Fits order spec := by
  induction arranged with
  | nil => cases listed
  | cons _ fits _ ih =>
      apply Fits.mono (List.subset_cons_self _ _)
      rcases List.mem_cons.mp listed with rfl | earlier
      · exact fits
      · exact ih earlier

/-- What a class builds on comes behind it. -/
theorem idxOf_lt {name parent : String} (builds : Builds order name parent) :
    (order.map ClassSpec.name).idxOf name <
      (order.map ClassSpec.name).idxOf parent := by
  induction arranged with
  | nil =>
      rcases builds with ⟨_, listed, _⟩
      cases listed
  | @cons spec earlier fresh fits rest ih =>
      have others : ∀ {other : String},
          other ∈ earlier.map ClassSpec.name → spec.name ≠ other :=
        fun member same => fresh (same ▸ member)
      rcases builds with ⟨other, listed, rfl, named⟩
      rw [List.map_cons]
      rcases List.mem_cons.mp listed with rfl | member
      · rw [List.idxOf_cons_self, List.idxOf_cons_ne _
          (others (fits.mem_names named))]
        exact Nat.succ_pos _
      · have behind := (rest.fits other member).mem_names named
        rw [List.idxOf_cons_ne _ (others (List.mem_map_of_mem member)),
          List.idxOf_cons_ne _ (others behind)]
        exact Nat.succ_lt_succ (ih ⟨other, member, rfl, named⟩)

theorem hierarchy : Hierarchy order where
  fits := arranged.fits
  acyclic name cycle := by
    have behind : ∀ {parent : String}, TransGen (Builds order) name parent →
        (order.map ClassSpec.name).idxOf name <
          (order.map ClassSpec.name).idxOf parent := by
      intro parent path
      induction path with
      | single builds => exact arranged.idxOf_lt builds
      | tail _ builds ih => exact Nat.lt_trans ih (arranged.idxOf_lt builds)
    exact Nat.lt_irrefl _ (behind cycle)

/-- The classes that a class builds on have been declared before it. -/
theorem mem_older {newer older : List Class} {cls : Class}
    (split : order.map classOf = newer ++ cls :: older) {parent : String}
    (named : parent ∈ cls.parents) : parent ∈ older.map Class.name := by
  induction arranged generalizing newer with
  | nil => cases newer <;> cases split
  | @cons spec earlier _ fits _ ih =>
      rw [List.map_cons] at split
      cases newer with
      | nil =>
          rcases List.cons.inj split with ⟨rfl, rfl⟩
          rw [List.map_map]
          exact fits.mem_names named
      | cons first rest => exact ih (List.cons.inj split).2

end Arranged

/-! ## Programs under construction -/

/-- The classes of a program are those that are described in `order`, the
newest first. -/
structure Realizes (specs order : List ClassSpec) (program : Program) :
    Prop where
  declarations : program.declarations = order.map classOf
  listed : order ⊆ specs
  arranged : Arranged order

namespace Realizes

variable {specs order : List ClassSpec} {program : Program}
  (realizes : Realizes specs order program)

include realizes

theorem names_eq : program.names = order.map ClassSpec.name := by
  rw [names, realizes.declarations, List.map_map]
  rfl

theorem class?_eq {spec : ClassSpec} (declared : spec ∈ order) :
    program.class? spec.name = some (classOf spec) := by
  apply (find?_key_eq_some_iff _).mpr
  · rw [realizes.declarations]
    exact ⟨List.mem_map_of_mem declared, rfl⟩
  · have distinct := realizes.arranged.distinct
    rwa [← realizes.names_eq] at distinct

theorem isInterface_eq {spec : ClassSpec} (declared : spec ∈ order) :
    isInterface program spec.name = spec.isInterface := by
  rw [isInterface, realizes.class?_eq declared]
  rfl

/-- One more class is declared. -/
theorem newClass {spec : ClassSpec} (known : spec ∈ specs)
    (fresh : spec.name ∉ order.map ClassSpec.name) (fits : Fits order spec) :
    ∃ next, program.newClass (headingOf spec) = .ok next ∧
      Realizes specs (spec :: order) next := by
  refine ⟨_, newClass_eq_ok_iff.mpr ⟨?_, ?_, rfl⟩, ?_, ?_,
    .cons fresh fits realizes.arranged⟩
  · rw [realizes.names_eq]
    exact fresh
  · intro parent named
    rw [realizes.names_eq]
    exact fits.mem_names named
  · rw [realizes.declarations]
    rfl
  · exact List.cons_subset.mpr ⟨known, realizes.listed⟩

end Realizes

/-- Pending classes have been declared in addition to those in `order`. -/
structure Advances (specs pending order later : List ClassSpec)
    (next : Program) : Prop extends Realizes specs later next where
  kept : order ⊆ later
  added : ∀ spec ∈ later, spec ∈ order ∨ spec ∈ pending

namespace Advances

variable {specs pending order middle later : List ClassSpec}
  {program next : Program}

theorem refl (realizes : Realizes specs order program) :
    Advances specs pending order order program :=
  { realizes with
    kept := List.Subset.refl _
    added := fun _ => Or.inl }

theorem trans (first : Advances specs pending order middle program)
    (second : Advances specs pending middle later next) :
    Advances specs pending order later next :=
  { second with
    kept := List.Subset.trans first.kept second.kept
    added := by
      intro spec declared
      rcases second.added spec declared with old | new
      · exact first.added spec old
      · exact Or.inr new }

/-- A class is not declared while its parents are. -/
theorem not_mem_names {name : String}
    (advances : Advances specs (without pending name) order later next)
    (fresh : name ∉ order.map ClassSpec.name) :
    name ∉ later.map ClassSpec.name := by
  intro taken
  rcases List.mem_map.mp taken with ⟨spec, declared, same⟩
  rcases advances.added spec declared with old | remaining
  · exact fresh (List.mem_map.mpr ⟨spec, old, same⟩)
  · simp [without, same] at remaining

/-- A pending class comes last, after others. -/
theorem last {spec : ClassSpec}
    (advances : Advances specs (without pending spec.name) order later program)
    (waiting : spec ∈ pending)
    (realizes : Realizes specs (spec :: later) next) :
    Advances specs pending order (spec :: later) next :=
  { realizes with
    kept := List.subset_cons_of_subset _ advances.kept
    added := by
      intro other declared
      rcases List.mem_cons.mp declared with rfl | earlier
      · exact Or.inr waiting
      · exact (advances.added other earlier).imp_right List.mem_of_mem_filter }

end Advances

/-- A class is needed in a hierarchy, and the classes that are being declared,
which are neither pending nor declared, build on it. -/
structure Requested (specs pending order : List ClassSpec) (name : String) :
    Prop where
  described : Hierarchy specs → name ∈ specs.map ClassSpec.name
  awaited : ∀ spec ∈ specs, spec ∈ pending ∨ spec ∈ order ∨
    TransGen (Builds specs) spec.name name

namespace Requested

variable {specs pending order : List ClassSpec} {name : String}
  (requested : Requested specs pending order name)

include requested

theorem mono {later : List ClassSpec} (kept : order ⊆ later) :
    Requested specs pending later name where
  described := requested.described
  awaited spec listed :=
    (requested.awaited spec listed).imp_right fun begun =>
      begun.imp_left fun declared => kept declared

/-- While the parents of a class are declared, the class is not pending. -/
theorem ofParent {parent : String} (builds : Builds specs name parent) :
    Requested specs (without pending name) order parent where
  described hierarchy := by
    rcases builds with ⟨spec, listed, _, named⟩
    exact (hierarchy.fits spec listed).mem_names named
  awaited spec listed := by
    rcases requested.awaited spec listed with waiting | declared | path
    · by_cases same : spec.name = name
      · rw [same]
        exact Or.inr (Or.inr (.single builds))
      · exact Or.inl (List.mem_filter.mpr ⟨waiting, by simpa using same⟩)
    · exact Or.inr (Or.inl declared)
    · exact Or.inr (Or.inr (path.tail builds))

/-- A class that is being declared when it is needed builds on itself. -/
theorem not_hierarchy (waiting : ∀ spec ∈ pending, spec.name ≠ name)
    (fresh : name ∉ order.map ClassSpec.name) : ¬ Hierarchy specs := by
  intro hierarchy
  rcases List.mem_map.mp (requested.described hierarchy) with
    ⟨spec, listed, same⟩
  rcases requested.awaited spec listed with pending | declared | path
  · exact waiting spec pending same
  · exact fresh (List.mem_map.mpr ⟨spec, declared, same⟩)
  · rw [same] at path
    exact hierarchy.acyclic name path

end Requested

/-! ## Declarations -/

/-- A check finds that descriptions with different names do not form a
hierarchy. -/
structure Broken (specs : List ClassSpec) (problem : Error) : Prop where
  found : problem.Found
  irregular : (specs.map ClassSpec.name).Nodup → ¬ Hierarchy specs

/-- Pending classes are declared, among them some that are needed, unless the
descriptions are broken. -/
abbrev Supplies (specs pending order : List ClassSpec)
    (needed : List ClassSpec → Prop) (computed : Except Error Program) : Prop :=
  Ensures (Broken specs)
    (fun next => ∃ later, Advances specs pending order later next ∧
      needed later) computed

section Parents

variable {specs pending : List ClassSpec}
  (declares : ∀ {order : List ClassSpec} {program : Program} {name : String},
    Realizes specs order program → Requested specs pending order name →
      Supplies specs pending order
        (fun later => ∃ spec ∈ later, spec.name = name)
        (declareClass specs pending program name))
  {spec : ClassSpec} (known : spec ∈ specs) {order : List ClassSpec}
  {program : Program} (realizes : Realizes specs order program)
  (requested : ∀ parent ∈ (classOf spec).parents,
    Requested specs pending order parent)

include declares known realizes requested

theorem supplies_declareSuper :
    Supplies specs pending order
      (fun later => ∀ parent ∈ (classOf spec).super,
        Offers later false parent)
      (declareSuper specs pending spec program) := by
  rw [declareSuper]
  split
  · rename_i absent
    have alone : (classOf spec).super = none := if_pos absent
    refine .ok ⟨order, .refl realizes, fun parent named => ?_⟩
    cases alone.symm.trans named
  · rename_i given
    have extended : (classOf spec).super = some spec.super := if_neg given
    have named : spec.super ∈ (classOf spec).parents :=
      List.mem_append_left _ (Option.mem_toList.mpr extended)
    refine (declares realizes (requested _ named)).bind ?_
    rintro next ⟨later, advances, other, declared, same⟩
    rw [← same, advances.isInterface_eq declared]
    split
    · rename_i wrong
      refine .error ⟨rfl, fun distinct hierarchy => ?_⟩
      have offers := (hierarchy.fits spec known).super _ extended
      rw [← same] at offers
      cases wrong.symm.trans
        (offers.isInterface_eq distinct (advances.listed declared))
    · rename_i right
      refine .ok ⟨later, advances, fun parent named => ?_⟩
      cases extended.symm.trans named
      exact ⟨other, declared, same, (Bool.not_eq_true _).mp right⟩

theorem supplies_declareInterface {interface : String}
    (implemented : interface ∈ spec.interfaces) :
    Supplies specs pending order (fun later => Offers later true interface)
      (declareInterface specs pending spec program interface) := by
  have named : interface ∈ (classOf spec).parents :=
    List.mem_append_right _ implemented
  refine (declares realizes (requested _ named)).bind ?_
  rintro next ⟨later, advances, other, declared, rfl⟩
  rw [advances.isInterface_eq declared]
  split
  · rename_i wrong
    refine .error ⟨rfl, fun distinct hierarchy => ?_⟩
    have offers := (hierarchy.fits spec known).interfaces _ implemented
    rw [offers.isInterface_eq distinct (advances.listed declared)] at wrong
    cases wrong
  · rename_i right
    exact .ok ⟨later, advances, other, declared, rfl, by simpa using right⟩

theorem supplies_declareInterfaces :
    Supplies specs pending order
      (fun later => ∀ parent ∈ spec.interfaces, Offers later true parent)
      (spec.interfaces.foldlM (declareInterface specs pending spec)
        program) := by
  apply Ensures.foldlM fun (seen : List String) (next : Program) =>
    ∃ later, Advances specs pending order later next ∧
      ∀ parent ∈ seen, Offers later true parent
  · rintro seen interface implemented before ⟨middle, first, offered⟩
    refine (supplies_declareInterface declares known first.toRealizes
      (fun parent named => (requested parent named).mono first.kept)
      implemented).mono ?_
    rintro after ⟨later, second, offers⟩
    refine ⟨later, first.trans second, fun parent listed => ?_⟩
    rcases List.mem_append.mp listed with old | new
    · exact (offered parent old).mono second.kept
    · rw [List.mem_singleton.mp new]
      exact offers
  · exact ⟨order, .refl realizes, nofun⟩

end Parents

/-- A class that is needed is declared, after everything that it builds on. -/
theorem supplies_declareClass {specs pending order : List ClassSpec}
    {program : Program} {name : String} (included : pending ⊆ specs)
    (realizes : Realizes specs order program)
    (requested : Requested specs pending order name) :
    Supplies specs pending order
      (fun later => ∃ spec ∈ later, spec.name = name)
      (declareClass specs pending program name) := by
  -- The parents of a class are declared from fewer pending classes.
  induction size : pending.length using Nat.strongRecOn
    generalizing pending order program name with
  | _ size ih =>
      by_cases present : (program.class? name).isSome = true
      · rw [declareClass_of_declared present]
        rw [isSome_class?_iff, realizes.names_eq] at present
        exact .ok ⟨order, .refl realizes, List.mem_map.mp present⟩
      have fresh : name ∉ order.map ClassSpec.name := by
        rwa [← realizes.names_eq, ← isSome_class?_iff]
      cases found : pending.find? fun spec => spec.name = name with
      | none =>
          have broken : ¬ Hierarchy specs :=
            requested.not_hierarchy (by simpa using found) fresh
          rw [declareClass_of_absent present found]
          split <;> exact .error ⟨rfl, fun _ => broken⟩
      | some spec =>
          have waiting : spec ∈ pending := List.mem_of_find?_eq_some found
          have known : spec ∈ specs := included waiting
          have named : spec.name = name := by
            simpa using List.find?_some found
          subst named
          have smaller : ∀ {order : List ClassSpec} {program : Program}
              {parent : String}, Realizes specs order program →
              Requested specs (without pending spec.name) order parent →
              Supplies specs (without pending spec.name) order
                (fun later => ∃ spec ∈ later, spec.name = parent)
                (declareClass specs (without pending spec.name) program
                  parent) :=
            fun realizes requested =>
              ih _ (size ▸ length_without_lt found)
                (List.Subset.trans (List.filter_subset_self _) included)
                realizes requested rfl
          have parents : ∀ parent ∈ (classOf spec).parents,
              Requested specs (without pending spec.name) order parent :=
            fun parent member =>
              requested.ofParent ⟨spec, known, rfl, member⟩
          rw [declareClass_of_pending present found]
          refine (supplies_declareSuper smaller known realizes
            parents).bind ?_
          rintro _ ⟨middle, first, extended⟩
          refine (supplies_declareInterfaces smaller known
            first.toRealizes (fun parent member =>
              (parents parent member).mono first.kept)).bind ?_
          rintro _ ⟨later, second, implemented⟩
          have advances := first.trans second
          have fits : Fits later spec :=
            ⟨fun parent member => (extended parent member).mono second.kept,
              implemented⟩
          rcases second.newClass known (advances.not_mem_names fresh) fits with
            ⟨next, created, complete⟩
          rw [created]
          exact .ok ⟨spec :: later, advances.last waiting complete,
            spec, .head _, rfl⟩

/-- All classes are declared, unless they are broken. -/
theorem ensures_declareClasses (specs : List ClassSpec) :
    Ensures (Broken specs)
      (fun program => ∃ order, Realizes specs order program ∧
        ∀ spec ∈ specs, spec.name ∈ order.map ClassSpec.name)
      (declareClasses specs) := by
  apply Ensures.foldlM fun (seen : List ClassSpec) (next : Program) =>
    ∃ order, Realizes specs order next ∧
      ∀ spec ∈ seen, spec.name ∈ order.map ClassSpec.name
  · rintro seen spec known before ⟨order, realizes, all⟩
    have requested : Requested specs specs order spec.name :=
      ⟨fun _ => List.mem_map_of_mem known, fun _ listed => Or.inl listed⟩
    refine (supplies_declareClass (List.Subset.refl _) realizes
      requested).mono ?_
    rintro after ⟨later, advances, declared⟩
    refine ⟨later, advances.toRealizes, fun other listed => ?_⟩
    rcases List.mem_append.mp listed with old | new
    · exact List.map_subset _ advances.kept (all other old)
    · rw [List.mem_singleton.mp new]
      exact List.mem_map.mpr declared
  · exact ⟨[], ⟨rfl, List.nil_subset _, .nil⟩, nofun⟩

/-! ## Declared programs -/

/--
Every class is declared once, as it is described, and after the classes that it
builds on.  These are found in the program under the names by which the class
refers to them.
-/
structure Declared (specs : List ClassSpec) (program : Program) : Prop where
  once : program.classes.Perm (specs.map classOf)
  resolved : ∀ spec ∈ specs, program.class? spec.name = some (classOf spec) ∧
    ∀ parent ∈ (classOf spec).parents, ∃ other ∈ specs,
      other.name = parent ∧ program.class? parent = some (classOf other)
  ordered : ∀ before cls after, program.classes = before ++ cls :: after →
    ∀ parent ∈ cls.parents, parent ∈ before.map Class.name

/-- If descriptions have different names, they are declared themselves. -/
theorem Realizes.subset {specs order : List ClassSpec} {program : Program}
    (realizes : Realizes specs order program)
    (distinct : (specs.map ClassSpec.name).Nodup)
    (all : ∀ spec ∈ specs, spec.name ∈ order.map ClassSpec.name) :
    specs ⊆ order := by
  intro spec known
  rcases List.mem_map.mp (all spec known) with ⟨other, declared, same⟩
  rwa [← eq_of_name_eq distinct (realizes.listed declared) known same]

theorem Realizes.declared {specs order : List ClassSpec} {program : Program}
    (realizes : Realizes specs order program)
    (distinct : (specs.map ClassSpec.name).Nodup) (all : specs ⊆ order) :
    Declared specs program where
  once := by
    have same : order.Perm specs :=
      (List.perm_ext_iff_of_nodup realizes.arranged.distinct.of_map
        distinct.of_map).mpr fun _ => ⟨(realizes.listed ·), (all ·)⟩
    rw [Program.classes, realizes.declarations]
    exact (List.reverse_perm _).trans (same.map classOf)
  resolved spec known := by
    refine ⟨realizes.class?_eq (all known), fun parent named => ?_⟩
    have described :=
      (realizes.arranged.fits spec (all known)).mem_names named
    rcases List.mem_map.mp described with ⟨other, declared, rfl⟩
    exact ⟨other, realizes.listed declared, rfl,
      realizes.class?_eq declared⟩
  ordered before cls after split parent named := by
    have reversed : order.map classOf =
        after.reverse ++ cls :: before.reverse := by
      rw [Program.classes, realizes.declarations, List.reverse_eq_iff] at split
      simpa using split
    have older := realizes.arranged.mem_older reversed named
    simpa using older

/-! ## Sample descriptions

In the first list, all classes stand before the classes that they build on, and
two interfaces of one class build on the same interface.  In the second one, a
class, its superclass and the interface of that build on each other.
-/

namespace Sample

def scattered : List ClassSpec :=
  [{ name := "C", super := "B", interfaces := ["I", "J"] },
    { name := "B", super := "A", isAbstract := true },
    { name := "I", interfaces := ["K"], isInterface := true },
    { name := "A" },
    { name := "J", interfaces := ["K"], isInterface := true },
    { name := "K", isInterface := true }]

def circular : List ClassSpec :=
  [{ name := "A", super := "B" },
    { name := "B", interfaces := ["I"] },
    { name := "I", interfaces := ["A"], isInterface := true }]

end Sample

/--
Classes with different names are declared exactly if they form a hierarchy: each
superclass is described and is not an interface, each interface is described
and is one, and no class builds on itself.  Then every class is declared once,
as it is described, and after the classes that it builds on.
-/
theorem declareClasses_iff_hierarchy (specs : List ClassSpec)
    (distinct : (specs.map ClassSpec.name).Nodup) :
    ((∃ program, declareClasses specs = .ok program) ↔ Hierarchy specs) ∧
      ∀ program, declareClasses specs = .ok program →
        Declared specs program := by
  have ensures := ensures_declareClasses specs
  cases computed : declareClasses specs with
  | error problem =>
      rw [computed, ensures_error] at ensures
      have broken : ¬ Hierarchy specs := ensures.irregular distinct
      exact ⟨⟨nofun, fun hierarchy => absurd hierarchy broken⟩, nofun⟩
  | ok program =>
      rw [computed, ensures_ok] at ensures
      rcases ensures with ⟨order, realizes, named⟩
      have all : specs ⊆ order := realizes.subset distinct named
      have hierarchy : Hierarchy specs :=
        realizes.arranged.hierarchy.of_subset realizes.listed all
      refine ⟨⟨fun _ => hierarchy, fun _ => ⟨program, rfl⟩⟩, ?_⟩
      rintro _ ⟨⟩
      exact realizes.declared distinct all

/-- Scattered classes are put in order, and a circle of classes is refused. -/
theorem declareClasses_iff_hierarchy_sample :
    (Sample.scattered.map ClassSpec.name).Nodup ∧
      (∃ program, declareClasses Sample.scattered = .ok program ∧
        program.classes.map Class.name = ["A", "B", "K", "I", "J", "C"] ∧
        Hierarchy Sample.scattered ∧ Declared Sample.scattered program) ∧
      (Sample.circular.map ClassSpec.name).Nodup ∧
      declareClasses Sample.circular = .error (.cyclicInheritance "A") ∧
      ¬ Hierarchy Sample.circular := by
  have scattered : (Sample.scattered.map ClassSpec.name).Nodup := by decide
  have circular : (Sample.circular.map ClassSpec.name).Nodup := by decide
  have found : (declareClasses Sample.scattered).toOption.map
      (fun program => program.classes.map Class.name) =
      some ["A", "B", "K", "I", "J", "C"] := by decide +kernel
  have refused : declareClasses Sample.circular =
      .error (.cyclicInheritance "A") := by decide +kernel
  rcases declareClasses_iff_hierarchy _ scattered with ⟨iff, success⟩
  rcases declareClasses_iff_hierarchy _ circular with ⟨never, _⟩
  cases done : declareClasses Sample.scattered with
  | error problem =>
      rw [done] at found
      cases found
  | ok program =>
      rw [done] at found
      refine ⟨scattered, ⟨program, rfl, Option.some.inj found,
        iff.mp ⟨program, done⟩, success program done⟩, circular, refused, ?_⟩
      intro hierarchy
      rcases never.mpr hierarchy with ⟨other, declared⟩
      cases refused.symm.trans declared

end Load

end PointsTo
