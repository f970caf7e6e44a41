import PointsTo.Proofs.Program.Subtyping

/-!
# Dispatch and resolution

A reference is resolved by walking up from the class that it names to the first
declaration, abstract or not; a call is dispatched by walking up from the class
of the receiver to the first concrete one.  Both walks are searches of superclass
chains.  The chain of a class ends with the chain of each of its ancestors, and
what comes before are the classes from the one up to, but excluding, the other.
From this the two searches are compared on chains of any length.
-/

namespace PointsTo

open Relation

namespace Program

/-- A class has another one as its superclass. -/
def Extends (program : Program) (sub super : String) : Prop :=
  ∃ cls, program.class? sub = some cls ∧ cls.super = some super

/-- A class is another one or extends it, directly or through others. -/
abbrev Below (program : Program) : (lower upper : String) → Prop :=
  ReflTransGen program.Extends

/-- The first class is on the way from the second one up to the third one, and
it is not the third one. -/
structure Between (program : Program) (name lower upper : String) : Prop where
  above : program.Below lower name
  below : program.Below name upper
  excluded : name ≠ upper

/-- A class declares a concrete method with the given subsignature. -/
structure Provides (program : Program) (name subsignature : String)
    (method : Method) : Prop where
  declared : ∃ cls, program.class? name = some cls ∧ method ∈ cls.methods
  same : method.subsignature = subsignature
  concrete : method.isAbstract = false

/-! ## Superclass chains -/

theorem mem_names_of_chainIn {declarations : List Class} {name : String}
    {cls : Class} (member : cls ∈ chainIn declarations name) :
    name ∈ declarations.map Class.name := by
  induction declarations with
  | nil => cases member
  | cons first older ih =>
      rw [List.map_cons, List.mem_cons]
      by_cases same : first.name = name
      · exact .inl same.symm
      · rw [chainIn, if_neg same] at member
        exact .inr (ih member)

section Chains

variable {program : Program} (layered : Layered program.declarations)

include layered

theorem chain_eq {name : String} {cls : Class}
    (found : program.class? name = some cls) :
    program.chain name = cls :: (cls.super.elim [] program.chain) := by
  rcases (class?_eq_some_iff_of_layered layered).mp found with
    ⟨declared, rfl⟩
  exact layered.chainIn_eq declared

/-- A chain starts with the class itself. -/
theorem chain_eq_cons {name : String} {cls : Class} {rest : List Class}
    (split : program.chain name = cls :: rest) :
    program.class? name = some cls ∧
      rest = cls.super.elim [] program.chain := by
  have member : cls ∈ program.chain name := split ▸ List.mem_cons_self
  rcases exists_class?_eq (mem_names_of_chainIn member) with ⟨first, found⟩
  rw [chain_eq layered found] at split
  rcases List.cons.inj split with ⟨rfl, rfl⟩
  exact ⟨found, rfl⟩

omit layered in
theorem Extends.link {sub super : String}
    (extended : program.Extends sub super) : program.Link sub super := by
  rcases extended with ⟨cls, found, named⟩
  exact ⟨cls, found, List.mem_append_left _ (Option.mem_toList.mpr named)⟩

omit layered in
theorem Below.links {sub super : String} (path : program.Below sub super) :
    ReflTransGen program.Link sub super :=
  ReflTransGen.mono (fun _ _ step => Extends.link step) _ _ path

/-- A class does not extend itself. -/
theorem Extends.ne {sub middle super : String}
    (extended : program.Extends sub middle)
    (path : program.Below middle super) : sub ≠ super := by
  rintro rfl
  exact not_transGen_link layered sub (.head' extended.link path.links)

/-- The chain of a class ends with the chain of each of its ancestors, and the
classes before that are those on the way. -/
theorem exists_chain_append {lower upper : String}
    (path : program.Below lower upper) :
    ∃ before, program.chain lower = before ++ program.chain upper ∧
      ∀ cls ∈ before, program.class? cls.name = some cls ∧
        program.Between cls.name lower upper := by
  induction path using ReflTransGen.head_induction_on with
  | refl => exact ⟨[], rfl, nofun⟩
  | @head lower middle extended path ih =>
      rcases ih with ⟨before, split, passed⟩
      rcases id extended with ⟨cls, found, named⟩
      refine ⟨cls :: before, ?_, ?_⟩
      · rw [chain_eq layered found, named]
        exact congrArg (cls :: ·) split
      · intro other member
        rcases List.mem_cons.mp member with rfl | later
        · rw [((class?_eq_some_iff_of_layered layered).mp found).2]
          exact ⟨found, .refl, path.head extended, extended.ne layered path⟩
        · rcases passed other later with ⟨foundOther, between⟩
          exact ⟨foundOther, between.above.head extended, between.below,
            between.excluded⟩

/-- From each of its classes on, a chain is the chain of that class. -/
theorem chain_suffix {lower : String} {before after : List Class} {cls : Class}
    (split : program.chain lower = before ++ cls :: after) :
    program.class? cls.name = some cls ∧ program.Below lower cls.name ∧
      program.chain cls.name = cls :: after := by
  induction before generalizing lower with
  | nil =>
      have found := (chain_eq_cons layered split).1
      rw [((class?_eq_some_iff_of_layered layered).mp found).2]
      exact ⟨found, .refl, split⟩
  | cons top rest ih =>
      rcases chain_eq_cons layered split with ⟨found, onward⟩
      cases extended : top.super with
      | none =>
          rw [extended] at onward
          cases rest <;> cases onward
      | some super =>
          rw [extended] at onward
          rcases ih onward.symm with ⟨foundLast, path, suffix⟩
          exact ⟨foundLast, path.head ⟨top, found, extended⟩, suffix⟩

theorem mem_chain_iff {lower : String} {cls : Class} :
    cls ∈ program.chain lower ↔
      program.class? cls.name = some cls ∧ program.Below lower cls.name := by
  constructor
  · intro member
    rcases List.append_of_mem member with ⟨before, after, split⟩
    rcases chain_suffix layered split with ⟨found, path, _⟩
    exact ⟨found, path⟩
  · rintro ⟨found, path⟩
    rcases exists_chain_append layered path with ⟨before, split, _⟩
    rw [split, chain_eq layered found]
    exact List.mem_append_right _ (.head _)

/-- Two classes that extend each other are the same. -/
theorem eq_of_below {first second : String}
    (up : program.Below first second) (down : program.Below second first) :
    first = second :=
  eq_of_link_paths layered up.links down.links

end Chains

/-! ## Concrete methods -/

theorem Coherent.concrete?_eq_some_iff {program : Program}
    (coherent : program.Coherent) {name subsignature : String} {cls : Class}
    (found : program.class? name = some cls) {method : Method} :
    concrete? cls subsignature = some method ↔
      program.Provides name subsignature method := by
  have whole := coherent.classes cls
    (coherent.class?_eq_some_iff.mp found).1
  rw [concrete?, Option.filter_eq_some_iff, Class.method?,
    find?_key_eq_some_iff whole.distinct, Bool.not_eq_true']
  constructor
  · rintro ⟨⟨member, same⟩, concrete⟩
    exact ⟨⟨cls, found, member⟩, same, concrete⟩
  · rintro ⟨⟨other, foundOther, member⟩, same, concrete⟩
    cases found.symm.trans foundOther
    exact ⟨⟨member, same⟩, concrete⟩

theorem Coherent.concrete?_eq_none_iff {program : Program}
    (coherent : program.Coherent) {name subsignature : String} {cls : Class}
    (found : program.class? name = some cls) :
    concrete? cls subsignature = none ↔
      ∀ method, ¬ program.Provides name subsignature method := by
  rw [Option.eq_none_iff_forall_ne_some]
  exact forall_congr' fun method =>
    not_congr (coherent.concrete?_eq_some_iff found)

theorem Provides.owner_eq {program : Program} {name subsignature : String}
    {method : Method} (provides : program.Provides name subsignature method)
    (coherent : program.Coherent) : method.owner = name := by
  rcases provides.declared with ⟨cls, found, member⟩
  rcases coherent.class?_eq_some_iff.mp found with ⟨declared, rfl⟩
  exact (coherent.classes cls declared).owned method member

/-! ## The two searches -/

/-- The concrete method with a subsignature that is closest to a class. -/
def Closest (program : Program) (lower subsignature : String)
    (method : Method) : Prop :=
  ∃ upper, program.Below lower upper ∧
    program.Provides upper subsignature method ∧
    ∀ name, program.Between name lower upper →
      ∀ other, ¬ program.Provides name subsignature other

section Searches

variable {program : Program} (coherent : program.Coherent)
  (layered : Layered program.declarations) {ref : MethodRef}
  {lower upper : String}

include coherent layered

/-- Classes that provide no method do not matter for the dispatch. -/
theorem dispatch?_of_between (path : program.Below lower upper)
    (nowhere : ∀ name, program.Between name lower upper →
      ∀ method, ¬ program.Provides name ref.subsignature method) :
    program.dispatch? (some (.cls lower)) ref =
      program.dispatch? (some (.cls upper)) ref := by
  rcases exists_chain_append layered path with ⟨before, split, passed⟩
  have skipped : before.findSome? (concrete? · ref.subsignature) = none := by
    rw [List.findSome?_eq_none_iff]
    intro cls member
    rcases passed cls member with ⟨found, between⟩
    exact (coherent.concrete?_eq_none_iff found).mpr
      (nowhere cls.name between)
  change (program.chain lower).findSome? _ =
    (program.chain upper).findSome? _
  rw [split, List.findSome?_append, skipped, Option.none_or]

theorem dispatch?_of_provides {method : Method}
    (provides : program.Provides lower ref.subsignature method) :
    program.dispatch? (some (.cls lower)) ref = some method := by
  rcases provides.declared with ⟨cls, found, _⟩
  change (program.chain lower).findSome? _ = some method
  rw [chain_eq layered found, List.findSome?_cons,
    (coherent.concrete?_eq_some_iff found).mpr provides]

theorem dispatch?_eq_some_iff {method : Method} :
    program.dispatch? (some (.cls lower)) ref = some method ↔
      program.Closest lower ref.subsignature method := by
  constructor
  · intro dispatched
    rcases List.findSome?_eq_some_iff.mp dispatched with
      ⟨passed, cls, after, split, here, skipped⟩
    rcases chain_suffix layered split with ⟨found, path, suffix⟩
    refine ⟨cls.name, path,
      (coherent.concrete?_eq_some_iff found).mp here, ?_⟩
    intro name between other provides
    rcases provides.declared with ⟨middle, foundMiddle, _⟩
    obtain rfl := ((class?_eq_some_iff_of_layered layered).mp foundMiddle).2
    have onChain : middle ∈ passed ++ cls :: after :=
      split ▸ (mem_chain_iff layered).mpr ⟨foundMiddle, between.above⟩
    rcases List.mem_append.mp onChain with before | later
    · have provided := (coherent.concrete?_eq_some_iff foundMiddle).mpr provides
      cases (skipped middle before).symm.trans provided
    · rw [← suffix] at later
      have above := ((mem_chain_iff layered).mp later).2
      exact between.excluded (eq_of_below layered between.below above)
  · rintro ⟨upper, path, provides, nowhere⟩
    rw [dispatch?_of_between coherent layered path nowhere]
    exact dispatch?_of_provides coherent layered provides

/-- Nothing that is provided above a class is missed by the dispatch on it, and
what is found instead comes from further below. -/
theorem exists_dispatch? {method : Method} (path : program.Below lower upper)
    (provides : program.Provides upper ref.subsignature method) :
    ∃ found, program.dispatch? (some (.cls lower)) ref = some found ∧
      program.Below found.owner method.owner := by
  induction path using ReflTransGen.head_induction_on with
  | refl =>
      exact ⟨method, dispatch?_of_provides coherent layered provides, .refl⟩
  | @head lower middle extended path ih =>
      rcases id extended with ⟨cls, found, named⟩
      cases here : concrete? cls ref.subsignature with
      | none =>
          -- The class is passed over, and the search goes on from the next.
          rcases ih with ⟨other, dispatched, below⟩
          refine ⟨other, ?_, below⟩
          change (program.chain lower).findSome? _ = some other
          rw [chain_eq layered found, named, List.findSome?_cons, here]
          exact dispatched
      | some nearer =>
          have provided := (coherent.concrete?_eq_some_iff found).mp here
          refine ⟨nearer, dispatch?_of_provides coherent layered provided, ?_⟩
          rw [provided.owner_eq coherent, provides.owner_eq coherent]
          exact path.head extended

theorem dispatch?_eq_none_iff :
    program.dispatch? (some (.cls lower)) ref = none ↔
      ∀ upper, program.Below lower upper →
        ∀ method, ¬ program.Provides upper ref.subsignature method := by
  rw [Option.eq_none_iff_forall_ne_some]
  constructor
  · intro nothing upper path method provides
    rcases exists_dispatch? coherent layered path provides with
      ⟨found, dispatched, _⟩
    exact nothing found dispatched
  · intro nowhere method dispatched
    rcases (dispatch?_eq_some_iff coherent layered).mp dispatched with
      ⟨upper, path, provides, _⟩
    exact nowhere upper path method provides

/-- A reference that is resolved to a concrete method denotes one that is
provided above the class that it names. -/
theorem exists_provides_of_resolve? {method : Method}
    (resolved : program.resolve? ref = some method)
    (concrete : method.isAbstract = false) :
    ∃ upper, program.Below ref.owner upper ∧
      program.Provides upper ref.subsignature method := by
  rcases List.exists_of_findSome?_eq_some resolved with ⟨cls, onChain, here⟩
  rcases (mem_chain_iff layered).mp onChain with ⟨found, path⟩
  refine ⟨cls.name, path, (coherent.concrete?_eq_some_iff found).mp ?_⟩
  rw [concrete?, here, Option.filter_some, concrete]
  rfl

end Searches

/--
Virtual dispatch refines static resolution.  The dispatch on a class yields the
closest concrete method above it, if there is one.  Where the reference itself is
resolved to a concrete method, the dispatch on a subclass of the class that it
names yields that method or one that is declared further below.  Classes without
a concrete method inherit the result from their ancestors.
-/
structure Dispatching (program : Program) (ref : MethodRef) : Prop where
  closest : ∀ cls method,
    program.dispatch? (some (.cls cls)) ref = some method ↔
      program.Closest cls ref.subsignature method
  nothing : ∀ cls, program.dispatch? (some (.cls cls)) ref = none ↔
    ∀ upper, program.Below cls upper →
      ∀ method, ¬ program.Provides upper ref.subsignature method
  refines : ∀ cls method, program.Below cls ref.owner →
    program.resolve? ref = some method → method.isAbstract = false →
      ∃ found, program.dispatch? (some (.cls cls)) ref = some found ∧
        program.Below found.owner method.owner
  inherits : ∀ cls ancestor, program.Below cls ancestor →
    (∀ name, program.Between name cls ancestor →
      ∀ method, ¬ program.Provides name ref.subsignature method) →
        program.dispatch? (some (.cls cls)) ref =
          program.dispatch? (some (.cls ancestor)) ref

end Program

/-- In programs that are built or loaded, dispatch refines resolution. -/
theorem dispatching_of_made {program : Program} (made : program.Made)
    (ref : MethodRef) : program.Dispatching ref := by
  have coherent : program.Coherent := made.coherent
  have layered : Layered program.declarations := made.built.layered
  constructor
  · exact fun cls method => Program.dispatch?_eq_some_iff coherent layered
  · exact fun cls => Program.dispatch?_eq_none_iff coherent layered
  · intro cls method path resolved concrete
    rcases Program.exists_provides_of_resolve? coherent layered resolved
      concrete with ⟨upper, above, provides⟩
    exact Program.exists_dispatch? coherent layered (path.trans above) provides
  · exact fun cls ancestor path nowhere =>
      Program.dispatch?_of_between coherent layered path nowhere

/-! ## Sample program

A class overrides a method of its superclass by an abstract one; of the two
classes that extend it only the lower one has a concrete method again.
-/

namespace Overriding

def method : MethodSpec where
  name := "m"

def spec : ProgramSpec where
  classes :=
    [{ name := "A", methods := [method] },
      { name := "B", super := "A", isAbstract := true
        methods := [{ method with isAbstract := true }] },
      { name := "C", super := "B" },
      { name := "D", super := "C", methods := [method] }]

/-- The reference to the method as a class sees it. -/
def ref (owner : String) : MethodRef where
  owner
  name := "m"
  params := []
  result := .void

/-- The classes whose methods are found: by resolving the reference to the
methods of `A` and `B`, and by dispatching it on `C` and `D`. -/
def found (program : Program) : List (Option String) :=
  [program.resolve? (ref "A"), program.resolve? (ref "B"),
    program.dispatch? (some (.cls "C")) (ref "A"),
    program.dispatch? (some (.cls "D")) (ref "A")].map
      (Option.map Method.owner)

end Overriding

/-- The abstract method hides the one above it from the resolution, but not from
the dispatch. -/
theorem dispatching_of_made_overriding :
    ∃ program, Overriding.spec.load = .ok program ∧
      program.Dispatching (Overriding.ref "A") ∧
      Overriding.found program =
        [some "A", some "B", some "A", some "D"] := by
  have found : Overriding.spec.load.toOption.map Overriding.found =
      some [some "A", some "B", some "A", some "D"] := by decide +kernel
  cases loaded : Overriding.spec.load with
  | error problem =>
      rw [loaded] at found
      cases found
  | ok program =>
      rw [loaded] at found
      exact ⟨program, rfl,
        dispatching_of_made (.inr ⟨Overriding.spec, loaded⟩) _,
        Option.some.inj found⟩

end PointsTo
