import PointsTo.Proofs.Analysis.Insensitive
import PointsTo.Proofs.Analysis.Views

/-!
# More context never loses precision

Contexts of one kind but smaller depth are the ends of deeper ones, and contexts
of classes arise from contexts of objects when each object is replaced by the
class whose method allocates it.  Both changes of view can be interchanged with
the selection of contexts: appending an element, keeping the most recent ones,
and handing a context on to static callees.  So deeper contexts are at least as
precise as shallower ones, and objects are at least as precise as classes.
-/

namespace PointsTo

variable {setup : Setup} {entries : List MethodId}

/-! ## The most recent items -/

section Recent

variable {α β : Type} {shallow deep limit : Int}

/-- The most recent of the most recent items. -/
theorem recent_recent (shallower : shallow ≤ deep) (items : List α) :
    recent shallow (recent deep items) = recent shallow items := by
  simp only [recent, List.drop_drop, List.length_drop]
  congr 1
  omega

/-- An item that is appended takes the place of one that is dropped. -/
theorem recent_append (shallower : shallow ≤ deep + 1) (items : List α)
    (item : α) :
    recent shallow (recent deep items ++ [item]) =
      recent shallow (items ++ [item]) := by
  have kept : recent deep items ++ [item] =
      (items ++ [item]).drop (items.length - deep.toNat) := by
    rw [recent, List.drop_append_of_le_length (Nat.sub_le ..)]
  rw [kept]
  simp only [recent, List.drop_drop, List.length_drop, List.length_append,
    List.length_singleton]
  congr 1
  omega

theorem recent_map (change : α → β) (items : List α) :
    recent limit (items.map change) = (recent limit items).map change := by
  simp only [recent, List.length_map, List.map_drop]

end Recent

namespace Context

variable {shallow deep kept : Int}

/-- A shortened context that is extended is the end of the extended one. -/
theorem extend_recent (shallower : shallow ≤ deep)
    (enough : shallow ≤ kept + 1) (context : Context) (elem : Elem) :
    extend (recent kept context) elem shallow =
      recent shallow (context.extend elem deep) := by
  rw [extend, extend, recent_recent shallower, recent_append enough]

/-- Contexts of objects are the ends of contexts of methods. -/
theorem truncate_recent (shallower : shallow ≤ deep) (context : Context) :
    truncate (recent shallow context) (shallow - 1) =
      recent (shallow - 1) (context.truncate (deep - 1)) := by
  rw [truncate, truncate, recent_recent (by omega), recent_recent (by omega)]

end Context

/-! ## Views -/

namespace View

/-- Contexts of methods keep their most recent elements, and those of objects
one less. -/
def shorten (depth : Int) : View :=
  ⟨recent depth, recent (depth - 1)⟩

/-- All contexts become empty. -/
def forget : View :=
  ⟨fun _ => [], fun _ => []⟩

end View

/-- An object is replaced by the class whose method allocates it. -/
def Elem.byClass : Elem → Elem
  | .object obj => .cls obj.container.owner
  | .call site => .call site
  | .cls name => .cls name

/-- All objects in contexts are replaced by classes. -/
def View.byClass : View :=
  ⟨List.map Elem.byClass, List.map Elem.byClass⟩

namespace View

/-- The same rules are there under every selector. -/
theorem rules_under (fine coarse : Selector) (rules : Rules)
    (tracked : (setup.under fine).rules = some rules) :
    ∃ more, (setup.under coarse).rules = some more ∧ rules.Within more :=
  ⟨rules, tracked, .refl rules⟩

theorem shorten_abstracts (sensitivity : Sensitivity) {shallow deep : Int}
    (shallower : shallow ≤ deep) :
    (shorten shallow).Abstracts
      (setup.under (sensitivity.selector deep))
      (setup.under (sensitivity.selector shallow)) := by
  constructor
  · rfl
  · exact List.drop_nil
  · exact List.drop_nil
  · -- Static callees of the other kinds stay in the context of the caller.
    intro site
    cases sensitivity with
    | callSite => exact Context.extend_recent shallower (by omega) _ _
    | object => rfl
    | type => rfl
  · intro site receiver
    cases sensitivity <;>
      exact Context.extend_recent shallower (by omega) _ _
  · intro context
    cases sensitivity <;> exact Context.truncate_recent shallower context
  · exact rules_under _ _

theorem forget_abstracts (selector : Selector) :
    forget.Abstracts (setup.under selector) (setup.under .insensitive) :=
  ⟨rfl, rfl, rfl, fun _ => rfl, fun _ _ => rfl, fun _ => rfl,
    rules_under _ _⟩

theorem byClass_abstracts (depth : Int) :
    byClass.Abstracts (setup.under (.object depth))
      (setup.under (.type depth)) := by
  constructor
  · rfl
  · rfl
  · rfl
  · intro site
    rfl
  · intro site receiver
    show recent depth (receiver.context.map Elem.byClass ++ [_]) =
      (recent depth (receiver.context ++ [.object receiver.val])).map
        Elem.byClass
    rw [← recent_map, List.map_append]
    rfl
  · intro context
    exact recent_map Elem.byClass context
  · exact rules_under _ _

end View

/-! ## Precision -/

/-- An analysis is at least as precise as its coarser view. -/
theorem View.Abstracts.analyze_below {view : View} {fine coarse : Setup}
    (abstracts : view.Abstracts fine coarse)
    (coherent : fine.program.Coherent) (entries : List MethodId) :
    (fine.analyze entries).Below Result.Within (coarse.analyze entries) := by
  have started : coarse.starts entries = fine.starts entries := by
    rw [Setup.starts, Setup.starts, abstracts.program]
  have included : fine.starts entries ⊆ coarse.starts entries := by
    rw [started]
    exact List.Subset.refl _
  constructor
  · intro succeeds
    obtain ⟨⟨_, given, _⟩, _⟩ := (Setup.exists_success_iff
      (abstracts.coherent_program coherent)).mp succeeds
    rw [started] at given
    exact abstracts.exists_success coherent included given succeeds
  · intro _ _ _ _ fineAnalyzed coarseAnalyzed
    exact abstracts.within coherent included fineAnalyzed coarseAnalyzed

/-! ## A program with two receivers

A method that returns its argument is called on two objects, each time with the
receiver as the argument.
-/

namespace Paired

open Cyclic (type main pass passHeading passRef)
open Program

def build : Except BuildError Program := do
  let program ← ({} : Program).newClass { name := "A" }
  let program ← program.newMethod
    { owner := "A", name := "main", paramTypes := [], result := type
      isStatic := true }
  let program ← program.newMethod passHeading
  let program ← program.modifyMethod main fun method =>
    method.newVar "x" none
  let program ← program.modifyMethod main fun method =>
    method.newVar "y" none
  let program ← program.modifyMethod main fun method =>
    method.addNew ⟨main, "x"⟩ type
  let program ← program.modifyMethod main fun method =>
    method.addNew ⟨main, "y"⟩ type
  let program ← program.modifyMethod main fun method =>
    method.addInvoke .virtual passRef (some ⟨main, "x"⟩) [⟨main, "x"⟩]
      (some ⟨main, "x"⟩)
  let program ← program.modifyMethod main fun method =>
    method.addInvoke .virtual passRef (some ⟨main, "y"⟩) [⟨main, "y"⟩]
      (some ⟨main, "y"⟩)
  program.modifyMethod pass fun method => method.addReturn (some ⟨pass, "p0"⟩)

def program : Program :=
  build.toOption.getD {}

theorem built : program.Built := by
  unfold program
  cases done : build with
  | error problem => exact .empty
  | ok program =>
      simp only [build, Checked.bind_eq_ok] at done
      obtain ⟨_, newClass, _, newMain, _, newPass, _, varX, _, varY, _, first,
        _, second, _, onFirst, _, onSecond, returned⟩ := done
      have declared := Built.empty.newClass newClass |>.newMethod newMain
        |>.newMethod newPass
      have typed := Load.Built.modifyMethod
        (Load.Built.modifyMethod declared .newVar varX) .newVar varY
      have allocated := Load.Built.modifyMethod
        (Load.Built.modifyMethod typed .addNew first) .addNew second
      have called := Load.Built.modifyMethod
        (Load.Built.modifyMethod allocated .addInvoke onFirst) .addInvoke
        onSecond
      exact Load.Built.modifyMethod called .addReturn returned

def tracked : Setup :=
  { program, rules := some Cyclic.rules }

theorem made : tracked.program.Made :=
  Or.inl built

/-- The analysis succeeds with the number of flows that it is found to have. -/
theorem exists_success (selector : Selector) (count : Nat)
    (counted : ((tracked.under selector).analyze [main]).result?.map
      (fun result => result.flows.length) = some count) :
    ∃ result log, (tracked.under selector).analyze [main] =
      .success result log ∧ result.flows.length = count :=
  Answer.exists_success counted

end Paired

/-! ## Depths and kinds -/

/--
A deeper analysis is at least as precise as a shallower one of the same kind.
At a depth that is not positive an analysis gives the very answer that it gives
without contexts, so that analyses with contexts are at least as precise as
those without.
-/
theorem analyze_sharper_of_le (made : setup.program.Made)
    (sensitivity : Sensitivity) {shallow deep : Int}
    (shallower : shallow ≤ deep) (entries : List MethodId) :
    ((setup.under (sensitivity.selector deep)).analyze entries).Below
        Result.Within
        ((setup.under (sensitivity.selector shallow)).analyze entries) ∧
      (shallow ≤ 0 →
        (setup.under (sensitivity.selector shallow)).analyze entries =
          ((setup.under .insensitive).analyze entries).under
            (sensitivity.selector shallow)) ∧
      ((setup.under (sensitivity.selector deep)).analyze entries).Below
        Result.Within ((setup.under .insensitive).analyze entries) := by
  have coherent : (setup.under (sensitivity.selector deep)).program.Coherent :=
    made.coherent
  refine ⟨?_, ?_, ?_⟩
  · exact (View.shorten_abstracts sensitivity shallower).analyze_below
      coherent entries
  · intro none
    exact Setup.analyze_under made.coherent
      (Selector.flat_of_nonpos sensitivity none) entries
  · exact (View.forget_abstracts _).analyze_below coherent entries

/-- One receiver of context tells the two calls apart. -/
theorem analyze_sharper_of_le_paired :
    Paired.tracked.program.Made ∧ (0 : Int) ≤ 1 ∧
      ∃ fine fineLog coarse coarseLog,
        (Paired.tracked.under (Sensitivity.object.selector 1)).analyze
          [Cyclic.main] = .success fine fineLog ∧
        (Paired.tracked.under (Sensitivity.object.selector 0)).analyze
          [Cyclic.main] = .success coarse coarseLog ∧
        fine.flows.length = 2 ∧ coarse.flows.length = 4 ∧
        fine.Within coarse ∧
        (Paired.tracked.under (Sensitivity.object.selector 0)).analyze
          [Cyclic.main] =
          ((Paired.tracked.under .insensitive).analyze [Cyclic.main]).under
            (Sensitivity.object.selector 0) := by
  obtain ⟨fine, fineLog, fineAnalyzed, two⟩ :=
    Paired.exists_success (.object 1) 2 (by decide +kernel)
  obtain ⟨coarse, coarseLog, coarseAnalyzed, four⟩ :=
    Paired.exists_success (.object 0) 4 (by decide +kernel)
  obtain ⟨sharper, flat, _⟩ := analyze_sharper_of_le Paired.made .object
    (show (0 : Int) ≤ 1 by decide) [Cyclic.main]
  exact ⟨Paired.made, by decide, fine, fineLog, coarse, coarseLog,
    fineAnalyzed, coarseAnalyzed, two, four,
    sharper.related fineAnalyzed coarseAnalyzed, flat (by decide)⟩

/--
An analysis that tells receivers apart by object is at least as precise as one
that tells them apart by class.  The contexts of classes arise from those of
objects when each object is replaced by the class whose method allocates it:
this can be interchanged with the selection of contexts, and whatever the first
analysis finds the second one finds under the contexts that arise so.
-/
theorem analyze_object_sharper (made : setup.program.Made) (depth : Int)
    (entries : List MethodId) :
    ((setup.under (.object depth)).analyze entries).Below Result.Within
        ((setup.under (.type depth)).analyze entries) ∧
      View.byClass.Abstracts (setup.under (.object depth))
        (setup.under (.type depth)) ∧
      ∀ fine fineLog coarse coarseLog,
        (setup.under (.object depth)).analyze entries =
          .success fine fineLog →
        (setup.under (.type depth)).analyze entries =
          .success coarse coarseLog →
        ∀ fact, fine.state.Holds fact →
          coarse.state.Holds (View.byClass.fact fact) := by
  have coherent : (setup.under (.object depth)).program.Coherent :=
    made.coherent
  have abstracts : View.byClass.Abstracts (setup.under (.object depth))
      (setup.under (.type depth)) := View.byClass_abstracts depth
  refine ⟨abstracts.analyze_below coherent entries, abstracts, ?_⟩
  intro fine fineLog coarse coarseLog fineAnalyzed coarseAnalyzed fact held
  exact abstracts.holds coherent (List.Subset.refl _) fineAnalyzed
    coarseAnalyzed held

/-- The two receivers are allocated in one class. -/
theorem analyze_object_sharper_paired :
    Paired.tracked.program.Made ∧ ∃ fine fineLog coarse coarseLog,
      (Paired.tracked.under (.object 1)).analyze [Cyclic.main] =
        .success fine fineLog ∧
      (Paired.tracked.under (.type 1)).analyze [Cyclic.main] =
        .success coarse coarseLog ∧
      fine.flows.length = 2 ∧ coarse.flows.length = 4 ∧
      fine.Within coarse ∧ ∀ fact, fine.state.Holds fact →
        coarse.state.Holds (View.byClass.fact fact) := by
  obtain ⟨fine, fineLog, fineAnalyzed, two⟩ :=
    Paired.exists_success (.object 1) 2 (by decide +kernel)
  obtain ⟨coarse, coarseLog, coarseAnalyzed, four⟩ :=
    Paired.exists_success (.type 1) 4 (by decide +kernel)
  obtain ⟨sharper, _, carried⟩ :=
    analyze_object_sharper Paired.made 1 [Cyclic.main]
  exact ⟨Paired.made, fine, fineLog, coarse, coarseLog, fineAnalyzed,
    coarseAnalyzed, two, four, sharper.related fineAnalyzed coarseAnalyzed,
    carried fine fineLog coarse coarseLog fineAnalyzed coarseAnalyzed⟩

end PointsTo
