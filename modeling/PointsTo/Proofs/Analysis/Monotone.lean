import PointsTo.Proofs.Analysis.Views

/-!
# More entries and more taint rules

With other entries or other taint rules, the solver comes across things in
another order and numbers them differently.  But what it finds is what can be
derived, and a derivation is still one when there are more entries and more
rules.  So the result grows with the set of entries and with the set of rules,
and it depends on nothing but these sets: their order does not matter, nor does
it matter how often something is listed.
-/

namespace PointsTo

variable {setup : Setup} {entries more : List MethodId}
  {rules moreRules : Rules}

/-- The same analysis with the given taint rules. -/
def Setup.tracking (setup : Setup) (rules : Rules) : Setup :=
  { setup with rules := some rules }

theorem Setup.starts_of_ne_nil (given : entries ≠ []) :
    setup.starts entries = entries := by
  rw [starts, if_neg (by simpa using given)]

/-- Nothing changes in the view of an analysis with more rules. -/
theorem View.same_abstracts (fewer : rules.Within moreRules) :
    View.same.Abstracts (setup.tracking rules) (setup.tracking moreRules) := by
  refine ⟨rfl, rfl, rfl, fun _ => rfl, fun _ _ => rfl, fun _ => rfl, ?_⟩
  intro listed tracked
  cases tracked
  exact ⟨moreRules, rfl, fewer⟩

/-! ## Results with contexts -/

/-- Whatever one result says, contexts included, the other one says. -/
structure Result.Included (part whole : Result) : Prop where
  reachable : part.state.calls.reachable ⊆ whole.state.calls.reachable
  calls : part.state.calls.edges ⊆ whole.state.calls.edges
  edges : part.state.flow.edges ⊆ whole.state.flow.edges
  objects : ∀ pointer,
    part.state.store.get pointer ⊆ whole.state.store.get pointer
  taintEdges : part.state.taintEdges ⊆ whole.state.taintEdges
  flows : part.flows ⊆ whole.flows

theorem Result.Included.of_holds {part whole : Result}
    (holds : ∀ fact, part.state.Holds fact → whole.state.Holds fact)
    (flows : part.flows ⊆ whole.flows) : part.Included whole where
  reachable := fun method => holds (.reached method)
  calls := fun edge => holds (.called edge)
  edges := fun (source, target) => holds (.flows source target)
  objects := fun pointer obj => holds (.points pointer obj)
  taintEdges := fun edge => holds (.retags edge)
  flows := flows

/-- Fewer entries and fewer rules lead to a smaller result. -/
theorem Setup.analyze_below (coherent : setup.program.Coherent)
    (fewer : rules.Within moreRules) (given : entries ≠ [])
    (included : entries ⊆ more) :
    ((setup.tracking rules).analyze entries).Below Result.Included
      ((setup.tracking moreRules).analyze more) := by
  have abstracts : View.same.Abstracts (setup.tracking rules)
      (setup.tracking moreRules) := View.same_abstracts fewer
  have partCoherent : (setup.tracking rules).program.Coherent := coherent
  obtain ⟨first, member⟩ := List.exists_mem_of_ne_nil entries given
  have moreGiven : more ≠ [] := List.ne_nil_of_mem (included member)
  have started : (setup.tracking rules).starts entries ⊆
      (setup.tracking moreRules).starts more := by
    rwa [starts_of_ne_nil given, starts_of_ne_nil moreGiven]
  constructor
  · refine abstracts.exists_success partCoherent started ?_
    rwa [starts_of_ne_nil given]
  · intro part partLog whole wholeLog partAnalyzed wholeAnalyzed
    refine .of_holds (fun fact held => ?_) ?_
    · rw [← View.fact_same fact]
      exact abstracts.holds partCoherent started partAnalyzed wholeAnalyzed
        held
    · exact abstracts.flows_subset partCoherent started partAnalyzed
        wholeAnalyzed

/--
The result of an analysis grows with the set of entries and with the set of
taint rules.  Analyses with the same entries and the same rules have the same
results, in whatever order these are listed and however often.
-/
theorem analyze_monotone (made : setup.program.Made)
    (fewer : rules.Within moreRules) (given : entries ≠ [])
    (included : entries ⊆ more) :
    ((setup.tracking rules).analyze entries).Below Result.Included
        ((setup.tracking moreRules).analyze more) ∧
      (moreRules.Within rules → more ⊆ entries →
        ((setup.tracking moreRules).analyze more).Below Result.Included
          ((setup.tracking rules).analyze entries)) := by
  refine ⟨Setup.analyze_below made.coherent fewer given included, ?_⟩
  intro noMoreRules noMore
  obtain ⟨first, member⟩ := List.exists_mem_of_ne_nil entries given
  exact Setup.analyze_below made.coherent noMoreRules
    (List.ne_nil_of_mem (included member)) noMore

/-- Without sources there are no flows, and a method that is not entered is
reached under one context less. -/
theorem analyze_monotone_cyclic :
    Cyclic.tracked.program.Made ∧
      { Cyclic.rules with sources := [] }.Within Cyclic.rules ∧
      [Cyclic.main] ≠ [] ∧ [Cyclic.main] ⊆ [Cyclic.pass, Cyclic.main] ∧
      (∃ part partLog whole wholeLog,
        (Cyclic.tracked.tracking { Cyclic.rules with sources := [] }).analyze
          [Cyclic.main] = .success part partLog ∧
        (Cyclic.tracked.tracking Cyclic.rules).analyze
          [Cyclic.pass, Cyclic.main] = .success whole wholeLog ∧
        (part.state.calls.reachable.length, part.flows.length) = (2, 0) ∧
        (whole.state.calls.reachable.length, whole.flows.length) = (3, 4) ∧
        part.Included whole) ∧
      ((Cyclic.tracked.tracking Cyclic.rules).analyze
        [Cyclic.main, Cyclic.pass, Cyclic.main]).Below Result.Included
        ((Cyclic.tracked.tracking Cyclic.rules).analyze
          [Cyclic.pass, Cyclic.main]) := by
  have fewer : { Cyclic.rules with sources := [] }.Within Cyclic.rules :=
    ⟨List.nil_subset _, List.Subset.refl _, List.Subset.refl _⟩
  have included : [Cyclic.main] ⊆ [Cyclic.pass, Cyclic.main] := by decide
  have small : ((Cyclic.tracked.tracking
      { Cyclic.rules with sources := [] }).analyze [Cyclic.main]).result?.map
      (fun result => (result.state.calls.reachable.length,
        result.flows.length)) = some (2, 0) := by decide +kernel
  have large : ((Cyclic.tracked.tracking Cyclic.rules).analyze
      [Cyclic.pass, Cyclic.main]).result?.map
      (fun result => (result.state.calls.reachable.length,
        result.flows.length)) = some (3, 4) := by decide +kernel
  obtain ⟨part, partLog, partAnalyzed, partFound⟩ :=
    Answer.exists_success small
  obtain ⟨whole, wholeLog, wholeAnalyzed, wholeFound⟩ :=
    Answer.exists_success large
  have grows := (analyze_monotone Cyclic.made fewer (by decide) included).1
  have permuted := (analyze_monotone Cyclic.made (.refl Cyclic.rules)
    (show [Cyclic.pass, Cyclic.main] ≠ [] by decide)
    (show _ ⊆ [Cyclic.main, Cyclic.pass, Cyclic.main] by decide)).2
    (.refl Cyclic.rules) (by decide)
  exact ⟨Cyclic.made, fewer, by decide, included,
    ⟨part, partLog, whole, wholeLog, partAnalyzed, wholeAnalyzed, partFound,
      wholeFound, grows.related partAnalyzed wholeAnalyzed⟩, permuted⟩

end PointsTo
