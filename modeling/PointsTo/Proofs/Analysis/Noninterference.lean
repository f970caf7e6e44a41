import PointsTo.Proofs.Analysis.Success

/-!
# Taint does not interfere

Taint objects travel through the same sets and queues as ordinary objects, but
no rule draws a conclusion about ordinary things from them.  So the results of
an analysis with taint rules, apart from taint, are the results of the same
analysis without.  There is one exception.  The solver records sinks with
negative indices, and the analysis fails when it looks for their arguments, after
the solver has finished.  This happens exactly if a method with such a sink is
called.

In the results themselves this shows in three ways: only ordinary objects have
fields and elements that take part in the flow, only ordinary receivers are
called, and ordinary objects get to where they are along flow edges and calls,
never along the edges that carry taint.
-/

namespace PointsTo

variable {setup : Setup} {entries : List MethodId}

namespace Setup

/-- The same analysis without taint rules. -/
def untracked (setup : Setup) : Setup :=
  { setup with rules := none }

end Setup

/-! ## Derivations without taint -/

/-- Facts that do not concern taint. -/
def Fact.Ordinary : Fact → Prop
  | .reached _ | .called _ | .flows .. => True
  | .points _ obj => ContextObj.isTaint obj = false
  | .retags _ | .sinks _ => False

namespace Inference

/-- Ordinary conclusions are drawn from ordinary premises, and without taint
rules. -/
theorem untracked {premises : List Fact} {conclusion : Fact}
    (rule : Inference setup entries premises conclusion)
    (ordinary : conclusion.Ordinary) :
    Inference setup.untracked entries premises conclusion ∧
      ∀ premise ∈ premises, premise.Ordinary := by
  cases rule with
  | entry member => exact ⟨.entry member, by simp⟩
  | allocate here => exact ⟨.allocate here, by simp [Fact.Ordinary]⟩
  | copy here => exact ⟨.copy here, by simp [Fact.Ordinary]⟩
  | loadStatic here => exact ⟨.loadStatic here, by simp [Fact.Ordinary]⟩
  | storeStatic here => exact ⟨.storeStatic here, by simp [Fact.Ordinary]⟩
  | callStatic here isStatic found =>
      exact ⟨.callStatic here isStatic found, by simp [Fact.Ordinary]⟩
  | loadField here used =>
      exact ⟨.loadField here used, by simp [Fact.Ordinary, used]⟩
  | storeField here used =>
      exact ⟨.storeField here used, by simp [Fact.Ordinary, used]⟩
  | loadArray here used =>
      exact ⟨.loadArray here used, by simp [Fact.Ordinary, used]⟩
  | storeArray here used =>
      exact ⟨.storeArray here used, by simp [Fact.Ordinary, used]⟩
  | callInstance here based used found =>
      exact ⟨.callInstance here based used found,
        by simp [Fact.Ordinary, used]⟩
  | bindThis here based used found bound =>
      exact ⟨.bindThis here based used found bound,
        by simp [Fact.Ordinary, used]⟩
  | enter => exact ⟨.enter, by simp [Fact.Ordinary]⟩
  | passArgument here found paired =>
      exact ⟨.passArgument here found paired, by simp [Fact.Ordinary]⟩
  | passResult here taken returned =>
      exact ⟨.passResult here taken returned, by simp [Fact.Ordinary]⟩
  | flow => exact ⟨.flow, by simpa [Fact.Ordinary] using ordinary⟩
  | source tracked here taken member => cases ordinary
  | transfer tracked here member sourced targeted => cases ordinary
  | retag taint => cases ordinary
  | sink tracked here member sensitive => cases ordinary

/-- Without taint rules, ordinary premises have ordinary conclusions. -/
theorem tracked {premises : List Fact} {conclusion : Fact}
    (rule : Inference setup.untracked entries premises conclusion)
    (ordinary : ∀ premise ∈ premises, premise.Ordinary) :
    Inference setup entries premises conclusion ∧ conclusion.Ordinary := by
  cases rule with
  | entry member => exact ⟨.entry member, trivial⟩
  | allocate here => exact ⟨.allocate here, rfl⟩
  | copy here => exact ⟨.copy here, trivial⟩
  | loadStatic here => exact ⟨.loadStatic here, trivial⟩
  | storeStatic here => exact ⟨.storeStatic here, trivial⟩
  | callStatic here isStatic found =>
      exact ⟨.callStatic here isStatic found, trivial⟩
  | loadField here used => exact ⟨.loadField here used, trivial⟩
  | storeField here used => exact ⟨.storeField here used, trivial⟩
  | loadArray here used => exact ⟨.loadArray here used, trivial⟩
  | storeArray here used => exact ⟨.storeArray here used, trivial⟩
  | callInstance here based used found =>
      exact ⟨.callInstance here based used found, trivial⟩
  | bindThis here based used found bound =>
      exact ⟨.bindThis here based used found bound, used⟩
  | enter => exact ⟨.enter, trivial⟩
  | passArgument here found paired =>
      exact ⟨.passArgument here found paired, trivial⟩
  | passResult here taken returned =>
      exact ⟨.passResult here taken returned, trivial⟩
  | flow => exact ⟨.flow, by simpa [Fact.Ordinary] using ordinary⟩
  | source tracked here taken member => cases tracked
  | transfer tracked here member sourced targeted => cases tracked
  | retag taint => exact (ordinary _ (.head _)).elim
  | sink tracked here member sensitive => cases tracked

end Inference

/-- What is derivable without taint rules is what is derivable with them and
does not concern taint. -/
theorem Derivable.untracked_iff {fact : Fact} :
    Derivable setup.untracked entries fact ↔
      Derivable setup entries fact ∧ fact.Ordinary := by
  constructor
  · intro derivable
    induction derivable with
    | infer rule _ ih =>
        obtain ⟨tracked, ordinary⟩ :=
          rule.tracked fun premise member => (ih premise member).2
        exact ⟨.infer tracked fun premise member => (ih premise member).1,
          ordinary⟩
  · rintro ⟨derivable, ordinary⟩
    induction derivable with
    | infer rule _ ih =>
        obtain ⟨untracked, premises⟩ := rule.untracked ordinary
        exact .infer untracked fun premise member =>
          ih premise member (premises premise member)

/-! ## Wiring -/

/-- A pointer that is not part of a taint object. -/
def Pointer.Ordinary : Pointer → Prop
  | .field base _ | .array base => ContextObj.isTaint base = false
  | .var _ | .static _ => True

namespace State

/-- The calls that reachable methods and ordinary receivers give rise to. -/
inductive Summons (setup : Setup) (state : State) : CallEdge → Prop where
  | ofClass {method : ContextMethod} {index : Nat} {call : Invoke}
      {callee : Method}
      (reached : method ∈ state.calls.reachable)
      (here : setup.program.stmt? ⟨method.val, index⟩ =
        some (.invoke call))
      (isStatic : call.kind = .static)
      (found : setup.program.callee? none call = some callee) :
      Summons setup state (setup.staticEdge (method.site index) call callee)
  | ofReceiver {method : ContextMethod} {index : Nat} {call : Invoke}
      {base : String} {receiver : ContextObj} {callee : Method}
      (reached : method ∈ state.calls.reachable)
      (here : setup.program.stmt? ⟨method.val, index⟩ =
        some (.invoke call))
      (based : call.receiver = some base)
      (points : receiver ∈ state.store.get (method.pointer base))
      (ordinary : ContextObj.isTaint receiver = false)
      (found : setup.program.callee? (some receiver.val.type) call =
        some callee) :
      Summons setup state
        (setup.instanceEdge (method.site index) call receiver callee)

/-- How objects get from where they are allocated to pointers, along call
edges and flow edges only. -/
inductive Travels (setup : Setup) (state : State) :
    Pointer → ContextObj → Prop where
  | allocated {method : ContextMethod} {index : Nat} {target : String}
      {type : Ty}
      (reached : method ∈ state.calls.reachable)
      (here : setup.program.stmt? ⟨method.val, index⟩ =
        some (.new target type)) :
      Travels setup state (method.pointer target)
        (setup.allocated method index target type)
  | bound {method : ContextMethod} {index : Nat} {call : Invoke}
      {base this : String} {receiver : ContextObj} {callee : Method}
      (earlier : Travels setup state (method.pointer base) receiver)
      (here : setup.program.stmt? ⟨method.val, index⟩ =
        some (.invoke call))
      (based : call.receiver = some base)
      (called : setup.instanceEdge (method.site index) call receiver callee ∈
        state.calls.edges)
      (bound : callee.this? = some this) :
      Travels setup state
        ((setup.instanceEdge (method.site index) call receiver
          callee).atCallee this)
        receiver
  | flowed {source target : Pointer} {obj : ContextObj}
      (earlier : Travels setup state source obj)
      (flows : (source, target) ∈ state.flow.edges) :
      Travels setup state target obj

/-- Taint has no part in the wiring of a state. -/
structure Inert (setup : Setup) (state : State) : Prop where
  flows : ∀ edge ∈ state.flow.edges, edge.1.Ordinary ∧ edge.2.Ordinary
  calls : ∀ edge ∈ state.calls.edges, state.Summons setup edge
  objects : ∀ pointer, ∀ obj ∈ state.store.get pointer,
    ContextObj.isTaint obj = false → state.Travels setup pointer obj

/-- One state is the other one without taint. -/
structure OrdinaryPart (whole part : State) : Prop where
  reachable : ∀ method,
    method ∈ part.calls.reachable ↔ method ∈ whole.calls.reachable
  edges : ∀ edge, edge ∈ part.calls.edges ↔ edge ∈ whole.calls.edges
  flow : ∀ edge, edge ∈ part.flow.edges ↔ edge ∈ whole.flow.edges
  objects : ∀ pointer obj,
    obj ∈ part.store.get pointer ↔
      obj ∈ ObjSet.ordinary (whole.store.get pointer)

end State

theorem Pointer.Founded.ordinary {pointer : Pointer}
    (founded : pointer.Founded setup entries) : pointer.Ordinary := by
  cases pointer with
  | var entry => trivial
  | field base field => exact founded.1
  | array base => exact founded.1
  | static field => trivial

namespace State

section Complete

variable {state : State}
  (complete : ∀ fact, state.Holds fact ↔ Derivable setup entries fact)

include complete

theorem summons_of_complete {edge : CallEdge}
    (called : edge ∈ state.calls.edges) : state.Summons setup edge := by
  have derivable := (complete (.called edge)).mp called
  cases derivable with
  | infer rule derived =>
      cases rule with
      | callStatic here isStatic found =>
          have reached := (complete _).mpr (derived _ (.head _))
          exact .ofClass reached here isStatic found
      | callInstance here based ordinary found =>
          have reached := (complete _).mpr (derived _ (.head _))
          have points := (complete _).mpr (derived _ (.tail _ (.head _)))
          exact .ofReceiver reached here based points ordinary found

/-- By induction on the derivation: the rules that put ordinary objects
somewhere are allocation, the binding of receivers and flow. -/
theorem travels_of_complete {fact : Fact}
    (derivable : Derivable setup entries fact) {pointer : Pointer}
    {obj : ContextObj} (same : fact = .points pointer obj)
    (ordinary : ContextObj.isTaint obj = false) :
    state.Travels setup pointer obj := by
  induction derivable generalizing pointer obj with
  | infer rule derived ih =>
      cases rule with
      | allocate here =>
          cases same
          exact .allocated ((complete _).mpr (derived _ (.head _))) here
      | bindThis here based used found bound =>
          cases same
          have called := Derivable.infer
            (.callInstance here based used found) derived
          exact .bound (ih _ (.tail _ (.head _)) rfl used) here based
            ((complete _).mpr called) bound
      | flow =>
          cases same
          exact .flowed (ih _ (.tail _ (.head _)) rfl ordinary)
            ((complete _).mpr (derived (.flows _ _) (.head _)))
      | source tracked here taken member =>
          cases same
          cases ordinary
      | retag taint =>
          cases same
          cases ordinary
      | _ => cases same

theorem inert_of_complete : state.Inert setup where
  flows edge member := by
    have founded := ((complete (.flows edge.1 edge.2)).mp member).founded
    exact ⟨founded.1.ordinary, founded.2.ordinary⟩
  calls _ member := summons_of_complete complete member
  objects pointer obj member ordinary :=
    travels_of_complete complete ((complete (.points pointer obj)).mp member)
      rfl ordinary

theorem ordinaryPart_of_complete {part : State}
    (without : ∀ fact,
      part.Holds fact ↔ Derivable setup.untracked entries fact) :
    state.OrdinaryPart part := by
  have same : ∀ fact, part.Holds fact ↔ state.Holds fact ∧ fact.Ordinary := by
    intro fact
    rw [without, Derivable.untracked_iff, complete]
  constructor
  · intro method
    exact (same (.reached method)).trans (and_iff_left trivial)
  · intro edge
    exact (same (.called edge)).trans (and_iff_left trivial)
  · intro edge
    exact (same (.flows edge.1 edge.2)).trans (and_iff_left trivial)
  · intro pointer obj
    exact (same (.points pointer obj)).trans (mem_ordinary _ _).symm

end Complete

end State

/-! ## Whole analyses -/

namespace Setup

/-- No method that is called has a sink rule with a negative index. -/
def InRange (setup : Setup) (state : State) : Prop :=
  ∀ rules, setup.rules = some rules → ∀ edge ∈ state.calls.edges,
    ∀ rule ∈ rules.sinksOf edge.callee.val, 0 ≤ rule.index

theorem enter_untracked (ids : List MethodId) (state : State) :
    setup.untracked.enter ids state = setup.enter ids state := by
  induction ids generalizing state with
  | nil => rfl
  | cons id rest ih =>
      rw [enter, enter, ih]
      rfl

theorem starts_untracked (entries : List MethodId) :
    setup.untracked.starts entries = setup.starts entries :=
  rfl

theorem knows_untracked (method : MethodId) :
    setup.untracked.Knows method ↔ setup.Knows method :=
  Iff.rfl

section Coherent

variable (coherent : setup.program.Coherent)

include coherent

/-- The solver gets through with taint rules if it does without. -/
theorem exists_completes_untracked :
    (∃ part, setup.untracked.Completes entries part) ↔
      ∃ final, setup.Completes entries final := by
  have coherentUntracked : setup.untracked.program.Coherent := coherent
  rw [exists_completes_iff coherent, exists_completes_iff coherentUntracked]
  simp only [enter_untracked, starts_untracked, knows_untracked,
    Derivable.untracked_iff, Fact.Ordinary, and_true]

/-- Without taint rules, an analysis succeeds if the solver gets through. -/
theorem exists_success_untracked :
    (∃ part log, setup.untracked.analyze entries = .success part log) ↔
      ∃ final, setup.Completes entries final := by
  have coherentUntracked : setup.untracked.program.Coherent := coherent
  rw [exists_success_iff coherentUntracked, exists_completes_untracked coherent]
  refine and_iff_left fun call derivable => ?_
  exact (Derivable.untracked_iff.mp derivable).2.elim

/-- The call edges of an analysis without taint rules tell whether a sensitive
argument has a negative index.  Such an index is below the number of arguments
of every call, so every call of the method is recorded. -/
theorem inRange_iff {part : Result} {log : Log}
    (untracked : setup.untracked.analyze entries = .success part log) :
    setup.InRange part.state ↔
      ∀ call, Derivable setup (setup.starts entries) (.sinks call) →
        0 ≤ call.index := by
  have coherentUntracked : setup.untracked.program.Coherent := coherent
  have called : ∀ edge, edge ∈ part.state.calls.edges ↔
      Derivable setup (setup.starts entries) (.called edge) := by
    intro edge
    refine (holds_iff_of_success coherentUntracked untracked
      (.called edge)).trans ?_
    exact Derivable.untracked_iff.trans (and_iff_left trivial)
  constructor
  · intro inRange call derivable
    obtain ⟨rules, edge, invoke, rule, tracked, derived, _, member, _, rfl⟩ :=
      Derivable.sinks_iff.mp derivable
    exact inRange rules tracked edge ((called edge).mpr derived) rule member
  · intro recorded rules tracked edge member rule listed
    have derived := (called edge).mp member
    obtain ⟨invoke, here, _⟩ := derived.called_invoke
    by_contra negative
    have inside : rule.index < invoke.args.length := by omega
    exact negative (recorded ⟨edge.site, rule.index⟩
      (.of_one (.sink tracked here listed inside) derived))

/-- An analysis whose solver gets through fails at a negative index, or not at
all. -/
theorem Completes.analyze_eq_failure {final : State}
    (completes : setup.Completes entries final)
    (fails : ¬ ∃ result log, setup.analyze entries = .success result log) :
    ∃ index < 0, ∃ log,
      setup.analyze entries = .failure (.indexOutOfRange index) log := by
  rw [completes.analyze_eq, conclude] at fails ⊢
  cases collected : setup.collectFault? final with
  | none =>
      rw [collected] at fails
      exact (fails ⟨_, _, rfl⟩).elim
  | some fault =>
      obtain ⟨index, negative, rfl⟩ := exists_negative_of_collectFault?
        (completes.holds_iff coherent) collected
      exact ⟨index, negative, final.log, rfl⟩

end Coherent

end Setup

/--
The solver does the same ordinary work with taint rules and without them: it
gets through in both cases or in none, and its final states have the same
reachable methods, call edges and flow edges, and the same ordinary objects at
every pointer, while taint has no part in the wiring.

All that taint rules can do is to make the analysis fail at the end.  It fails
exactly if some call edge leads to a method that has a sink rule with a negative
index.  In all other cases the analysis with taint rules succeeds if the one
without them does, and their results agree on everything but taint.
-/
theorem analyze_untracked (made : setup.program.Made)
    (entries : List MethodId) :
    ((∃ whole log, setup.analyze entries = .success whole log) ↔
      ∃ part log, setup.untracked.analyze entries = .success part log ∧
        setup.InRange part.state) ∧
    (∀ part log, setup.untracked.analyze entries = .success part log →
      (∃ final, setup.Completes entries final ∧
        final.OrdinaryPart part.state ∧ final.Inert setup) ∧
      (¬ setup.InRange part.state → ∃ index < 0, ∃ failureLog,
        setup.analyze entries =
          .failure (.indexOutOfRange index) failureLog)) ∧
    ∀ whole log part partLog,
      setup.analyze entries = .success whole log →
      setup.untracked.analyze entries = .success part partLog →
      whole.state.OrdinaryPart part.state ∧ whole.state.Inert setup := by
  have coherent := made.coherent
  have coherentUntracked : setup.untracked.program.Coherent := coherent
  have succeeds_iff : ∀ part log,
      setup.untracked.analyze entries = .success part log →
      ((∃ whole log, setup.analyze entries = .success whole log) ↔
        setup.InRange part.state) := by
    intro part log untracked
    have completes :=
      (Setup.exists_success_untracked coherent).mp ⟨part, log, untracked⟩
    rw [Setup.exists_success_iff coherent, Setup.inRange_iff coherent untracked]
    exact and_iff_right completes
  refine ⟨⟨?_, ?_⟩, ?_, ?_⟩
  · rintro succeeds
    have completes := ((Setup.exists_success_iff coherent).mp succeeds).1
    obtain ⟨part, log, untracked⟩ :=
      (Setup.exists_success_untracked coherent).mpr completes
    exact ⟨part, log, untracked, (succeeds_iff part log untracked).mp succeeds⟩
  · rintro ⟨part, log, untracked, inRange⟩
    exact (succeeds_iff part log untracked).mpr inRange
  · intro part log untracked
    have without := Setup.holds_iff_of_success coherentUntracked untracked
    obtain ⟨final, completes⟩ :=
      (Setup.exists_success_untracked coherent).mp ⟨part, log, untracked⟩
    have complete := completes.holds_iff coherent
    refine ⟨⟨final, completes, State.ordinaryPart_of_complete complete without,
      State.inert_of_complete complete⟩, fun outOfRange => ?_⟩
    exact completes.analyze_eq_failure coherent
      fun succeeds => outOfRange ((succeeds_iff part log untracked).mp succeeds)
  · intro whole log part partLog analyzed untracked
    have complete := Setup.holds_iff_of_success coherent analyzed
    have without := Setup.holds_iff_of_success coherentUntracked untracked
    exact ⟨State.ordinaryPart_of_complete complete without,
      State.inert_of_complete complete⟩

namespace Cyclic

/-- The sensitive place of the method has the number of its receiver, which is
no index of an argument. -/
def misplaced : Setup :=
  { tracked with rules := some { rules with sinks := [⟨pass, -1⟩] } }

theorem made_misplaced : misplaced.program.Made :=
  made

theorem exists_success_misplaced : ∃ part log,
    misplaced.untracked.analyze [main] = .success part log ∧
      part.state.calls.edges.length = 2 := by
  have counted : (misplaced.untracked.analyze [main]).result?.map
      (fun part => part.state.calls.edges.length) = some 2 := by
    decide +kernel
  exact Answer.exists_success counted

end Cyclic

/-- Taint rules make an analysis fail that succeeds without them. -/
theorem analyze_untracked_fails :
    (∃ part log,
      Cyclic.misplaced.untracked.analyze [Cyclic.main] = .success part log) ∧
      ∃ log, Cyclic.misplaced.analyze [Cyclic.main] =
        .failure (.indexOutOfRange (-1)) log := by
  obtain ⟨part, log, untracked, _⟩ := Cyclic.exists_success_misplaced
  have faulty : (Cyclic.misplaced.analyze [Cyclic.main]).fault? =
      some (.indexOutOfRange (-1)) := by
    decide +kernel
  exact ⟨⟨part, log, untracked⟩, Answer.exists_failure faulty⟩

theorem analyze_untracked_cyclic :
    (Cyclic.tracked.program.Made ∧ ∃ whole log part partLog,
      Cyclic.tracked.analyze [Cyclic.main] = .success whole log ∧
      Cyclic.tracked.untracked.analyze [Cyclic.main] =
        .success part partLog ∧
      whole.state.taintEdges.length = 2 ∧
      Cyclic.tracked.InRange part.state ∧
      whole.state.OrdinaryPart part.state ∧
      whole.state.Inert Cyclic.tracked) ∧
    Cyclic.misplaced.program.Made ∧ ∃ part log final,
      Cyclic.misplaced.untracked.analyze [Cyclic.main] =
        .success part log ∧
      part.state.calls.edges.length = 2 ∧
      ¬ Cyclic.misplaced.InRange part.state ∧
      Cyclic.misplaced.Completes [Cyclic.main] final ∧
      final.OrdinaryPart part.state ∧ final.Inert Cyclic.misplaced ∧
      ∃ index < 0, ∃ failureLog, Cyclic.misplaced.analyze [Cyclic.main] =
        .failure (.indexOutOfRange index) failureLog := by
  constructor
  · have counted : (Cyclic.tracked.analyze [Cyclic.main]).result?.map
        (fun whole => whole.state.taintEdges.length) = some 2 := by
      decide +kernel
    obtain ⟨whole, log, analyzed, found⟩ := Answer.exists_success counted
    obtain ⟨same, _, ordinary⟩ := analyze_untracked Cyclic.made [Cyclic.main]
    obtain ⟨part, partLog, untracked, inRange⟩ :=
      same.mp ⟨whole, log, analyzed⟩
    exact ⟨Cyclic.made, whole, log, part, partLog, analyzed, untracked, found,
      inRange, ordinary whole log part partLog analyzed untracked⟩
  · obtain ⟨part, log, untracked, calls⟩ := Cyclic.exists_success_misplaced
    obtain ⟨same, fails, _⟩ :=
      analyze_untracked Cyclic.made_misplaced [Cyclic.main]
    have outOfRange : ¬ Cyclic.misplaced.InRange part.state := by
      intro inRange
      obtain ⟨whole, log, analyzed⟩ := same.mpr ⟨part, log, untracked, inRange⟩
      have none : (Cyclic.misplaced.analyze [Cyclic.main]).result?.isSome =
          false := by
        decide +kernel
      rw [analyzed] at none
      cases none
    obtain ⟨⟨final, completes, ordinary, inert⟩, failure⟩ :=
      fails part log untracked
    exact ⟨Cyclic.made_misplaced, part, log, final, untracked, calls,
      outOfRange, completes, ordinary, inert, failure outOfRange⟩

end PointsTo
