import Mathlib.Data.List.Sort
import PointsTo.Proofs.Analysis.Monotone
import PointsTo.Proofs.Analysis.TaintPaths

/-!
# The order of taint flows

Flows are compared by the source call, then by the sink call, then by the index
of the argument, and calls by the signature of their method, then by their
position in it.  If different methods of a program have different signatures,
this is a strict total order of the flows in the program, so that a set of flows
can be listed in one order only.  The flows that an analysis reports are listed
in this order.
-/

namespace PointsTo

/-! ## Comparisons -/

instance : Std.TransCmp Site.order :=
  inferInstanceAs (Std.TransCmp (compareLex _ _))

instance : Std.TransCmp TaintFlow.order :=
  letI : Ord Site := ⟨Site.order⟩
  letI : Std.TransOrd Site := inferInstanceAs (Std.TransCmp Site.order)
  inferInstanceAs (Std.TransCmp (compareLex (compareOn TaintFlow.source)
    (compareLex (compareOn TaintFlow.sink) (compareOn TaintFlow.index))))

/-- Calls that no comparison tells apart. -/
theorem Site.order_eq_eq {first second : Site} :
    first.order second = .eq ↔
      first.method.signature = second.method.signature ∧
        first.index = second.index := by
  rw [order, compareLex_eq_eq]
  exact and_congr Std.compare_eq_iff_eq Std.compare_eq_iff_eq

/-- Different methods have different signatures. -/
def Program.Distinguishes (program : Program) : Prop :=
  ∀ first ∈ program.methods, ∀ second ∈ program.methods,
    first.id.signature = second.id.signature → first = second

/-- A flow between calls in a program. -/
structure TaintFlow.Within (program : Program) (flow : TaintFlow) : Prop where
  source : ∃ call, program.invoke? flow.source = some call
  sink : ∃ call, program.invoke? flow.sink = some call

section Distinguished

variable {program : Program} (coherent : program.Coherent)
  (distinguishes : program.Distinguishes)

include coherent distinguishes

theorem Site.eq_of_order_eq {first second : Site}
    (here : ∃ call, program.invoke? first = some call)
    (there : ∃ call, program.invoke? second = some call)
    (same : first.order second = .eq) : first = second := by
  rcases Site.order_eq_eq.mp same with ⟨signature, index⟩
  rcases here with ⟨_, here⟩
  rcases there with ⟨_, there⟩
  rcases Option.bind_eq_some_iff.mp here with ⟨one, found, _⟩
  rcases Option.bind_eq_some_iff.mp there with ⟨other, foundOther, _⟩
  rcases Program.mem_methods_of_method? coherent found with ⟨member, named⟩
  rcases Program.mem_methods_of_method? coherent foundOther with
    ⟨memberOther, namedOther⟩
  rw [← named, ← namedOther] at signature
  have method := distinguishes one member other memberOther signature
  have named : first.method = second.method := by
    rw [← named, ← namedOther, method]
  rcases first with ⟨_, _⟩
  rcases second with ⟨_, _⟩
  exact congr (congrArg Site.mk named) index

namespace TaintFlow

theorem eq_of_order_eq {first second : TaintFlow}
    (here : first.Within program) (there : second.Within program)
    (same : first.order second = .eq) : first = second := by
  rw [order, compareLex_eq_eq, compareLex_eq_eq] at same
  rcases same with ⟨sources, sinks, indices⟩
  have sources :=
    Site.eq_of_order_eq coherent distinguishes here.source there.source sources
  have sinks :=
    Site.eq_of_order_eq coherent distinguishes here.sink there.sink sinks
  have indices : first.index = second.index := Std.compare_eq_iff_eq.mp indices
  rcases first with ⟨_, _, _⟩
  rcases second with ⟨_, _, _⟩
  cases sources
  cases sinks
  cases indices
  rfl

theorem before_or_before {first second : TaintFlow}
    (here : first.Within program) (there : second.Within program)
    (different : first ≠ second) :
    first.before second = true ∨ second.before first = true := by
  simp only [before, beq_iff_eq]
  cases compared : first.order second with
  | lt => exact .inl rfl
  | gt => exact .inr (Std.OrientedCmp.gt_iff_lt.mp compared)
  | eq =>
      exact absurd (eq_of_order_eq coherent distinguishes here there compared)
        different

end TaintFlow

end Distinguished

namespace TaintFlow

theorem before_irrefl (flow : TaintFlow) : ¬ flow.before flow = true := by
  simp [before, Std.ReflCmp.compare_self]

theorem before_trans {first second third : TaintFlow}
    (earlier : first.before second = true)
    (later : second.before third = true) : first.before third = true := by
  simp only [before, beq_iff_eq] at *
  exact Std.TransCmp.lt_trans earlier later

theorem before_asymm {first second : TaintFlow}
    (earlier : first.before second = true) : ¬ second.before first = true :=
  fun later => before_irrefl first (before_trans earlier later)

/-! ## Ordered lists -/

/-- A list in which every flow comes before all that follow. -/
def Ascending (flows : List TaintFlow) : Prop :=
  flows.Pairwise fun first second => first.before second = true

theorem Ascending.nodup {flows : List TaintFlow}
    (ascending : Ascending flows) : flows.Nodup := by
  refine ascending.imp fun earlier same => ?_
  rw [same] at earlier
  exact before_irrefl _ earlier

/-- A set of flows has at most one ascending list. -/
theorem Ascending.eq_of_mem_iff {flows others : List TaintFlow}
    (ascending : Ascending flows) (ascendingOthers : Ascending others)
    (same : ∀ flow, flow ∈ flows ↔ flow ∈ others) : flows = others := by
  have permuted : flows.Perm others :=
    (List.perm_ext_iff_of_nodup ascending.nodup ascendingOthers.nodup).mpr same
  refine permuted.eq_of_pairwise (fun first second _ _ earlier later => ?_)
    ascending ascendingOthers
  exact absurd later (before_asymm earlier)

section Distinguished

variable {program : Program} (coherent : program.Coherent)
  (distinguishes : program.Distinguishes)

include coherent distinguishes

/-- Inserting a flow keeps a list in order. -/
theorem Ascending.insertInto {flow : TaintFlow} {flows : List TaintFlow}
    (ascending : Ascending flows) (here : flow.Within program)
    (within : ∀ other ∈ flows, other.Within program) :
    Ascending (flow.insertInto flows) := by
  induction flows with
  | nil => exact List.pairwise_singleton _ _
  | cons first rest ih =>
      rcases List.pairwise_cons.mp ascending with ⟨least, ordered⟩
      have inserted := ih ordered fun other member =>
        within other (.tail first member)
      rw [TaintFlow.insertInto]
      split_ifs with same smaller
      · exact ascending
      · refine List.pairwise_cons.mpr ⟨fun other member => ?_, ascending⟩
        rcases List.mem_cons.mp member with rfl | later
        · exact smaller
        · exact before_trans smaller (least other later)
      · refine List.pairwise_cons.mpr ⟨fun other member => ?_, inserted⟩
        rcases (mem_insertInto flow other rest).mp member with rfl | later
        · -- The flow is neither `first` nor before it.
          exact (before_or_before coherent distinguishes here
            (within first (.head rest)) same).resolve_left smaller
        · exact least other later

theorem Ascending.foldl_insertInto {found flows : List TaintFlow}
    (ascending : Ascending flows)
    (here : ∀ flow ∈ found, flow.Within program)
    (within : ∀ flow ∈ flows, flow.Within program) :
    Ascending (found.foldl (fun flows flow => flow.insertInto flows) flows) := by
  induction found generalizing flows with
  | nil => exact ascending
  | cons first rest ih =>
      have firstWithin := here first (.head rest)
      refine ih (ascending.insertInto coherent distinguishes firstWithin within)
        (fun flow member => here flow (.tail first member)) ?_
      intro flow member
      rcases (mem_insertInto first flow flows).mp member with rfl | old
      · exact firstWithin
      · exact within flow old

/-- A list without repetitions in which no flow follows one that it comes
before. -/
theorem ascending_of_sorted {flows : List TaintFlow}
    (within : ∀ flow ∈ flows, flow.Within program) (nodup : flows.Nodup)
    (sorted : flows.Pairwise fun first second =>
      ¬ second.before first = true) : Ascending flows := by
  refine (nodup.and sorted).imp_of_mem ?_
  rintro first second member memberToo ⟨different, notAfter⟩
  exact (before_or_before coherent distinguishes (within first member)
    (within second memberToo) different).resolve_right notAfter

end Distinguished

end TaintFlow

/-! ## Flows of a state -/

namespace State

theorem ascending_taintFlows {state : State} {program : Program}
    (coherent : program.Coherent) (distinguishes : program.Distinguishes)
    (within : ∀ flow ∈ state.taintFlows program, flow.Within program) :
    TaintFlow.Ascending (state.taintFlows program) := by
  refine TaintFlow.Ascending.foldl_insertInto coherent distinguishes .nil
    (fun flow member => within flow ?_) (fun _ member => nomatch member)
  rw [State.taintFlows, TaintFlow.mem_foldl_insertInto]
  exact .inr member

/-- States with the same sink calls and the same points-to sets, in whatever
order they list them. -/
structure Agrees (state other : State) : Prop where
  sinks : ∀ call, state.Holds (.sinks call) ↔ other.Holds (.sinks call)
  points : ∀ pointer obj,
    state.Holds (.points pointer obj) ↔ other.Holds (.points pointer obj)

theorem Agrees.mem_taintFlows_iff {state other : State}
    (agrees : state.Agrees other) (program : Program) (flow : TaintFlow) :
    flow ∈ state.taintFlows program ↔ flow ∈ other.taintFlows program := by
  have points : ∀ pointer obj, obj ∈ state.store.get pointer ↔
      obj ∈ other.store.get pointer := agrees.points
  have sinks : ∀ call, call ∈ state.sinkCalls ↔ call ∈ other.sinkCalls :=
    agrees.sinks
  simp only [mem_taintFlows, mem_flowsInto, points, sinks]

end State

/-! ## Flows of an analysis -/

namespace Setup

variable {setup : Setup} {entries : List MethodId}

section Analyzed

variable (coherent : setup.program.Coherent) {result : Result} {log : Log}
  (analyzed : setup.analyze entries = .success result log)

include coherent analyzed

/-- Flows are reported between calls in the program. -/
theorem within_of_mem_flows {flow : TaintFlow}
    (reported : flow ∈ result.flows) : flow.Within setup.program := by
  have complete := holds_iff_of_success coherent analyzed
  cases tracked : setup.rules with
  | none =>
      rcases exists_final_of_success coherent analyzed with ⟨final, _, _, rfl⟩
      simp only [Setup.result, Setup.flows, tracked] at reported
      cases reported
  | some rules =>
      rcases (mem_flows_iff_exposes tracked coherent analyzed).mp reported with
        ⟨edge, _, sink, pointer, ⟨call, _, here, _⟩, type, there⟩
      rcases (State.taint_mem_get_iff tracked complete).mp there with
        ⟨_, origin, _, source, _, _, _, ⟨emitter, _, emits, _⟩, _⟩
      exact ⟨⟨emitter, source ▸ emits⟩, ⟨call, sink ▸ here⟩⟩

theorem ascending_flows (distinguishes : setup.program.Distinguishes) :
    TaintFlow.Ascending result.flows := by
  have within : ∀ flow ∈ result.flows, flow.Within setup.program :=
    fun flow reported => within_of_mem_flows coherent analyzed reported
  rcases exists_final_of_success coherent analyzed with ⟨final, _, _, rfl⟩
  simp only [Setup.result, Setup.flows] at within ⊢
  cases tracked : setup.rules with
  | none => exact .nil
  | some rules =>
      rw [tracked] at within
      exact State.ascending_taintFlows coherent distinguishes within

/-- The order of discovery makes no difference. -/
theorem flows_eq_of_agrees (distinguishes : setup.program.Distinguishes)
    {state : State} (agrees : state.Agrees result.state) :
    setup.flows state = result.flows := by
  have ascending := ascending_flows coherent analyzed distinguishes
  have within : ∀ flow ∈ result.flows, flow.Within setup.program :=
    fun flow reported => within_of_mem_flows coherent analyzed reported
  rcases exists_final_of_success coherent analyzed with ⟨final, _, _, rfl⟩
  have agrees : state.Agrees final :=
    ⟨fun call => (agrees.sinks call).trans (holds_result setup final _),
      fun pointer obj =>
        (agrees.points pointer obj).trans (holds_result setup final _)⟩
  simp only [Setup.result, Setup.flows] at ascending within ⊢
  cases tracked : setup.rules with
  | none => rfl
  | some rules =>
      rw [tracked] at ascending within
      have same := agrees.mem_taintFlows_iff setup.program
      refine TaintFlow.Ascending.eq_of_mem_iff ?_ ascending same
      refine State.ascending_taintFlows coherent distinguishes ?_
      exact fun flow member => within flow ((same flow).mp member)

end Analyzed

variable (setup) in
/-- The methods to start from do not depend on how they are listed. -/
theorem starts_subset {methods : List MethodId}
    (same : ∀ id, id ∈ entries ↔ id ∈ methods) :
    setup.starts entries ⊆ setup.starts methods := by
  by_cases given : entries = []
  · have noMethods : methods = [] :=
      List.eq_nil_iff_forall_not_mem.mpr fun id member =>
        List.not_mem_nil (given ▸ (same id).mpr member)
    rw [given, noMethods]
    exact List.Subset.refl _
  · rcases List.exists_mem_of_ne_nil entries given with ⟨first, member⟩
    rw [starts_of_ne_nil given,
      starts_of_ne_nil (List.ne_nil_of_mem ((same first).mp member))]
    exact fun id => (same id).mp

theorem flows_subset_of_relisted {rules others : Rules}
    (coherent : setup.program.Coherent) (fewer : rules.Within others)
    {methods : List MethodId} (same : ∀ id, id ∈ entries ↔ id ∈ methods)
    {result other : Result} {log otherLog : Log}
    (analyzed : (setup.tracking rules).analyze entries = .success result log)
    (again : (setup.tracking others).analyze methods =
      .success other otherLog) :
    result.flows ⊆ other.flows := by
  have abstracts : View.same.Abstracts (setup.tracking rules)
      (setup.tracking others) := View.same_abstracts fewer
  have started : (setup.tracking rules).starts entries ⊆
      (setup.tracking others).starts methods :=
    starts_subset (setup.tracking others) same
  exact abstracts.flows_subset coherent started analyzed again

/-- How the methods to start from and the taint rules are listed makes no
difference. -/
theorem flows_eq_of_relisted (coherent : setup.program.Coherent)
    (distinguishes : setup.program.Distinguishes) {rules others : Rules}
    (fewer : rules.Within others) (more : others.Within rules)
    {methods : List MethodId} (same : ∀ id, id ∈ entries ↔ id ∈ methods)
    {result other : Result} {log otherLog : Log}
    (analyzed : (setup.tracking rules).analyze entries = .success result log)
    (again : (setup.tracking others).analyze methods =
      .success other otherLog) :
    other.flows = result.flows := by
  have otherCoherent : (setup.tracking others).program.Coherent := coherent
  have ruleCoherent : (setup.tracking rules).program.Coherent := coherent
  refine TaintFlow.Ascending.eq_of_mem_iff
    (ascending_flows otherCoherent again distinguishes)
    (ascending_flows ruleCoherent analyzed distinguishes) fun flow => ?_
  constructor
  · exact fun member => flows_subset_of_relisted coherent more
      (fun id => (same id).symm) again analyzed member
  · exact fun member => flows_subset_of_relisted coherent fewer same analyzed
      again member

end Setup

/-- The comparison of flows is a strict total order of the flows in a
program. -/
structure Program.OrdersFlows (program : Program) : Prop where
  irrefl : ∀ flow : TaintFlow, ¬ flow.before flow = true
  trans : ∀ first second third : TaintFlow, first.before second = true →
    second.before third = true → first.before third = true
  total : ∀ first second : TaintFlow, first.Within program →
    second.Within program → first ≠ second →
      first.before second = true ∨ second.before first = true

/--
The flows of a result are listed in the only order that there is for them:
whatever order they are found in and however they are sorted, the list is the
same.
-/
structure Result.ListsFlows (setup : Setup) (entries : List MethodId)
    (result : Result) : Prop where
  within : ∀ flow ∈ result.flows, flow.Within setup.program
  ascending : result.flows.Pairwise fun first second =>
    first.before second = true
  nodup : result.flows.Nodup
  /-- The flows may be enumerated in any order and sorted in any way. -/
  sorted : ∀ found sorted : List TaintFlow, found.Nodup →
    (∀ flow, flow ∈ found ↔ flow ∈ result.flows) → sorted.Perm found →
    (sorted.Pairwise fun first second => ¬ second.before first = true) →
    sorted = result.flows
  /-- Sink calls and objects may be discovered in any order. -/
  discovered : ∀ state : State, state.Agrees result.state →
    setup.flows state = result.flows
  /-- Methods to start from and rules may be listed in any order. -/
  relisted : ∀ rules others methods other log, setup.rules = some rules →
    rules.Within others → others.Within rules →
    (∀ id, id ∈ entries ↔ id ∈ methods) →
    (setup.tracking others).analyze methods = .success other log →
    other.flows = result.flows

/-- If signatures tell methods apart, flows have an order, and an analysis
reports them in this order. -/
theorem flows_ordered {setup : Setup} (made : setup.program.Made)
    (distinguishes : setup.program.Distinguishes)
    {entries : List MethodId} {result : Result} {log : Log}
    (analyzed : setup.analyze entries = .success result log) :
    setup.program.OrdersFlows ∧ result.ListsFlows setup entries := by
  have coherent := made.coherent
  have within : ∀ flow ∈ result.flows, flow.Within setup.program :=
    fun flow reported => Setup.within_of_mem_flows coherent analyzed reported
  have ascending := Setup.ascending_flows coherent analyzed distinguishes
  constructor
  · exact ⟨TaintFlow.before_irrefl, fun _ _ _ => TaintFlow.before_trans,
      fun _ _ => TaintFlow.before_or_before coherent distinguishes⟩
  · refine ⟨within, ascending, ascending.nodup, ?_, ?_, ?_⟩
    · intro found sorted nodup same permuted ordered
      have members : ∀ flow, flow ∈ sorted ↔ flow ∈ result.flows :=
        fun flow => permuted.mem_iff.trans (same flow)
      refine TaintFlow.Ascending.eq_of_mem_iff ?_ ascending members
      exact TaintFlow.ascending_of_sorted coherent distinguishes
        (fun flow member => within flow ((members flow).mp member))
        (permuted.nodup_iff.mpr nodup) ordered
    · intro state agrees
      exact Setup.flows_eq_of_agrees coherent analyzed distinguishes agrees
    · intro rules others methods other otherLog tracked fewer more same again
      have unchanged : setup.tracking rules = setup := by
        rw [Setup.tracking, ← tracked]
      exact Setup.flows_eq_of_relisted coherent distinguishes fewer more same
        (unchanged ▸ analyzed) again

/-- Two calls that are sources and sinks alike, in methods that are entered in
the opposite of their order. -/
theorem flows_ordered_cyclic :
    Cyclic.tracked.program.Made ∧
      Cyclic.tracked.program.Distinguishes ∧ ∃ result log,
        Cyclic.tracked.analyze [Cyclic.pass, Cyclic.main] =
          .success result log ∧
        result.flows =
          [⟨⟨Cyclic.main, 3⟩, ⟨Cyclic.main, 3⟩, 0⟩,
            ⟨⟨Cyclic.main, 3⟩, ⟨Cyclic.pass, 0⟩, 0⟩,
            ⟨⟨Cyclic.pass, 0⟩, ⟨Cyclic.main, 3⟩, 0⟩,
            ⟨⟨Cyclic.pass, 0⟩, ⟨Cyclic.pass, 0⟩, 0⟩] ∧
        Cyclic.tracked.program.OrdersFlows ∧
        result.ListsFlows Cyclic.tracked [Cyclic.pass, Cyclic.main] := by
  have distinguishes : Cyclic.tracked.program.Distinguishes := by
    rw [Program.Distinguishes]
    decide +kernel
  have flows : (Cyclic.tracked.analyze
      [Cyclic.pass, Cyclic.main]).result?.map Result.flows =
      some [⟨⟨Cyclic.main, 3⟩, ⟨Cyclic.main, 3⟩, 0⟩,
        ⟨⟨Cyclic.main, 3⟩, ⟨Cyclic.pass, 0⟩, 0⟩,
        ⟨⟨Cyclic.pass, 0⟩, ⟨Cyclic.main, 3⟩, 0⟩,
        ⟨⟨Cyclic.pass, 0⟩, ⟨Cyclic.pass, 0⟩, 0⟩] := by decide +kernel
  rcases Answer.exists_success flows with ⟨result, log, analyzed, found⟩
  exact ⟨Cyclic.made, distinguishes, result, log, analyzed, found,
    flows_ordered Cyclic.made distinguishes analyzed⟩

end PointsTo
