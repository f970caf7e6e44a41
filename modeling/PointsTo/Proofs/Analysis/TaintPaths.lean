import PointsTo.Proofs.Analysis.Answers

/-!
# Where taint comes from

Taint arises where the result of a call of a source is taken, and it moves along
flow edges, which leave it as it is, and along taint edges, which change its
type.  A `State.Path` is such a journey.  In the result of an analysis there is
a path behind every taint object and a taint object at the end of every path,
and the same holds for taint edges and reported flows and the call edges that
they come from.
-/

namespace PointsTo

variable {setup : Setup} {entries : List MethodId}

/-! ## Paths -/

/-- One move of taint. -/
inductive Hop where
  | flow (source target : Pointer)
  | retag (edge : TaintEdge)
deriving DecidableEq

namespace Hop

def source : Hop → Pointer
  | .flow source _ => source
  | .retag edge => edge.source

def target : Hop → Pointer
  | .flow _ target => target
  | .retag edge => edge.target

/-- The type that taint changes to on the way, if it does. -/
def type? : Hop → Option Ty
  | .flow .. => none
  | .retag edge => some edge.type

end Hop

/-- The type of the last taint edge among the hops; without any, the type that
taint had at first. -/
def lastType (initial : Ty) (hops : List Hop) : Ty :=
  (hops.filterMap Hop.type?).getLast?.getD initial

@[simp]
theorem lastType_append_flow (initial : Ty) (hops : List Hop)
    (source target : Pointer) :
    lastType initial (hops ++ [.flow source target]) =
      lastType initial hops := by
  simp [lastType, Hop.type?]

@[simp]
theorem lastType_append_retag (initial : Ty) (hops : List Hop)
    (edge : TaintEdge) :
    lastType initial (hops ++ [.retag edge]) = edge.type := by
  simp [lastType, Hop.type?]

namespace State

/-- The moves that the edges of a state allow. -/
def Allows (state : State) : Hop → Prop
  | .flow source target => (source, target) ∈ state.flow.edges
  | .retag edge => edge ∈ state.taintEdges

/-- Paths of flow edges and taint edges from one pointer to another. -/
inductive Path (state : State) (start : Pointer) :
    List Hop → Pointer → Prop where
  | nil : Path state start [] start
  | snoc {hops : List Hop} {hop : Hop}
      (earlier : Path state start hops hop.source)
      (allowed : state.Allows hop) :
      Path state start (hops ++ [hop]) hop.target

end State

/-! ## What calls contribute -/

namespace CallEdge

variable (program : Program) (rules : Rules) (edge : CallEdge)

/-- The callee is a source of taint of type `type`, and the result of the call
is taken by the variable at `pointer`. -/
def Emits (type : Ty) (pointer : Pointer) : Prop :=
  ∃ call result, program.invoke? edge.site.val = some call ∧
    call.result = some result ∧
    (⟨edge.callee.val, type⟩ : Source) ∈ rules.sources ∧
    pointer = edge.atCaller result

/-- There is a transfer rule for the callee, and the call has variables in both
slots. -/
def Transfers (taint : TaintEdge) : Prop :=
  ∃ call first second source target,
    program.invoke? edge.site.val = some call ∧
    (⟨edge.callee.val, first, second, taint.type⟩ : Transfer) ∈
      rules.transfers ∧
    call.inSlot? first = some source ∧ call.inSlot? second = some target ∧
    taint.source = edge.atCaller source ∧
    taint.target = edge.atCaller target

/-- There is a sink rule for the callee, and the sensitive argument of the call
is the variable at `pointer`. -/
def Exposes (index : Int) (pointer : Pointer) : Prop :=
  ∃ call arg, program.invoke? edge.site.val = some call ∧
    (⟨edge.callee.val, index⟩ : Sink) ∈ rules.sinks ∧
    call.argument? index = some arg ∧ pointer = edge.atCaller arg

end CallEdge

namespace Rules

variable {rules : Rules} {method : MethodId}

@[simp]
theorem mem_sourcesOf {rule : Source} :
    rule ∈ rules.sourcesOf method ↔
      rule ∈ rules.sources ∧ rule.method = method := by
  simp [sourcesOf]

@[simp]
theorem mem_sinksOf {rule : Sink} :
    rule ∈ rules.sinksOf method ↔
      rule ∈ rules.sinks ∧ rule.method = method := by
  simp [sinksOf]

@[simp]
theorem mem_transfersOf {rule : Transfer} :
    rule ∈ rules.transfersOf method ↔
      rule ∈ rules.transfers ∧ rule.method = method := by
  simp [transfersOf]

end Rules

/-- The taint in a result and what accounts for it. -/
structure Result.Traced (program : Program) (rules : Rules)
    (result : Result) : Prop where
  /-- Taint objects are where paths from calls of sources lead. -/
  taint : ∀ pointer context source type,
    (⟨context, .taint source type⟩ : ContextObj) ∈
        result.state.store.get pointer ↔
      context = [] ∧ ∃ edge ∈ result.state.calls.edges,
        edge.site.val = source ∧ ∃ initial start hops,
          edge.Emits program rules initial start ∧
          result.state.Path start hops pointer ∧ type = lastType initial hops
  edges : ∀ taint, taint ∈ result.state.taintEdges ↔
    ∃ edge ∈ result.state.calls.edges, edge.Transfers program rules taint
  /-- Flows lead to the exposed arguments where there is taint. -/
  flows : ∀ flow, flow ∈ result.flows ↔
    ∃ edge ∈ result.state.calls.edges, edge.site.val = flow.sink ∧
      ∃ pointer, edge.Exposes program rules flow.index pointer ∧
        ∃ type, State.taintObj flow.source type ∈
          result.state.store.get pointer

/-- A taint object is made of a source call and a type. -/
theorem ContextObj.eq_taint_of_isTaint {obj : ContextObj}
    (taint : ContextObj.isTaint obj = true) :
    ∃ context source type, obj = ⟨context, .taint source type⟩ := by
  obtain ⟨context, val⟩ := obj
  cases val with
  | alloc site target type => cases taint
  | taint source type => exact ⟨context, source, type, rfl⟩

/-! ## Derivations and paths -/

section Tracked

variable {rules : Rules} (tracked : setup.rules = some rules)

include tracked

theorem Derivable.retags_iff {taint : TaintEdge} :
    Derivable setup entries (.retags taint) ↔
      ∃ edge, Derivable setup entries (.called edge) ∧
        edge.Transfers setup.program rules taint := by
  constructor
  · intro derivable
    cases derivable with
    | infer rule derived =>
        cases rule with
        | @transfer edge call others rule source target present here member
            sourced targeted =>
            cases tracked.symm.trans present
            obtain ⟨listed, named⟩ := Rules.mem_transfersOf.mp member
            refine ⟨edge, derived _ (.head _), call, rule.source, rule.target,
              source, target, here, ?_, sourced, targeted, rfl, rfl⟩
            rw [← named]
            exact listed
  · rintro ⟨edge, called, call, first, second, source, target, here, member,
      sourced, targeted, leaves, arrives⟩
    have listed := Rules.mem_transfersOf.mpr ⟨member, rfl⟩
    have derivable := Derivable.of_one
      (.transfer tracked here listed sourced targeted) called
    rwa [← leaves, ← arrives] at derivable

section Complete

variable {state : State}
  (complete : ∀ fact, state.Holds fact ↔ Derivable setup entries fact)

include complete

/-- By induction on the derivation: taint arises from a source rule, flows, or
is retagged. -/
theorem State.path_of_derivable {fact : Fact}
    (derivable : Derivable setup entries fact) {pointer : Pointer}
    {context : Context} {source : Site} {type : Ty}
    (same : fact = .points pointer ⟨context, .taint source type⟩) :
    context = [] ∧ ∃ edge ∈ state.calls.edges, edge.site.val = source ∧
      ∃ initial start hops, edge.Emits setup.program rules initial start ∧
        state.Path start hops pointer ∧ type = lastType initial hops := by
  induction derivable generalizing pointer context source type with
  | infer rule derived ih =>
      cases rule with
      | @source edge call others rule result present here taken member =>
          cases same
          cases tracked.symm.trans present
          obtain ⟨listed, named⟩ := Rules.mem_sourcesOf.mp member
          have called := (complete (.called edge)).mpr (derived _ (.head _))
          refine ⟨rfl, edge, called, rfl, rule.type, _, [],
            ⟨call, result, here, taken, ?_, rfl⟩, .nil, rfl⟩
          rw [← named]
          exact listed
      | @flow first second obj =>
          cases same
          obtain ⟨empty, edge, called, site, initial, start, hops, emits, path,
            rfl⟩ := ih _ (.tail _ (.head _)) rfl
          have flows : state.Allows (.flow first pointer) :=
            (complete (.flows _ _)).mpr (derived _ (.head _))
          have longer : state.Path start (hops ++ [.flow first pointer])
              pointer := path.snoc flows
          exact ⟨empty, edge, called, site, initial, start, _, emits, longer,
            by simp⟩
      | @retag along obj taint =>
          obtain ⟨_, _, _, rfl⟩ := ContextObj.eq_taint_of_isTaint taint
          cases same
          obtain ⟨_, edge, called, site, initial, start, hops, emits, path, _⟩ :=
            ih _ (.tail _ (.head _)) rfl
          have retags : state.Allows (.retag along) :=
            (complete (.retags _)).mpr (derived _ (.head _))
          have longer : state.Path start (hops ++ [.retag along])
              along.target := path.snoc retags
          exact ⟨rfl, edge, called, site, initial, start, _, emits, longer,
            by simp⟩
      | bindThis here based ordinary found bound =>
          cases same
          cases ordinary
      | _ => cases same

/-- By induction on the path: what is at the source of a hop gets to its
target. -/
theorem State.derivable_of_path {edge : CallEdge}
    (called : edge ∈ state.calls.edges) {initial : Ty} {start : Pointer}
    (emits : edge.Emits setup.program rules initial start)
    {hops : List Hop} {pointer : Pointer}
    (path : state.Path start hops pointer) :
    Derivable setup entries (.points pointer
      (State.taintObj edge.site.val (lastType initial hops))) := by
  induction path with
  | nil =>
      obtain ⟨call, result, here, taken, member, rfl⟩ := emits
      have listed := Rules.mem_sourcesOf.mpr ⟨member, rfl⟩
      exact .of_one (.source tracked here taken listed)
        ((complete (.called edge)).mp called)
  | @snoc hops hop earlier allowed ih =>
      cases hop with
      | flow source target =>
          rw [lastType_append_flow]
          exact .of_two .flow ((complete (.flows source target)).mp allowed) ih
      | retag along =>
          rw [lastType_append_retag]
          exact .of_two (.retag rfl) ((complete (.retags along)).mp allowed) ih

/-- Taint is where a path from a call of a source leads. -/
theorem State.taint_mem_get_iff {pointer : Pointer} {context : Context}
    {source : Site} {type : Ty} :
    (⟨context, .taint source type⟩ : ContextObj) ∈ state.store.get pointer ↔
      context = [] ∧ ∃ edge ∈ state.calls.edges, edge.site.val = source ∧
        ∃ initial start hops, edge.Emits setup.program rules initial start ∧
          state.Path start hops pointer ∧ type = lastType initial hops := by
  constructor
  · intro member
    exact path_of_derivable tracked complete
      ((complete (.points pointer _)).mp member) rfl
  · rintro ⟨rfl, edge, called, rfl, initial, start, hops, emits, path, rfl⟩
    exact (complete (.points pointer _)).mpr
      (derivable_of_path tracked complete called emits path)

theorem State.mem_taintEdges_iff {taint : TaintEdge} :
    taint ∈ state.taintEdges ↔
      ∃ edge ∈ state.calls.edges,
        edge.Transfers setup.program rules taint := by
  have retags : taint ∈ state.taintEdges ↔ _ :=
    (complete (.retags taint)).trans (Derivable.retags_iff tracked)
  rw [retags]
  exact exists_congr fun edge =>
    and_congr_left fun _ => (complete (.called edge)).symm

end Complete

/-- A flow is reported where taint is at an argument that a call exposes. -/
theorem Setup.mem_flows_iff_exposes (coherent : setup.program.Coherent)
    {result : Result} {log : Log}
    (analyzed : setup.analyze entries = .success result log)
    {flow : TaintFlow} :
    flow ∈ result.flows ↔
      ∃ edge ∈ result.state.calls.edges, edge.site.val = flow.sink ∧
        ∃ pointer, edge.Exposes setup.program rules flow.index pointer ∧
          ∃ type, State.taintObj flow.source type ∈
            result.state.store.get pointer := by
  have complete := holds_iff_of_success coherent analyzed
  rw [mem_flows_iff coherent analyzed]
  constructor
  · rintro ⟨context, invoke, arg, obj, recorded, here, taken, points, taint,
      came⟩
    obtain ⟨others, edge, _, rule, present, called, _, member, _, same⟩ :=
      Derivable.sinks_iff.mp recorded
    cases tracked.symm.trans present
    obtain ⟨listed, named⟩ := Rules.mem_sinksOf.mp member
    obtain ⟨located, index⟩ : ⟨context, flow.sink⟩ = edge.site ∧
        flow.index = rule.index := by simpa using same
    have site : edge.site.val = flow.sink := by rw [← located]
    obtain ⟨_, source, type, rfl⟩ := ContextObj.eq_taint_of_isTaint taint
    have there := (complete (.points _ _)).mpr points
    obtain ⟨rfl, _⟩ := (State.taint_mem_get_iff tracked complete).mp there
    refine ⟨edge, (complete (.called edge)).mpr called, site,
      edge.atCaller arg, ⟨invoke, arg, ?_, ?_, taken, rfl⟩, type, ?_⟩
    · rw [site]
      exact here
    · rw [index, ← named]
      exact listed
    · rw [← came, CallEdge.atCaller, ← located]
      exact there
  · rintro ⟨edge, called, site, pointer, ⟨invoke, arg, here, member, taken,
      rfl⟩, type, there⟩
    have sensitive := ((invoke.isSome_argument? flow.index).mp
      (Option.isSome_of_eq_some taken)).2
    have listed := Rules.mem_sinksOf.mpr ⟨member, rfl⟩
    have recorded := Derivable.of_one
      (.sink tracked here listed sensitive)
      ((complete (.called edge)).mp called)
    rw [CallEdge.atCaller, site] at there
    rw [site] at here
    refine ⟨edge.site.context, invoke, arg, _, ?_, here, taken,
      (complete (.points _ _)).mp there, rfl, rfl⟩
    rw [← site]
    exact recorded

end Tracked

/--
At the end of an analysis with taint rules, the taint at pointers, the taint
edges and the reported flows are exactly those that call edges, taint rules and
paths account for.
-/
theorem analyze_traced (made : setup.program.Made) {rules : Rules}
    (tracked : setup.rules = some rules) {result : Result} {log : Log}
    (analyzed : setup.analyze entries = .success result log) :
    result.Traced setup.program rules := by
  have coherent := made.coherent
  have complete := Setup.holds_iff_of_success coherent analyzed
  constructor
  · intro pointer context source type
    exact State.taint_mem_get_iff tracked complete
  · intro taint
    exact State.mem_taintEdges_iff tracked complete
  · intro flow
    exact Setup.mem_flows_iff_exposes tracked coherent analyzed

/-- The taint that a call returns goes around a cycle of transfers and back into
the argument of the same call. -/
theorem analyze_traced_cyclic :
    Cyclic.tracked.program.Made ∧
      Cyclic.tracked.rules = some Cyclic.rules ∧ ∃ result log,
        Cyclic.tracked.analyze [Cyclic.main] = .success result log ∧
        ⟨⟨Cyclic.main, 3⟩, ⟨Cyclic.main, 3⟩, 0⟩ ∈ result.flows ∧
        result.Traced Cyclic.tracked.program Cyclic.rules := by
  have flow : (Cyclic.tracked.analyze [Cyclic.main]).result?.map
      (fun result => decide
        (⟨⟨Cyclic.main, 3⟩, ⟨Cyclic.main, 3⟩, 0⟩ ∈ result.flows)) =
      some true := by decide +kernel
  obtain ⟨result, log, analyzed, found⟩ := Answer.exists_success flow
  exact ⟨Cyclic.made, rfl, result, log, analyzed, of_decide_eq_true found,
    analyze_traced Cyclic.made rfl analyzed⟩

end PointsTo
