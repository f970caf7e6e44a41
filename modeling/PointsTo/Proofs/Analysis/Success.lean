import PointsTo.Proofs.Analysis.Termination

/-!
# When an analysis succeeds

An analysis that has something to start from can fail in two ways.  The solver
fails at a call of an unknown kind, and the collection of the taint flows fails
at a sensitive argument that is not there.  Calls of sinks are recorded only if
the index is not beyond the last argument, so that such an index is negative.

If the analysis succeeds, its result consists of the derivable facts.
-/

namespace PointsTo

variable {setup : Setup} {entries : List MethodId}

/-! ## Sensitive arguments -/

/-- A call has an argument at each index from zero to the last. -/
theorem Invoke.isSome_argument? (call : Invoke) (index : Int) :
    (call.argument? index).isSome = true ↔
      0 ≤ index ∧ index < call.args.length := by
  cases index with
  | ofNat position => simp [argument?]
  | negSucc position => simp [argument?, Int.negSucc_not_nonneg]

/-- The sensitive arguments of calls come from the rules for the callees. -/
theorem Derivable.sinks_iff {call : SinkCall} :
    Derivable setup entries (.sinks call) ↔
      ∃ rules edge invoke rule, setup.rules = some rules ∧
        Derivable setup entries (.called edge) ∧
        setup.program.invoke? edge.site.val = some invoke ∧
        rule ∈ rules.sinksOf edge.callee.val ∧
        rule.index < invoke.args.length ∧
        call = ⟨edge.site, rule.index⟩ := by
  constructor
  · intro derivable
    cases derivable with
    | infer rule derived =>
        cases rule with
        | sink tracked here member sensitive =>
            exact ⟨_, _, _, _, tracked, derived _ (.head _), here, member,
              sensitive, rfl⟩
  · rintro ⟨rules, edge, invoke, rule, tracked, called, here, member,
      sensitive, rfl⟩
    exact .of_one (.sink tracked here member sensitive) called

/-- The sensitive argument of a recorded call is there unless its index is
negative. -/
theorem Derivable.isSome_sinkPointer? {call : SinkCall}
    (derivable : Derivable setup entries (.sinks call)) :
    (State.sinkPointer? setup.program call).isSome = true ↔
      0 ≤ call.index := by
  rcases sinks_iff.mp derivable with
    ⟨_, edge, invoke, rule, _, _, here, _, inside, rfl⟩
  simp only [State.sinkPointer?, here, Option.bind_some, Option.isSome_map,
    invoke.isSome_argument?, inside, and_true]

/-- The taint flows of a final state can be collected if no sensitive argument
has a negative index. -/
theorem Setup.collectFault?_eq_none_iff {final : State}
    (complete : ∀ fact, final.Holds fact ↔ Derivable setup entries fact) :
    setup.collectFault? final = none ↔
      ∀ call, Derivable setup entries (.sinks call) → 0 ≤ call.index := by
  have recorded : (final.unreadable? setup.program = none) ↔
      ∀ call, Derivable setup entries (.sinks call) → 0 ≤ call.index := by
    simp only [State.unreadable?, List.find?_eq_none, Bool.not_eq_true,
      Option.isNone_eq_false_iff]
    refine forall_congr' fun call => ?_
    rw [show call ∈ final.sinkCalls ↔ _ from complete (.sinks call)]
    exact forall_congr' fun derivable => derivable.isSome_sinkPointer?
  unfold collectFault?
  cases tracked : setup.rules with
  | none =>
      refine iff_of_true rfl fun call derivable => ?_
      obtain ⟨_, _, _, _, present, _⟩ := Derivable.sinks_iff.mp derivable
      cases tracked.symm.trans present
  | some rules => simp only [Option.map_eq_none_iff, recorded]

/-- What goes wrong in the collection of the taint flows is a negative
index. -/
theorem Setup.exists_negative_of_collectFault? {final : State} {fault : Fault}
    (complete : ∀ fact, final.Holds fact ↔ Derivable setup entries fact)
    (faulty : setup.collectFault? final = some fault) :
    ∃ index < 0, fault = .indexOutOfRange index := by
  unfold collectFault? at faulty
  split at faulty
  · cases faulty
  · obtain ⟨call, found, rfl⟩ := Option.map_eq_some_iff.mp faulty
    have derivable : Derivable setup entries (.sinks call) :=
      (complete _).mp (List.mem_of_find?_eq_some found)
    have missing := List.find?_some found
    refine ⟨call.index, ?_, rfl⟩
    rw [← Int.not_le, ← derivable.isSome_sinkPointer?]
    simpa using missing

/-! ## Whole analyses -/

/-- Creating pointers changes no facts. -/
theorem State.holds_foldl_touch (pointers : List Pointer) (state : State)
    (fact : Fact) :
    (pointers.foldl touch state).Holds fact ↔ state.Holds fact := by
  induction pointers generalizing state with
  | nil => rfl
  | cons first rest ih =>
      rw [List.foldl_cons, ih]
      cases fact with
      | points pointer obj =>
          show obj ∈ (state.store.touch first).get pointer ↔ _
          rw [Store.get_touch]
          rfl
      | _ => rfl

/-- The result of an analysis that succeeds. -/
def Answer.result? : Answer → Option Result
  | .success result _ => some result
  | .failure .. => none

/-- An analysis whose result can be measured succeeds. -/
theorem Answer.exists_success {α : Type} {answer : Answer}
    {measure : Result → α} {value : α}
    (measured : answer.result?.map measure = some value) :
    ∃ result log, answer = .success result log ∧ measure result = value := by
  cases answer with
  | success result log => exact ⟨result, log, rfl, Option.some.inj measured⟩
  | failure fault log => cases measured

/-- The fault of an analysis that fails. -/
def Answer.fault? : Answer → Option Fault
  | .success .. => none
  | .failure fault _ => some fault

theorem Answer.exists_failure {answer : Answer} {fault : Fault}
    (faulty : answer.fault? = some fault) :
    ∃ log, answer = .failure fault log := by
  cases answer with
  | success result log => cases faulty
  | failure other log => exact ⟨log, by rw [Option.some.inj faulty]⟩

namespace Setup

/-- The methods where an analysis starts. -/
def starts (setup : Setup) (entries : List MethodId) : List MethodId :=
  if entries.isEmpty then setup.program.main.toList else entries

/-- The solver can start, and gets to a state in which nothing is left to
do. -/
def Completes (setup : Setup) (entries : List MethodId) (final : State) :
    Prop :=
  setup.starts entries ≠ [] ∧ ∃ start,
    setup.enter (setup.starts entries) {} = .ok start ∧
      setup.finish start = .finished final

theorem Completes.visits {final : State}
    (completes : setup.Completes entries final) :
    Visits setup (setup.starts entries) final ∧
      setup.step final = .finished := by
  obtain ⟨_, start, entered, outcome⟩ := completes
  have visited := Visits.finish entered
  rwa [outcome] at visited

/-- The analysis goes on to collect the taint flows. -/
theorem Completes.analyze_eq {final : State}
    (completes : setup.Completes entries final) :
    setup.analyze entries = setup.conclude final := by
  obtain ⟨given, start, entered, outcome⟩ := completes
  have present : (setup.starts entries).isEmpty = false := by simpa using given
  unfold analyze
  simp only [← starts.eq_def, present, Bool.false_eq_true, if_false, entered,
    outcome]

theorem holds_result (setup : Setup) (final : State) (fact : Fact) :
    (setup.result final).state.Holds fact ↔ final.Holds fact := by
  unfold result
  cases setup.rules with
  | none => rfl
  | some rules => exact State.holds_foldl_touch ..

theorem conclude_eq_success_iff {final : State} {result : Result} :
    (∃ log, setup.conclude final = .success result log) ↔
      setup.collectFault? final = none ∧ result = setup.result final := by
  unfold conclude
  cases setup.collectFault? final with
  | none => simpa using eq_comm
  | some fault => simp

section Coherent

variable (coherent : setup.program.Coherent)

include coherent

/-- The final state consists of the derivable facts. -/
theorem Completes.holds_iff {final : State}
    (completes : setup.Completes entries final) (fact : Fact) :
    final.Holds fact ↔ Derivable setup (setup.starts entries) fact :=
  completes.visits.1.holds_iff coherent completes.visits.2 fact

/-- The solver gets through unless a call of unknown kind is reached. -/
theorem exists_completes_iff :
    (∃ final, setup.Completes entries final) ↔
      setup.starts entries ≠ [] ∧
        (∃ start, setup.enter (setup.starts entries) {} = .ok start) ∧
        ∀ method,
          Derivable setup (setup.starts entries) (.reached method) →
          setup.Knows method.val := by
  constructor
  · rintro ⟨final, given, start, entered, outcome⟩
    exact ⟨given, ⟨start, entered⟩,
      (finish_eq_finished_iff coherent entered).mp ⟨final, outcome⟩⟩
  · rintro ⟨given, ⟨start, entered⟩, known⟩
    obtain ⟨final, outcome⟩ :=
      (finish_eq_finished_iff coherent entered).mpr known
    exact ⟨final, given, start, entered, outcome⟩

/-- An analysis fails if the solver does not get through. -/
theorem exists_completes_of_success {result : Result} {log : Log}
    (analyzed : setup.analyze entries = .success result log) :
    ∃ final, setup.Completes entries final := by
  unfold analyze at analyzed
  simp only [← starts.eq_def] at analyzed
  split at analyzed
  · cases analyzed
  · rename_i given
    split at analyzed
    · cases analyzed
    · rename_i start entered
      have stopped := finish_stopped coherent entered
      split at analyzed
      · cases analyzed
      · rename_i final outcome
        exact ⟨final, by simpa using given, start, entered, outcome⟩
      · rename_i last outcome
        rw [outcome] at stopped
        exact stopped.elim

/-- An analysis succeeds if the solver gets through and the taint flows can be
collected. -/
theorem analyze_eq_success_iff {result : Result} :
    (∃ log, setup.analyze entries = .success result log) ↔
      ∃ final, setup.Completes entries final ∧
        setup.collectFault? final = none ∧ result = setup.result final := by
  constructor
  · rintro ⟨log, analyzed⟩
    obtain ⟨final, completes⟩ := exists_completes_of_success coherent analyzed
    rw [completes.analyze_eq] at analyzed
    exact ⟨final, completes, conclude_eq_success_iff.mp ⟨log, analyzed⟩⟩
  · rintro ⟨final, completes, collected⟩
    rw [completes.analyze_eq]
    exact conclude_eq_success_iff.mpr collected

/-- An analysis succeeds if the solver gets through and no sensitive argument
has a negative index. -/
theorem exists_success_iff :
    (∃ result log, setup.analyze entries = .success result log) ↔
      (∃ final, setup.Completes entries final) ∧
        ∀ call, Derivable setup (setup.starts entries) (.sinks call) →
          0 ≤ call.index := by
  simp only [analyze_eq_success_iff coherent]
  constructor
  · rintro ⟨result, final, completes, collected, _⟩
    exact ⟨⟨final, completes⟩, (collectFault?_eq_none_iff
      (completes.holds_iff coherent)).mp collected⟩
  · rintro ⟨⟨final, completes⟩, inside⟩
    exact ⟨setup.result final, final, completes, (collectFault?_eq_none_iff
      (completes.holds_iff coherent)).mpr inside, rfl⟩

/-- The result of an analysis is that of the state in which the solver
stops. -/
theorem exists_final_of_success {result : Result} {log : Log}
    (analyzed : setup.analyze entries = .success result log) :
    ∃ final, Visits setup (setup.starts entries) final ∧
      setup.step final = .finished ∧ result = setup.result final := by
  obtain ⟨final, completes, _, same⟩ :=
    (analyze_eq_success_iff coherent).mp ⟨log, analyzed⟩
  exact ⟨final, completes.visits.1, completes.visits.2, same⟩

/-- The result of an analysis consists of the derivable facts. -/
theorem holds_iff_of_success {result : Result} {log : Log}
    (analyzed : setup.analyze entries = .success result log) (fact : Fact) :
    result.state.Holds fact ↔
      Derivable setup (setup.starts entries) fact := by
  obtain ⟨final, visits, finished, rfl⟩ :=
    exists_final_of_success coherent analyzed
  rw [holds_result]
  exact visits.holds_iff coherent finished fact

end Coherent

end Setup

end PointsTo
