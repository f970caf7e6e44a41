import PointsTo.Proofs.Analysis.Monotone
import PointsTo.Proofs.Analysis.Reachability
import PointsTo.Proofs.Program.Loading
import PointsTo.Proofs.Taint.Validation

/-!
# Loading and analysing do not go wrong

Whatever a description says, it is loaded or a check of the loader rejects it.
And whatever is loaded can be analysed from any methods that are not abstract:
calls are of known kinds, so no step fails, and whenever the solver looks
something up by its position, the position is there.  Of the taint rules this
asks that no sink has a negative index, and rules that are read from a text
never have one.
-/

namespace PointsTo

variable {setup : Setup} {entries : List MethodId} {state : State}

/-- In a state nothing is looked up that is not there, and the next step does
not fail. -/
structure State.Safe (setup : Setup) (state : State) : Prop where
  proceeds : ∀ fault last, setup.step state ≠ .failed fault last
  declared : ∀ method ∈ state.calls.reachable,
    ∃ found, setup.program.method? method.val = some found
  /-- Sensitive arguments are among the arguments of their calls. -/
  sensitive : ∀ sink ∈ state.sinkCalls, ∃ call,
    setup.program.invoke? sink.site.val = some call ∧
      0 ≤ sink.index ∧ sink.index < call.args.length
  /-- Objects that are pointed to have numbers. -/
  stored : ∀ pointer, ∀ obj ∈ state.store.get pointer,
    ∃ number, state.objects.get? number = some obj
  /-- So do objects on their way. -/
  queued : ∀ work ∈ state.worklist.toList,
    ∀ obj ∈ work.payload.objects state.store,
      ∃ number, state.objects.get? number = some obj

/-! ## Calls of known kinds -/

theorem Program.Loaded.known_of_stmt {program : Program}
    (loaded : program.Loaded) {site : Site} {stmt : Stmt}
    (here : program.stmt? site = some stmt) : stmt.Known := by
  rcases Option.bind_eq_some_iff.mp here with ⟨method, found, listed⟩
  exact loaded.known.method found stmt (List.mem_of_getElem? listed)

theorem Setup.knows_of_loaded (loaded : setup.program.Loaded)
    (method : MethodId) : setup.Knows method :=
  fun _ _ here => loaded.known_of_stmt here

/-! ## Visited states are safe -/

/-- A reachable method is declared if the entries are. -/
theorem Derivable.reached_method (coherent : setup.program.Coherent)
    (present : ∀ id ∈ entries, ∃ found,
      setup.program.method? id = some found)
    {method : ContextMethod}
    (derivable : Derivable setup entries (.reached method)) :
    ∃ found, setup.program.method? method.val = some found := by
  cases derivable with
  | infer rule derived =>
      cases rule with
      | entry member => exact present _ member
      | enter => exact (derived _ (.head _)).called_method coherent

/-- Calls are recorded with the indices of the rules. -/
theorem Derivable.sinks_nonneg
    (nonNegative : ∀ rules ∈ setup.rules, rules.NonNegative) {call : SinkCall}
    (derivable : Derivable setup entries (.sinks call)) :
    0 ≤ call.index := by
  rcases sinks_iff.mp derivable with
    ⟨rules, _, _, rule, tracked, _, _, member, _, rfl⟩
  exact nonNegative rules tracked rule (List.mem_of_mem_filter member)

/-- In a program whose calls are of known kinds, with rules whose indices are
not negative, all states on the way are safe. -/
theorem Visits.safe (coherent : setup.program.Coherent)
    (present : ∀ id ∈ entries, ∃ found,
      setup.program.method? id = some found)
    (known : ∀ method, setup.Knows method)
    (nonNegative : ∀ rules ∈ setup.rules, rules.NonNegative)
    (visits : Visits setup entries state) : state.Safe setup := by
  have proper := visits.proper coherent
  constructor
  · intro fault last failed
    rcases Setup.step_eq_failed failed with
      ⟨method, index, call, _, here, unknown, _⟩
    rw [known method.val index call here] at unknown
    cases unknown
  · intro method reached
    have derivable : Derivable setup entries (.reached method) :=
      proper.justified.facts reached
    exact derivable.reached_method coherent present
  · intro sink recorded
    have derivable : Derivable setup entries (.sinks sink) :=
      proper.justified.facts recorded
    have nonnegative := derivable.sinks_nonneg nonNegative
    rcases Derivable.sinks_iff.mp derivable with
      ⟨_, edge, call, rule, _, _, here, _, inside, rfl⟩
    exact ⟨call, here, nonnegative, inside⟩
  · intro pointer obj member
    exact ⟨_, Numbering.get?_numberOf
      (proper.supported.numbered pointer obj member)⟩
  · intro work queued obj carried
    have ready := proper.supported.ready work queued
    exact ⟨_, Numbering.get?_numberOf
      (proper.supported.numbered_of_ready ready carried)⟩

/-- Calls of known kinds are analysed successfully from any methods that are
not abstract, unless the index of a sink is negative. -/
theorem Setup.exists_analyze_eq_success (coherent : setup.program.Coherent)
    (given : entries ≠ [])
    (concrete : ∀ id ∈ entries, ∃ method,
      setup.program.method? id = some method ∧ method.isAbstract = false)
    (known : ∀ method, setup.Knows method)
    (nonNegative : ∀ rules ∈ setup.rules, rules.NonNegative) :
    ∃ final log, Visits setup entries final ∧
      setup.step final = .finished ∧
      setup.analyze entries = .success (setup.result final) log := by
  have started : setup.starts entries = entries := starts_of_ne_nil given
  have enters : ∃ start, setup.enter entries {} = .ok start := by
    apply exists_enter
    intro id member
    rcases concrete id member with ⟨method, found, notAbstract⟩
    simp [found, notAbstract]
  have completes : ∃ final, setup.Completes entries final := by
    rw [exists_completes_iff coherent, started]
    exact ⟨given, enters, fun method _ => known method.val⟩
  rcases (exists_success_iff coherent).mpr
    ⟨completes, fun _ derivable => derivable.sinks_nonneg nonNegative⟩ with
    ⟨result, log, analyzed⟩
  rcases exists_final_of_success coherent analyzed with
    ⟨final, visits, finished, rfl⟩
  exact ⟨final, log, started ▸ visits, finished, analyzed⟩

/-! ## A program with a leak

A value is received from one method and kept by another one.  The class that
declares them comes before its superclass and its interface.
-/

namespace Leaking

def spec : ProgramSpec where
  classes :=
    [{ name := "B", super := "A", interfaces := ["I"]
       fields := [{ name := "kept", type := "A" }]
       methods :=
         [{ name := "get", isStatic := true, result := "A" },
          { name := "put", params := ["A x"]
            body := ["this.kept = x", "y = this.kept", "return"] },
          { name := "main", isStatic := true, vars := ["B b"]
            body :=
              ["b = new B", "x = invokestatic <B: A get()>()",
                "invokevirtual b.<B: void put(A)>(x)"] }] },
      { name := "A" },
      { name := "I", isInterface := true }]

def program : Program :=
  spec.load.toOption.getD {}

def main : MethodId := ⟨"B", "void main()"⟩

def rules : Rules where
  sources := [⟨⟨"B", "A get()"⟩, .cls "A"⟩]
  sinks := [⟨⟨"B", "void put(A)"⟩, 0⟩]

def tracked : Setup where
  program := program
  rules := some rules

/-- A parameter has the name of the receiver. -/
def clashing : ProgramSpec where
  classes :=
    [{ name := "A"
       methods := [{ name := "put", params := ["A x", "A this"] }] }]

def clash : Error :=
  .within "A.put" (.duplicateParameter "this")

end Leaking

/--
A description is loaded, or it is rejected for another reason than a violated
rule of construction.  Whatever is loaded is analysed successfully from any
methods of it that are not abstract, and all states on the way are safe.  The
taint rules may be any without negative indices, such as those that are read
from a text.
-/
theorem safe_of_load (spec : ProgramSpec) :
    (∀ problem, spec.load = .error problem →
      problem.kind ≠ .construction) ∧
    ∀ program, spec.load = .ok program →
      (∀ site call, program.invoke? site = some call →
        call.kind.isKnown = true) ∧
      (∀ text rules log, program.rulesOfText text = .ok (rules, log) →
        rules.NonNegative) ∧
      ∀ (selector : Selector) (rules : Option Rules)
        (entries : List MethodId), entries ≠ [] →
        (∀ id ∈ entries, ∃ method, program.method? id = some method ∧
          method.isAbstract = false) →
        (∀ given ∈ rules, given.NonNegative) →
        let setup : Setup := { program, selector, rules }
        (∀ state, Visits setup entries state → state.Safe setup) ∧
        ∃ final log, Visits setup entries final ∧
          setup.step final = .finished ∧
          analyze (some program) selector rules entries =
            .success (setup.result final) log := by
  constructor
  · intro problem refused
    have guarded := spec.guarded_load
    rw [refused] at guarded
    have found : problem.Found := Checked.ensures_error.mp guarded
    exact of_decide_eq_false found
  intro program loaded
  have whole : program.Loaded := Program.loaded_of_load loaded
  have coherent : program.Coherent := whole.built.coherent
  constructor
  · intro site call here
    rw [Program.invoke?_eq_some_iff] at here
    exact whole.known_of_stmt here
  refine ⟨fun _ _ _ => Program.nonNegative_of_rulesOfText, ?_⟩
  intro selector rules entries given concrete nonNegative setup
  have known : ∀ method, setup.Knows method := Setup.knows_of_loaded whole
  constructor
  · intro state visits
    apply visits.safe coherent _ known nonNegative
    intro id member
    rcases concrete id member with ⟨method, found, _⟩
    exact ⟨method, found⟩
  · exact Setup.exists_analyze_eq_success coherent given concrete known
      nonNegative

/-- One description is rejected, and the other one has a leak. -/
theorem safe_of_load_leaking :
    Leaking.clashing.load = .error Leaking.clash ∧
      Leaking.clash.kind ≠ .construction ∧
      Leaking.spec.load = .ok Leaking.program ∧
      [Leaking.main] ≠ [] ∧
      (∀ id ∈ [Leaking.main], ∃ method,
        Leaking.program.method? id = some method ∧
          method.isAbstract = false) ∧
      (∀ given ∈ some Leaking.rules, given.NonNegative) ∧
      ∃ final log, Visits Leaking.tracked [Leaking.main] final ∧
        Leaking.tracked.step final = .finished ∧
        final.Safe Leaking.tracked ∧
        analyze (some Leaking.program) .insensitive (some Leaking.rules)
          [Leaking.main] = .success (Leaking.tracked.result final) log ∧
        (Leaking.tracked.result final).state.sinkCalls.length = 1 ∧
        (Leaking.tracked.result final).flows.length = 1 := by
  have refused : Leaking.clashing.load = .error Leaking.clash := by
    decide +kernel
  have loaded : Leaking.spec.load = .ok Leaking.program := by decide +kernel
  have concrete : ∀ id ∈ [Leaking.main], ∃ method,
      Leaking.program.method? id = some method ∧
        method.isAbstract = false := by
    intro id member
    rw [List.mem_singleton.mp member]
    have found : (Leaking.program.method? Leaking.main).map
        Method.isAbstract = some false := by decide +kernel
    exact Option.map_eq_some_iff.mp found
  have nonNegative : ∀ given ∈ some Leaking.rules, given.NonNegative := by
    intro given same
    cases same
    intro rule member
    cases List.mem_singleton.mp member
    decide
  have measured : (Leaking.tracked.analyze [Leaking.main]).result?.map
      (fun result => (result.state.sinkCalls.length, result.flows.length)) =
        some (1, 1) := by decide +kernel
  rcases ((safe_of_load Leaking.spec).2 Leaking.program loaded).2.2
    .insensitive (some Leaking.rules) [Leaking.main] (by decide) concrete
    nonNegative with
    ⟨safe, final, log, visits, finished, analyzed⟩
  change Leaking.tracked.analyze [Leaking.main] = _ at analyzed
  rw [analyzed] at measured
  simp only [Answer.result?, Option.map_some, Option.some.injEq,
    Prod.mk.injEq] at measured
  exact ⟨refused, (safe_of_load Leaking.clashing).1 _ refused, loaded,
    by decide, concrete, nonNegative, final, log, visits, finished,
    safe final visits, analyzed, measured⟩

end PointsTo
