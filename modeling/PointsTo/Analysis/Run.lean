import PointsTo.Analysis.Step
import PointsTo.Taint.Flow

/-!
# Running the solver

`Setup.advance` does a bounded number of steps, and `Setup.finish` goes on
until nothing is left to do.  The objects, pointers and methods of a program
are finite in number because contexts have bounded length, so the solver comes
to an end; `Setup.magnitude` bounds the number of binary digits of the number
of steps, and `finish` doubles the number of steps it does at a time.

`Setup.analyze` is the whole analysis: it starts at the given methods, or at
the main method of the program, reports on the way and collects the taint flows
at the end.
-/

namespace PointsTo

/-- What a number of steps comes to. -/
inductive Outcome where
  | finished (state : State)
  | failed (fault : Fault) (state : State)
  /-- There may be more to do. -/
  | suspended (state : State)

/-- The state in which the solver stopped. -/
def Outcome.state : Outcome → State
  | .finished state | .failed _ state | .suspended state => state

namespace Setup

/-- Do at most the given number of steps. -/
def advance (setup : Setup) : Nat → State → Outcome
  | 0, state => .suspended state
  | steps + 1, state =>
      match setup.step state with
      | .finished => .finished state
      | .failed fault state => .failed fault state
      | .advanced state => advance setup steps state

/-- Do `batch` steps, then twice as many, and so on for `rounds` rounds. -/
def advanceDoubling (setup : Setup) : (rounds batch : Nat) → State → Outcome
  | 0, _, state => .suspended state
  | rounds + 1, batch, state =>
      match setup.advance batch state with
      | .suspended state => advanceDoubling setup rounds (2 * batch) state
      | outcome => outcome

end Setup

/-- The sum of the sizes of things. -/
def total (sizes : List Nat) : Nat :=
  sizes.foldr (· + ·) 0

/-- The number of names and statements of a method. -/
def Method.weight (method : Method) : Nat :=
  1 + method.locals.length + method.body.length +
    total (method.body.map fun stmt =>
      match stmt with
      | .invoke call => call.args.length
      | _ => 0)

/-- The number of names and statements of a program. -/
def Program.weight (program : Program) : Nat :=
  total (program.declarations.map fun cls =>
    1 + cls.fields.length + total (cls.methods.map Method.weight))

/-- The number of taint rules. -/
def Rules.weight (rules : Rules) : Nat :=
  rules.sources.length + rules.sinks.length + rules.transfers.length

/-- The number of things in a state. -/
def State.weight (state : State) : Nat :=
  state.objects.size + state.methods.size + state.store.size +
    state.flow.size + state.calls.edges.length + state.pending.size +
    state.worklist.size + state.taintEdges.length

namespace Setup

/--
A bound on the number of binary digits of the number of steps from a state.
There are fewer than `2 ^ (size * depth)` contexts, and the number of steps is
bounded by a polynomial in the numbers of contexts and of program parts.
-/
def magnitude (setup : Setup) (state : State) : Nat :=
  32 *
    (setup.program.weight + ((setup.rules.map Rules.weight).getD 0) +
      state.weight + 1) *
    (setup.selector.bound + 2)

/-- Do steps until nothing is left to do. -/
def finish (setup : Setup) (state : State) : Outcome :=
  setup.advanceDoubling (setup.magnitude state) 1 state

end Setup

/-- The result of an analysis. -/
structure Result where
  setup : Setup
  state : State
  flows : List TaintFlow
  /-- The variables under contexts before the taint flows were collected. -/
  vars : List ContextVar

/-- What an analysis comes to; the log is reported in every case. -/
inductive Answer where
  | success (result : Result) (log : Log)
  | failure (fault : Fault) (log : Log)

/-- The log of an analysis. -/
def Answer.log : Answer → Log
  | .success _ log | .failure _ log => log

/-- A failure is reported as the last entry of the log. -/
def Answer.ofFault (fault : Fault) (log : Log) : Answer :=
  .failure fault (log ++ [{ level := .panic, message := fault.message }])

namespace Result

/-- The shape of the flow graph. -/
def stats (result : Result) : FlowStats :=
  result.state.flow.stats result.state.store.nodes

/-- The closing entries of the log. -/
def closing (result : Result) : Log :=
  let state := result.state
  let stats := result.stats
  [{ level := .info
     message := "Pointer analysis finished"
     fields :=
       [("methods", state.calls.reachable.length),
         ("edges", state.calls.edges.length),
         ("pointers", state.store.size),
         ("objects", state.objects.size),
         ("flows", result.flows.length)] },
    { level := .debug
      message := s!"PFG: {stats.pointers} pointers, {stats.edges} edges, {stats.cycles} cycles (largest {stats.largestCycle}), {stats.selfLoops} self-loops" }]

end Result

namespace Setup

/-- The taint flows of a state; none if taint is not tracked. -/
def flows (setup : Setup) (state : State) : List TaintFlow :=
  match setup.rules with
  | none => []
  | some _ => state.taintFlows setup.program

/-- The result in a final state whose taint flows can be collected. -/
def result (setup : Setup) (state : State) : Result :=
  { setup
    state := match setup.rules with
      | none => state
      | some _ => state.touchSinks setup.program
    flows := setup.flows state
    vars := state.store.contextVars }

/-- What goes wrong when the taint flows of a state are collected: the first
sensitive argument that is not there. -/
def collectFault? (setup : Setup) (state : State) : Option Fault :=
  match setup.rules with
  | none => none
  | some _ => (state.unreadable? setup.program).map fun call =>
      .indexOutOfRange call.index

/-- What an analysis comes to in a final state.  The log does not mention a
fault in the collection of the taint flows. -/
def conclude (setup : Setup) (state : State) : Answer :=
  match setup.collectFault? state with
  | some fault => .failure fault state.log
  | none =>
      let result := setup.result state
      .success result (state.log ++ result.closing)

/-- Analyse from the given methods, or from the main method. -/
def analyze (setup : Setup) (entries : List MethodId) : Answer :=
  let entries := if entries.isEmpty then setup.program.main.toList else entries
  if entries.isEmpty then .ofFault .noEntry []
  else
    match setup.enter entries {} with
    | .error (fault, state) => .ofFault fault state.log
    | .ok state =>
        match setup.finish state with
        | .failed fault state => .ofFault fault state.log
        | .finished state | .suspended state => setup.conclude state

end Setup

/-- Analyse a program; without one there is nothing to report. -/
def analyze (program : Option Program) (selector : Selector)
    (rules : Option Rules) (entries : List MethodId) : Answer :=
  match program with
  | none => .failure .noProgram []
  | some program => Setup.analyze { program, selector, rules } entries

end PointsTo
