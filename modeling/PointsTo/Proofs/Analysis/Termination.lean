import PointsTo.Proofs.Analysis.Fixpoint
import PointsTo.Proofs.Analysis.Magnitude

/-!
# The solver comes to an end

Every step uses up potential, and the potential of the state in which the
solver starts is below the number of steps that it allows itself.  So the
solver always stops: at a call of unknown kind in a reachable method if there
is one, and otherwise when nothing is left to do.
-/

namespace PointsTo

variable {setup : Setup} {entries : List MethodId}

/-! ## Runs -/

namespace Outcome

/-- Nothing more would happen. -/
def Stopped : Outcome → Prop
  | .suspended _ => False
  | .finished _ | .failed .. => True

/-- Do more steps unless the solver has stopped. -/
def resume (setup : Setup) (steps : Nat) : Outcome → Outcome
  | .suspended state => setup.advance steps state
  | .finished state => .finished state
  | .failed fault state => .failed fault state

end Outcome

namespace Setup

/-- A run may be interrupted. -/
theorem advance_add (first second : Nat) (state : State) :
    setup.advance (first + second) state =
      (setup.advance first state).resume setup second := by
  induction first generalizing state with
  | zero => rw [Nat.zero_add, advance, Outcome.resume]
  | succ first ih =>
      rw [Nat.succ_add, advance, advance]
      cases setup.step state with
      | finished => rfl
      | failed fault last => rfl
      | advanced next => exact ih next

/-- A run that has stopped is not changed by allowing more steps. -/
theorem advance_of_stopped {steps more : Nat} {state : State}
    (stopped : (setup.advance steps state).Stopped) (longer : steps ≤ more) :
    setup.advance more state = setup.advance steps state := by
  rw [← Nat.add_sub_of_le longer, advance_add]
  cases outcome : setup.advance steps state with
  | finished last => rfl
  | failed fault last => rfl
  | suspended last =>
      rw [outcome] at stopped
      exact stopped.elim

/-- Doubling the number of steps only groups them. -/
theorem advanceDoubling_eq_advance (rounds batch : Nat) (state : State) :
    setup.advanceDoubling rounds batch state =
      setup.advance (batch * (2 ^ rounds - 1)) state := by
  induction rounds generalizing batch state with
  | zero => rfl
  | succ rounds ih =>
      have total : batch * (2 ^ (rounds + 1) - 1) =
          batch + 2 * batch * (2 ^ rounds - 1) := by
        obtain ⟨less, power⟩ :=
          Nat.exists_eq_add_one_of_ne_zero (Nat.two_pow_pos rounds).ne'
        rw [Nat.pow_succ, power, show (less + 1) * 2 - 1 = 2 * less + 1 by
          omega, Nat.add_sub_cancel]
        ring
      rw [total, advance_add, advanceDoubling]
      cases setup.advance batch state with
      | finished last => rfl
      | failed fault last => rfl
      | suspended last => exact ih (2 * batch) last

/-- The number of steps that the solver allows itself. -/
@[irreducible]
def budget (setup : Setup) (state : State) : Nat :=
  2 ^ setup.magnitude state - 1

theorem finish_eq_advance (state : State) :
    setup.finish state = setup.advance (setup.budget state) state := by
  rw [finish, advanceDoubling_eq_advance, Nat.one_mul, budget]

/-- As long as the solver goes on, each step uses up potential. -/
theorem potential_add_le_of_suspended (coherent : setup.program.Coherent)
    {steps : Nat} {state last : State} (proper : state.Proper setup entries)
    (suspended : setup.advance steps state = .suspended last) :
    setup.potential entries last + steps ≤ setup.potential entries state := by
  induction steps generalizing state with
  | zero =>
      cases suspended
      exact Nat.le_refl _
  | succ steps ih =>
      rw [advance] at suspended
      split at suspended
      · cases suspended
      · cases suspended
      · rename_i next stepped
        have rest := ih (step_proper coherent proper stepped) suspended
        have less := step_potential_lt coherent proper stepped
        omega

theorem finish_stopped (coherent : setup.program.Coherent) {start : State}
    (entered : setup.enter entries {} = .ok start) :
    (setup.finish start).Stopped := by
  have proper := (Visits.start entered).proper coherent
  cases outcome : setup.finish start with
  | finished last => trivial
  | failed fault last => trivial
  | suspended last =>
      rw [finish_eq_advance] at outcome
      have used := potential_add_le_of_suspended coherent proper outcome
      have less := potential_add_one_lt entered
      rw [budget] at used
      omega

end Setup

/-! ## Where the solver stops -/

theorem Visits.finish {start : State}
    (entered : setup.enter entries {} = .ok start) :
    (setup.finish start).Visited setup entries := by
  rw [Setup.finish_eq_advance]
  exact (Visits.start entered).advance _

/-- The solver gets through exactly if all calls in reachable methods are of
known kinds. -/
theorem Setup.finish_eq_finished_iff (coherent : setup.program.Coherent)
    {start : State} (entered : setup.enter entries {} = .ok start) :
    (∃ final, setup.finish start = .finished final) ↔
      ∀ method, Derivable setup entries (.reached method) →
        setup.Knows method.val := by
  have visited := Visits.finish entered
  have stopped := finish_stopped coherent entered
  constructor
  · rintro ⟨final, outcome⟩ method derivable
    rw [outcome] at visited
    obtain ⟨visits, finished⟩ := visited
    have held := (visits.holds_iff coherent finished _).mpr derivable
    have idle := (step_eq_finished.mp finished).1
    exact ((visits.accounted coherent).looked_of_idle idle held).knows
  · intro known
    cases outcome : setup.finish start with
    | finished final => exact ⟨final, rfl⟩
    | failed fault last =>
        rw [outcome] at visited
        obtain ⟨state, visits, failed⟩ := visited
        obtain ⟨method, index, call, waiting, here, unknown, _⟩ :=
          step_eq_failed failed
        have reached :=
          (visits.proper coherent).justified.derivable_of_waiting waiting
        rw [known method reached index call here] at unknown
        cases unknown
    | suspended last =>
        rw [outcome] at stopped
        exact stopped.elim

/--
From methods that are not abstract, the solver stops after finitely many steps,
and then it has not run out of the steps that it allows itself.  It gets
through exactly if all calls in reachable methods are of known kinds.
-/
theorem finish_stops (made : setup.program.Made)
    (concrete : ∀ id ∈ entries,
      (setup.program.method? id).any Method.isAbstract = false) :
    ∃ start, setup.enter entries {} = .ok start ∧
      (setup.finish start).Stopped ∧
      (∃ steps, ∀ more, steps ≤ more →
        setup.advance more start = setup.finish start) ∧
      ((∃ final, setup.finish start = .finished final) ↔
        ∀ method, Derivable setup entries (.reached method) →
          setup.Knows method.val) := by
  have coherent := made.coherent
  obtain ⟨start, entered⟩ := Setup.exists_enter concrete {}
  have stopped := Setup.finish_stopped coherent entered
  refine ⟨start, entered, stopped,
    ⟨setup.budget start, fun more longer => ?_⟩,
    Setup.finish_eq_finished_iff coherent entered⟩
  rw [Setup.finish_eq_advance] at stopped ⊢
  exact Setup.advance_of_stopped stopped longer

theorem Cyclic.concrete : ∀ id ∈ [Cyclic.main],
    (Cyclic.tracked.program.method? id).any Method.isAbstract = false := by
  decide +kernel

theorem finish_stops_cyclic :
    Cyclic.tracked.program.Made ∧
      (∀ id ∈ [Cyclic.main],
        (Cyclic.tracked.program.method? id).any Method.isAbstract = false) ∧
      ∃ start, Cyclic.tracked.enter [Cyclic.main] {} = .ok start ∧
        (Cyclic.tracked.finish start).Stopped ∧
        ∃ steps, ∀ more, steps ≤ more →
          Cyclic.tracked.advance more start = Cyclic.tracked.finish start := by
  obtain ⟨start, entered, stopped, enough, _⟩ :=
    finish_stops Cyclic.made Cyclic.concrete
  exact ⟨Cyclic.made, Cyclic.concrete, start, entered, stopped,
    enough⟩

end PointsTo
