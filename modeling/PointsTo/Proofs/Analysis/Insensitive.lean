import PointsTo.Proofs.Analysis.Noninterference

/-!
# Depths that leave no context

A depth that is not positive cuts every context down to the empty one.  Under
such a depth, the selectors that tell methods apart by object or by type still
hand the context of the caller on to static callees, but there the context is
empty already.  So the solver takes exactly the steps that it takes without
contexts: it finds the same things in the same order and reports the same.
-/

namespace PointsTo

variable {setup : Setup} {entries : List MethodId}

/-! ## Selectors -/

/-- The same analysis under another selector. -/
def Setup.under (setup : Setup) (selector : Selector) : Setup :=
  { setup with selector }

/-- A selector that never leaves the empty context. -/
structure Selector.Flat (selector : Selector) : Prop where
  ofClass : ∀ site, selector.staticCallee ⟨[], site⟩ = []
  ofReceiver : ∀ site receiver, selector.instanceCallee site receiver = []
  allocates : ∀ context, selector.heap context = []
  bound : selector.bound = 0

/-- The kinds of context sensitivity. -/
inductive Sensitivity where
  | callSite
  | object
  | type
deriving DecidableEq, Repr

/-- The selector of a kind with the given depth. -/
def Sensitivity.selector : Sensitivity → Int → Selector
  | .callSite, depth => .callSite depth
  | .object, depth => .object depth
  | .type, depth => .type depth

theorem Selector.flat_insensitive : Selector.insensitive.Flat :=
  ⟨fun _ => rfl, fun _ _ => rfl, fun _ => rfl, rfl⟩

theorem Selector.flat_of_nonpos (sensitivity : Sensitivity) {depth : Int}
    (none : depth ≤ 0) : (sensitivity.selector depth).Flat := by
  have extend : ∀ (context : Context) elem, context.extend elem depth = [] :=
    fun context elem => recent_of_nonpos none _
  have truncate : ∀ context : Context, context.truncate (depth - 1) = [] :=
    fun context => recent_of_nonpos (by omega) _
  cases sensitivity with
  | callSite =>
      exact ⟨fun _ => extend .., fun _ _ => extend .., truncate,
        Int.toNat_of_nonpos none⟩
  | object =>
      exact ⟨fun _ => rfl, fun _ _ => extend .., truncate,
        Int.toNat_of_nonpos none⟩
  | type =>
      exact ⟨fun _ => rfl, fun _ _ => extend .., truncate,
        Int.toNat_of_nonpos none⟩

/-! ## Steps -/

namespace Setup

theorem starts_under (selector : Selector) (entries : List MethodId) :
    (setup.under selector).starts entries = setup.starts entries :=
  rfl

/-- The selector is not asked when methods are entered. -/
theorem enter_under (selector : Selector) (ids : List MethodId)
    (state : State) :
    (setup.under selector).enter ids state = setup.enter ids state := by
  induction ids generalizing state with
  | nil => rfl
  | cons id rest ih =>
      rw [enter, enter, ih]
      rfl

/-- Without contexts, methods are reached under the empty context only. -/
theorem context_eq_nil_of_reached (coherent : setup.program.Coherent)
    {method : ContextMethod}
    (reached : Derivable (setup.under .insensitive) entries
      (.reached method)) : method.context = [] := by
  have plain : (setup.under .insensitive).program.Coherent := coherent
  have listed := mem_facts plain reached
  have inside := (mem_contextMethods.mp (reached_mem_facts.mp listed)).1
  exact List.eq_nil_of_length_eq_zero
    (Nat.le_zero.mp (mem_listsUpTo.mp inside).1)

section Flat

variable {selector : Selector} (flat : selector.Flat)

include flat

theorem callInstance_under (site : ContextSite) (call : Invoke)
    (receiver : ContextObj) (state : State) :
    (setup.under selector).callInstance site call receiver state =
      (setup.under .insensitive).callInstance site call receiver state := by
  unfold callInstance
  simp only [under, flat.ofReceiver, Selector.flat_insensitive.ofReceiver]
  rfl

theorem callStatic_under (site : Site) (call : Invoke) (state : State) :
    (setup.under selector).callStatic ⟨[], site⟩ call state =
      (setup.under .insensitive).callStatic ⟨[], site⟩ call state := by
  unfold callStatic
  simp only [under, flat.ofClass, Selector.flat_insensitive.ofClass]
  rfl

theorem use_under (context : Context) (method : MethodId) (obj : ContextObj)
    (stmt : Stmt) (index : Nat) (state : State) :
    (setup.under selector).use context method obj stmt index state =
      (setup.under .insensitive).use context method obj stmt index state := by
  cases stmt with
  | invoke call => exact callInstance_under flat ..
  | _ => rfl

theorem useAll_under (entry : ContextVar) (state : State)
    (obj : ContextObj) :
    (setup.under selector).useAll entry state obj =
      (setup.under .insensitive).useAll entry state obj := by
  unfold useAll
  simp only [use_under flat]
  rfl

theorem deliver_under (work : Work) (state : State) :
    (setup.under selector).deliver work state =
      (setup.under .insensitive).deliver work state := by
  have useAll : (setup.under selector).useAll =
      (setup.under .insensitive).useAll := by
    funext entry state obj
    exact useAll_under flat entry state obj
  unfold deliver useNew
  rw [useAll]

theorem lookAt_under (id : MethodId) (state : State) (stmt : Stmt)
    (index : Nat) :
    (setup.under selector).lookAt ⟨[], id⟩ state stmt index =
      (setup.under .insensitive).lookAt ⟨[], id⟩ state stmt index := by
  cases stmt with
  | new target type =>
      unfold lookAt
      simp only [under, flat.allocates, Selector.flat_insensitive.allocates]
  | invoke call =>
      unfold lookAt
      simp only [callStatic_under flat]
  | _ => rfl

theorem lookAtAll_under (id : MethodId) (index : Nat) (stmts : List Stmt)
    (state : State) :
    (setup.under selector).lookAtAll ⟨[], id⟩ index stmts state =
      (setup.under .insensitive).lookAtAll ⟨[], id⟩ index stmts state := by
  induction stmts generalizing index state with
  | nil => rfl
  | cons stmt rest ih =>
      rw [lookAtAll, lookAtAll, lookAt_under flat]
      congr 1
      funext next
      exact ih (index + 1) next

theorem step_under {state : State}
    (empty : ∀ method ∈ state.pending.toList, method.context = []) :
    (setup.under selector).step state =
      (setup.under .insensitive).step state := by
  unfold step
  cases popped : state.pending.pop? with
  | none => simp only [deliver_under flat]
  | some pair =>
      obtain ⟨⟨context, id⟩, pending⟩ := pair
      have waiting : ⟨context, id⟩ ∈ state.pending.toList := by
        simp [Queue.toList_of_pop? popped]
      -- Static callees get the context of the caller, so it has to be empty.
      obtain rfl : context = [] := empty _ waiting
      simp only [lookAtAll_under flat]
      rfl

/-! ## Runs -/

theorem advance_under (coherent : setup.program.Coherent) {steps : Nat}
    {state : State} (visits : Visits (setup.under .insensitive) entries state) :
    (setup.under selector).advance steps state =
      (setup.under .insensitive).advance steps state := by
  induction steps generalizing state with
  | zero => rfl
  | succ steps ih =>
      have plain : (setup.under .insensitive).program.Coherent := coherent
      have justified := (visits.proper plain).justified
      have stepped : (setup.under selector).step state =
          (setup.under .insensitive).step state :=
        step_under flat fun method waiting =>
          context_eq_nil_of_reached coherent
            (justified.derivable_of_waiting waiting)
      rw [advance, advance, stepped]
      cases outcome : (setup.under .insensitive).step state with
      | finished => rfl
      | failed fault last => rfl
      | advanced next => exact ih (visits.step outcome)

theorem finish_under (coherent : setup.program.Coherent) {start : State}
    (entered : (setup.under .insensitive).enter entries {} = .ok start) :
    (setup.under selector).finish start =
      (setup.under .insensitive).finish start := by
  have budget : (setup.under selector).budget start =
      (setup.under .insensitive).budget start := by
    unfold Setup.budget magnitude
    simp only [under, flat.bound, Selector.flat_insensitive.bound]
  rw [finish_eq_advance, finish_eq_advance, budget]
  exact advance_under flat coherent (.start entered)

end Flat

end Setup

/-! ## Whole analyses -/

/-- The same result under the name of another selector. -/
def Result.under (result : Result) (selector : Selector) : Result :=
  { result with setup := result.setup.under selector }

/-- The same answer under the name of another selector. -/
def Answer.under (selector : Selector) : Answer → Answer
  | .success result log => .success (result.under selector) log
  | .failure fault log => .failure fault log

/-- The selector has no part in what a final state comes to. -/
theorem Setup.conclude_under (selector : Selector) (final : State) :
    (setup.under selector).conclude final =
      ((setup.under .insensitive).conclude final).under selector := by
  have same : (setup.under selector).collectFault? final =
      (setup.under .insensitive).collectFault? final := rfl
  unfold conclude
  rw [same]
  cases (setup.under .insensitive).collectFault? final <;> rfl

/-- An analysis under a selector that never leaves the empty context is an
analysis without contexts. -/
theorem Setup.analyze_under (coherent : setup.program.Coherent)
    {selector : Selector} (flat : selector.Flat) (entries : List MethodId) :
    (setup.under selector).analyze entries =
      ((setup.under .insensitive).analyze entries).under selector := by
  unfold analyze
  simp only [← starts.eq_def, starts_under, enter_under]
  cases given : setup.starts entries with
  | nil => rfl
  | cons first rest =>
      cases entered : setup.enter (first :: rest) {} with
      | error problem => rfl
      | ok start =>
          rw [← enter_under .insensitive] at entered
          simp only [finish_under flat coherent entered]
          cases (setup.under .insensitive).finish start with
          | failed fault last => rfl
          | finished final => exact conclude_under selector final
          | suspended last => exact conclude_under selector last

end PointsTo
