import PointsTo.Proofs.Analysis.Visits

/-!
# No consequence is forgotten

A visited state accounts for everything that follows from what it holds: a
consequence holds already, or it is on its way, or the method that it comes
from has not been looked at.  Steps preserve this, whatever order facts are
found in.  Once nothing is left to do, the facts of the state are therefore
closed under the rules.
-/

namespace PointsTo

variable {setup : Setup} {entries : List MethodId}

/-- A reachable method has been looked at. -/
structure State.Looked (setup : Setup) (entries : List MethodId)
    (state : State) (method : ContextMethod) : Prop where
  meets : ∀ {conclusion : Fact},
    Inference setup entries [.reached method] conclusion →
    state.Meets conclusion
  knows : setup.Knows method.val

/-- Everything that follows from what a state holds is met or scheduled. -/
structure State.Accounted (setup : Setup) (entries : List MethodId)
    (state : State) : Prop where
  entered : ∀ id ∈ entries, state.Holds (.reached ⟨[], id⟩)
  looked : ∀ method ∈ state.calls.reachable,
    method ∈ state.pending.toList ∨ state.Looked setup entries method
  used : ∀ {method : ContextMethod} {target : Pointer} {obj : ContextObj}
    {conclusion : Fact}, obj ∈ state.store.get target →
    Inference setup entries [.reached method, .points target obj]
      conclusion →
    state.Meets conclusion
  linked : ∀ edge ∈ state.calls.edges, state.Links setup entries edge
  forwarded : ∀ edge ∈ state.flow.edges, state.Forwards edge.1 edge.2
  retagged : ∀ edge ∈ state.taintEdges, state.Retags edge

namespace State

/-! ## What is met stays met -/

theorem Meets.popMethod {state : State} {fact : Fact}
    (meets : state.Meets fact) (pending : Queue ContextMethod) :
    { state with pending }.Meets fact := by
  refine meets.imp (fun holds => ?_) id
  cases fact <;> exact holds

theorem Meets.popWork {state : State} {work : Work} {worklist : Queue Work}
    (popped : state.worklist.toList = work :: worklist.toList) {fact : Fact}
    (meets : state.Meets fact) :
    { state with worklist }.Meets fact ∨
      ∃ obj ∈ work.payload.objects state.store,
        fact = .points work.target obj := by
  rcases meets with holds | ⟨other, queued, obj, sent, rfl⟩
  · refine Or.inl (Or.inl ?_)
    cases fact <;> exact holds
  · rw [popped] at queued
    rcases List.mem_cons.mp queued with rfl | later
    · exact Or.inr ⟨obj, sent, rfl⟩
    · exact Or.inl (Or.inr ⟨other, later, obj, sent, rfl⟩)

theorem Meets.receive {state : State} {fact : Fact}
    (meets : state.Meets fact) {target : Pointer} {delta : ObjSet}
    (created : target ∈ state.store.pointers) :
    (state.receive target delta).Meets fact := by
  rcases meets with holds | ⟨work, queued, obj, sent, rfl⟩
  · exact Or.inl (holds_receive created holds)
  · refine Or.inr ⟨work, queued, obj, ?_, rfl⟩
    obtain ⟨_, payload⟩ := work
    cases payload with
    | fixed objects => exact sent
    | current source =>
        exact (mem_get_receive created _ _).mpr (Or.inl sent)

/-! ## Steps -/

namespace Accounted

/--
The argument that all steps share.  A step takes something from a queue, stores
what arrives, which leads to the state `base`, and moves on from there.  It
keeps account if it handles what it has taken and what has arrived.
-/
theorem advance {state base next : State}
    (accounted : state.Accounted setup entries)
    (growth : Growth setup entries base next)
    (meets : ∀ {fact : Fact}, state.Meets fact → next.Meets fact)
    (calls : base.calls = state.calls) (flow : base.flow = state.flow)
    (taintEdges : base.taintEdges = state.taintEdges)
    (scheduled : ∀ method ∈ state.pending.toList,
      method ∈ next.pending.toList ∨ next.Looked setup entries method)
    (arrived : ∀ {target : Pointer} {obj : ContextObj},
      obj ∈ base.store.get target → obj ∈ state.store.get target ∨
        Setup.Serves setup entries base next target obj) :
    next.Accounted setup entries where
  entered id member := by
    have reached := accounted.entered id member
    rw [State.Holds, ← calls] at reached
    exact growth.reachable.subset reached
  looked method member := by
    rcases growth.reached method member with old | pending
    · rw [calls] at old
      rcases accounted.looked method old with waiting | looked
      · exact scheduled method waiting
      · exact Or.inr ⟨fun rule => meets (looked.meets rule), looked.knows⟩
    · exact Or.inl pending
  used member rule := by
    rw [growth.get] at member
    rcases arrived member with old | serves
    · exact meets (accounted.used old rule)
    · exact serves.uses rule
  linked edge member := by
    rcases growth.linked edge member with old | links
    · rw [calls] at old
      exact fun rule => meets (accounted.linked edge old rule)
    · exact links
  forwarded edge member := by
    rcases growth.forwarded edge member with old | forwards
    · intro obj here
      rw [growth.get] at here
      rcases arrived here with before | serves
      · rw [flow] at old
        exact meets (accounted.forwarded edge old obj before)
      · exact serves.forwards old
    · exact forwards
  retagged edge member := by
    rcases growth.retagged edge member with old | retags
    · intro obj here taint
      rw [growth.get] at here
      rcases arrived here with before | serves
      · rw [taintEdges] at old
        exact meets (accounted.retagged edge old obj before taint)
      · exact serves.retags old rfl taint
    · exact retags

theorem look (coherent : setup.program.Coherent) {state next : State}
    (accounted : state.Accounted setup entries)
    (proper : state.Proper setup entries) {method : ContextMethod}
    {pending : Queue ContextMethod}
    (popped : state.pending.toList = method :: pending.toList)
    (looked : setup.lookAtAll method 0 (setup.bodyOf method.val)
      { state with pending } = .ok next) :
    next.Accounted setup entries := by
  obtain ⟨reached, moves⟩ := Setup.look_moves coherent proper popped looked
  refine accounted.advance moves.growth
    (fun met => moves.growth.meets (met.popMethod pending)) rfl rfl rfl
    (fun other waiting => ?_) Or.inl
  rw [popped] at waiting
  rcases List.mem_cons.mp waiting with rfl | later
  · exact Or.inr ⟨fun rule => Setup.look_meets coherent reached
      (proper.popMethod popped) looked rule, Setup.knows_of_lookAtAll looked⟩
  · exact Or.inl (moves.growth.pending.subset later)

theorem deliver (coherent : setup.program.Coherent) {state : State}
    (accounted : state.Accounted setup entries)
    (proper : state.Proper setup entries) {work : Work}
    {worklist : Queue Work}
    (popped : state.worklist.toList = work :: worklist.toList) :
    (setup.deliver work { state with worklist }).Accounted
      setup entries := by
  have queued : work ∈ state.worklist.toList := by simp [popped]
  have ready := proper.supported.ready work queued
  have before := proper.popWork popped
  by_cases new : Setup.delta work { state with worklist } = []
  · -- Nothing new arrives, so whatever was on its way has arrived before.
    rw [Setup.deliver_of_eq_nil new]
    refine accounted.advance (Growth.refl _) (fun met => ?_) rfl rfl rfl
      (fun _ => Or.inl) Or.inl
    rcases met.popWork popped with kept | ⟨obj, sent, rfl⟩
    · exact kept
    · have there : obj ∈ state.store.get work.target ∨
          obj ∈ Setup.delta work { state with worklist } :=
        Setup.mem_get_or_mem_delta sent
      rw [new] at there
      exact Or.inl (there.resolve_right List.not_mem_nil)
  · have delivers := Setup.deliver_delivers coherent before ready
      (proper.justified.queued work queued) new
    refine accounted.advance delivers.moves.growth (fun met => ?_) rfl rfl
      rfl (fun _ waiting => Or.inl
        (delivers.moves.growth.pending.subset waiting)) fun member => ?_
    · apply delivers.moves.growth.meets
      rcases met.popWork popped with kept | ⟨obj, sent, rfl⟩
      · exact kept.receive ready.1
      · refine Or.inl ((mem_get_receive ready.1 _ _).mpr ?_)
        exact (Setup.mem_get_or_mem_delta sent).imp_right fun fresh =>
          ⟨rfl, fresh⟩
    · rcases (mem_get_receive ready.1 _ _).mp member with old | ⟨rfl, fresh⟩
      · exact Or.inl old
      · exact Or.inr (delivers.serves _ fresh)

theorem step (coherent : setup.program.Coherent) {state next : State}
    (accounted : state.Accounted setup entries)
    (proper : state.Proper setup entries)
    (stepped : setup.step state = .advanced next) :
    next.Accounted setup entries := by
  rcases Setup.step_eq_advanced stepped with
    ⟨method, pending, popped, looked⟩ | ⟨work, worklist, _, popped, rfl⟩
  · exact accounted.look coherent proper popped looked
  · exact accounted.deliver coherent proper popped

theorem start {state : State}
    (entered : setup.enter entries {} = .ok state) :
    state.Accounted setup entries := by
  have growth := (Setup.enter_effects (fun _ member => member) entered).growth
  constructor
  · intro id member
    exact (Setup.enter_holds (fun _ given => given) entered member).1
  · intro method member
    exact (growth.reached method member).elim nofun Or.inl
  · intro method target obj conclusion member
    rw [growth.get, Store.get_empty] at member
    cases member
  · intro edge member
    exact (growth.linked edge member).elim nofun fun links => links
  · intro edge member
    exact (growth.forwarded edge member).elim nofun id
  · intro edge member
    exact (growth.retagged edge member).elim nofun id

theorem looked_of_idle {state : State}
    (accounted : state.Accounted setup entries)
    (idle : state.pending.toList = []) {method : ContextMethod}
    (reached : state.Holds (.reached method)) :
    state.Looked setup entries method := by
  apply (accounted.looked method reached).resolve_left
  rw [idle]
  exact List.not_mem_nil

/-- When nothing is left to do, the facts of a state are closed. -/
theorem closed {state : State} (accounted : state.Accounted setup entries)
    (idle : state.pending.toList = []) (quiet : state.worklist.toList = []) :
    Closed setup entries state.Holds := by
  refine .intro accounted.entered (fun {method _} rule held => ?_)
    (fun rule _ held => Meets.holds quiet (accounted.used held rule))
    (fun rule held => Meets.holds quiet (accounted.linked _ held rule))
    (fun flows held => Meets.holds quiet
      (accounted.forwarded (_, _) flows _ held))
    (fun taint retags held => Meets.holds quiet
      (accounted.retagged _ retags _ held taint))
  exact Meets.holds quiet ((accounted.looked_of_idle idle held).meets rule)

end Accounted

end State

theorem Visits.accounted (coherent : setup.program.Coherent) {state : State}
    (visits : Visits setup entries state) :
    state.Accounted setup entries := by
  induction visits with
  | start entered => exact .start entered
  | step earlier stepped ih =>
      exact ih.step coherent (earlier.proper coherent) stepped

/-- In the state in which the solver stops, the facts are closed. -/
theorem Visits.closed (coherent : setup.program.Coherent) {state : State}
    (visits : Visits setup entries state)
    (finished : setup.step state = .finished) :
    Closed setup entries state.Holds := by
  obtain ⟨idle, quiet⟩ := Setup.step_eq_finished.mp finished
  exact (visits.accounted coherent).closed idle quiet

/-- In the state in which the solver stops, exactly the derivable facts hold. -/
theorem Visits.holds_iff (coherent : setup.program.Coherent) {state : State}
    (visits : Visits setup entries state)
    (finished : setup.step state = .finished) (fact : Fact) :
    state.Holds fact ↔ Derivable setup entries fact := by
  constructor
  · exact (visits.proper coherent).justified.facts
  · exact Derivable.least (visits.closed coherent finished)

end PointsTo
