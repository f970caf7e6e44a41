import PointsTo.Proofs.Analysis.Calls

/-!
# What statements do

Looking at a method and using an object at a variable process statements one
after the other.  Each of them is a sequence of moves, and each rule of the
analysis that concerns statements has a statement whose processing meets the
conclusion of the rule.
-/

namespace PointsTo

variable {setup : Setup} {entries : List MethodId}

theorem Local.mem_uses (entry : Local) (index : Nat) :
    index ∈ entry.uses ↔ ∃ use, index ∈ entry.positions use := by
  simp only [uses, List.mem_append]
  constructor
  · rintro ((((stored | loaded) | stored) | loaded) | invoked)
    · exact ⟨.storeField, stored⟩
    · exact ⟨.loadField, loaded⟩
    · exact ⟨.storeArray, stored⟩
    · exact ⟨.loadArray, loaded⟩
    · exact ⟨.invoke, invoked⟩
  · rintro ⟨use, member⟩
    cases use <;> simp_all [positions]

theorem Method.Coherent.length_uses_le {method : Method}
    (coherent : method.Coherent) {name : String} {uses : Local}
    (listed : method.local? name = some uses) :
    uses.uses.length ≤ 5 * method.body.length := by
  have each : ∀ use, (uses.positions use).length ≤ method.body.length := by
    intro use
    rw [coherent.recorded uses (List.mem_of_find?_eq_some listed), usesIn,
      List.length_map]
    exact Nat.le_trans (List.length_filter_le ..) (by simp)
  have fields := Nat.add_le_add (each .storeField) (each .loadField)
  have arrays := Nat.add_le_add (each .storeArray) (each .loadArray)
  have invokes := each .invoke
  simp only [Local.positions] at fields arrays invokes
  simp only [Local.uses, List.length_append]
  omega

/-- Only ordinary objects are used. -/
theorem Inference.ordinary {method : ContextMethod} {target : Pointer}
    {obj : ContextObj} {conclusion : Fact}
    (rule : Inference setup entries [.reached method, .points target obj]
      conclusion) : ContextObj.isTaint obj = false := by
  cases rule <;> assumption

namespace Setup

/-! ## Looking at methods -/

section Look

variable (coherent : setup.program.Coherent) {method : ContextMethod}
  (reached : Derivable setup entries (.reached method))

include coherent reached

theorem lookAt_moves {index : Nat} {stmt : Stmt}
    (here : setup.program.stmt? ⟨method.val, index⟩ = some stmt)
    {state next : State} (proper : state.Proper setup entries)
    (looked : setup.lookAt method state stmt index = .ok next) :
    Moves setup entries 1 state next := by
  have flow : ∀ {source target : Pointer},
      Inference setup entries [.reached method] (.flows source target) →
      Moves setup entries 1 state (state.addFlow source target) :=
    fun rule => .ofEffects ((State.addFlow_effects
      (.of_one rule reached) proper).weaken (Nat.zero_le 1))
  cases stmt with
  | new target type =>
      cases looked
      exact .ofEffects (State.place_effects
        (.of_one (.allocate here) reached) state)
  | copy target source =>
      cases looked
      exact flow (.copy here)
  | loadStatic target field =>
      cases looked
      exact flow (.loadStatic here)
  | storeStatic field source =>
      cases looked
      exact flow (.storeStatic here)
  | invoke call =>
      simp only [lookAt] at looked
      split at looked
      · rename_i isStatic
        cases looked
        exact (callStatic_moves coherent reached here isStatic proper).weaken
          (Nat.zero_le 1)
      · cases looked
      all_goals
        cases looked
        exact .refl
  | _ =>
      cases looked
      exact .refl

omit coherent reached in
/-- The only statements that cannot be looked at are calls of unknown kind. -/
theorem lookAt_eq_error {state last : State} {stmt : Stmt} {index : Nat}
    {fault : Fault}
    (failed : setup.lookAt method state stmt index = .error (fault, last)) :
    ∃ call, stmt = .invoke call ∧ call.kind.isKnown = false ∧
      fault = .unexpectedCallKind call.kind ⟨method.val, index⟩ := by
  cases stmt with
  | invoke call =>
      simp only [lookAt] at failed
      split at failed
      · cases failed
      · rename_i code unknown
        cases failed
        exact ⟨call, rfl, by rw [unknown]; rfl, by rw [unknown]⟩
      all_goals cases failed
  | _ => cases failed

omit coherent reached in
theorem isKnown_of_lookAt {state next : State} {call : Invoke} {index : Nat}
    (looked : setup.lookAt method state (.invoke call) index = .ok next) :
    call.kind.isKnown = true := by
  simp only [lookAt] at looked
  split at looked
  · rename_i isStatic
    rw [isStatic]
    rfl
  · cases looked
  all_goals
    rename_i kind
    rw [kind]
    rfl

/-- Each rule about reachable methods is the effect of a statement. -/
theorem lookAt_meets {conclusion : Fact}
    (rule : Inference setup entries [.reached method] conclusion) :
    ∃ index stmt, setup.program.stmt? ⟨method.val, index⟩ = some stmt ∧
      ∀ {state next : State}, state.Proper setup entries →
        setup.lookAt method state stmt index = .ok next →
        next.Meets conclusion := by
  cases rule with
  | allocate here =>
      refine ⟨_, _, here, fun proper looked => ?_⟩
      cases looked
      exact State.meets_push _ _ _ (List.mem_singleton.mpr rfl)
  | copy here =>
      refine ⟨_, _, here, fun proper looked => ?_⟩
      cases looked
      exact Or.inl (State.holds_addFlow proper.supported.within ..)
  | loadStatic here =>
      refine ⟨_, _, here, fun proper looked => ?_⟩
      cases looked
      exact Or.inl (State.holds_addFlow proper.supported.within ..)
  | storeStatic here =>
      refine ⟨_, _, here, fun proper looked => ?_⟩
      cases looked
      exact Or.inl (State.holds_addFlow proper.supported.within ..)
  | callStatic here isStatic found =>
      refine ⟨_, _, here, fun proper looked => ?_⟩
      simp only [lookAt, isStatic] at looked
      cases looked
      exact Or.inl (callStatic_holds coherent reached here isStatic found
        proper)

/-- All calls in a method are of known kinds. -/
def Knows (setup : Setup) (method : MethodId) : Prop :=
  ∀ index call, setup.program.stmt? ⟨method, index⟩ = some (.invoke call) →
    call.kind.isKnown = true

/-- The statements in a list stand at consecutive positions of a method. -/
def Stand (setup : Setup) (method : MethodId) (start : Nat)
    (stmts : List Stmt) : Prop :=
  ∀ offset stmt, stmts[offset]? = some stmt →
    setup.program.stmt? ⟨method, start + offset⟩ = some stmt

omit coherent reached in
theorem Stand.tail {start : Nat} {stmt : Stmt} {rest : List Stmt}
    (stand : setup.Stand method.val start (stmt :: rest)) :
    setup.Stand method.val (start + 1) rest := by
  intro offset other found
  have there := stand (offset + 1) other found
  rwa [Nat.add_comm offset 1, ← Nat.add_assoc] at there

omit coherent reached in
theorem stand_bodyOf : setup.Stand method.val 0 (setup.bodyOf method.val) := by
  intro offset stmt found
  rw [Nat.zero_add, ← setup.getElem?_bodyOf]
  exact found

theorem lookAtAll_moves {stmts : List Stmt} {start : Nat}
    (stand : setup.Stand method.val start stmts) {state next : State}
    (proper : state.Proper setup entries)
    (looked : setup.lookAtAll method start stmts state = .ok next) :
    Moves setup entries stmts.length state next := by
  induction stmts generalizing start state with
  | nil =>
      cases looked
      exact .refl
  | cons stmt rest ih =>
      rw [lookAtAll, Checked.bind_eq_ok] at looked
      obtain ⟨middle, first, others⟩ := looked
      have head := lookAt_moves coherent reached (stand 0 stmt rfl) proper
        first
      have tail := ih stand.tail (proper.moves head) others
      refine (head.trans tail).weaken (Nat.le_of_eq ?_)
      rw [List.length_cons, Nat.add_comm]

/-- What one statement achieves, looking at the others keeps. -/
theorem lookAtAll_meets {stmts : List Stmt} {start offset : Nat}
    {stmt : Stmt} {fact : Fact}
    (stand : setup.Stand method.val start stmts)
    (found : stmts[offset]? = some stmt)
    (meets : ∀ {state next : State}, state.Proper setup entries →
      setup.lookAt method state stmt (start + offset) = .ok next →
      next.Meets fact)
    {state next : State} (proper : state.Proper setup entries)
    (looked : setup.lookAtAll method start stmts state = .ok next) :
    next.Meets fact := by
  induction stmts generalizing start offset state with
  | nil => cases found
  | cons first rest ih =>
      rw [lookAtAll, Checked.bind_eq_ok] at looked
      obtain ⟨middle, here, others⟩ := looked
      have head := proper.moves
        (lookAt_moves coherent reached (stand 0 first rfl) proper here)
      cases offset with
      | zero =>
          cases found
          exact (lookAtAll_moves coherent reached stand.tail head
            others).growth.meets (meets proper here)
      | succ offset =>
          refine ih stand.tail found (fun proper looked => ?_) head others
          rw [Nat.add_assoc, Nat.add_comm 1 offset] at looked
          exact meets proper looked

omit coherent reached in
theorem lookAtAll_eq_error {stmts : List Stmt} {start : Nat}
    {state last : State} {fault : Fault}
    (failed : setup.lookAtAll method start stmts state =
      .error (fault, last)) :
    ∃ offset call, stmts[offset]? = some (.invoke call) ∧
      call.kind.isKnown = false ∧
      fault = .unexpectedCallKind call.kind ⟨method.val, start + offset⟩ := by
  induction stmts generalizing start state with
  | nil => cases failed
  | cons stmt rest ih =>
      rw [lookAtAll, Checked.bind_eq_error] at failed
      rcases failed with here | ⟨middle, _, later⟩
      · obtain ⟨call, rfl, unknown, named⟩ := lookAt_eq_error here
        exact ⟨0, call, rfl, unknown, named⟩
      · obtain ⟨offset, call, found, unknown, named⟩ := ih later
        refine ⟨offset + 1, call, found, unknown, ?_⟩
        rw [named, Nat.add_assoc, Nat.add_comm 1 offset]

omit coherent reached in
theorem isKnown_of_lookAtAll {stmts : List Stmt} {start : Nat}
    {state next : State}
    (looked : setup.lookAtAll method start stmts state = .ok next)
    {call : Invoke} (member : .invoke call ∈ stmts) :
    call.kind.isKnown = true := by
  induction stmts generalizing start state with
  | nil => cases member
  | cons stmt rest ih =>
      rw [lookAtAll, Checked.bind_eq_ok] at looked
      obtain ⟨middle, here, others⟩ := looked
      rcases List.mem_cons.mp member with rfl | later
      · exact isKnown_of_lookAt here
      · exact ih others later

omit coherent reached in
/-- Methods whose statements have been looked at have known kinds of calls. -/
theorem knows_of_lookAtAll {state next : State}
    (looked : setup.lookAtAll method 0 (setup.bodyOf method.val) state =
      .ok next) : setup.Knows method.val := by
  intro index call here
  rw [← setup.getElem?_bodyOf] at here
  exact isKnown_of_lookAtAll looked (List.mem_of_getElem? here)

/-- All that follows from a method being reachable is met once its statements
have been looked at. -/
theorem look_meets {state next : State} (proper : state.Proper setup entries)
    (looked : setup.lookAtAll method 0 (setup.bodyOf method.val) state =
      .ok next)
    {conclusion : Fact}
    (rule : Inference setup entries [.reached method] conclusion) :
    next.Meets conclusion := by
  obtain ⟨index, stmt, here, meets⟩ := lookAt_meets coherent reached rule
  rw [← setup.getElem?_bodyOf] at here
  refine lookAtAll_meets coherent reached stand_bodyOf here
    (fun proper looked => ?_) proper looked
  rw [Nat.zero_add] at looked
  exact meets proper looked

end Look

/-! ## Using objects -/

section Use

variable (coherent : setup.program.Coherent) {method : ContextMethod}
  (reached : Derivable setup entries (.reached method)) {obj : ContextObj}
  (ordinary : ContextObj.isTaint obj = false)

include coherent reached ordinary

theorem use_moves {index : Nat} {stmt : Stmt} {use : Use} {base : String}
    (here : setup.program.stmt? ⟨method.val, index⟩ = some stmt)
    (used : stmt.use? = some (use, base))
    (points : Derivable setup entries (.points (method.pointer base) obj))
    {state : State} (proper : state.Proper setup entries)
    (numbered : obj ∈ state.objects.items) :
    Moves setup entries 1 state
      (setup.use method.context method.val obj stmt index state) := by
  have flow : ∀ {source target : Pointer},
      Inference setup entries
        [.reached method, .points (method.pointer base) obj]
        (.flows source target) →
      Moves setup entries 1 state (state.addFlow source target) :=
    fun rule => .ofEffects ((State.addFlow_effects
      (.of_two rule reached points) proper).weaken (Nat.zero_le 1))
  cases stmt with
  | loadField target base field =>
      cases used
      exact flow (.loadField here ordinary)
  | storeField base field source =>
      cases used
      exact flow (.storeField here ordinary)
  | loadArray target base =>
      cases used
      exact flow (.loadArray here ordinary)
  | storeArray base source =>
      cases used
      exact flow (.storeArray here ordinary)
  | invoke call =>
      obtain ⟨receiver, based, same⟩ := Option.map_eq_some_iff.mp used
      cases same
      exact callInstance_moves coherent reached here based ordinary points
        proper numbered
  | _ => cases used

omit reached in
/-- Each rule about an object that a variable points to is the effect of a
statement that has the variable as its base. -/
theorem use_meets {target : Pointer} {conclusion : Fact}
    (rule : Inference setup entries
      [.reached method, .points target obj] conclusion) :
    ∃ base index stmt use, target = method.pointer base ∧
      setup.program.stmt? ⟨method.val, index⟩ = some stmt ∧
      stmt.use? = some (use, base) ∧
      ∀ {state : State}, state.Proper setup entries →
        Derivable setup entries (.points target obj) →
        obj ∈ state.objects.items →
        (setup.use method.context method.val obj stmt index state).Meets
          conclusion := by
  cases rule with
  | loadField here _ =>
      exact ⟨_, _, _, _, rfl, here, rfl, fun proper _ _ =>
        Or.inl (State.holds_addFlow proper.supported.within ..)⟩
  | storeField here _ =>
      exact ⟨_, _, _, _, rfl, here, rfl, fun proper _ _ =>
        Or.inl (State.holds_addFlow proper.supported.within ..)⟩
  | loadArray here _ =>
      exact ⟨_, _, _, _, rfl, here, rfl, fun proper _ _ =>
        Or.inl (State.holds_addFlow proper.supported.within ..)⟩
  | storeArray here _ =>
      exact ⟨_, _, _, _, rfl, here, rfl, fun proper _ _ =>
        Or.inl (State.holds_addFlow proper.supported.within ..)⟩
  | callInstance here based _ found =>
      refine ⟨_, _, _, .invoke, rfl, here, by rw [Stmt.use?, based]; rfl,
        fun proper points numbered => Or.inl ?_⟩
      exact (callInstance_meets coherent points.founded here based ordinary
        points found proper numbered).1
  | bindThis here based _ found bound =>
      refine ⟨_, _, _, .invoke, rfl, here, by rw [Stmt.use?, based]; rfl,
        fun proper points numbered => ?_⟩
      exact (callInstance_meets coherent points.founded here based ordinary
        points found proper numbered).2 bound

end Use

theorem stays_known {obj : ContextObj} {sent : Nat} {before after : State}
    (known : before.Proper setup entries ∧ obj ∈ before.objects.items)
    (moves : Moves setup entries sent before after) :
    after.Proper setup entries ∧ obj ∈ after.objects.items :=
  ⟨known.1.moves moves, moves.growth.objects.subset known.2⟩

section UseAll

variable (coherent : setup.program.Coherent) {entry : ContextVar}
  {obj : ContextObj}
  (points : Derivable setup entries (.points (.var entry) obj))
  (ordinary : ContextObj.isTaint obj = false)

include coherent points ordinary

/-- One of the statements that use a variable. -/
theorem useAt_moves {method : Method} {uses : Local} {index : Nat}
    (found : setup.program.method? entry.val.method = some method)
    (listed : method.local? entry.val.name = some uses)
    (member : index ∈ uses.uses) {state : State}
    (known : state.Proper setup entries ∧ obj ∈ state.objects.items) :
    Moves setup entries 1 state
      (match method.body[index]? with
      | some stmt =>
          setup.use entry.context entry.val.method obj stmt index state
      | none => state) := by
  obtain ⟨use, recorded⟩ := (uses.mem_uses index).mp member
  obtain ⟨stmt, here, used⟩ :=
    ((coherent.method found).1.mem_positions listed).mp recorded
  simp only [here]
  rw [← Program.stmt?_of_method? found] at here
  have reached : Derivable setup entries
      (.reached ⟨entry.context, entry.val.method⟩) := points.founded
  exact use_moves coherent reached ordinary here used points known.1 known.2

theorem useAll_moves {state : State}
    (known : state.Proper setup entries ∧ obj ∈ state.objects.items) :
    Moves setup entries (5 * (setup.bodyOf entry.val.method).length) state
      (setup.useAll entry state obj) := by
  unfold useAll
  split
  · exact .refl
  · rename_i method found
    split
    · exact .refl
    · rename_i uses listed
      have moves := Moves.foldl stays_known (fun index member _ known =>
        useAt_moves coherent points ordinary found listed member known) known
      apply moves.weaken
      rw [Nat.one_mul, bodyOf, found]
      exact (coherent.method found).1.length_uses_le listed

/-- All that follows from a variable pointing to an object is met once the
object has been used. -/
theorem useAll_meets {state : State}
    (known : state.Proper setup entries ∧ obj ∈ state.objects.items)
    {method : ContextMethod} {conclusion : Fact}
    (rule : Inference setup entries
      [.reached method, .points (.var entry) obj] conclusion) :
    (setup.useAll entry state obj).Meets conclusion := by
  obtain ⟨base, index, stmt, use, same, here, used, meets⟩ :=
    use_meets coherent ordinary rule
  cases same
  obtain ⟨declared, found, inBody⟩ := Option.bind_eq_some_iff.mp here
  have recorded := (coherent.method found).1
  obtain ⟨uses, listed⟩ := Method.exists_local?
    ((recorded.allowed stmt (List.mem_of_getElem? inBody)).known base
      (Stmt.mem_names_of_use used))
  have member : index ∈ uses.uses := (uses.mem_uses index).mpr
    ⟨use, (recorded.mem_positions listed).mpr ⟨stmt, inBody, used⟩⟩
  simp only [useAll, found, listed]
  refine Moves.foldl_meets stays_known (fun index member _ known =>
    useAt_moves coherent points ordinary found listed member known) known
    member fun known => ?_
  simp only [inBody]
  exact meets known.1 points known.2

end UseAll

end Setup

end PointsTo
