/-!
# Computations that may be refused

Builders, the loader and the solver are sequences of steps each of which may
be refused.  A sequence that goes through is taken apart with the lemmas
below, and a property that every step keeps is kept by a whole fold.

`Checked.Ensures` says at once what a computation returns and why it may be
refused.  It is computed along the computation, from its end to its beginning.
-/

namespace PointsTo.Checked

variable {ε δ α β : Type}

/-- Two steps succeed if both of them do. -/
theorem bind_eq_ok {first : Except ε α} {next : α → Except ε β} {value : β} :
    (first >>= next) = .ok value ↔
      ∃ middle, first = .ok middle ∧ next middle = .ok value := by
  cases first with
  | error problem => simp [bind, Except.bind]
  | ok middle => simp [bind, Except.bind]

/-- Two steps are refused by the first one or by the second one. -/
theorem bind_eq_error {first : Except ε α} {next : α → Except ε β}
    {problem : ε} :
    (first >>= next) = .error problem ↔
      first = .error problem ∨
        ∃ middle, first = .ok middle ∧ next middle = .error problem := by
  cases first with
  | error problem => simp [bind, Except.bind]
  | ok middle => simp [bind, Except.bind]

theorem map_eq_ok {change : α → β} {computed : Except ε α} {value : β} :
    computed.map change = .ok value ↔
      ∃ original, computed = .ok original ∧ change original = value := by
  cases computed <;> simp [Except.map]

/-- The wording of refusals has no influence on success. -/
@[simp]
theorem mapError_eq_ok {wording : ε → δ} {computed : Except ε α} {value : α} :
    computed.mapError wording = .ok value ↔ computed = .ok value := by
  cases computed with
  | error problem => exact ⟨nofun, nofun⟩
  | ok found =>
      constructor
      · rintro ⟨⟩
        rfl
      · rintro ⟨⟩
        rfl

@[simp]
theorem pure_eq_ok {value other : α} :
    (pure value : Except ε α) = .ok other ↔ value = other := by
  simp [pure, Except.pure]

@[simp]
theorem throw_eq_ok {problem : ε} {value : α} :
    (throw problem : Except ε α) = .ok value ↔ False := by
  simp [throw, throwThe, MonadExceptOf.throw]

/-- Nothing comes after a refusal. -/
theorem throw_bind_ne_ok {problem : ε} {next : α → Except ε β} {value : β} :
    (throw problem >>= next) ≠ .ok value := by
  simp [throw, throwThe, MonadExceptOf.throw, bind, Except.bind]

/-- A property that every step of a fold keeps holds at its end. -/
theorem foldlM_keeps (keeps : β → Prop) {step : β → α → Except ε β}
    {items : List α} {start final : β}
    (each : ∀ item ∈ items, ∀ {before after : β},
      keeps before → step before item = .ok after → keeps after)
    (initial : keeps start)
    (folded : items.foldlM step start = .ok final) :
    keeps final := by
  induction items generalizing start with
  | nil =>
      simp only [List.foldlM_nil, pure_eq_ok] at folded
      exact folded ▸ initial
  | cons item rest ih =>
      rw [List.foldlM_cons, bind_eq_ok] at folded
      obtain ⟨middle, stepped, folded⟩ := folded
      have kept : keeps middle :=
        each item (List.mem_cons_self ..) initial stepped
      exact ih (fun other member => each other
        (List.mem_cons_of_mem _ member)) kept folded

/-! ## Results and refusals -/

/-- The result of a computation has a property, or the reason why it is refused
has one. -/
inductive Ensures (refused : ε → Prop) (returned : α → Prop) :
    Except ε α → Prop where
  | error {problem : ε} (reason : refused problem) :
      Ensures refused returned (.error problem)
  | ok {value : α} (result : returned value) :
      Ensures refused returned (.ok value)

section Ensures

variable {refused : ε → Prop} {returned : α → Prop}

@[simp]
theorem ensures_error {problem : ε} :
    Ensures refused returned (.error problem) ↔ refused problem := by
  constructor
  · intro ensures
    cases ensures with
    | error reason => exact reason
  · exact .error

@[simp]
theorem ensures_ok {value : α} :
    Ensures refused returned (.ok value) ↔ returned value := by
  constructor
  · intro ensures
    cases ensures with
    | ok result => exact result
  · exact .ok

@[simp]
theorem ensures_pure {value : α} :
    Ensures refused returned (pure value) ↔ returned value :=
  ensures_ok

/-- The first step has to ensure what the second one needs. -/
@[simp]
theorem ensures_bind {first : Except ε β} {next : β → Except ε α} :
    Ensures refused returned (first >>= next) ↔
      Ensures refused (fun middle => Ensures refused returned (next middle))
        first := by
  cases first <;> simp [bind, Except.bind]

@[simp]
theorem ensures_map {change : β → α} {computed : Except ε β} :
    Ensures refused returned (change <$> computed) ↔
      Ensures refused (fun value => returned (change value)) computed := by
  cases computed <;> simp [Functor.map, Except.map]

/-- A refusal is judged by its final wording. -/
@[simp]
theorem ensures_mapError {wording : δ → ε} {computed : Except δ α} :
    Ensures refused returned (computed.mapError wording) ↔
      Ensures (fun problem => refused (wording problem)) returned
        computed := by
  cases computed with
  | error problem =>
      show Ensures refused returned (.error (wording problem)) ↔ _
      rw [ensures_error, ensures_error]
  | ok value =>
      show Ensures refused returned (.ok value) ↔ _
      rw [ensures_ok, ensures_ok]

@[simp]
theorem ensures_ite {condition : Prop} [Decidable condition]
    {first second : Except ε α} :
    Ensures refused returned (if condition then first else second) ↔
      (condition → Ensures refused returned first) ∧
        (¬ condition → Ensures refused returned second) := by
  split <;> simp_all

namespace Ensures

/-- Less may be said of the values. -/
theorem mono {weaker : α → Prop} {computed : Except ε α}
    (ensures : Ensures refused returned computed)
    (implies : ∀ value, returned value → weaker value) :
    Ensures refused weaker computed := by
  cases ensures with
  | error reason => exact .error reason
  | ok result => exact .ok (implies _ result)

/-- Less may be said of the refusals. -/
theorem imp {weaker : ε → Prop} {computed : Except ε α}
    (ensures : Ensures refused returned computed)
    (implies : ∀ problem, refused problem → weaker problem) :
    Ensures weaker returned computed := by
  cases ensures with
  | error reason => exact .error (implies _ reason)
  | ok result => exact .ok result

theorem bind {middle : β → Prop} {first : Except ε β}
    {next : β → Except ε α} (ensures : Ensures refused middle first)
    (later : ∀ value, middle value → Ensures refused returned (next value)) :
    Ensures refused returned (first >>= next) :=
  ensures_bind.mpr (ensures.mono later)

/-- What each step of a fold carries over holds at its end.  It may depend on
the items that have been seen. -/
theorem foldlM (holds : List β → α → Prop) {step : α → β → Except ε α}
    {items : List β} {start : α}
    (each : ∀ seen, ∀ item ∈ items, ∀ before, holds seen before →
      Ensures refused (holds (seen ++ [item])) (step before item))
    (initial : holds [] start) :
    Ensures refused (holds items) (items.foldlM step start) := by
  suffices general : ∀ seen, holds seen start →
      Ensures refused (holds (seen ++ items)) (items.foldlM step start) from
    general [] initial
  clear initial
  intro seen held
  -- On the items that are left; what has been seen grows with each step.
  induction items generalizing seen start with
  | nil => simpa using held
  | cons item rest ih =>
      rw [List.foldlM_cons, List.append_cons]
      refine (each seen item (.head _) start held).bind ?_
      exact fun middle kept => ih
        (fun seen other member => each seen other (.tail _ member)) _ kept

theorem foldlM_keeps {step : α → β → Except ε α} {items : List β} {start : α}
    (each : ∀ item ∈ items, ∀ before, returned before →
      Ensures refused returned (step before item))
    (initial : returned start) :
    Ensures refused returned (items.foldlM step start) :=
  foldlM (fun _ => returned) (fun _ => each) initial

end Ensures

end Ensures

end PointsTo.Checked
