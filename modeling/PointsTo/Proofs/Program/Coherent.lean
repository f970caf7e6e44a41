import Mathlib.Data.List.Nodup
import PointsTo.Proofs.Program.Meaning

/-!
# Coherent methods and programs

A method is coherent when what it records agrees with its body: the positions
kept with each variable are exactly those of the statements that use the
variable as their base, the recorded return values are those of the `return`
statements, and statements mention only variables of the method.  A program is
coherent when its classes and methods can be told apart by name and all its
methods are coherent.  The building steps keep both.
-/

namespace PointsTo

/-- In a list with distinct keys, looking for a key finds its only holder. -/
theorem find?_key_eq_some_iff {α κ : Type} [DecidableEq κ] {key : α → κ}
    {items : List α} (distinct : (items.map key).Nodup) {wanted : κ}
    {item : α} :
    items.find? (fun other => key other = wanted) = some item ↔
      item ∈ items ∧ key item = wanted := by
  induction items with
  | nil => simp
  | cons first rest ih =>
      simp only [List.map_cons, List.nodup_cons, List.mem_map,
        not_exists, not_and] at distinct
      obtain ⟨fresh, distinct⟩ := distinct
      rw [List.find?_cons]
      by_cases found : key first = wanted
      · simp only [found, decide_true, Option.some.injEq, List.mem_cons]
        constructor
        · rintro rfl
          exact ⟨Or.inl rfl, found⟩
        · rintro ⟨rfl | later, held⟩
          · rfl
          · exact absurd (held.trans found.symm) (fresh item later)
      · simp only [found, decide_false, ih distinct, List.mem_cons]
        constructor
        · rintro ⟨member, held⟩
          exact ⟨Or.inr member, held⟩
        · rintro ⟨rfl | member, held⟩
          · exact absurd held found
          · exact ⟨member, held⟩

/-! ## Positions of uses -/

/-- The positions of the statements that use `base` in a given way. -/
def usesIn (body : List Stmt) (use : Use) (base : String) : List Nat :=
  (body.zipIdx.filter fun entry =>
    entry.1.use? = some (use, base)).map Prod.snd

theorem mem_usesIn {body : List Stmt} {use : Use} {base : String}
    {index : Nat} :
    index ∈ usesIn body use base ↔
      ∃ stmt, body[index]? = some stmt ∧ stmt.use? = some (use, base) := by
  simp [usesIn, List.mem_zipIdx_iff_getElem?]

theorem usesIn_append (body : List Stmt) (stmt : Stmt) (use : Use)
    (base : String) :
    usesIn (body ++ [stmt]) use base =
      usesIn body use base ++
        if stmt.use? = some (use, base) then [body.length] else [] := by
  by_cases used : stmt.use? = some (use, base) <;>
    simp [usesIn, List.zipIdx_append, used]

/-- A variable that no statement mentions is not used. -/
theorem usesIn_eq_nil {body : List Stmt} {base : String}
    (unknown : ∀ stmt ∈ body, base ∉ stmt.names) (use : Use) :
    usesIn body use base = [] := by
  rw [List.eq_nil_iff_forall_not_mem]
  intro index member
  obtain ⟨stmt, here, used⟩ := mem_usesIn.mp member
  exact unknown stmt (List.mem_of_getElem? here)
    (Stmt.mem_names_of_use used)

namespace Method

/-! ## Coherent methods -/

/-- What a method records agrees with its body. -/
structure Coherent (method : Method) : Prop where
  distinct : (method.locals.map Local.name).Nodup
  recorded : ∀ entry ∈ method.locals, ∀ use,
    entry.positions use = usesIn method.body use entry.name
  allowed : ∀ stmt ∈ method.body, method.Allows stmt
  returned : method.returns = method.body.filterMap Stmt.returned?
  params : ∀ name ∈ method.params, method.hasLocal name = true
  this : ∀ name ∈ method.this?, method.hasLocal name = true

/-- A method without statements is coherent if none are recorded. -/
theorem Coherent.ofEmpty {method : Method} (body : method.body = [])
    (returns : method.returns = []) (params : method.params = [])
    (distinct : (method.locals.map Local.name).Nodup)
    (unused : ∀ entry ∈ method.locals, ∀ use, entry.positions use = [])
    (this : ∀ name ∈ method.this?, method.hasLocal name = true) :
    method.Coherent where
  distinct := distinct
  recorded entry member use := by
    rw [unused entry member use, body]
    rfl
  allowed := by simp [body]
  returned := by simp [body, returns]
  params := by simp [params]
  this := this

/-- A variable may become a parameter. -/
theorem Coherent.addParam {method : Method} (coherent : method.Coherent)
    {name : String} (present : method.hasLocal name = true) :
    { method with params := method.params ++ [name] }.Coherent :=
  { coherent with
    allowed := fun stmt member =>
      ⟨(coherent.allowed stmt member).known,
        (coherent.allowed stmt member).balanced⟩
    params := by
      intro other member
      rcases List.mem_append.mp member with old | new
      · exact coherent.params other old
      · rw [List.mem_singleton.mp new]
        exact present }

theorem hasLocal_withLocals (method : Method) (entries : List Local)
    (name : String) (present : method.hasLocal name = true) :
    (method.withLocals entries).hasLocal name = true := by
  rw [hasLocal_iff] at present ⊢
  simp only [withLocals, List.map_append, List.mem_append]
  exact Or.inl present

theorem Allows.withLocals {method : Method} {stmt : Stmt}
    (allowed : method.Allows stmt) (entries : List Local) :
    (method.withLocals entries).Allows stmt :=
  { known := fun name member =>
      hasLocal_withLocals method entries name (allowed.known name member)
    balanced := allowed.balanced }

/-- A new variable is used by no statement. -/
theorem Coherent.withLocal {method : Method} (coherent : method.Coherent)
    {name : String} (type : Option Ty)
    (fresh : ¬ method.hasLocal name = true) :
    (method.withLocals [{ name, type }]).Coherent where
  distinct := by
    rw [hasLocal_iff] at fresh
    simpa [withLocals] using List.Nodup.concat fresh coherent.distinct
  recorded := by
    intro entry member use
    simp only [withLocals, List.mem_append, List.mem_cons,
      List.not_mem_nil, or_false] at member
    rcases member with old | rfl
    · exact coherent.recorded entry old use
    · have unused : usesIn method.body use name = [] := by
        refine usesIn_eq_nil (fun stmt member mentioned => ?_) use
        exact fresh ((coherent.allowed stmt member).known name mentioned)
      cases use <;> exact unused.symm
  allowed := fun stmt member =>
    (coherent.allowed stmt member).withLocals _
  returned := coherent.returned
  params := fun name member =>
    hasLocal_withLocals method _ name (coherent.params name member)
  this := fun name member =>
    hasLocal_withLocals method _ name (coherent.this name member)

/-- A variable is created unless there is one of its name. -/
theorem newVar_eq_ok_iff {method next : Method} {name : String}
    {type : Option Ty} :
    method.newVar name type = .ok next ↔
      ¬ method.hasLocal name = true ∧
        method.withLocals [{ name, type }] = next := by
  unfold newVar
  split
  · simp_all
  · simp_all [withLocals]

theorem Coherent.newVar {method next : Method} (coherent : method.Coherent)
    {name : String} {type : Option Ty}
    (created : method.newVar name type = .ok next) :
    next.Coherent := by
  rcases newVar_eq_ok_iff.mp created with ⟨fresh, rfl⟩
  exact coherent.withLocal type fresh

theorem hasLocal_newVar {method next : Method} {name : String}
    {type : Option Ty} (created : method.newVar name type = .ok next) :
    next.hasLocal name = true := by
  rcases newVar_eq_ok_iff.mp created with ⟨_, rfl⟩
  simp [hasLocal, withLocals]

theorem Coherent.ensureVar {method : Method} (coherent : method.Coherent)
    (name : String) :
    (method.ensureVar name).Coherent := by
  unfold Method.ensureVar
  split
  · exact coherent
  · rename_i fresh
    exact coherent.withLocal none fresh

theorem Coherent.ensureVars {method : Method} (coherent : method.Coherent)
    (names : List String) :
    (method.ensureVars names).Coherent := by
  unfold Method.ensureVars
  induction names generalizing method with
  | nil => exact coherent
  | cons name rest ih => exact ih (coherent.ensureVar name)

theorem Allows.record {method : Method} {stmt : Stmt}
    (allowed : method.Allows stmt) (appended : Stmt) :
    (method.record appended).Allows stmt :=
  { known := fun name member => by
      rw [hasLocal_record]
      exact allowed.known name member
    balanced := allowed.balanced }

/-- The positions after a statement has been recorded. -/
theorem positions_of_mem_record {method : Method} {stmt : Stmt}
    {entry : Local} (member : entry ∈ (method.record stmt).locals) :
    ∃ old ∈ method.locals, old.name = entry.name ∧ ∀ use,
      entry.positions use = old.positions use ++
        if stmt.use? = some (use, entry.name) then [method.body.length]
        else [] := by
  simp only [Method.record, List.mem_map] at member
  obtain ⟨old, member, rfl⟩ := member
  refine ⟨old, member, ?_⟩
  cases used : stmt.use? with
  | none => simp
  | some pair =>
      obtain ⟨noted, base⟩ := pair
      by_cases named : old.name = base
      · subst named
        simp [Local.positions_note]
      · have other : base ≠ old.name := fun same => named same.symm
        simp [named, other]

theorem Coherent.record {method : Method} (coherent : method.Coherent)
    {stmt : Stmt} (allowed : method.Allows stmt) :
    (method.record stmt).Coherent where
  distinct := by
    rw [names_record]
    exact coherent.distinct
  recorded := by
    intro entry member use
    obtain ⟨old, present, named, positions⟩ :=
      positions_of_mem_record member
    rw [positions use, coherent.recorded old present use, named]
    exact (usesIn_append method.body stmt use entry.name).symm
  allowed := by
    intro other member
    rcases List.mem_append.mp member with old | new
    · exact (coherent.allowed other old).record stmt
    · rw [List.mem_singleton.mp new]
      exact allowed.record stmt
  returned := by
    have last : [stmt].filterMap Stmt.returned? =
        stmt.returned?.toList := by
      cases value : stmt.returned? <;> simp [value]
    simp only [Method.record, List.filterMap_append, coherent.returned, last]
  params := fun name member => by
    rw [hasLocal_record]
    exact coherent.params name member
  this := fun name member => by
    rw [hasLocal_record]
    exact coherent.this name member

theorem Coherent.reads {method next : Method} (coherent : method.Coherent)
    (read : Program.Reads method next) :
    next.Coherent := by
  obtain ⟨names, stmt, allowed, rfl⟩ := read
  exact (coherent.ensureVars names).record allowed

/-- The record of a variable lists the statements that use it. -/
theorem Coherent.mem_positions {method : Method} (coherent : method.Coherent)
    {name : String} {entry : Local}
    (found : method.local? name = some entry) {use : Use} {index : Nat} :
    index ∈ entry.positions use ↔
      ∃ stmt, method.body[index]? = some stmt ∧
        stmt.use? = some (use, name) := by
  have member := List.mem_of_find?_eq_some found
  have named : entry.name = name := by simpa using List.find?_some found
  rw [coherent.recorded entry member use, mem_usesIn, named]

theorem exists_local? {method : Method} {name : String}
    (present : method.hasLocal name = true) :
    ∃ entry, method.local? name = some entry := by
  rw [← Option.isSome_iff_exists]
  simpa [local?, hasLocal, List.find?_isSome, List.any_eq_true] using present

theorem Coherent.mem_returns {method : Method} (coherent : method.Coherent)
    {value : String} :
    value ∈ method.returns ↔
      ∃ index : Nat, method.body[index]? = some (.ret (some value)) := by
  rw [coherent.returned, List.mem_filterMap]
  constructor
  · rintro ⟨stmt, member, returned⟩
    obtain ⟨index, here⟩ := List.mem_iff_getElem?.mp member
    cases stmt <;> simp_all [Stmt.returned?]
    exact ⟨index, here⟩
  · rintro ⟨index, here⟩
    exact ⟨_, List.mem_of_getElem? here, rfl⟩

end Method

end PointsTo
