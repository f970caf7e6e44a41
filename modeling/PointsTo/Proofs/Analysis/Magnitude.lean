import Mathlib.Tactic.Ring
import PointsTo.Proofs.Analysis.Potential

/-!
# How large the potential can be

All numbers that go into the potential of a state are bounded by powers of one
base, so that it stays below `2 ^ setup.magnitude state` where the solver
starts.
-/

namespace PointsTo

variable {setup : Setup} {entries : List MethodId}

/-! ## Powers of a base -/

section Powers

variable {base first second low high : Nat}

theorem le_pow_of_le (positive : 0 < base) (bounded : first ≤ base ^ low)
    (less : low ≤ high) : first ≤ base ^ high :=
  Nat.le_trans bounded (Nat.pow_le_pow_right positive less)

/-- Exponents of factors are added. -/
theorem mul_le_pow {left right : Nat} (boundedLeft : first ≤ base ^ left)
    (boundedRight : second ≤ base ^ right) :
    first * second ≤ base ^ (left + right) := by
  rw [Nat.pow_add]
  exact Nat.mul_le_mul boundedLeft boundedRight

/-- A sum costs one more power of the base, which is at least four. -/
theorem add_le_pow (large : 4 ≤ base) (boundedFirst : first ≤ base ^ low)
    (boundedSecond : second ≤ base ^ low) :
    first + second ≤ base ^ (low + 1) := by
  have fourfold := Nat.mul_le_mul_left (base ^ low) large
  rw [Nat.pow_succ]
  omega

/-- So does a sum of up to four terms. -/
theorem add_add_add_le_pow {third fourth : Nat} (large : 4 ≤ base)
    (boundedFirst : first ≤ base ^ low) (boundedSecond : second ≤ base ^ low)
    (boundedThird : third ≤ base ^ low)
    (boundedFourth : fourth ≤ base ^ low) :
    first + second + third + fourth ≤ base ^ (low + 1) := by
  have fourfold := Nat.mul_le_mul_left (base ^ low) large
  rw [Nat.pow_succ]
  omega

/-- The base has few binary digits. -/
theorem four_mul_le_two_pow (size : Nat) : 4 * size ≤ 2 ^ (2 * size) := by
  cases size with
  | zero => exact Nat.zero_le _
  | succ size =>
      have doubled := @Nat.lt_two_pow_self size
      have more := Nat.pow_le_pow_right (Nat.two_pos)
        (show size ≤ 2 * size by omega)
      rw [Nat.mul_succ 2, Nat.pow_add]
      omega

end Powers

/-! ## Counts -/

namespace Setup

/-- The number of taint rules. -/
def ruleCount (setup : Setup) : Nat :=
  (setup.rules.map Rules.weight).getD 0

/-- Each rule mentions at most one type of taint. -/
theorem length_taintTypes_le : setup.taintTypes.length ≤ setup.ruleCount := by
  unfold taintTypes ruleCount
  cases setup.rules with
  | none => exact Nat.le_refl 0
  | some rules =>
      simp only [List.length_append, List.length_map, Option.map_some,
        Option.getD_some, Rules.weight]
      omega

theorem length_sinkIndices_le :
    setup.sinkIndices.length ≤ setup.ruleCount := by
  unfold sinkIndices ruleCount
  cases setup.rules with
  | none => exact Nat.le_refl 0
  | some rules =>
      simp only [List.length_map, Option.map_some, Option.getD_some,
        Rules.weight]
      omega

theorem sourceCount_le : setup.sourceCount ≤ setup.ruleCount := by
  unfold sourceCount ruleCount
  cases setup.rules with
  | none => exact Nat.le_refl 0
  | some rules =>
      simp only [Option.map_some, Option.getD_some, Rules.weight]
      omega

section Counts

variable {base : Nat}
  (parts : 4 * (setup.program.weight + setup.ruleCount +
    entries.dedup.length + 1) ≤ base)

include parts

theorem large_base : 4 ≤ base := by omega

/-- Anything that there are no more of than parts of the program and of the
rules is counted by the base itself. -/
theorem part_le {count : Nat}
    (few : count ≤ setup.program.weight + setup.ruleCount +
      entries.dedup.length + 1) : count ≤ base ^ 1 := by
  rw [Nat.pow_one]
  omega

/-- The parts of the program and of the rules. -/
theorem parts_le :
    setup.program.sites.length ≤ base ^ 1 ∧
      setup.program.vars.length ≤ base ^ 1 ∧
      setup.program.allocs.length ≤ base ^ 1 ∧
      setup.program.accessed.length ≤ base ^ 1 ∧
      setup.program.invocations.length ≤ base ^ 1 ∧
      setup.taintTypes.length ≤ base ^ 1 ∧
      setup.sinkIndices.length ≤ base ^ 1 := by
  have sites := setup.program.length_sites_le
  have vars := setup.program.length_vars_le
  have allocs := setup.program.length_allocs_le
  have accessed := setup.program.length_accessed_le
  have invocations := setup.program.length_invocations_le
  have types := setup.length_taintTypes_le
  have indices := setup.length_sinkIndices_le
  refine ⟨?_, ?_, ?_, ?_, ?_, ?_, ?_⟩ <;>
    exact part_le parts (by omega)

/-- Contexts are lists of bounded length over the sites and allocations of the
program. -/
theorem length_contexts_le :
    setup.contexts.length ≤ base ^ setup.selector.bound := by
  refine Nat.le_trans (length_listsUpTo_le ..) (Nat.pow_le_pow_left ?_ _)
  have sites := setup.program.length_sites_le
  have allocs := setup.program.length_allocs_le
  simp only [elems, List.length_append, List.length_map]
  omega

theorem length_contextMethods_le :
    (setup.contextMethods entries).length ≤
      base ^ (setup.selector.bound + 1) := by
  rw [contextMethods, List.length_map, List.length_product]
  refine mul_le_pow (length_contexts_le parts) (part_le parts ?_)
  have methods := setup.program.length_methods_le
  rw [List.length_append, List.length_map]
  omega

/-- There is an object for each context and allocation, and for each call and
type of taint. -/
theorem length_contextObjs_le :
    setup.contextObjs.length ≤ base ^ (setup.selector.bound + 3) := by
  have large := large_base parts
  obtain ⟨sites, _, allocs, _, _, types, _⟩ := parts_le parts
  have ordinary := mul_le_pow (length_contexts_le parts) allocs
  have taint := mul_le_pow sites types
  rw [contextObjs, List.length_append, List.length_map, List.length_map,
    List.length_product, List.length_product]
  exact add_le_pow large (le_pow_of_le (by omega) ordinary (by omega))
    (le_pow_of_le (by omega) taint (by omega))

/-- The largest part are the fields of objects. -/
theorem length_pointers_le :
    setup.pointers.length ≤ base ^ (setup.selector.bound + 5) := by
  have large := large_base parts
  obtain ⟨_, vars, _, fields, _⟩ := parts_le parts
  have objs := length_contextObjs_le parts
  simp only [pointers, List.length_append, List.length_map,
    List.length_product]
  refine add_add_add_le_pow large ?_ ?_ ?_ ?_
  · exact le_pow_of_le (by omega) (mul_le_pow (length_contexts_le parts) vars)
      (by omega)
  · exact le_pow_of_le (by omega) (mul_le_pow objs fields) (by omega)
  · exact le_pow_of_le (by omega) objs (by omega)
  · exact le_pow_of_le (by omega) fields (by omega)

/-- A call edge is given by a call under a context and a method under another
one. -/
theorem length_callEdges_le :
    (setup.callEdges entries).length ≤
      base ^ (2 * setup.selector.bound + 2) := by
  have large := large_base parts
  obtain ⟨_, _, _, _, invocations, _⟩ := parts_le parts
  rw [callEdges, List.length_map, List.length_product, List.length_product]
  exact le_pow_of_le (by omega)
    (mul_le_pow (mul_le_pow (length_contexts_le parts) invocations)
      (length_contextMethods_le parts)) (by omega)

/-- The largest part are the taint edges, pairs of pointers with a type. -/
theorem length_facts_le :
    (setup.facts entries).length ≤
      base ^ (2 * setup.selector.bound + 14) := by
  have large := large_base parts
  obtain ⟨sites, _, _, _, _, types, indices⟩ := parts_le parts
  have pointers := length_pointers_le parts
  have pairs := mul_le_pow pointers pointers
  simp only [facts, List.length_append, List.length_map, List.length_product]
  refine add_le_pow large (add_le_pow large
    (add_add_add_le_pow large ?_ ?_ ?_ ?_) ?_) ?_
  · exact le_pow_of_le (by omega) (length_contextMethods_le parts)
      (by omega)
  · exact le_pow_of_le (by omega) (length_callEdges_le parts) (by omega)
  · exact le_pow_of_le (by omega) pairs (by omega)
  · exact le_pow_of_le (by omega)
      (mul_le_pow pointers (length_contextObjs_le parts)) (by omega)
  · exact le_pow_of_le (by omega) (mul_le_pow pairs types) (by omega)
  · exact le_pow_of_le (by omega) (mul_le_pow
      (mul_le_pow (length_contexts_le parts) sites) indices) (by omega)

/-- What a missing fact weighs is hardly more than the number of facts. -/
theorem stride_le :
    setup.stride entries ≤ base ^ (2 * setup.selector.bound + 15) := by
  have large := large_base parts
  have facts := length_facts_le parts
  have few : 6 * setup.program.weight + setup.sourceCount + 2 ≤
      base ^ 1 * base ^ 1 := by
    have sources := setup.sourceCount_le
    have twice : 4 * base ≤ base * base := Nat.mul_le_mul_right base large
    rw [Nat.pow_one]
    omega
  rw [← Nat.pow_add] at few
  have summed : (setup.facts entries).length + (setup.facts entries).length +
      (6 * setup.program.weight + setup.sourceCount + 2) + 0 ≤
      base ^ (2 * setup.selector.bound + 14 + 1) :=
    add_add_add_le_pow large facts facts
      (le_pow_of_le (by omega) few (by omega)) (Nat.zero_le _)
  rw [stride]
  refine Nat.le_trans (Nat.le_of_eq ?_) summed
  omega

/-- The potential is bounded by the number of facts times the stride, as long as
the queues are short. -/
theorem potential_add_one_le {state : State}
    (waiting : state.pending.size ≤ base)
    (queued : state.worklist.size ≤ base) :
    setup.potential entries state + 1 ≤
      base ^ (4 * setup.selector.bound + 30) := by
  have large := large_base parts
  have one : 1 ≤ base ^ 1 := by
    rw [Nat.pow_one]
    omega
  have missing := Nat.le_trans (setup.missing_le_length entries state)
    (length_facts_le parts)
  have pending : (setup.program.weight + 1) * state.pending.size ≤
      base ^ (1 + 1) := by
    rw [← Nat.pow_one base] at waiting
    exact mul_le_pow (part_le parts (by omega)) waiting
  rw [← Nat.pow_one base] at queued
  rw [potential]
  exact add_add_add_le_pow large
    (le_pow_of_le (by omega) (mul_le_pow (stride_le parts) missing) (by omega))
    (le_pow_of_le (by omega) queued (by omega))
    (le_pow_of_le (by omega) pending (by omega))
    (le_pow_of_le (by omega) one (by omega))

end Counts

/-! ## Where the solver starts -/

theorem length_entries_le {state : State}
    (entered : setup.enter entries {} = .ok state) :
    entries.dedup.length ≤ state.methods.size := by
  have numbered : (entries.dedup.map fun id => (⟨[], id⟩ : ContextMethod)) ⊆
      state.methods.items := by
    intro method member
    obtain ⟨id, listed, rfl⟩ := List.mem_map.mp member
    exact (enter_holds (fun _ given => given) entered
      (List.mem_dedup.mp listed)).2
  have distinct : (entries.dedup.map fun id =>
      (⟨[], id⟩ : ContextMethod)).Nodup :=
    (List.nodup_dedup entries).map fun _ _ same => (InContext.mk.inj same).2
  have shorter := (List.subperm_of_subset distinct numbered).length_le
  rwa [List.length_map, Numbering.items, List.length_map] at shorter

/-- The number of steps that the solver allows itself is never used up. -/
theorem potential_add_one_lt {state : State}
    (entered : setup.enter entries {} = .ok state) :
    setup.potential entries state + 1 < 2 ^ setup.magnitude state := by
  have few := length_entries_le entered
  let size := setup.program.weight + setup.ruleCount + state.weight + 1
  have exponential : 4 * size ≤ 2 ^ (2 * size) := four_mul_le_two_pow size
  have weight : state.methods.size + state.pending.size +
      state.worklist.size ≤ state.weight := by
    rw [State.weight]
    omega
  have parts : 4 * (setup.program.weight + setup.ruleCount +
      entries.dedup.length + 1) ≤ 2 ^ (2 * size) := by omega
  have bounded := potential_add_one_le parts
    (show state.pending.size ≤ _ by omega)
    (show state.worklist.size ≤ _ by omega)
  rw [← Nat.pow_mul] at bounded
  have exponents : 2 * size * (4 * setup.selector.bound + 30) <
      setup.magnitude state := by
    have scaled : size * (8 * setup.selector.bound + 60) <
        size * (32 * setup.selector.bound + 64) :=
      Nat.mul_lt_mul_of_pos_left (by omega) (Nat.succ_pos _)
    calc
      2 * size * (4 * setup.selector.bound + 30) =
          size * (8 * setup.selector.bound + 60) := by ring
      _ < size * (32 * setup.selector.bound + 64) := scaled
      _ = 32 * size * (setup.selector.bound + 2) := by ring
  exact Nat.lt_of_le_of_lt bounded
    (Nat.pow_lt_pow_right Nat.one_lt_two exponents)

end Setup

end PointsTo
