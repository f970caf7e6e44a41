import Mathlib.Order.Lattice.Nat
import PointsTo.Proofs.Analysis.Depths
import PointsTo.Proofs.Analysis.Recursion

/-!
# Questions without contexts agree with questions under contexts

What a variable points to under one context is looked up in the store.  What it
points to under any context is collected from a list of variables that was made
before the taint flows were collected.  Both ways lead to the same objects, and
forgetting contexts loses nothing else: the objects and callees without contexts
are those under contexts, once each, in the order in which they were met first.
-/

namespace PointsTo

variable {setup : Setup} {entries : List MethodId}

/-! ## Projections -/

section Projections

variable {α β : Type}

/-- The ranks of the items that have a value as their image. -/
def ranks (rank : α → Nat) (image : α → β) (items : Set α) (value : β) :
    Set Nat :=
  { number | ∃ item ∈ items, image item = value ∧ rank item = number }

/-- The values are the images of the items, once each, in the order of the
lowest ranks of the items that have them. -/
structure Projects (rank : α → Nat) (image : α → β) (items : Set α)
    (values : List β) : Prop where
  once : values.Nodup
  mem_iff : ∀ value, value ∈ values ↔ ∃ item ∈ items, image item = value
  ordered : values.Pairwise fun first second => ∃ low high,
    IsLeast (ranks rank image items first) low ∧
      IsLeast (ranks rank image items second) high ∧ low < high

variable {rank : α → Nat} {image : α → β}

theorem exists_isLeast_ranks (rank : α → Nat) (image : α → β)
    {items : Set α} {item : α} (member : item ∈ items) :
    ∃ low, IsLeast (ranks rank image items (image item)) low := by
  have inhabited : (ranks rank image items (image item)).Nonempty :=
    ⟨rank item, item, member, rfl, rfl⟩
  exact ⟨_, Nat.sInf_mem inhabited, fun _ other => Nat.sInf_le other⟩

/-- Values with different lowest ranks are different. -/
theorem ne_of_isLeast_lt {items : Set α} {first second : β}
    (apart : ∃ low high, IsLeast (ranks rank image items first) low ∧
      IsLeast (ranks rank image items second) high ∧ low < high) :
    first ≠ second := by
  rintro rfl
  rcases apart with ⟨low, high, least, other, less⟩
  exact absurd (least.unique other) (Nat.ne_of_lt less)

/-- The first item of an ascending list has the lowest rank. -/
theorem isLeast_ranks_head {first : α} {rest : List α}
    (ascending : ∀ item ∈ rest, rank first < rank item) :
    IsLeast (ranks rank image { item | item ∈ first :: rest } (image first))
      (rank first) := by
  constructor
  · exact ⟨first, .head _, rfl, rfl⟩
  · rintro number ⟨item, listed, _, rfl⟩
    rcases List.mem_cons.mp listed with rfl | later
    · exact Nat.le_refl _
    · exact Nat.le_of_lt (ascending item later)

variable [DecidableEq β]

/-- The items whose images differ from that of `first`. -/
def unlike (image : α → β) (first : α) (items : List α) : List α :=
  items.filter fun item => image item ≠ image first

theorem mem_unlike {first item : α} {items : List α} :
    item ∈ unlike image first items ↔
      item ∈ items ∧ image item ≠ image first := by
  simp [unlike]

theorem eraseDups_map_cons (first : α) (rest : List α) :
    ((first :: rest).map image).eraseDups =
      image first :: ((unlike image first rest).map image).eraseDups := by
  rw [List.map_cons, List.eraseDups_cons, List.filter_map, unlike]
  congr 4
  funext item
  rw [Bool.eq_iff_iff]
  simp

/-- Items like the first one do not matter for the ranks of other values. -/
theorem ranks_unlike {first : α} {rest : List α} {value : β}
    (different : value ≠ image first) :
    ranks rank image { item | item ∈ first :: rest } value =
      ranks rank image { item | item ∈ unlike image first rest } value := by
  ext number
  constructor
  · rintro ⟨item, listed, rfl, rfl⟩
    have later : item ∈ rest :=
      (List.mem_cons.mp listed).resolve_left
        fun same => different (congrArg image same)
    exact ⟨item, mem_unlike.mpr ⟨later, different⟩, rfl, rfl⟩
  · rintro ⟨item, listed, rfl, rfl⟩
    exact ⟨item, .tail _ (mem_unlike.mp listed).1, rfl, rfl⟩

/-- By induction on the list: the first item gives the first value, and the
other values come from the items that are unlike it. -/
theorem ordered_eraseDups {items : List α}
    (ascending : items.Pairwise fun one other => rank one < rank other) :
    (items.map image).eraseDups.Pairwise fun first second => ∃ low high,
      IsLeast (ranks rank image { item | item ∈ items } first) low ∧
        IsLeast (ranks rank image { item | item ∈ items } second) high ∧
        low < high := by
  match items with
  | [] => exact .nil
  | first :: rest =>
      rcases List.pairwise_cons.mp ascending with ⟨lowest, later⟩
      have others := ordered_eraseDups
        (later.sublist (List.filter_sublist
          (p := fun item => image item ≠ image first)))
      have different : ∀ value ∈
          ((unlike image first rest).map image).eraseDups,
          value ≠ image first := by
        intro value listed
        rw [List.mem_eraseDups, List.mem_map] at listed
        rcases listed with ⟨item, member, rfl⟩
        exact (mem_unlike.mp member).2
      rw [eraseDups_map_cons, List.pairwise_cons]
      constructor
      · intro value listed
        have apart := different value listed
        rw [List.mem_eraseDups, List.mem_map] at listed
        rcases listed with ⟨item, member, rfl⟩
        have here : item ∈ { item | item ∈ first :: rest } :=
          .tail _ (mem_unlike.mp member).1
        rcases exists_isLeast_ranks rank image here with
          ⟨high, least⟩
        refine ⟨rank first, high, isLeast_ranks_head lowest, least, ?_⟩
        -- Whichever item has the lowest rank for this value, it is a later one.
        rcases least.1 with ⟨found, listed, same, rfl⟩
        apply lowest
        exact (List.mem_cons.mp listed).resolve_left fun equal =>
          apart (same.symm.trans (congrArg image equal))
      · refine others.imp_of_mem fun {one other} oneListed otherListed => ?_
        rw [ranks_unlike (different one oneListed),
          ranks_unlike (different other otherListed)]
        exact id
termination_by items.length
decreasing_by
  exact Nat.lt_succ_of_le (List.length_filter_le ..)

theorem projects_eraseDups {items : List α}
    (ascending : items.Pairwise fun one other => rank one < rank other) :
    Projects rank image { item | item ∈ items }
      (items.map image).eraseDups where
  once := (ordered_eraseDups ascending).imp ne_of_isLeast_lt
  mem_iff value := by
    rw [List.mem_eraseDups, List.mem_map]
    rfl
  ordered := ordered_eraseDups ascending

end Projections

/-! ## Questions about a result -/

namespace Result

/-- The objects that a variable points to under some context. -/
def objectsOf (result : Result) (var : Var) : Set ContextObj :=
  { obj | ∃ context, obj ∈ result.pointsTo ⟨context, var⟩ }

/-- The edges that leave a call under some context. -/
def edgesOf (result : Result) (site : Site) : Set CallEdge :=
  { edge | ∃ context, edge ∈ result.state.calls.outOf ⟨context, site⟩ }

/-- The answers without contexts agree with the answers under contexts. -/
structure Agrees (result : Result) : Prop where
  /-- What a variable points to has a number of its own. -/
  numbered : ∀ var, ∀ obj ∈ result.objectsOf var,
    result.state.objects.get? (result.state.objects.numberOf obj) = some obj
  /-- Objects are listed in the order of the lowest numbers that they have
  under contexts. -/
  objects : ∀ var,
    Projects result.state.objects.numberOf InContext.val
      (result.objectsOf var) (result.pointsToInsensitive var)
  /-- Variables alias if they share an object under a context. -/
  aliases : ∀ first second,
    result.mayAlias first second = true ↔ ∃ context other obj,
      obj ∈ result.pointsTo ⟨context, first⟩ ∧
        obj ∈ result.pointsTo ⟨other, second⟩
  symmetric : ∀ first second,
    result.mayAlias first second = result.mayAlias second first
  reflexive : ∀ var,
    result.mayAlias var var = true ↔ result.pointsToInsensitive var ≠ []
  /-- Callees are listed in the order of the first edges to them. -/
  callees : ∀ site,
    Projects result.state.calls.edges.idxOf (fun edge => edge.callee.val)
      (result.edgesOf site) (result.callees site)
  reached : ∀ site, result.callees site ⊆ result.reachableMethods

namespace Tabled

variable {result : Result} (tabled : result.Tabled)

include tabled

/-- Asking under a context is looking into the store. -/
theorem mem_pointsTo {entry : ContextVar} {obj : ContextObj} :
    obj ∈ result.pointsTo entry ↔ obj ∈ result.state.store.get (.var entry) := by
  rw [pointsTo, State.mem_ordered]
  constructor
  · exact And.right
  · exact fun member => ⟨tabled.numbered _ obj member, member⟩

/-- What is collected from the list of variables is what is looked up. -/
theorem mem_pointsToAnywhere_iff {var : Var} {obj : ContextObj} :
    obj ∈ result.pointsToAnywhere var ↔ obj ∈ result.objectsOf var := by
  rw [tabled.mem_pointsToAnywhere]
  exact exists_congr fun context => tabled.mem_pointsTo.symm

theorem projects_pointsToInsensitive (var : Var) :
    Projects result.state.objects.numberOf InContext.val
      (result.objectsOf var) (result.pointsToInsensitive var) := by
  have listed : (result.pointsToAnywhere var).Sublist
      result.state.objects.items :=
    List.filter_sublist
  have collected : { obj | obj ∈ result.pointsToAnywhere var } =
      result.objectsOf var :=
    Set.ext fun obj => tabled.mem_pointsToAnywhere_iff
  rw [← collected]
  exact projects_eraseDups
    (result.state.objects.pairwise_numberOf.sublist listed)

theorem mayAlias_iff {first second : Var} :
    result.mayAlias first second = true ↔ ∃ context other obj,
      obj ∈ result.pointsTo ⟨context, first⟩ ∧
        obj ∈ result.pointsTo ⟨other, second⟩ := by
  simp only [mayAlias, List.any_eq_true, List.contains_iff_mem,
    tabled.mem_pointsToAnywhere_iff]
  constructor
  · rintro ⟨obj, ⟨context, here⟩, other, there⟩
    exact ⟨context, other, obj, here, there⟩
  · rintro ⟨context, other, obj, here, there⟩
    exact ⟨obj, ⟨context, here⟩, other, there⟩

theorem mayAlias_comm (first second : Var) :
    result.mayAlias first second = result.mayAlias second first := by
  rw [Bool.eq_iff_iff, tabled.mayAlias_iff, tabled.mayAlias_iff]
  constructor
  · rintro ⟨context, other, obj, here, there⟩
    exact ⟨other, context, obj, there, here⟩
  · rintro ⟨context, other, obj, here, there⟩
    exact ⟨other, context, obj, there, here⟩

/-- A variable aliases itself if it points to anything. -/
theorem mayAlias_self_iff (var : Var) :
    result.mayAlias var var = true ↔ result.pointsToInsensitive var ≠ [] := by
  rw [tabled.mayAlias_iff]
  constructor
  · rintro ⟨context, _, obj, here, _⟩ none
    have listed : obj.val ∈ result.pointsToInsensitive var := by
      rw [pointsToInsensitive, List.mem_eraseDups]
      exact List.mem_map_of_mem
        (tabled.mem_pointsToAnywhere_iff.mpr ⟨context, here⟩)
    rw [none] at listed
    cases listed
  · intro some
    rcases List.exists_mem_of_ne_nil _ some with ⟨value, listed⟩
    rw [pointsToInsensitive, List.mem_eraseDups, List.mem_map] at listed
    rcases listed with ⟨obj, member, _⟩
    rcases tabled.mem_pointsToAnywhere_iff.mp member with ⟨context, here⟩
    exact ⟨context, context, obj, here, here⟩

end Tabled

theorem projects_callees (result : Result) (site : Site) :
    Projects result.state.calls.edges.idxOf (fun edge => edge.callee.val)
      (result.edgesOf site) (result.callees site) := by
  have distinct := List.Nodup.of_map _ result.state.calls.distinct
  have ascending : result.state.calls.edges.Pairwise fun one other =>
      result.state.calls.edges.idxOf one <
        result.state.calls.edges.idxOf other := by
    rw [List.pairwise_iff_getElem]
    intro i j earlier later less
    rwa [distinct.idxOf_getElem, distinct.idxOf_getElem]
  have leaving : { edge | edge ∈ result.state.calls.edges.filter
      fun edge => edge.site.val = site } = result.edgesOf site := by
    ext edge
    simp only [edgesOf, CallGraph.outOf_eq, Set.mem_ofPred_eq, List.mem_filter,
      decide_eq_true_eq]
    constructor
    · rintro ⟨member, rfl⟩
      exact ⟨edge.site.context, member, rfl⟩
    · rintro ⟨context, member, located⟩
      exact ⟨member, congrArg InContext.val located⟩
  rw [← leaving]
  exact projects_eraseDups (ascending.sublist List.filter_sublist)

end Result

/--
In every result, the questions that forget contexts agree with those that do
not.  Without contexts, a variable points to the objects that it points to under
some context, in the order of their lowest numbers; two variables alias exactly
if under some contexts they share an object with its context; and the callees of
a call are those of its edges under any context, all of them reachable.
-/
theorem queries_agree (made : setup.program.Made) {result : Result}
    {log : Log} (analyzed : setup.analyze entries = .success result log) :
    result.Agrees := by
  have tabled := Setup.tabled_of_success made.coherent analyzed
  constructor
  case numbered =>
    rintro var obj ⟨context, member⟩
    have listed := tabled.numbered _ obj (tabled.mem_pointsTo.mp member)
    exact Numbering.get?_numberOf listed
  case objects => exact tabled.projects_pointsToInsensitive
  case aliases => exact fun _ _ => tabled.mayAlias_iff
  case symmetric => exact tabled.mayAlias_comm
  case reflexive => exact tabled.mayAlias_self_iff
  case callees => exact result.projects_callees
  case reached =>
    intro site id called
    rcases (Setup.mem_callees_iff made.coherent analyzed).mp called with
      ⟨edge, derivable, _, rfl⟩
    exact (Setup.mem_reachableMethods_iff made.coherent analyzed).mpr
      ⟨edge.callee.context, .of_one .enter derivable⟩

/-- Objects that differ only in their contexts are one object without them. -/
theorem queries_agree_nested :
    Nested.tainted.program.Made ∧ ∃ result log,
      Nested.tainted.analyze [Cyclic.main] = .success result log ∧
      (result.pointsTo ⟨[], ⟨Cyclic.main, "x"⟩⟩).length = 4 ∧
      (result.pointsToInsensitive ⟨Cyclic.main, "x"⟩).length = 3 ∧
      (result.instances ⟨Nested.make, "y"⟩).length = 3 ∧
      result.Agrees := by
  have counted : (Nested.tainted.analyze [Cyclic.main]).result?.map
      (fun result =>
        ((result.pointsTo ⟨[], ⟨Cyclic.main, "x"⟩⟩).length,
          (result.pointsToInsensitive ⟨Cyclic.main, "x"⟩).length,
          (result.instances ⟨Nested.make, "y"⟩).length)) =
      some (4, 3, 3) := by
    decide +kernel
  obtain ⟨result, log, analyzed, found⟩ := Answer.exists_success counted
  simp only [Prod.mk.injEq] at found
  obtain ⟨under, without, instances⟩ := found
  exact ⟨Or.inl Nested.built, result, log, analyzed, under, without, instances,
    queries_agree (Or.inl Nested.built) analyzed⟩

end PointsTo
