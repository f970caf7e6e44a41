import Mathlib.Algebra.BigOperators.Group.Finset.Basic
import Mathlib.Data.List.Induction
import Mathlib.Data.List.Nodup
import PointsTo.Analysis.Run
import PointsTo.Proofs.Analysis.Holds

/-!
# Graphs agree with what was inserted

A flow graph keeps its edges and a table of successors.  A call graph keeps a
sequence of its edges, a table of them by their keys, lists of the edges at both
ends, and marks for callers, callees and reachable methods.  After any
insertions, in any order and with any repetitions, all of these agree with each
other and with what was inserted.  Of several insertions with the same key, the
first one counts.
-/

namespace PointsTo

/-! ## First items -/

section Firsts

variable {α κ : Type} [DecidableEq κ] {key : α → κ}

/-- The first item with each key. -/
def firsts (key : α → κ) : List α → List α
  | [] => []
  | item :: rest =>
      item :: (firsts key rest).filter fun other => key other ≠ key item

theorem firsts_sublist (items : List α) :
    (firsts key items).Sublist items := by
  induction items with
  | nil => exact .slnil
  | cons item rest ih => exact (List.filter_sublist.trans ih).cons_cons item

theorem mem_map_firsts (items : List α) (value : κ) :
    value ∈ (firsts key items).map key ↔ value ∈ items.map key := by
  induction items with
  | nil => rfl
  | cons item rest ih =>
      by_cases same : value = key item
      · simp [firsts, same]
      · simp only [firsts, List.map_cons, List.mem_cons, same, false_or]
        rw [← ih, List.mem_map, List.mem_map]
        simp only [List.mem_filter, decide_eq_true_eq]
        constructor
        · rintro ⟨other, ⟨kept, _⟩, rfl⟩
          exact ⟨other, kept, rfl⟩
        · rintro ⟨other, kept, rfl⟩
          exact ⟨other, ⟨kept, same⟩, rfl⟩

theorem nodup_map_firsts (key : α → κ) (items : List α) :
    ((firsts key items).map key).Nodup := by
  induction items with
  | nil => exact List.nodup_nil
  | cons item rest ih =>
      rw [firsts, List.map_cons, List.nodup_cons]
      refine ⟨?_, ih.sublist (List.filter_sublist.map key)⟩
      simp

/-- A further item is kept if none with its key has been kept. -/
theorem firsts_concat (items : List α) (item : α) :
    firsts key (items ++ [item]) =
      if key item ∈ (firsts key items).map key then firsts key items
      else firsts key items ++ [item] := by
  simp only [mem_map_firsts]
  induction items with
  | nil => rfl
  | cons first rest ih =>
      rw [List.cons_append, firsts, ih, firsts, List.map_cons]
      by_cases later : key item ∈ rest.map key
      · rw [if_pos later, if_pos (.tail _ later)]
      · rw [if_neg later, List.filter_append]
        by_cases same : key item = key first
        · simp [same]
        · rw [if_neg (by simpa [same] using later)]
          simp [same]

section View

variable {β : Type} {view : β → Option α} {items : List β} {last : β}

/-- What is not seen adds nothing. -/
theorem firsts_view_none (unseen : view last = none) :
    firsts key ((items ++ [last]).filterMap view) =
      firsts key (items.filterMap view) := by
  simp [unseen]

theorem firsts_view_some {item : α} (seen : view last = some item) :
    firsts key ((items ++ [last]).filterMap view) =
      if key item ∈ (firsts key (items.filterMap view)).map key then
        firsts key (items.filterMap view)
      else firsts key (items.filterMap view) ++ [item] := by
  rw [← firsts_concat]
  simp [seen]

end View

theorem filter_firsts {keep : α → Bool}
    (respects : ∀ {first second : α}, key first = key second →
      keep first = keep second) (items : List α) :
    (firsts key items).filter keep = firsts key (items.filter keep) := by
  induction items with
  | nil => rfl
  | cons item rest ih =>
      rw [firsts, List.filter_cons, List.filter_cons, List.filter_comm, ih]
      split
      · rw [firsts]
      · rename_i dropped
        -- Nothing with the key of an item that is dropped is kept.
        rw [List.filter_eq_self]
        intro other kept
        have selected := List.mem_filter.mp ((firsts_sublist _).subset kept)
        rw [decide_eq_true_eq]
        exact fun same => dropped (respects same ▸ selected.2)

theorem map_firsts {β μ : Type} [DecidableEq μ] {image : α → β}
    {other : β → μ} {items : List α}
    (alike : ∀ first ∈ items, ∀ second ∈ items,
      other (image first) = other (image second) ↔ key first = key second) :
    (firsts key items).map image = firsts other (items.map image) := by
  induction items with
  | nil => rfl
  | cons item rest ih =>
      have tail := ih fun first here second there =>
        alike first (.tail _ here) second (.tail _ there)
      rw [firsts, List.map_cons, List.map_cons, firsts, ← tail,
        List.filter_map]
      congr 2
      refine List.filter_congr fun kept listed => ?_
      have here := (firsts_sublist rest).subset listed
      simp [alike kept (.tail _ here) item (.head _)]

end Firsts

/-! ## Flow graphs -/

namespace FlowGraph

variable {α : Type}

/-- Add edges one after the other. -/
def ofArcs (inserted : List (Arc α)) : FlowGraph α :=
  inserted.foldl (fun graph arc => (graph.add arc.source arc.target).2) empty

theorem ofArcs_concat (inserted : List (Arc α)) (arc : Arc α) :
    ofArcs (inserted ++ [arc]) =
      (ofArcs inserted).insert arc.source arc.target := by
  rw [ofArcs, List.foldl_append]
  rfl

/-- By induction on the insertions, from the last one on. -/
theorem arcs_ofArcs (inserted : List (Arc α)) :
    (ofArcs inserted).arcs = firsts Arc.numbers inserted := by
  induction inserted using List.reverseRecOn with
  | nil => rfl
  | append_singleton earlier arc ih =>
      have present :=
        (ofArcs earlier).has_iff_mem_numbers arc.source arc.target
      rw [ih] at present
      rw [ofArcs_concat, firsts_concat]
      split
      · rename_i listed
        rw [insert_of_has (present.mpr listed), ih]
      · rename_i absent
        have new := eq_false_of_ne_true (absent ∘ present.mp)
        rw [arcs_insert new, ih]

/-- A graph agrees with the edges that have been inserted between nodes. -/
structure Records [DecidableEq α] (graph : FlowGraph α)
    (nodes : List (Numbered α)) (inserted : List (Arc α)) : Prop where
  has_iff : ∀ source ∈ nodes, ∀ target ∈ nodes,
    graph.has source target = true ↔ ⟨source, target⟩ ∈ inserted
  /-- Successors are listed in the order of their first insertions. -/
  succs : ∀ source ∈ nodes, graph.succs source =
    firsts id ((inserted.filter fun arc => arc.source = source).map Arc.target)
  once : ∀ source ∈ nodes, (graph.succs source).Nodup
  mem_succs_iff : ∀ source ∈ nodes, ∀ target ∈ nodes,
    target ∈ graph.succs source ↔ graph.has source target = true
  /-- Only the first insertion of an edge is new. -/
  added : ∀ source ∈ nodes, ∀ target ∈ nodes,
    (graph.add source target).1 = true ↔ ⟨source, target⟩ ∉ inserted
  size : graph.size = total (nodes.map fun node => (graph.succs node).length)

section

variable {nodes : List (Numbered α)}
  (distinct : (nodes.map Numbered.number).Nodup) {inserted : List (Arc α)}
  (connected : ∀ arc ∈ inserted, arc.source ∈ nodes ∧ arc.target ∈ nodes)

include distinct in
theorem toldApart_of_nodup : ToldApart nodes :=
  fun _ here _ there same => List.inj_on_of_nodup_map distinct here there same

include connected in
theorem within_ofArcs : (ofArcs inserted).Within nodes := by
  intro arc listed
  rw [arcs_ofArcs] at listed
  exact connected arc ((firsts_sublist inserted).subset listed)

include distinct connected

theorem has_ofArcs {source target : Numbered α} (here : source ∈ nodes)
    (there : target ∈ nodes) :
    (ofArcs inserted).has source target = true ↔
      ⟨source, target⟩ ∈ inserted := by
  constructor
  · intro present
    rw [has_iff (toldApart_of_nodup distinct) (within_ofArcs connected) here
      there, arcs_ofArcs] at present
    exact (firsts_sublist inserted).subset present
  · intro member
    rw [has_iff_mem_numbers, arcs_ofArcs, mem_map_firsts]
    exact List.mem_map_of_mem (f := Arc.numbers) member

theorem size_ofArcs :
    (ofArcs inserted).size =
      total (nodes.map fun node => ((ofArcs inserted).succs node).length) := by
  let sources := (ofArcs inserted).arcs.map fun arc => arc.source.number
  have counted : (nodes.map fun node =>
      ((ofArcs inserted).succs node).length) =
      (nodes.map Numbered.number).map fun number => sources.count number := by
    rw [List.map_map]
    refine List.map_congr_left fun node _ => ?_
    rw [succs_eq, List.length_map, ← List.countP_eq_length_filter]
    simp only [sources, Function.comp_apply, List.count, List.countP_map]
    congr 1
  have covered : ∀ number ∈ (sources : Multiset Nat),
      number ∈ (nodes.map Numbered.number).toFinset := by
    intro number member
    rw [Multiset.mem_coe, List.mem_map] at member
    rcases member with ⟨arc, listed, rfl⟩
    rw [List.mem_toFinset]
    exact List.mem_map_of_mem (within_ofArcs connected arc listed).1
  have summed := Multiset.sum_count_eq_card covered
  simp only [List.sum_toFinset _ distinct, Multiset.coe_count] at summed
  rw [counted]
  exact (summed.trans (List.length_map _)).symm

variable [DecidableEq α]

theorem succs_ofArcs {source : Numbered α} (here : source ∈ nodes) :
    (ofArcs inserted).succs source =
      firsts id ((inserted.filter fun arc => arc.source = source).map
        Arc.target) := by
  have apart := toldApart_of_nodup distinct
  have leaving : (inserted.filter fun arc =>
      arc.source.number = source.number) =
      inserted.filter fun arc => arc.source = source := by
    refine List.filter_congr fun arc member => ?_
    rw [decide_eq_decide]
    exact ⟨apart _ (connected arc member).1 _ here, congrArg Numbered.number⟩
  -- Edges that leave one node are told apart by their targets.
  have alike : ∀ first ∈ inserted.filter fun arc => arc.source = source,
      ∀ second ∈ inserted.filter fun arc => arc.source = source,
        id first.target = id second.target ↔
          first.numbers = second.numbers := by
    intro first firstListed second secondListed
    rw [List.mem_filter, decide_eq_true_eq] at firstListed secondListed
    rw [Arc.numbers, Arc.numbers, firstListed.2, secondListed.2,
      Prod.mk.injEq]
    constructor
    · exact fun same => ⟨rfl, congrArg Numbered.number same⟩
    · exact fun same => apart _ (connected first firstListed.1).2 _
        (connected second secondListed.1).2 same.2
  rw [succs_eq, arcs_ofArcs, filter_firsts (fun same => ?_), leaving]
  · exact map_firsts alike
  · rw [(Prod.mk.inj same).1]

theorem records_ofArcs : (ofArcs inserted).Records nodes inserted := by
  have apart := toldApart_of_nodup distinct
  have within := within_ofArcs connected
  have has_iff : ∀ source ∈ nodes, ∀ target ∈ nodes,
      (ofArcs inserted).has source target = true ↔
        ⟨source, target⟩ ∈ inserted :=
    fun source here target there => has_ofArcs distinct connected here there
  constructor
  case has_iff => exact has_iff
  case succs => exact fun source here => succs_ofArcs distinct connected here
  case once =>
    intro source here
    rw [succs_ofArcs distinct connected here]
    simpa using nodup_map_firsts id
      ((inserted.filter fun arc => arc.source = source).map Arc.target)
  case mem_succs_iff =>
    intro source here target there
    rw [mem_succs apart within here, FlowGraph.has_iff apart within here there]
  case added =>
    intro source here target there
    rw [add, Bool.not_eq_true', ← Bool.not_eq_true, has_iff source here target
      there]
  case size => exact size_ofArcs distinct connected

end

end FlowGraph

/-! ## Call graphs -/

namespace CallGraph

/-- A request to a call graph. -/
inductive Request where
  | entry (method : ContextMethod)
  | reach (method : Numbered ContextMethod)
  | edge (edge : CallEdge)

namespace Request

/-- The method that is to be an entry. -/
def start? : Request → Option ContextMethod
  | .entry method => some method
  | _ => none

/-- The method that is to be reachable. -/
def reach? : Request → Option (Numbered ContextMethod)
  | .reach method => some method
  | _ => none

/-- The edge that is to be added. -/
def edge? : Request → Option CallEdge
  | .edge added => some added
  | _ => none

end Request

/-- Do what is requested. -/
def perform (graph : CallGraph) : Request → CallGraph
  | .entry method => graph.addEntry method
  | .reach method => graph.addReachable method
  | .edge edge => graph.addEdge edge

/-- Do what is requested one after the other. -/
def ofRequests (requests : List Request) : CallGraph :=
  requests.foldl perform empty

/-- A call graph lists what has been requested, in the order of the first
requests. -/
structure Follows (graph : CallGraph) (requests : List Request) : Prop where
  entries : graph.entries = firsts id (requests.filterMap Request.start?)
  members : graph.members =
    firsts Numbered.item (requests.filterMap Request.reach?)
  edges : graph.edges =
    firsts CallEdge.key (requests.filterMap Request.edge?)

/-- A request changes the list that it is about and no other. -/
theorem Follows.perform {graph : CallGraph} {requests : List Request}
    (follows : graph.Follows requests) (request : Request) :
    (graph.perform request).Follows (requests ++ [request]) := by
  cases request with
  | entry method =>
      have seen : (Request.entry method).start? = some method := rfl
      constructor
      · rw [firsts_view_some seen, ← follows.entries, List.map_id]
        exact entries_addEntry graph method
      · rw [firsts_view_none rfl, ← follows.members]
        exact members_addEntry graph method
      · rw [firsts_view_none rfl, ← follows.edges]
        exact edges_addEntry graph method
  | reach method =>
      have seen : (Request.reach method).reach? = some method := rfl
      constructor
      · rw [firsts_view_none rfl, ← follows.entries]
        exact entries_addReachable graph method
      · rw [firsts_view_some seen, ← follows.members]
        split
        · rename_i present
          rw [CallGraph.perform, addReachable_of_mem present]
        · rename_i absent
          exact members_addReachable absent
      · rw [firsts_view_none rfl, ← follows.edges]
        exact edges_addReachable graph method
  | edge added =>
      have seen : (Request.edge added).edge? = some added := rfl
      constructor
      · rw [firsts_view_none rfl, ← follows.entries]
        exact entries_addEdge graph added
      · rw [firsts_view_none rfl, ← follows.members]
        exact members_addEdge graph added
      · rw [firsts_view_some seen, ← follows.edges]
        have present := graph.hasEdge_iff_mem_keys added.site added.callee
        split
        · rename_i listed
          rw [CallGraph.perform, addEdge_of_hasEdge (present.mpr listed)]
        · rename_i absent
          exact edges_addEdge (eq_false_of_ne_true (absent ∘ present.mp))

theorem follows_ofRequests (requests : List Request) :
    (ofRequests requests).Follows requests := by
  induction requests using List.reverseRecOn with
  | nil => exact ⟨rfl, rfl, rfl⟩
  | append_singleton earlier request ih =>
      rw [ofRequests, List.foldl_append]
      exact ih.perform request

/-! ### Questions by number -/

section Numbers

variable {graph : CallGraph} {methods : Numbering ContextMethod}
  (numbered : graph.members ⊆ methods.entries)

include numbered

/-- Numbers are not shared, so that later members do not hide earlier ones. -/
theorem node?_eq_some_iff_mem (number : Nat) (method : ContextMethod) :
    graph.node? number = some method ↔ ⟨number, method⟩ ∈ graph.members := by
  have listed : ∀ node ∈ graph.members,
      methods.items[node.number]? = some node.item :=
    fun node member => (methods.mem_entries_iff node).mp (numbered member)
  rw [node?, graph.numbered, Option.map_eq_some_iff]
  constructor
  · rintro ⟨node, found, rfl⟩
    have asked : node.number = number := by
      simpa using List.find?_some found
    rw [← asked]
    exact List.mem_reverse.mp (List.mem_of_find?_eq_some found)
  · intro member
    have finds : (graph.members.reverse.find? fun node =>
        node.number = number).isSome = true := by
      rw [List.find?_isSome]
      exact ⟨_, List.mem_reverse.mpr member, decide_eq_true rfl⟩
    rcases Option.isSome_iff_exists.mp finds with ⟨node, found⟩
    have asked : node.number = number := by
      simpa using List.find?_some found
    have here := listed node
      (List.mem_reverse.mp (List.mem_of_find?_eq_some found))
    rw [asked, listed _ member] at here
    exact ⟨node, found, (Option.some.inj here).symm⟩

/-- Reachable methods, and no others, are found by the numbers of methods. -/
theorem node?_eq_some_iff (number : Nat) (method : ContextMethod) :
    graph.node? number = some method ↔
      methods.get? number = some method ∧ method ∈ graph.reachable := by
  rw [node?_eq_some_iff_mem numbered, Numbering.get?_eq_getElem?]
  constructor
  · intro member
    exact ⟨(methods.mem_entries_iff _).mp (numbered member),
      List.mem_map_of_mem (f := Numbered.item) member⟩
  · rintro ⟨listed, reached⟩
    rcases List.mem_map.mp reached with ⟨node, member, rfl⟩
    have same := (methods.mem_entries_iff node).mp (numbered member)
    rw [← methods.number?_eq_some_iff] at same listed
    rw [← Option.some.inj (same.symm.trans listed)]
    exact member

theorem node?_numberOf {method : ContextMethod}
    (reached : method ∈ graph.reachable) :
    graph.node? (methods.numberOf method) = some method := by
  rw [node?_eq_some_iff numbered]
  exact ⟨Numbering.get?_numberOf (List.map_subset _ numbered reached), reached⟩

theorem hasLink_iff (caller callee : Nat) :
    graph.hasLink caller callee = true ↔ ∃ first second,
      methods.get? caller = some first ∧ methods.get? callee = some second ∧
        first ∈ graph.reachable ∧ second ∈ graph.reachable ∧
        ∃ edge ∈ graph.edges, edge.caller = first ∧ edge.callee = second := by
  have finds := node?_eq_some_iff numbered
  unfold hasLink
  constructor
  · intro linked
    split at linked
    · rename_i first second here there
      rw [finds] at here there
      exact ⟨first, second, here.1, there.1, here.2, there.2,
        (graph.inStep.callees first second).mp linked⟩
    · cases linked
  · rintro ⟨first, second, here, there, reached, reachedToo, called⟩
    rw [(finds caller first).mpr ⟨here, reached⟩,
      (finds callee second).mpr ⟨there, reachedToo⟩]
    exact (graph.inStep.callees first second).mpr called

/-- The link between two numbers has the two methods as its ends. -/
theorem link?_eq_some_iff (caller callee : Nat)
    (first second : ContextMethod) :
    graph.link? caller callee = some (first, second) ↔
      methods.get? caller = some first ∧ methods.get? callee = some second ∧
        first ∈ graph.reachable ∧ second ∈ graph.reachable ∧
        ∃ edge ∈ graph.edges, edge.caller = first ∧ edge.callee = second := by
  have finds := node?_eq_some_iff numbered
  have linked_iff := hasLink_iff numbered caller callee
  unfold link?
  constructor
  · intro found
    split at found
    · rename_i linked
      rcases linked_iff.mp linked with
        ⟨_, _, here, there, reached, reachedToo, called⟩
      rw [(finds caller _).mpr ⟨here, reached⟩,
        (finds callee _).mpr ⟨there, reachedToo⟩] at found
      cases found
      exact ⟨here, there, reached, reachedToo, called⟩
    · cases found
  · rintro ⟨here, there, reached, reachedToo, called⟩
    rw [if_pos (linked_iff.mpr
        ⟨first, second, here, there, reached, reachedToo, called⟩),
      (finds caller first).mpr ⟨here, reached⟩,
      (finds callee second).mpr ⟨there, reachedToo⟩]
    rfl

section Ends

variable {first second : ContextMethod} (reached : first ∈ graph.reachable)
  (reachedToo : second ∈ graph.reachable)

include reached reachedToo

theorem hasLink_numberOf :
    graph.hasLink (methods.numberOf first) (methods.numberOf second) = true ↔
      ∃ edge ∈ graph.edges, edge.caller = first ∧ edge.callee = second := by
  unfold hasLink
  rw [node?_numberOf numbered reached, node?_numberOf numbered reachedToo]
  exact graph.inStep.callees first second

theorem mem_calledBy_numberOf :
    second ∈ graph.calledBy methods.items (methods.numberOf first) ↔
      ∃ edge ∈ graph.edges, edge.caller = first ∧ edge.callee = second := by
  have listed := List.map_subset Numbered.item numbered reachedToo
  rw [calledBy, node?_numberOf numbered reached, List.mem_filter,
    graph.inStep.callees]
  exact and_iff_right listed

theorem mem_callersOf_numberOf :
    first ∈ graph.callersOf methods.items (methods.numberOf second) ↔
      ∃ edge ∈ graph.edges, edge.caller = first ∧ edge.callee = second := by
  have listed := List.map_subset Numbered.item numbered reached
  rw [callersOf, node?_numberOf numbered reachedToo, List.mem_filter,
    graph.inStep.callers]
  exact and_iff_right listed

end Ends

end Numbers

/-- There is a link where one method calls the other one. -/
theorem isSome_link? (graph : CallGraph) (caller callee : Nat) :
    (graph.link? caller callee).isSome = graph.hasLink caller callee := by
  unfold link?
  cases linked : graph.hasLink caller callee with
  | false => rfl
  | true =>
      unfold hasLink at linked
      split at linked
      · rename_i here there
        simp [here, there]
      · cases linked

/-- A call graph agrees with what has been requested of it.  Methods have their
numbers from `methods`. -/
structure Records (graph : CallGraph) (methods : Numbering ContextMethod)
    (requests : List Request) : Prop extends graph.Follows requests where
  distinct : graph.edges.Pairwise fun first second =>
    first.site ≠ second.site ∨ first.callee ≠ second.callee
  outOf : ∀ site, graph.outOf site =
    graph.edges.filter fun edge => edge.site = site
  into : ∀ method, graph.into method =
    graph.edges.filter fun edge => edge.callee = method
  once : graph.reachable.Nodup ∧ graph.entries.Nodup
  hasLink_iff : ∀ caller callee, graph.hasLink caller callee = true ↔
    ∃ first second,
      methods.get? caller = some first ∧ methods.get? callee = some second ∧
        first ∈ graph.reachable ∧ second ∈ graph.reachable ∧
        ∃ edge ∈ graph.edges, edge.caller = first ∧ edge.callee = second
  link?_eq_some_iff : ∀ caller callee first second,
    graph.link? caller callee = some (first, second) ↔
      methods.get? caller = some first ∧ methods.get? callee = some second ∧
        first ∈ graph.reachable ∧ second ∈ graph.reachable ∧
        ∃ edge ∈ graph.edges, edge.caller = first ∧ edge.callee = second
  /-- Two methods are linked if either one calls the other. -/
  between : ∀ number other, graph.hasLinkBetween number other = true ↔
    ∃ ends, graph.link? number other = some ends ∨
      graph.link? other number = some ends
  neighbours : ∀ first ∈ graph.reachable, ∀ second ∈ graph.reachable,
    let link := graph.hasLink (methods.numberOf first)
      (methods.numberOf second) = true
    (second ∈ graph.calledBy methods.items (methods.numberOf first) ↔ link) ∧
      (first ∈ graph.callersOf methods.items (methods.numberOf second) ↔ link)

theorem records_ofRequests {methods : Numbering ContextMethod}
    {requests : List Request}
    (numbered : ∀ method ∈ requests.filterMap Request.reach?,
      method ∈ methods.entries) :
    (ofRequests requests).Records methods requests := by
  have follows := follows_ofRequests requests
  have members : (ofRequests requests).members ⊆ methods.entries := by
    rw [follows.members]
    exact fun method listed =>
      numbered method ((firsts_sublist _).subset listed)
  constructor
  case toFollows => exact follows
  case distinct =>
    refine (List.pairwise_map.mp (ofRequests requests).distinct).imp ?_
    intro first second differ
    rw [← not_and_or]
    exact fun same => differ (Prod.ext same.1 same.2)
  case outOf => exact outOf_eq _
  case into => exact (ofRequests requests).inStep.entering
  case once =>
    exact ⟨(ofRequests requests).listed, (ofRequests requests).starts⟩
  case hasLink_iff => exact hasLink_iff members
  case link?_eq_some_iff => exact link?_eq_some_iff members
  case between =>
    intro number other
    rw [hasLinkBetween, Bool.or_eq_true, ← isSome_link?, ← isSome_link?,
      Option.isSome_iff_exists, Option.isSome_iff_exists, exists_or]
  case neighbours =>
    intro first reached second reachedToo
    simp only [hasLink_numberOf members reached reachedToo]
    exact ⟨mem_calledBy_numberOf members reached reachedToo,
      mem_callersOf_numberOf members reached reachedToo⟩

end CallGraph

/-! ## Insertions with gaps, repetitions and loops -/

namespace Insertions

def first : Numbered String := ⟨7, "first"⟩

def second : Numbered String := ⟨2, "second"⟩

def nodes : List (Numbered String) :=
  [first, second]

/-- The numbers have gaps, one edge is a loop, and one is inserted twice. -/
def arcs : List (Arc String) :=
  [⟨first, second⟩, ⟨second, first⟩, ⟨first, first⟩, ⟨first, second⟩]

def caller : ContextMethod := ⟨[], ⟨"A", "caller"⟩⟩

def callee : ContextMethod := ⟨[], ⟨"A", "callee"⟩⟩

/-- A method that is called but not reachable. -/
def other : ContextMethod := ⟨[], ⟨"A", "other"⟩⟩

def methods : Numbering ContextMethod :=
  ((Numbering.empty.request other).request callee).request caller

def call (kind : CallKind) (index : Nat) (method : ContextMethod) : CallEdge :=
  ⟨kind, ⟨[], ⟨caller.val, index⟩⟩, method⟩

def requests : List CallGraph.Request :=
  [.edge (call .static 0 callee), .entry caller, .reach ⟨2, caller⟩,
    .edge (call .virtual 0 callee), .edge (call .static 1 callee),
    .reach ⟨1, callee⟩, .edge (call .static 1 other), .entry caller,
    .reach ⟨2, caller⟩]

end Insertions

/-! ## Both graphs -/

/--
After any insertions, both graphs agree with what was inserted.  In a flow graph
whose nodes have different numbers, the successors of a node are listed once
each in the order of their first insertions, only a first insertion is new, and
the edges are as many as there are successors.  In a call graph, no two edges
have the same call site and callee, the lists at call sites and methods are the
edges there in their order, and reachable methods that are asked for by number
are linked exactly if an edge leads from one to the other.
-/
theorem graphs_record_insertions {α : Type} [DecidableEq α]
    {nodes : List (Numbered α)}
    (distinct : (nodes.map Numbered.number).Nodup) {inserted : List (Arc α)}
    (connected : ∀ arc ∈ inserted, arc.source ∈ nodes ∧ arc.target ∈ nodes)
    {methods : Numbering ContextMethod} {requests : List CallGraph.Request}
    (numbered : ∀ method ∈ requests.filterMap CallGraph.Request.reach?,
      method ∈ methods.entries) :
    (FlowGraph.ofArcs inserted).Records nodes inserted ∧
      (CallGraph.ofRequests requests).Records methods requests :=
  ⟨FlowGraph.records_ofArcs distinct connected,
    CallGraph.records_ofRequests numbered⟩

/-- The second insertion of an edge changes nothing, whatever its kind. -/
theorem graphs_record_insertions_repeated :
    (Insertions.nodes.map Numbered.number).Nodup ∧
      (∀ arc ∈ Insertions.arcs,
        arc.source ∈ Insertions.nodes ∧ arc.target ∈ Insertions.nodes) ∧
      (∀ method ∈ Insertions.requests.filterMap CallGraph.Request.reach?,
        method ∈ Insertions.methods.entries) ∧
      (FlowGraph.ofArcs Insertions.arcs).succs Insertions.first =
        [Insertions.second, Insertions.first] ∧
      (CallGraph.ofRequests Insertions.requests).edges =
        [Insertions.call .static 0 Insertions.callee,
          Insertions.call .static 1 Insertions.callee,
          Insertions.call .static 1 Insertions.other] ∧
      (FlowGraph.ofArcs Insertions.arcs).Records Insertions.nodes
        Insertions.arcs ∧
      (CallGraph.ofRequests Insertions.requests).Records Insertions.methods
        Insertions.requests :=
  ⟨by decide, by decide, by decide, by decide, by decide,
    graphs_record_insertions (by decide) (by decide) (by decide)⟩

end PointsTo
