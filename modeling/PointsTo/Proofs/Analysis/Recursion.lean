import PointsTo.Proofs.Analysis.Answers
import PointsTo.Proofs.Analysis.Rooted
import PointsTo.Proofs.Graph.Components

/-!
# Recursive methods

The groups of recursive methods in a result are the components of the call
graph that contain a cycle.  A component is a set of methods each of which
reaches the others, and a single method counts only if it calls itself.

The search for groups looks at the methods that are both numbered and reachable
and at the edges that leave reachable methods.  In the call graph of a result
nothing is lost that way: all reachable methods are numbered, and all edges are
between reachable methods.
-/

namespace PointsTo

open Relation

variable {setup : Setup} {entries : List MethodId}

/-- Items are listed in the order of their numbers. -/
theorem Numbering.pairwise_numberOf {α : Type} [DecidableEq α]
    (numbering : Numbering α) :
    numbering.items.Pairwise
      fun first second =>
        numbering.numberOf first < numbering.numberOf second := by
  rw [List.pairwise_iff_getElem]
  intro i j earlier later less
  rwa [numberOf_of_getElem? (List.getElem?_eq_getElem earlier),
    numberOf_of_getElem? (List.getElem?_eq_getElem later)]

/-! ## Components of call graphs -/

namespace CallGraph

/-- Some call site of a method calls another method. -/
def Calls (graph : CallGraph) (caller callee : ContextMethod) : Prop :=
  ∃ edge ∈ graph.edges, edge.caller = caller ∧ edge.callee = callee

/-- The groups are the components of the call graph that contain a cycle.  They
are ordered, and so are their methods, by the numbers of methods. -/
structure Components (graph : CallGraph) (number : ContextMethod → Nat)
    (groups : List (List ContextMethod)) : Prop where
  reached : ∀ group ∈ groups, group ≠ [] ∧ group ⊆ graph.reachable
  recursive : ∀ method ∈ graph.reachable,
    (∃ group ∈ groups, method ∈ group) ↔ TransGen graph.Calls method method
  together : ∀ first ∈ graph.reachable, ∀ second ∈ graph.reachable,
    (∃ group ∈ groups, first ∈ group ∧ second ∈ group) ↔
      TransGen graph.Calls first second ∧ TransGen graph.Calls second first
  once : groups.flatten.Nodup
  ascending : ∀ group ∈ groups,
    group.Pairwise fun first second => number first < number second
  ordered : (groups.filterMap List.head?).Pairwise
    fun first second => number first < number second

theorem link_links (graph : CallGraph) :
    Graph.Link graph.links = graph.Calls := by
  ext caller callee
  rw [Graph.Link, links, List.mem_map, Calls]
  simp only [Prod.mk.injEq]

theorem mem_nodes {graph : CallGraph} {methods : List ContextMethod}
    {method : ContextMethod} :
    method ∈ graph.nodes methods ↔
      method ∈ methods ∧ method ∈ graph.reachable := by
  rw [nodes, List.mem_filter, contains_iff]

/-- The edges that leave reachable methods are all edges. -/
theorem Rooted.links_filter {graph : CallGraph} (rooted : graph.Rooted) :
    (graph.links.filter fun link => graph.contains link.1) = graph.links := by
  rw [List.filter_eq_self]
  intro link member
  rcases List.mem_map.mp member with ⟨edge, found, rfl⟩
  exact (contains_iff graph _).mpr (rooted.linked edge found).1

theorem Rooted.recursive_eq {graph : CallGraph} (rooted : graph.Rooted)
    (methods : List ContextMethod) :
    graph.recursive methods =
      Graph.groups (graph.nodes methods) graph.links := by
  rw [recursive, rooted.links_filter]

/-- Where all reachable methods are numbered, the groups are the components. -/
theorem Rooted.components {graph : CallGraph} (rooted : graph.Rooted)
    {methods : Numbering ContextMethod}
    (numbered : graph.reachable ⊆ methods.items) :
    graph.Components methods.numberOf (graph.recursive methods.items) := by
  have listed : (graph.nodes methods.items).Sublist methods.items :=
    List.filter_sublist
  have ascending := methods.pairwise_numberOf.sublist listed
  have node : ∀ method ∈ graph.reachable,
      method ∈ graph.nodes methods.items :=
    fun method member => mem_nodes.mpr ⟨numbered member, member⟩
  have together : ∀ first ∈ graph.reachable, ∀ second ∈ graph.reachable,
      (∃ group ∈ Graph.groups (graph.nodes methods.items) graph.links,
        first ∈ group ∧ second ∈ group) ↔
        TransGen graph.Calls first second ∧
          TransGen graph.Calls second first := by
    intro first firstReached second secondReached
    rw [Graph.shared_groups_iff, Graph.Mutual, link_links]
    constructor
    · exact fun found => found.2.2
    · exact fun both =>
        ⟨node first firstReached, node second secondReached, both⟩
  rw [rooted.recursive_eq]
  constructor
  case reached =>
    intro group member
    refine ⟨Graph.ne_nil_of_mem_groupMutual member, ?_⟩
    intro method inside
    exact (mem_nodes.mp
      ((Graph.sublist_of_mem_groups member).subset inside)).2
  case recursive =>
    intro method reached
    -- A method shares each of its groups with itself.
    have alone := together method reached method reached
    simpa only [and_self] using alone
  case together => exact together
  case once =>
    exact Graph.nodup_flatten_groups (listed.nodup methods.nodup_items)
      graph.links
  case ascending =>
    intro group member
    exact ascending.sublist (Graph.sublist_of_mem_groups member)
  case ordered =>
    exact ascending.sublist (Graph.heads_groups_sublist _ graph.links)

end CallGraph

/-! ## A program with cycles of calls

The main method calls a method that calls another one, which calls it back.
That one calls, twice, a third method, which calls itself and a last one.
-/

namespace Rounds

open Program
open Cyclic (type main)

def method (name : String) : MethodId := ⟨"A", subsignature name [] type⟩

def heading (name : String) : MethodHeading :=
  { owner := "A", name, paramTypes := [], result := type, isStatic := true }

/-- A call without arguments. -/
def addCall (program : Program) (call : String × String) :
    Except BuildError Program :=
  program.modifyMethod (method call.1) fun method =>
    method.addInvoke .static ⟨"A", call.2, [], type⟩ none [] none

def names : List String :=
  ["main", "ping", "pong", "spin", "stop"]

def calls : List (String × String) :=
  [("main", "ping"), ("ping", "pong"), ("pong", "ping"), ("pong", "spin"),
    ("pong", "spin"), ("spin", "spin"), ("spin", "stop")]

def build : Except BuildError Program := do
  let program ← ({} : Program).newClass { name := "A" }
  let program ← names.foldlM (fun program name =>
    program.newMethod (heading name)) program
  calls.foldlM addCall program

def program : Program :=
  build.toOption.getD {}

theorem built : program.Built := by
  rw [program]
  cases done : build with
  | error problem => exact .empty
  | ok program =>
      simp only [build, Checked.bind_eq_ok] at done
      rcases done with ⟨_, newClass, _, newMethods, called⟩
      have declared := Checked.foldlM_keeps Program.Built
        (fun _ _ _ _ built added => Built.newMethod built added)
        (Built.empty.newClass newClass) newMethods
      exact Checked.foldlM_keeps Program.Built
        (fun _ _ _ _ built added =>
          Load.Built.modifyMethod built .addInvoke added) declared called

def plain : Setup :=
  { program }

end Rounds

/--
In every result, the groups of recursive methods are the components of the call
graph that contain a cycle: a reachable method is in a group exactly if calls
lead from it back to itself, and methods share a group exactly if calls lead
from each to the other.  No method is listed twice, and the groups and their
methods are in the order of the numbers that all reachable methods have.
-/
theorem analyze_recursive (made : setup.program.Made) {result : Result}
    {log : Log} (analyzed : setup.analyze entries = .success result log) :
    result.state.calls.Components result.state.methods.numberOf
        result.recursive ∧
      result.state.methods.items.Nodup ∧
      result.state.calls.reachable ⊆ result.state.methods.items := by
  rcases Setup.exists_final_of_success made.coherent analyzed with
    ⟨final, visits, _, rfl⟩
  have rooted := visits.rooted made.coherent
  have calls : (setup.result final).state.calls = final.calls :=
    Setup.result_keeps State.calls (fun _ _ => rfl) final
  have methods : (setup.result final).state.methods = final.methods :=
    Setup.result_keeps State.methods (fun _ _ => rfl) final
  rw [Result.recursive, calls, methods]
  have numbered := rooted.reachable_subset
  exact ⟨rooted.graph.components numbered, final.methods.nodup_items,
    numbered⟩

/-- Two methods call each other, one calls itself, and two are not recursive. -/
theorem analyze_recursive_rounds :
    Rounds.plain.program.Made ∧ ∃ result log,
      Rounds.plain.analyze [Cyclic.main] = .success result log ∧
      result.state.calls.reachable.length = 5 ∧
      result.recursive.map (fun group => group.map (·.val)) =
        [[Rounds.method "ping", Rounds.method "pong"],
          [Rounds.method "spin"]] ∧
      result.state.calls.Components result.state.methods.numberOf
        result.recursive := by
  have found : (Rounds.plain.analyze [Cyclic.main]).result?.map
      (fun result => (result.state.calls.reachable.length,
        result.recursive.map fun group => group.map (·.val))) =
      some (5, [[Rounds.method "ping", Rounds.method "pong"],
        [Rounds.method "spin"]]) := by
    decide +kernel
  rcases Answer.exists_success found with ⟨result, log, analyzed, measured⟩
  rcases Prod.mk.inj measured with ⟨reached, groups⟩
  exact ⟨Or.inl Rounds.built, result, log, analyzed, reached, groups,
    (analyze_recursive (Or.inl Rounds.built) analyzed).1⟩

end PointsTo
