import Mathlib.Data.List.Nodup
import PointsTo.Proofs.Analysis.Reachability
import PointsTo.Proofs.Analysis.Runs

/-!
# Numbers stand for what they number

Pointers of all four kinds share one numbering, and objects and methods have
numberings of their own.  Flow edges and reachable methods are told apart by
these numbers, and the objects of a set are taken in the order of theirs.  In
every state on the way, a number therefore has to stand for one element only,
and an element must have its number wherever it is used.  Elements are found by
their keys and listed once, in the order of their numbers; a step appends to the
lists and changes nothing that is there.
-/

namespace PointsTo

variable {setup : Setup} {entries : List MethodId}

/-! ## Interned elements -/

/-- Elements are interned: each is listed at its number, no two of them have the
same key, and an element is found by its key.  A request leaves the list as it
is if the key is there and appends an element with the next number if not. -/
structure Interned {α κ : Type} (number : α → Nat) (key : α → κ)
    (listed : List α) (find? : κ → Option α) (request : κ → List α) :
    Prop where
  dense : ∀ (position : Nat) (element : α),
    listed[position]? = some element → number element = position
  same_iff : ∀ first ∈ listed, ∀ second ∈ listed,
    first = second ↔ key first = key second
  find?_iff : ∀ wanted element,
    find? wanted = some element ↔ element ∈ listed ∧ key element = wanted
  again : ∀ wanted ∈ listed.map key, request wanted = listed
  added : ∀ wanted, wanted ∉ listed.map key → ∃ element,
    request wanted = listed ++ [element] ∧
      number element = listed.length ∧ key element = wanted

/-- A list that is numbered through is interned by the places of its keys. -/
theorem Interned.of_located {α κ : Type} {number : α → Nat} {key : α → κ}
    {listed : List α} {places : κ → Option Nat} {request : κ → List α}
    (create : κ → α) (dense : listed.map number = List.range listed.length)
    (located : Locates places (listed.map key))
    (created : ∀ wanted, number (create wanted) = listed.length ∧
      key (create wanted) = wanted)
    (requested : ∀ wanted, request wanted =
      if (places wanted).isSome then listed else listed ++ [create wanted]) :
    Interned number key listed
      (fun wanted => (places wanted).bind fun place => listed[place]?)
      request where
  dense _ _ here := number_eq_of_dense dense here
  same_iff first here second there := by
    constructor
    · exact congrArg key
    · exact List.inj_on_of_nodup_map located.nodup here there
  find?_iff := located.bind_eq_some_iff
  again wanted present := by
    rw [← located.isSome_iff] at present
    rw [requested, if_pos present]
  added wanted absent := by
    rw [← located.isSome_iff] at absent
    exact ⟨create wanted, by rw [requested, if_neg absent], created wanted⟩

theorem Numbering.interned {α : Type} [DecidableEq α]
    (numbering : Numbering α) :
    Interned Numbered.number Numbered.item numbering.entries
      numbering.find? fun item => (numbering.request item).entries := by
  refine .of_located (fun item => ⟨numbering.size, item⟩) numbering.dense
    numbering.located (fun item => ⟨rfl, rfl⟩) fun item => ?_
  unfold request
  split <;> rfl

/-- The four kinds of pointers have tables of their own and share the list. -/
theorem Store.interned (store : Store) :
    Interned Cell.number Cell.pointer store.cells store.find?
      fun pointer => (store.touch pointer).cells := by
  refine .of_located (fun pointer => ⟨store.size, pointer, []⟩) store.dense
    store.located (fun pointer => ⟨rfl, rfl⟩) fun pointer => ?_
  unfold touch has
  split <;> rfl

theorem Numbering.exists_number {α : Type} [DecidableEq α]
    {numbering : Numbering α} {item : α} (member : item ∈ numbering.items) :
    ∃ number < numbering.size, numbering.number? item = some number := by
  rcases List.mem_iff_getElem?.mp member with ⟨number, listed⟩
  refine ⟨number, ?_, (numbering.number?_eq_some_iff item number).mpr listed⟩
  have bound := (List.getElem?_eq_some_iff.mp listed).1
  rwa [items, List.length_map] at bound

/-- What is numbered through is extended together with its numbers. -/
theorem isPrefix_of_dense {α : Type} {before after : List (Numbered α)}
    (dense : before.map Numbered.number = List.range before.length)
    (denseToo : after.map Numbered.number = List.range after.length)
    (longer : before.map Numbered.item <+: after.map Numbered.item) :
    before <+: after := by
  rw [List.prefix_iff_getElem?] at longer ⊢
  intro position bound
  have item := longer position (by simpa using bound)
  rw [List.getElem?_map, Option.map_eq_some_iff] at item
  rcases item with ⟨entry, listed, same⟩
  rw [List.getElem_map] at same
  have number := number_eq_of_dense dense (List.getElem?_eq_getElem bound)
  have numberToo := number_eq_of_dense denseToo listed
  rw [listed, Numbered.ext (numberToo.trans number.symm) same]

/-! ## States -/

/-- Numbers stand for what they number. -/
structure State.Faithful (state : State) : Prop where
  /-- The key of a pointer is its kind with what pointers of this kind have. -/
  pointers : Interned Cell.number Cell.pointer state.store.cells
    state.store.find? fun pointer => (state.touch pointer).store.cells
  objects : Interned Numbered.number Numbered.item state.objects.entries
    state.objects.find? fun obj => (state.meetObj obj).objects.entries
  methods : Interned Numbered.number Numbered.item state.methods.entries
    state.methods.find? fun method => (state.meetMethod method).methods.entries
  sites : Interned Numbered.number Numbered.item state.sites.entries
    state.sites.find? fun site => (state.meetSite site).sites.entries
  /-- The methods of call sites are numbered with them. -/
  contained : ∀ site ∈ state.sites.items,
    ⟨site.context, site.val.method⟩ ∈ state.methods.items
  pointed : ∀ pointer, ∀ obj ∈ state.store.get pointer,
    ∃ number < state.objects.size, state.objects.number? obj = some number
  queued : ∀ work ∈ state.worklist.toList,
    ∀ obj ∈ work.payload.objects state.store,
      ∃ number < state.objects.size, state.objects.number? obj = some number
  /-- Flow edges connect pointers with the numbers that these have. -/
  flow : ∀ arc ∈ state.flow.arcs,
    arc.source ∈ state.store.nodes ∧ arc.target ∈ state.store.nodes
  /-- Reachable methods are marked with the numbers that methods have. -/
  reached : state.calls.members ⊆ state.methods.entries

/-- A later state keeps what an earlier one has numbered and found out. -/
structure State.Keeps (earlier later : State) : Prop where
  pointers : earlier.store.nodes <+: later.store.nodes
  objects : earlier.objects.entries <+: later.objects.entries
  methods : earlier.methods.entries <+: later.methods.entries
  reachable : earlier.calls.reachable <+: later.calls.reachable
  edges : earlier.calls.edges <+: later.calls.edges
  succs : ∀ pointer, earlier.succs pointer <+: later.succs pointer
  get : ∀ pointer, earlier.store.get pointer ⊆ later.store.get pointer

theorem Visits.faithful (coherent : setup.program.Coherent) {state : State}
    (visits : Visits setup entries state) : state.Faithful := by
  have supported := (visits.proper coherent).supported
  constructor
  case pointers => exact state.store.interned
  case objects => exact state.objects.interned
  case methods => exact state.methods.interned
  case sites =>
    simp only [State.sites_meetSite]
    exact state.sites.interned
  case contained => exact supported.contained
  case pointed =>
    intro pointer obj member
    exact Numbering.exists_number (supported.numbered pointer obj member)
  case queued =>
    intro work waiting obj carried
    have ready := supported.ready work waiting
    exact Numbering.exists_number (supported.numbered_of_ready ready carried)
  case flow => exact supported.within
  case reached => exact (visits.rooted coherent).numbered

theorem State.Extends.keeps {earlier later : State}
    (extended : earlier.Extends later)
    (within : earlier.flow.Within earlier.store.nodes)
    (withinToo : later.flow.Within later.store.nodes) :
    earlier.Keeps later where
  pointers := by
    refine isPrefix_of_dense earlier.store.dense_nodes
      later.store.dense_nodes ?_
    rw [Store.items_nodes, Store.items_nodes]
    exact extended.pointers
  objects := isPrefix_of_dense earlier.objects.dense later.objects.dense
    extended.objects
  methods := isPrefix_of_dense earlier.methods.dense later.methods.dense
    extended.methods
  reachable := extended.reachable
  edges := extended.edges
  succs pointer := by
    rw [State.succs_eq within, State.succs_eq withinToo]
    exact (extended.flow.filter _).map _
  get := extended.get

/--
In every state that the solver visits, pointers, objects and methods are listed
at their numbers, elements are the same exactly if their keys are, and whatever
refers to an element by number refers to one that is listed.  Each step appends
to the lists of elements, reachable methods, call edges and successors, and
pointers keep their objects.
-/
theorem faithful_of_visits (made : setup.program.Made) {state : State}
    (visits : Visits setup entries state) :
    state.Faithful ∧
      ∀ next, setup.step state = .advanced next → state.Keeps next := by
  have coherent := made.coherent
  have proper := visits.proper coherent
  refine ⟨visits.faithful coherent, fun next stepped => ?_⟩
  have extended := Setup.step_extends coherent proper stepped
  have later := (visits.step stepped).proper coherent
  exact extended.keeps proper.supported.within later.supported.within

/-- How many pointers, objects, call sites and flow edges a state has. -/
def State.sizes (state : State) : List Nat :=
  [state.store.size, state.objects.size, state.sites.size, state.flow.size]

/-- A delivery meets a call, which adds an object and a flow edge. -/
theorem faithful_of_visits_cyclic :
    Cyclic.tracked.program.Made ∧ ∃ state next,
      Visits Cyclic.tracked [Cyclic.main] state ∧
      Cyclic.tracked.step state = .advanced next ∧
      state.sizes = [5, 2, 1, 4] ∧ next.sizes = [5, 3, 2, 5] ∧
      state.Faithful ∧ state.Keeps next := by
  have measured : (Cyclic.tracked.after? [Cyclic.main] 4).map
      (fun state => (state.sizes,
        match Cyclic.tracked.step state with
        | .advanced next => next.sizes
        | _ => [])) = some ([5, 2, 1, 4], [5, 3, 2, 5]) := by
    decide +kernel
  obtain ⟨state, visits, found⟩ := Setup.exists_visits measured
  obtain ⟨before, after⟩ := Prod.mk.inj found
  split at after
  · rename_i next stepped
    have faithful := faithful_of_visits Cyclic.made visits
    exact ⟨Cyclic.made, state, next, visits, stepped, before, after,
      faithful.1, faithful.2 next stepped⟩
  · cases after

end PointsTo
