import PointsTo.Queue

/-!
# Queues serve elements in the order of their arrival

A queue vacates slots, clears them and from time to time moves its elements
down over the vacant ones.  None of this shows: whatever is asked of it, a queue
responds as a plain list of its elements would.  Hence, after any requests, the
elements that have been popped and those that are waiting are the ones that have
been pushed, in the same order.
-/

namespace PointsTo.Queue

variable {α : Type}

/-! ## Plain lists -/

namespace Plain

/-- How a list of elements, oldest first, responds to a request. -/
def respond (elements : List α) : Request α → Response α × List α
  | .push element => (.pushed, elements ++ [element])
  | .pop =>
      match elements with
      | [] => (.refused .empty, [])
      | oldest :: rest => (.popped oldest, rest)
  | .size => (.size elements.length, elements)
  | .isEmpty => (.isEmpty elements.isEmpty, elements)

/-- How a list of elements responds to requests one after another. -/
def serve (elements : List α) :
    List (Request α) → List (Response α) × List α
  | [] => ([], elements)
  | request :: rest =>
      let (response, next) := respond elements request
      let (responses, last) := serve next rest
      (response :: responses, last)

end Plain

/-! ## Histories -/

/-- The element that a request adds. -/
def Request.pushed? : Request α → Option α
  | .push element => some element
  | .pop | .size | .isEmpty => none

/-- The element that a response hands out. -/
def Response.popped? : Response α → Option α
  | .popped element => some element
  | .pushed | .refused _ | .size _ | .isEmpty _ => none

/-- The elements that requests add, oldest first. -/
def pushed (requests : List (Request α)) : List α :=
  requests.filterMap Request.pushed?

/-- The elements that responses hand out, in order. -/
def popped (responses : List (Response α)) : List α :=
  responses.filterMap Response.popped?

namespace Plain

/-- Elements that are there or added are handed out or stay, in order. -/
theorem popped_respond_append (elements : List α) (request : Request α) :
    popped [(respond elements request).1] ++ (respond elements request).2 =
      elements ++ pushed [request] := by
  cases request with
  | push element => rfl
  | pop =>
      cases elements with
      | nil => rfl
      | cons oldest rest => exact (List.append_nil _).symm
  | size => exact (List.append_nil _).symm
  | isEmpty => exact (List.append_nil _).symm

theorem popped_serve_append (requests : List (Request α))
    (elements : List α) :
    popped (serve elements requests).1 ++ (serve elements requests).2 =
      elements ++ pushed requests := by
  induction requests generalizing elements with
  | nil => exact (List.append_nil _).symm
  | cons request rest ih =>
      have first := popped_respond_append elements request
      have later := ih (respond elements request).2
      have handedOut : popped (serve elements (request :: rest)).1 =
          popped [(respond elements request).1] ++
            popped (serve (respond elements request).2 rest).1 :=
        List.filterMap_append (l := [_])
      have added : pushed (request :: rest) = pushed [request] ++ pushed rest :=
        List.filterMap_append (l := [_])
      rw [handedOut, added, List.append_assoc]
      change _ ++ (_ ++ (serve (respond elements request).2 rest).2) = _
      rw [later, ← List.append_assoc, first, List.append_assoc]

end Plain

/-! ## Queues respond like lists -/

section

variable [Inhabited α]

/-- A queue that is asked to pop hands out its oldest element. -/
theorem respond_pop_of_cons {queue : Queue α} {oldest : α}
    {elements : List α} (waiting : queue.toList = oldest :: elements) :
    ∃ rest, queue.respond .pop = (.popped oldest, rest) ∧
      rest.toList = elements := by
  rcases (queue.pop?_eq_some_iff oldest elements).mpr waiting with
    ⟨rest, taken, remaining⟩
  refine ⟨rest, ?_, remaining⟩
  rw [respond, taken]

/-- A queue without elements refuses to pop and stays as it is. -/
theorem respond_pop_of_nil {queue : Queue α} (idle : queue.toList = []) :
    queue.respond .pop = (.refused .empty, queue) := by
  rw [respond, (queue.pop?_eq_none_iff).mpr idle]

/-- One request: a queue responds as its list does, and it then stands for the
list that remains. -/
theorem respond_toList (queue : Queue α) (request : Request α) :
    ((queue.respond request).1, (queue.respond request).2.toList) =
      Plain.respond queue.toList request := by
  cases request with
  | push element => rw [respond, Plain.respond, toList_push]
  | pop =>
      cases listed : queue.toList with
      | nil => rw [respond_pop_of_nil listed, Plain.respond, listed]
      | cons oldest elements =>
          rcases respond_pop_of_cons listed with ⟨rest, taken, remaining⟩
          rw [taken, Plain.respond, remaining]
  | size => rw [respond, Plain.respond, length_toList]
  | isEmpty =>
      have same : queue.isEmpty = queue.toList.isEmpty := by
        rw [Bool.eq_iff_iff, isEmpty_iff, List.isEmpty_iff]
      rw [respond, Plain.respond, same]

/-- Any number of requests, by induction from one. -/
theorem serve_toList (requests : List (Request α)) (queue : Queue α) :
    ((queue.serve requests).1, (queue.serve requests).2.toList) =
      Plain.serve queue.toList requests := by
  induction requests generalizing queue with
  | nil => rfl
  | cons request rest ih =>
      have first := respond_toList queue request
      have later := ih (queue.respond request).2
      rw [Plain.serve, ← first]
      simp only
      rw [← later]
      rfl

/-- A queue to which `pushed` has been added and from which `popped` has been
handed out so far. -/
structure InOrder (queue : Queue α) (pushed popped : List α) : Prop where
  /-- Nothing is lost, repeated or reordered. -/
  kept : popped ++ queue.toList = pushed
  /-- The next element is the oldest one that has not been handed out. -/
  pops : ∀ oldest, (queue.respond .pop).1 = .popped oldest ↔
    pushed[popped.length]? = some oldest
  refuses : (queue.respond .pop).1 = .refused .empty ↔
    popped.length = pushed.length
  unchanged : popped.length = pushed.length →
    (queue.respond .pop).2 = queue
  counts : (queue.respond .size).1 = .size (pushed.length - popped.length)
  tells : (queue.respond .isEmpty).1 =
    .isEmpty (decide (popped.length = pushed.length))

/-- Everything else follows from the fact that nothing is lost. -/
theorem InOrder.intro {queue : Queue α} {pushed popped : List α}
    (kept : popped ++ queue.toList = pushed) :
    queue.InOrder pushed popped := by
  have lengths : pushed.length = popped.length + queue.size := by
    rw [← kept, List.length_append, length_toList]
  have next : pushed[popped.length]? = queue.toList.head? := by
    rw [← kept, List.getElem?_append_right (Nat.le_refl _), Nat.sub_self,
      List.head?_eq_getElem?]
  have idle : popped.length = pushed.length ↔ queue.toList = [] := by
    rw [lengths, ← length_toList, ← List.length_eq_zero_iff]
    omega
  constructor
  case kept => exact kept
  case pops =>
    intro oldest
    rw [next]
    cases listed : queue.toList with
    | nil => simp [respond_pop_of_nil listed]
    | cons first elements =>
        rcases respond_pop_of_cons listed with ⟨rest, taken, _⟩
        simp [taken]
  case refuses =>
    rw [idle]
    cases listed : queue.toList with
    | nil => simp [respond_pop_of_nil listed]
    | cons first elements =>
        rcases respond_pop_of_cons listed with ⟨rest, taken, _⟩
        simp [taken]
  case unchanged =>
    intro same
    rw [respond_pop_of_nil (idle.mp same)]
  case counts =>
    rw [respond, lengths, Nat.add_sub_cancel_left]
  case tells =>
    have same : queue.isEmpty = decide (popped.length = pushed.length) := by
      rw [Bool.eq_iff_iff, isEmpty_iff, decide_eq_true_iff, idle]
    rw [respond, same]

end

/--
Whatever is asked of a queue that is empty at first, it responds as a plain list
would.  After any requests, the next element to be popped is the oldest one that
has not been; popping is refused, and the queue left unchanged, exactly if as
many elements have been popped as pushed; and the queue tells how many elements
have been pushed but not popped.
-/
theorem serves_in_order [Inhabited α] (requests : List (Request α)) :
    let served := (empty : Queue α).serve requests
    (served.1, served.2.toList) = Plain.serve [] requests ∧
      served.2.InOrder (pushed requests) (popped served.1) := by
  have same := serve_toList requests (empty : Queue α)
  rw [toList_empty] at same
  have kept := Plain.popped_serve_append requests []
  rw [← same] at kept
  exact ⟨same, .intro kept⟩

/-- The elements are moved down when the thirty-second of forty is popped. -/
example :
    let served := (empty : Queue Nat).serve
      ((List.range 40).map .push ++ List.replicate 32 .pop)
    (served.2.head, served.2.slots.size) = (0, 8) ∧
      served.2.toList = [32, 33, 34, 35, 36, 37, 38, 39] := by
  decide +kernel

end PointsTo.Queue
