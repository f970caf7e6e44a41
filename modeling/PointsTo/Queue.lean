/-!
# First-in, first-out queues

A queue keeps its elements in an array, from oldest to newest, behind slots
that have been vacated.  Vacant slots are cleared; once they make up half of a
large array, the elements are moved down to its beginning.

The meaning of a queue is the list `toList` of its elements from oldest to
newest; each operation is described by what it does to that list.
-/

namespace PointsTo

/-- A first-in, first-out queue. -/
structure Queue (α : Type) where
  /-- Vacant slots, then the elements from oldest to newest. -/
  slots : Array α := #[]
  /-- The number of vacant slots. -/
  head : Nat := 0
  head_le : head ≤ slots.size := by simp

namespace Queue

variable {α : Type}

/-- Why an element could not be taken. -/
inductive PopError where
  | empty
deriving DecidableEq

/-- The wording of a failed `pop`. -/
def PopError.message : PopError → String
  | .empty => "Queue is empty"

/-- The queue without elements. -/
def empty : Queue α := {}

instance : Inhabited (Queue α) := ⟨empty⟩

/-- The elements from oldest to newest. -/
def toList (queue : Queue α) : List α :=
  queue.slots.toList.drop queue.head

/-- Add a newest element. -/
def push (queue : Queue α) (element : α) : Queue α :=
  { queue with
    slots := queue.slots.push element
    head_le := by
      rw [Array.size_push]
      exact Nat.le_succ_of_le queue.head_le }

/-- The number of elements. -/
def size (queue : Queue α) : Nat :=
  queue.slots.size - queue.head

/-- Whether there are no elements. -/
def isEmpty (queue : Queue α) : Bool :=
  queue.head == queue.slots.size

/--
Copy `count` slots down by `distance`, the first of them to `index`.  They are
copied from the first to the last, so none is overwritten before it is read.
-/
def moveDown (distance : Nat) : (count index : Nat) → Array α → Array α
  | 0, _, slots => slots
  | count + 1, index, slots =>
      moveDown distance count (index + 1)
        (match slots[distance + index]? with
        | some element => slots.setIfInBounds index element
        | none => slots)

/-- Reuse the vacant slots once they make up half of a large array. -/
def compact (queue : Queue α) : Queue α :=
  if 32 ≤ queue.head ∧ queue.slots.size ≤ queue.head * 2 then
    { slots := (moveDown queue.head queue.size 0 queue.slots).shrink
        queue.size }
  else queue

/-- Clear and vacate the slot of the oldest element. -/
def vacate [Inhabited α] (queue : Queue α)
    (waiting : queue.head < queue.slots.size) : Queue α :=
  { slots := queue.slots.set queue.head default
    head := queue.head + 1
    head_le := by
      rw [Array.size_set]
      exact waiting }

/-- Take the oldest element, if there is one. -/
def pop? [Inhabited α] (queue : Queue α) : Option (α × Queue α) :=
  if waiting : queue.head < queue.slots.size then
    some (queue.slots[queue.head], (queue.vacate waiting).compact)
  else none

/-! ## Requests -/

/-- What can be asked of a queue. -/
inductive Request (α : Type) where
  | push (element : α)
  | pop
  | size
  | isEmpty
deriving DecidableEq

/-- What a queue responds. -/
inductive Response (α : Type) where
  | pushed
  | popped (element : α)
  | refused (error : PopError)
  | size (count : Nat)
  | isEmpty (answer : Bool)
deriving DecidableEq

/-- Respond to a request. -/
def respond [Inhabited α] (queue : Queue α) :
    Request α → Response α × Queue α
  | .push element => (.pushed, queue.push element)
  | .pop =>
      match queue.pop? with
      | some (element, rest) => (.popped element, rest)
      | none => (.refused .empty, queue)
  | .size => (.size queue.size, queue)
  | .isEmpty => (.isEmpty queue.isEmpty, queue)

/-- Respond to requests one after another. -/
def serve [Inhabited α] (queue : Queue α) :
    List (Request α) → List (Response α) × Queue α
  | [] => ([], queue)
  | request :: rest =>
      let (response, next) := queue.respond request
      let (responses, last) := next.serve rest
      (response :: responses, last)

/-! ## Elements -/

@[simp]
theorem toList_empty : (empty : Queue α).toList = [] := rfl

@[simp]
theorem toList_push (queue : Queue α) (element : α) :
    (queue.push element).toList = queue.toList ++ [element] := by
  rw [toList, toList, push, Array.toList_push]
  exact List.drop_append_of_le_length queue.head_le

@[simp]
theorem length_toList (queue : Queue α) :
    queue.toList.length = queue.size := by
  rw [toList, List.length_drop, Array.length_toList, size]

theorem toList_eq_nil_iff (queue : Queue α) :
    queue.toList = [] ↔ queue.slots.size ≤ queue.head := by
  rw [toList, List.drop_eq_nil_iff, Array.length_toList]

@[simp]
theorem isEmpty_iff (queue : Queue α) :
    queue.isEmpty = true ↔ queue.toList = [] := by
  have bounded := queue.head_le
  rw [isEmpty, beq_iff_eq, toList_eq_nil_iff]
  omega

/-- Slots that are copied down read what they have been copied from; the others
keep what they hold. -/
theorem getElem?_moveDown (distance count index : Nat) (slots : Array α)
    (enough : distance + index + count ≤ slots.size) (position : Nat) :
    (moveDown distance count index slots)[position]? =
      if index ≤ position ∧ position < index + count then
        slots[distance + position]?
      else slots[position]? := by
  induction count generalizing index slots with
  | zero =>
      rw [moveDown, if_neg (by omega)]
  | succ count ih =>
      have source : distance + index < slots.size := by omega
      have target : index < slots.size := by omega
      rw [moveDown, Array.getElem?_eq_getElem source]
      simp only
      rw [ih (index + 1) _ (by rw [Array.size_setIfInBounds]; omega)]
      simp only [Array.getElem?_setIfInBounds, if_pos target]
      -- Only the first of the copied slots has been overwritten so far, and
      -- the sources of the others lie behind it.
      by_cases first : position = index
      · subst first
        rw [if_neg (by omega), if_pos rfl, if_pos (by omega),
          Array.getElem?_eq_getElem source]
      · rw [if_neg (Ne.symm first)]
        by_cases copied : index + 1 ≤ position ∧
            position < index + 1 + count
        · rw [if_pos copied, if_neg (by omega), if_pos (by omega)]
        · rw [if_neg copied, if_neg (by omega)]

/-- Moving the elements changes neither them nor their order. -/
@[simp]
theorem toList_compact (queue : Queue α) :
    queue.compact.toList = queue.toList := by
  have bounded := queue.head_le
  unfold compact
  split
  · rw [toList, List.drop_zero, Array.toList_shrink, toList]
    apply List.ext_getElem?
    intro position
    rw [List.getElem?_drop, List.getElem?_take, Array.getElem?_toList,
      Array.getElem?_toList]
    split
    · rename_i inside
      rw [getElem?_moveDown _ _ _ _ (by rw [size]; omega), if_pos (by omega)]
    · rename_i outside
      rw [size] at outside
      exact (Array.getElem?_eq_none (by omega)).symm
  · rfl

/-- Vacating a slot uncovers the next element. -/
theorem toList_vacate [Inhabited α] (queue : Queue α)
    (waiting : queue.head < queue.slots.size) :
    queue.toList =
      queue.slots[queue.head] :: (queue.vacate waiting).toList := by
  rw [toList, toList, vacate, Array.toList_set,
    List.drop_set_of_lt (Nat.lt_succ_self queue.head)]
  exact List.drop_eq_getElem_cons waiting

section

variable [Inhabited α]

theorem pop?_eq_none_iff (queue : Queue α) :
    queue.pop? = none ↔ queue.toList = [] := by
  rw [pop?]
  split
  · rename_i waiting
    rw [queue.toList_vacate waiting]
    simp
  · rename_i idle
    simp [queue.toList_eq_nil_iff.mpr (Nat.le_of_not_lt idle)]

/-- Taking an element uncovers the next one: `pop?` splits off the head. -/
theorem pop?_eq_some_iff (queue : Queue α) (element : α)
    (elements : List α) :
    (∃ rest, queue.pop? = some (element, rest) ∧
        rest.toList = elements) ↔
      queue.toList = element :: elements := by
  rw [pop?]
  split
  · rename_i waiting
    rw [queue.toList_vacate waiting]
    simp [and_assoc]
  · rename_i idle
    simp [queue.toList_eq_nil_iff.mpr (Nat.le_of_not_lt idle)]

end

end Queue

end PointsTo
