import PointsTo.Analysis.Context

/-!
# Pointers and what they point to

A pointer is something that can hold references to objects.  The store lists
the pointers with their numbers in the order of their creation, together with
the objects that each of them points to; it only grows.  Pointers of each kind
are found by a table of their own, and all kinds share the numbers.
-/

namespace PointsTo

/-- A node of the flow graph. -/
inductive Pointer where
  /-- A variable under the context of its method. -/
  | var (entry : ContextVar)
  /-- A field of an object. -/
  | field (base : ContextObj) (field : Field)
  /-- All elements of an array. -/
  | array (base : ContextObj)
  /-- A static field; static state has no context. -/
  | static (field : Field)
deriving DecidableEq, Repr, Inhabited

namespace Pointer

/-- The pointer of a variable of a method under a context. -/
def ofVar (context : Context) (method : MethodId) (name : String) : Pointer :=
  .var ⟨context, ⟨method, name⟩⟩

/-- The pointer as it is shown to the user. -/
def text : Pointer → String
  | .var entry => ContextVar.text entry
  | .field base declared => ContextObj.text base ++ "." ++ declared.name
  | .array base => ContextObj.text base ++ "[*]"
  | .static declared => declared.signature

/-- The variable that a pointer stands for. -/
def var? : Pointer → Option ContextVar
  | .var entry => some entry
  | _ => none

end Pointer

/-- A set of objects, as a list without repetitions. -/
abbrev ObjSet := List ContextObj

namespace ObjSet

/-- Add an object. -/
def insert (set : ObjSet) (obj : ContextObj) : ObjSet :=
  if obj ∈ set then set else set ++ [obj]

/-- The objects of `set` that are not in `other`. -/
def diff (set other : ObjSet) : ObjSet :=
  set.filter fun obj => obj ∉ other

/-- The objects of either set. -/
def union (set other : ObjSet) : ObjSet :=
  set ++ other.diff set

/-- The objects of a set in the order in which `objects` lists them. -/
def inOrder (objects : List ContextObj) (set : ObjSet) : List ContextObj :=
  objects.filter fun obj => obj ∈ set

/-- The objects that do not stand for taint. -/
def ordinary (objects : List ContextObj) : List ContextObj :=
  objects.filter fun obj => !ContextObj.isTaint obj

/-- The objects that stand for taint. -/
def taints (objects : List ContextObj) : List ContextObj :=
  objects.filter ContextObj.isTaint

/-- A list of objects as it is shown to the user. -/
def text (objects : List ContextObj) : String :=
  "\x7b" ++ ", ".intercalate (objects.map ContextObj.text) ++ "\x7d"

@[simp]
theorem mem_insert (set : ObjSet) (obj other : ContextObj) :
    other ∈ set.insert obj ↔ other ∈ set ∨ other = obj := by
  unfold insert
  split
  · constructor
    · exact Or.inl
    · rintro (present | rfl) <;> assumption
  · simp

@[simp]
theorem mem_diff (set other : ObjSet) (obj : ContextObj) :
    obj ∈ set.diff other ↔ obj ∈ set ∧ obj ∉ other := by
  simp [diff]

@[simp]
theorem mem_union (set other : ObjSet) (obj : ContextObj) :
    obj ∈ set.union other ↔ obj ∈ set ∨ obj ∈ other := by
  by_cases present : obj ∈ set <;> simp [union, present]

end ObjSet

/-- A pointer with its number and the objects that it points to. -/
structure Cell where
  number : Nat
  pointer : Pointer
  objects : ObjSet

/-- Let a pointer point to further objects. -/
def Cell.gain (cell : Cell) (objects : ObjSet) : Cell :=
  { cell with objects := cell.objects.union objects }

/-- Where the pointers of each kind are listed. -/
structure PointerPlaces where
  vars : Table ContextVar Nat
  /-- Fields are told apart by their objects, too. -/
  fields : Table (ContextObj × Field) Nat
  arrays : Table ContextObj Nat
  statics : Table Field Nat

namespace PointerPlaces

/-- No pointer is listed. -/
def empty : PointerPlaces :=
  { vars := .empty, fields := .empty, arrays := .empty, statics := .empty }

/-- The place of a pointer. -/
def find? (places : PointerPlaces) : Pointer → Option Nat
  | .var entry => places.vars.find? entry
  | .field base declared => places.fields.find? (base, declared)
  | .array base => places.arrays.find? base
  | .static declared => places.statics.find? declared

/-- List a pointer at a place. -/
def set (places : PointerPlaces) (pointer : Pointer) (place : Nat) :
    PointerPlaces :=
  match pointer with
  | .var entry => { places with vars := places.vars.set entry place }
  | .field base declared =>
      { places with fields := places.fields.set (base, declared) place }
  | .array base => { places with arrays := places.arrays.set base place }
  | .static declared =>
      { places with statics := places.statics.set declared place }

theorem find?_set (places : PointerPlaces) (pointer other : Pointer)
    (place : Nat) :
    (places.set pointer place).find? other =
      if pointer = other then some place else places.find? other := by
  cases pointer <;> cases other <;> simp [set, find?]

end PointerPlaces

/-- Pointers in the order of their creation with their objects. -/
structure Store where
  cells : List Cell
  places : PointerPlaces
  dense : cells.map Cell.number = List.range cells.length
  located : Locates places.find? (cells.map Cell.pointer)

namespace Store

/-- The store without pointers. -/
def empty : Store :=
  { cells := [], places := .empty, dense := rfl
    located := fun pointer _ => by
      cases pointer <;> simp [PointerPlaces.find?, PointerPlaces.empty] }

/-- The pointers in the order of their creation. -/
def pointers (store : Store) : List Pointer :=
  store.cells.map Cell.pointer

/-- How many pointers have been created. -/
def size (store : Store) : Nat :=
  store.cells.length

/-- The variables under contexts, in the order of their creation. -/
def contextVars (store : Store) : List ContextVar :=
  store.pointers.filterMap Pointer.var?

/-- Whether a pointer has been created. -/
def has (store : Store) (pointer : Pointer) : Bool :=
  (store.places.find? pointer).isSome

/-- The cell of a pointer that has been created. -/
def find? (store : Store) (pointer : Pointer) : Option Cell :=
  (store.places.find? pointer).bind fun place => store.cells[place]?

/-- The objects that a pointer points to. -/
def get (store : Store) (pointer : Pointer) : ObjSet :=
  match store.find? pointer with
  | some cell => cell.objects
  | none => []

/-- The number that `pointer` has after it has been created. -/
def numberOf (store : Store) (pointer : Pointer) : Nat :=
  match store.find? pointer with
  | some cell => cell.number
  | none => store.size

/-- A pointer with its number. -/
def node (store : Store) (pointer : Pointer) : Numbered Pointer :=
  ⟨store.numberOf pointer, pointer⟩

/-- All pointers with their numbers. -/
def nodes (store : Store) : List (Numbered Pointer) :=
  store.cells.map fun cell => ⟨cell.number, cell.pointer⟩

/-- Create a pointer unless it is there. -/
def touch (store : Store) (pointer : Pointer) : Store :=
  if present : store.has pointer then store
  else
    { cells := store.cells ++ [⟨store.size, pointer, []⟩]
      places := store.places.set pointer store.size
      dense := by simp [store.dense, size, List.range_succ]
      located := by
        rw [List.map_append]
        refine store.located.concat (by simpa [has] using present) fun other => ?_
        rw [PointerPlaces.find?_set, List.length_map, size] }

/-- Gaining objects changes nothing else about a pointer. -/
theorem map_modify_gain {α : Type} (cells : List Cell) (place : Nat)
    (objects : ObjSet) {key : Cell → α}
    (keeps : ∀ cell, key (cell.gain objects) = key cell) :
    (cells.modify place fun cell => cell.gain objects).map key =
      cells.map key := by
  refine List.ext_getElem? fun position => ?_
  rw [List.getElem?_map, List.getElem?_map, List.getElem?_modify]
  cases cells[position]? with
  | none => rfl
  | some cell => by_cases here : place = position <;> simp [here, keeps]

/-- Let a pointer point to further objects. -/
def add (store : Store) (pointer : Pointer) (objects : ObjSet) : Store :=
  match store.places.find? pointer with
  | none => store
  | some place =>
      { store with
        cells := store.cells.modify place fun cell => cell.gain objects
        dense := by
          rw [map_modify_gain _ _ _ fun _ => rfl, List.length_modify,
            store.dense]
        located := by
          rw [map_modify_gain _ _ _ fun _ => rfl]
          exact store.located }

theorem has_iff (store : Store) (pointer : Pointer) :
    store.has pointer = true ↔ pointer ∈ store.pointers :=
  store.located.isSome_iff pointer

@[simp]
theorem pointers_add (store : Store) (pointer : Pointer)
    (objects : ObjSet) :
    (store.add pointer objects).pointers = store.pointers := by
  unfold add
  split
  · rfl
  · exact map_modify_gain _ _ _ fun _ => rfl

/-- Creating pointers only extends their list. -/
theorem pointers_isPrefix_touch (store : Store) (pointer : Pointer) :
    store.pointers <+: (store.touch pointer).pointers := by
  unfold touch
  split
  · exact List.prefix_rfl
  · simp [pointers]

end Store

end PointsTo
