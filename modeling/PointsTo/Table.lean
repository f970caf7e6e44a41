/-!
# Tables

A table is a finite map: it lists keys with their values.  A key that is set
again keeps its place.  Tables of rows collect the items of each key, and
tables of marks say which keys have been marked.
-/

namespace PointsTo

/-- Keys with their values. -/
structure Table (κ ν : Type) where
  entries : List (κ × ν)

namespace Table

variable {κ ν : Type} [DecidableEq κ]

/-- The table without keys. -/
def empty : Table κ ν :=
  ⟨[]⟩

/-- The value of a key. -/
def find? (table : Table κ ν) (key : κ) : Option ν :=
  table.entries.lookup key

/-- Replace the value of a key in a list; a key that is missing is appended. -/
def replace (key : κ) (value : ν) : List (κ × ν) → List (κ × ν)
  | [] => [(key, value)]
  | entry :: rest =>
      if entry.1 = key then (key, value) :: rest
      else entry :: replace key value rest

/-- Give a value to a key. -/
def set (table : Table κ ν) (key : κ) (value : ν) : Table κ ν :=
  ⟨replace key value table.entries⟩

@[simp]
theorem find?_empty (key : κ) : (empty : Table κ ν).find? key = none := rfl

theorem lookup_replace (key other : κ) (value : ν)
    (entries : List (κ × ν)) :
    (replace key value entries).lookup other =
      if key = other then some value else entries.lookup other := by
  induction entries with
  | nil =>
      by_cases asked : key = other
      · simp [replace, asked]
      · have differ : (other == key) = false := by simp [Ne.symm asked]
        simp [replace, List.lookup_cons, asked, differ]
  | cons entry rest ih =>
      obtain ⟨first, old⟩ := entry
      by_cases found : first = key
      · by_cases asked : key = other
        · simp [replace, found, asked]
        · have differ : (other == key) = false := by simp [Ne.symm asked]
          simp [replace, List.lookup_cons, found, asked, differ]
      · by_cases asked : other = first
        · simp [replace, found, asked, Ne.symm found]
        · have differ : (other == first) = false := by simp [asked]
          simp [replace, List.lookup_cons, found, differ, ih]

@[simp]
theorem find?_set (table : Table κ ν) (key other : κ) (value : ν) :
    (table.set key value).find? other =
      if key = other then some value else table.find? other :=
  lookup_replace key other value table.entries

/-! ## Rows -/

/-- The items of a key; there are none until the first is added. -/
def row (table : Table κ (List ν)) (key : κ) : List ν :=
  (table.find? key).getD []

/-- Add an item to those of a key. -/
def extend (table : Table κ (List ν)) (key : κ) (item : ν) :
    Table κ (List ν) :=
  table.set key (table.row key ++ [item])

@[simp]
theorem row_empty (key : κ) : (empty : Table κ (List ν)).row key = [] := rfl

theorem row_extend (table : Table κ (List ν)) (key other : κ) (item : ν) :
    (table.extend key item).row other =
      if key = other then table.row other ++ [item] else table.row other := by
  by_cases asked : key = other
  · simp [extend, row, asked]
  · simp [extend, row, asked]

/-! ## Marks -/

/-- Whether a key is marked. -/
def marked (table : Table κ Bool) (key : κ) : Bool :=
  (table.find? key).getD false

/-- Mark a key. -/
def mark (table : Table κ Bool) (key : κ) : Table κ Bool :=
  table.set key true

@[simp]
theorem marked_empty (key : κ) : (empty : Table κ Bool).marked key = false :=
  rfl

@[simp]
theorem marked_mark (table : Table κ Bool) (key other : κ) :
    (table.mark key).marked other = true ↔
      key = other ∨ table.marked other = true := by
  by_cases asked : key = other <;> simp [mark, marked, asked]

/-- The marks that belong to a key; there are none until the first is set. -/
def marksOf {μ : Type} (table : Table κ (Table μ Bool)) (key : κ) :
    Table μ Bool :=
  (table.find? key).getD .empty

/-- Set a mark that belongs to a key. -/
def markFor {μ : Type} [DecidableEq μ] (table : Table κ (Table μ Bool))
    (key : κ) (item : μ) : Table κ (Table μ Bool) :=
  table.set key ((table.marksOf key).mark item)

@[simp]
theorem marksOf_empty {μ : Type} (key : κ) :
    (empty : Table κ (Table μ Bool)).marksOf key = .empty := rfl

theorem marked_markFor {μ : Type} [DecidableEq μ]
    (table : Table κ (Table μ Bool)) (key other : κ) (item asked : μ) :
    ((table.markFor key item).marksOf other).marked asked = true ↔
      (key = other ∧ item = asked) ∨
        (table.marksOf other).marked asked = true := by
  by_cases same : key = other
  · subst same
    simp [markFor, marksOf]
  · simp [markFor, marksOf, same]

end Table

end PointsTo
