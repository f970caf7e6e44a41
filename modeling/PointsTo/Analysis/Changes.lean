import PointsTo.Analysis.State

/-!
# Changes between states

States only grow.  What a later state has beyond an earlier one is read off
the ends of its lists and the differences of its sets.
-/

namespace PointsTo

/-- What a state has beyond an earlier one. -/
structure Changes where
  objects : List ContextObj
  pointers : List Pointer
  /-- Pointers, by their numbers, with the objects that they gained. -/
  grown : List (Nat × List ContextObj)

/-- What `later` has beyond `earlier`. -/
def State.changesTo (earlier later : State) : Changes :=
  { objects := later.objects.items.drop earlier.objects.size
    pointers := later.store.pointers.drop earlier.store.size
    grown :=
      (later.store.cells.map fun cell =>
        (cell.number,
          later.ordered (cell.objects.diff (earlier.store.get cell.pointer)))).filter
        fun change => !change.2.isEmpty }

end PointsTo
