import PointsTo.Table

/-!
# Numbering by first request

Objects, methods, call sites and contexts get dense numbers in the order in
which they are first asked for.  A numbering lists the items met so far with
their numbers and keeps a table of the places where they are listed.  The two
are always in step: an item is found where it is listed, so that it is listed
once only, and its number is its position.
-/

namespace PointsTo

/-- An item with its number. -/
@[ext]
structure Numbered (α : Type) where
  number : Nat
  item : α
deriving DecidableEq, Repr

/-- A list without repetitions takes a new item at its end. -/
theorem nodup_concat {α : Type} {items : List α} {item : α}
    (distinct : items.Nodup) (absent : item ∉ items) :
    (items ++ [item]).Nodup := by
  rw [List.nodup_append]
  refine ⟨distinct, by simp, fun other member last found => ?_⟩
  rw [List.mem_singleton.mp found]
  exact fun same => absent (same ▸ member)

/-- What is numbered through from zero is listed at its number. -/
theorem number_eq_of_dense {α : Type} {entries : List α} {number : α → Nat}
    (dense : entries.map number = List.range entries.length)
    {position : Nat} {entry : α}
    (listed : entries[position]? = some entry) : number entry = position := by
  have bound := (List.getElem?_eq_some_iff.mp listed).1
  have same := congrArg (fun numbers : List Nat => numbers[position]?) dense
  simp only [List.getElem?_map, listed, Option.map_some,
    List.getElem?_range bound] at same
  exact Option.some.inj same

/-- Entries are at the positions that they have as their numbers. -/
theorem mem_iff_of_dense {α : Type} {entries : List (Numbered α)}
    (dense : entries.map Numbered.number = List.range entries.length)
    (entry : Numbered α) :
    entry ∈ entries ↔
      (entries.map Numbered.item)[entry.number]? = some entry.item := by
  rw [List.getElem?_map, Option.map_eq_some_iff]
  constructor
  · intro member
    rcases List.mem_iff_getElem?.mp member with ⟨position, listed⟩
    rw [number_eq_of_dense dense listed]
    exact ⟨entry, listed, rfl⟩
  · rintro ⟨other, listed, same⟩
    rw [← Numbered.ext (number_eq_of_dense dense listed) same]
    exact List.mem_of_getElem? listed

/-- Keys are found at the positions where they are listed. -/
def Locates {κ : Type} (find? : κ → Option Nat) (keys : List κ) : Prop :=
  ∀ key position, find? key = some position ↔ keys[position]? = some key

namespace Locates

variable {κ : Type} {find? : κ → Option Nat} {keys : List κ}

/-- What is found is listed. -/
theorem isSome_iff (locates : Locates find? keys) (key : κ) :
    (find? key).isSome = true ↔ key ∈ keys := by
  simp only [Option.isSome_iff_exists, List.mem_iff_getElem?, locates key]

/-- A key that can be found in one place only is listed once only. -/
theorem nodup (locates : Locates find? keys) : keys.Nodup := by
  rw [List.nodup_iff_pairwise_ne, List.pairwise_iff_getElem]
  intro first second firstBound secondBound before same
  have here := (locates _ first).mpr (List.getElem?_eq_getElem firstBound)
  have there := (locates _ second).mpr (List.getElem?_eq_getElem secondBound)
  rw [same, there] at here
  exact Nat.ne_of_lt before (Option.some.inj here).symm

/-- A new key is listed at the end and found there. -/
theorem concat [DecidableEq κ] (locates : Locates find? keys) {key : κ}
    (absent : find? key = none) {next : κ → Option Nat}
    (set : ∀ other, next other =
      if key = other then some keys.length else find? other) :
    Locates next (keys ++ [key]) := by
  intro other position
  rw [set]
  by_cases asked : key = other
  · subst asked
    have missing : ∀ place : Nat, keys[place]? ≠ some key := by
      intro place found
      rw [← locates key place, absent] at found
      cases found
    rw [if_pos rfl, Option.some_inj]
    constructor
    · rintro rfl
      simp
    · intro found
      rcases Nat.lt_trichotomy position keys.length with old | last | beyond
      · rw [List.getElem?_append_left old] at found
        exact absurd found (missing position)
      · exact last.symm
      · rw [List.getElem?_eq_none (by simpa using Nat.succ_le_of_lt beyond)]
          at found
        cases found
  · rw [if_neg asked, locates other position]
    rcases Nat.lt_trichotomy position keys.length with old | last | beyond
    · rw [List.getElem?_append_left old]
    · simp [last, asked]
    · rw [List.getElem?_eq_none (Nat.le_of_lt beyond),
        List.getElem?_eq_none (by simpa using Nat.succ_le_of_lt beyond)]

/-- An entry is found by its key. -/
theorem bind_eq_some_iff {α : Type} {key : α → κ} {entries : List α}
    (locates : Locates find? (entries.map key)) (wanted : κ) (entry : α) :
    ((find? wanted).bind fun place => entries[place]?) = some entry ↔
      entry ∈ entries ∧ key entry = wanted := by
  rw [Option.bind_eq_some_iff]
  constructor
  · rintro ⟨place, found, here⟩
    rw [locates wanted place, List.getElem?_map, here] at found
    exact ⟨List.mem_of_getElem? here, Option.some.inj found⟩
  · rintro ⟨member, rfl⟩
    rcases List.mem_iff_getElem?.mp member with ⟨place, here⟩
    refine ⟨place, ?_, here⟩
    rw [locates _ place, List.getElem?_map, here]
    rfl

end Locates

/-- Items in the order of their first request. -/
structure Numbering (α : Type) [DecidableEq α] where
  /-- The items with their numbers. -/
  entries : List (Numbered α)
  /-- Where the items are listed. -/
  places : Table α Nat
  dense : entries.map Numbered.number = List.range entries.length
  located : Locates places.find? (entries.map Numbered.item)

namespace Numbering

variable {α : Type} [DecidableEq α]

/-- The numbering of no items. -/
def empty : Numbering α :=
  { entries := [], places := .empty
    dense := rfl
    located := fun _ _ => by simp }

instance : Inhabited (Numbering α) := ⟨empty⟩

/-- The items in the order of their numbers. -/
def items (numbering : Numbering α) : List α :=
  numbering.entries.map Numbered.item

/-- The entry of an item that has been requested. -/
def find? (numbering : Numbering α) (item : α) : Option (Numbered α) :=
  (numbering.places.find? item).bind fun place => numbering.entries[place]?

/-- The number of an item that has been requested. -/
def number? (numbering : Numbering α) (item : α) : Option Nat :=
  (numbering.find? item).map Numbered.number

/-- The item with the given number. -/
def get? (numbering : Numbering α) (number : Nat) : Option α :=
  (numbering.entries[number]?).map Numbered.item

/-- How many items have been requested. -/
def size (numbering : Numbering α) : Nat :=
  numbering.entries.length

/-- Request an item: it keeps its number or gets the next free one. -/
def request (numbering : Numbering α) (item : α) : Numbering α :=
  if present : (numbering.places.find? item).isSome then numbering
  else
    { entries := numbering.entries ++ [⟨numbering.size, item⟩]
      places := numbering.places.set item numbering.size
      dense := by simp [numbering.dense, size, List.range_succ]
      located := by
        rw [List.map_append]
        refine numbering.located.concat (by simpa using present) fun other => ?_
        rw [Table.find?_set, List.length_map, size] }

/-- The number that `item` has after it has been requested. -/
def numberOf (numbering : Numbering α) (item : α) : Nat :=
  (numbering.number? item).getD numbering.size

/-- An item with its number. -/
def node (numbering : Numbering α) (item : α) : Numbered α :=
  ⟨numbering.numberOf item, item⟩

@[simp]
theorem items_empty : (empty : Numbering α).items = [] := rfl

theorem mem_request (numbering : Numbering α) (item other : α) :
    other ∈ (numbering.request item).items ↔
      other ∈ numbering.items ∨ other = item := by
  unfold request
  split
  · rename_i present
    rw [numbering.located.isSome_iff] at present
    constructor
    · exact Or.inl
    · rintro (listed | rfl) <;> assumption
  · simp [items]

/-- A repeated request changes nothing. -/
theorem request_of_mem {numbering : Numbering α} {item : α}
    (member : item ∈ numbering.items) : numbering.request item = numbering := by
  rw [items, ← numbering.located.isSome_iff] at member
  rw [request, dif_pos member]

/-- Requests only extend the list of entries. -/
theorem entries_isPrefix_request (numbering : Numbering α) (item : α) :
    numbering.entries <+: (numbering.request item).entries := by
  unfold request
  split
  · exact List.prefix_rfl
  · exact List.prefix_append _ _

theorem items_isPrefix_request (numbering : Numbering α) (item : α) :
    numbering.items <+: (numbering.request item).items :=
  (numbering.entries_isPrefix_request item).map _

/-- No item is ever listed twice. -/
theorem nodup_items (numbering : Numbering α) : numbering.items.Nodup :=
  numbering.located.nodup

theorem get?_eq_getElem? (numbering : Numbering α) (number : Nat) :
    numbering.get? number = numbering.items[number]? :=
  List.getElem?_map.symm

theorem mem_entries_iff (numbering : Numbering α) (entry : Numbered α) :
    entry ∈ numbering.entries ↔
      numbering.items[entry.number]? = some entry.item :=
  mem_iff_of_dense numbering.dense entry

theorem find?_eq_some_iff (numbering : Numbering α) (item : α)
    (entry : Numbered α) :
    numbering.find? item = some entry ↔
      entry ∈ numbering.entries ∧ entry.item = item :=
  numbering.located.bind_eq_some_iff item entry

/-- The number of an item is its position. -/
theorem number?_eq_some_iff (numbering : Numbering α) (item : α)
    (number : Nat) :
    numbering.number? item = some number ↔
      numbering.items[number]? = some item := by
  rw [number?, Option.map_eq_some_iff]
  constructor
  · rintro ⟨entry, found, rfl⟩
    rw [find?_eq_some_iff] at found
    obtain ⟨member, rfl⟩ := found
    exact (numbering.mem_entries_iff entry).mp member
  · intro listed
    have member := (numbering.mem_entries_iff ⟨number, item⟩).mpr listed
    exact ⟨_, (numbering.find?_eq_some_iff item _).mpr ⟨member, rfl⟩, rfl⟩

theorem numberOf_of_getElem? {numbering : Numbering α} {item : α}
    {number : Nat} (listed : numbering.items[number]? = some item) :
    numbering.numberOf item = number := by
  rw [← number?_eq_some_iff] at listed
  rw [numberOf, listed, Option.getD_some]

/-- An item is read back by its number. -/
theorem get?_numberOf {numbering : Numbering α} {item : α}
    (member : item ∈ numbering.items) :
    numbering.get? (numbering.numberOf item) = some item := by
  rcases List.mem_iff_getElem?.mp member with ⟨number, listed⟩
  rw [numberOf_of_getElem? listed, get?_eq_getElem?, listed]

theorem node_mem_entries {numbering : Numbering α} {item : α}
    (member : item ∈ numbering.items) :
    numbering.node item ∈ numbering.entries := by
  rw [mem_entries_iff, ← get?_eq_getElem?]
  exact get?_numberOf member

end Numbering

end PointsTo
