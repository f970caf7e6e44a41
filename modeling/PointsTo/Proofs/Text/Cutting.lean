import PointsTo.Text.Blank

/-!
# Cutting texts

Texts are read from left to right: a run of characters of one class is taken as
far as it goes, or the text is cut at the first occurrence of a mark.  Both are
described here from the other side, by the pieces that a text is put together
from.
-/

namespace PointsTo.Text

/-! ## Runs of characters -/

/-- The text is empty or starts with a character outside of a class. -/
def Stops (member : Char → Bool) (text : List Char) : Prop :=
  ∀ char ∈ text.head?, member char = false

section Runs

variable {member : Char → Bool} {text front back : List Char}

@[simp]
theorem stops_nil : Stops member [] := by
  simp [Stops]

/-- A run stops where the first character does not belong to it. -/
@[simp]
theorem stops_cons {char : Char} :
    Stops member (char :: text) ↔ member char = false := by
  simp [Stops]

instance (member : Char → Bool) (text : List Char) :
    Decidable (Stops member text) :=
  match text with
  | [] => isTrue stops_nil
  | _ :: _ => decidable_of_iff _ stops_cons.symm

/-- Where a run stops, smaller runs stop as well. -/
theorem Stops.mono {other : Char → Bool} (stops : Stops other text)
    (larger : ∀ char, member char = true → other char = true) :
    Stops member text := by
  intro char first
  apply Bool.eq_false_iff.mpr
  intro inside
  have outside := stops char first
  rw [larger char inside] at outside
  cases outside

theorem Stops.append (stops : Stops member front) (present : front ≠ []) :
    Stops member (front ++ back) := by
  cases front with
  | nil => exact (present rfl).elim
  | cons char rest => exact stops

/-- A text does not end with a run if its last part does not. -/
theorem stops_reverse_append (stops : Stops member back.reverse)
    (present : back ≠ []) : Stops member (front ++ back).reverse := by
  rw [List.reverse_append]
  exact stops.append (List.reverse_ne_nil_iff.mpr present)

/-- No more of a run is left after it has been dropped. -/
theorem stops_dropWhile : Stops member (text.dropWhile member) := by
  intro char first
  have stopped := List.head?_dropWhile_not member text
  rw [Option.mem_def.mp first] at stopped
  exact stopped

theorem dropWhile_of_stops (stops : Stops member text) :
    text.dropWhile member = text := by
  cases text with
  | nil => rfl
  | cons char rest =>
      exact List.dropWhile_cons_of_neg
        (Bool.eq_false_iff.mp (stops_cons.mp stops))

theorem takeWhile_of_stops (stops : Stops member text) :
    text.takeWhile member = [] := by
  cases text with
  | nil => rfl
  | cons char rest =>
      exact List.takeWhile_cons_of_neg
        (Bool.eq_false_iff.mp (stops_cons.mp stops))

/-- A run is dropped as a whole. -/
theorem dropWhile_append (inside : ∀ char ∈ front, member char = true)
    (stops : Stops member back) :
    (front ++ back).dropWhile member = back := by
  rw [List.dropWhile_append_of_pos inside, dropWhile_of_stops stops]

/-- A run is taken as a whole. -/
theorem takeWhile_append (inside : ∀ char ∈ front, member char = true)
    (stops : Stops member back) :
    (front ++ back).takeWhile member = front := by
  rw [List.takeWhile_append_of_pos inside, takeWhile_of_stops stops,
    List.append_nil]

theorem all_of_mem_takeWhile {char : Char}
    (taken : char ∈ text.takeWhile member) :
    member char = true :=
  List.all_eq_true.mp List.all_takeWhile char taken

end Runs

/-! ## Marks -/

/-- A text is cut at the first mark. -/
theorem cut?_eq_some_iff {mark : Char} {text before after : List Char} :
    cut? mark text = some (before, after) ↔
      text = before ++ mark :: after ∧ mark ∉ before := by
  constructor
  · exact cut?_eq_some
  · rintro ⟨rfl, absent⟩
    induction before with
    | nil => exact if_pos rfl
    | cons char rest ih =>
        rw [List.mem_cons, not_or] at absent
        rw [List.cons_append, cut?, if_neg (Ne.symm absent.1), ih absent.2]
        rfl

/-! ## Pieces -/

section Pieces

variable {separates : Char → Bool} {piece : List Char}

/-- A text without separators is one piece. -/
theorem splitWhen_of_whole (whole : ∀ char ∈ piece, separates char = false) :
    splitWhen separates piece = [piece] := by
  induction piece with
  | nil => rfl
  | cons char rest ih =>
      rw [splitWhen, ih fun other later => whole other (.tail _ later),
        if_neg (Bool.eq_false_iff.mp (whole char (.head _)))]

/-- A separator ends the piece before it. -/
theorem splitWhen_append {mark : Char} {text : List Char}
    (whole : ∀ char ∈ piece, separates char = false)
    (ends : separates mark = true) :
    splitWhen separates (piece ++ mark :: text) =
      piece :: splitWhen separates text := by
  induction piece with
  | nil => exact if_pos ends
  | cons char rest ih =>
      rw [List.cons_append, splitWhen,
        ih fun other later => whole other (.tail _ later),
        if_neg (Bool.eq_false_iff.mp (whole char (.head _)))]

/-- Joined texts have the characters of the pieces and of the separator. -/
theorem mem_intercalate {separator : String} {pieces : List String}
    {char : Char} (member : char ∈ (separator.intercalate pieces).toList) :
    char ∈ separator.toList ∨ ∃ piece ∈ pieces, char ∈ piece.toList := by
  induction pieces with
  | nil =>
      rw [String.intercalate_nil] at member
      cases member
  | cons first rest ih =>
      cases rest with
      | nil =>
          rw [String.intercalate_singleton] at member
          exact .inr ⟨first, .head _, member⟩
      | cons next rest =>
          rw [String.intercalate_cons_cons, String.toList_append,
            String.toList_append, List.mem_append, List.mem_append] at member
          rcases member with (here | between) | later
          · exact .inr ⟨first, .head _, here⟩
          · exact .inl between
          · rcases ih later with between | ⟨piece, listed, inside⟩
            · exact .inl between
            · exact .inr ⟨piece, .tail _ listed, inside⟩

theorem intercalate_ne_nil {separator first : String} {rest : List String}
    (present : first.toList ≠ []) :
    (separator.intercalate (first :: rest)).toList ≠ [] := by
  cases rest with
  | nil =>
      rw [String.intercalate_singleton]
      exact present
  | cons next rest =>
      rw [String.intercalate_cons_cons, String.toList_append,
        String.toList_append, List.append_assoc]
      exact List.append_ne_nil_of_left_ne_nil present _

/-- A joined text begins like its first piece. -/
theorem stops_intercalate {member : Char → Bool} {separator first : String}
    {rest : List String} (stops : Stops member first.toList)
    (present : first.toList ≠ []) :
    Stops member (separator.intercalate (first :: rest)).toList := by
  cases rest with
  | nil =>
      rw [String.intercalate_singleton]
      exact stops
  | cons next rest =>
      rw [String.intercalate_cons_cons, String.toList_append,
        String.toList_append, List.append_assoc]
      exact stops.append present

theorem stops_reverse_intercalate {member : Char → Bool} {separator : String}
    {pieces : List String}
    (ends : ∀ piece ∈ pieces, piece.toList ≠ [] ∧
      Stops member piece.toList.reverse) :
    Stops member (separator.intercalate pieces).toList.reverse := by
  induction pieces with
  | nil =>
      rw [String.intercalate_nil]
      exact stops_nil
  | cons first rest ih =>
      cases rest with
      | nil =>
          rw [String.intercalate_singleton]
          exact (ends first (.head _)).2
      | cons next rest =>
          rw [String.intercalate_cons_cons, String.toList_append]
          apply stops_reverse_append
          · exact ih fun piece later => ends piece (.tail _ later)
          · exact intercalate_ne_nil (ends next (.tail _ (.head _))).1

/-- Pieces that are joined by a mark and a gap are separated again; the gaps
stay with the pieces that follow them. -/
theorem splitWhen_intercalate {mark : Char} {separator : String}
    {gap : List Char} (joined : separator.toList = mark :: gap)
    (solid : mark ∉ gap) {first : String} {rest : List String}
    (whole : ∀ piece ∈ first :: rest, mark ∉ piece.toList) :
    splitWhen (· = mark) (separator.intercalate (first :: rest)).toList =
      first.toList :: rest.map fun piece => gap ++ piece.toList := by
  have outside : ∀ {text : List Char}, mark ∉ text →
      ∀ char ∈ text, decide (char = mark) = false := by
    rintro text absent char member
    exact decide_eq_false fun same => absent (same ▸ member)
  induction rest generalizing first with
  | nil =>
      rw [String.intercalate_singleton]
      exact splitWhen_of_whole (outside (whole first (.head _)))
  | cons next rest ih =>
      have absent : mark ∉ (String.ofList gap ++ next).toList := by
        rw [String.toList_append, String.toList_ofList, List.mem_append]
        rintro (here | later)
        · exact solid here
        · exact whole next (.tail _ (.head _)) later
      have others := @ih (String.ofList gap ++ next) (by
        rintro piece (_ | ⟨_, member⟩)
        · exact absent
        · exact whole piece (.tail _ (.tail _ member)))
      rw [String.intercalate_cons_append, String.toList_append,
        String.toList_ofList] at others
      rw [String.intercalate_cons_cons, String.toList_append,
        String.toList_append, joined, List.append_assoc, List.cons_append,
        splitWhen_append (outside (whole first (.head _)))
          (decide_eq_true rfl), others]
      simp

end Pieces

/-! ## Blanks -/

/-- Nothing is trimmed where there are no blanks. -/
theorem trim_eq_self {text : List Char} (start : Stops isBlank text)
    (finish : Stops isBlank text.reverse) :
    trim text = text := by
  rw [trim, dropWhile_of_stops start, dropWhile_of_stops finish,
    List.reverse_reverse]

theorem trim_cons_of_blank {char : Char} {text : List Char}
    (blank : isBlank char = true) :
    trim (char :: text) = trim text := by
  rw [trim, List.dropWhile_cons_of_pos blank, trim]

/-- What trimming removes. -/
theorem exists_trim (text : List Char) :
    ∃ lead trail, text = lead ++ (trim text ++ trail) ∧
      (∀ char ∈ lead, isBlank char = true) ∧
      ∀ char ∈ trail, isBlank char = true := by
  have start := List.takeWhile_append_dropWhile (p := isBlank) (l := text)
  have finish := List.takeWhile_append_dropWhile (p := isBlank)
    (l := (text.dropWhile isBlank).reverse)
  rw [← List.reverse_inj, List.reverse_append, List.reverse_reverse] at finish
  refine ⟨text.takeWhile isBlank,
    ((text.dropWhile isBlank).reverse.takeWhile isBlank).reverse, ?_, ?_, ?_⟩
  · rw [trim, finish, start]
  · exact fun char => all_of_mem_takeWhile
  · intro char member
    exact all_of_mem_takeWhile (List.mem_reverse.mp member)

theorem trim_isInfix (text : List Char) : trim text <:+: text := by
  rcases exists_trim text with ⟨lead, trail, whole, _, _⟩
  exact ⟨lead, trail, by rw [List.append_assoc, ← whole]⟩

/-- Trimming takes away blanks only. -/
theorem mem_trim_iff {mark : Char} {text : List Char}
    (solid : isBlank mark = false) : mark ∈ trim text ↔ mark ∈ text := by
  rcases exists_trim text with ⟨lead, trail, whole, before, behind⟩
  constructor
  · exact fun member => (trim_isInfix text).subset member
  · intro member
    rw [whole, List.mem_append, List.mem_append] at member
    rcases member with lead | inside | trail
    · rw [before mark lead] at solid
      cases solid
    · exact inside
    · rw [behind mark trail] at solid
      cases solid

/-- Nothing is dropped before the first comma. -/
theorem dropSpaceAfterComma_append {front text : List Char}
    (absent : ',' ∉ front) :
    dropSpaceAfterComma (front ++ text) =
      front ++ dropSpaceAfterComma text := by
  induction front with
  | nil => rfl
  | cons char rest ih =>
      rw [List.mem_cons, not_or] at absent
      rw [List.cons_append, dropSpaceAfterComma, ih absent.2, List.cons_append]
      exact fun _ comma => (absent.1 comma.symm).elim

theorem dropSpaceAfterComma_of_not_mem {text : List Char}
    (absent : ' ' ∉ text) :
    dropSpaceAfterComma text = text := by
  induction text with
  | nil => rfl
  | cons char rest ih =>
      rw [List.mem_cons, not_or] at absent
      rw [dropSpaceAfterComma, ih absent.2]
      rintro next - rfl
      exact absent.2 (.head _)

end PointsTo.Text
