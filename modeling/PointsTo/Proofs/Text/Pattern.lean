/-!
# Patterns

A pattern describes texts and marks some of their parts as groups.  Matching is
a relation here: it says which groups a match of the whole text may have, and
leaves open how a match is looked for and which one is preferred if there are
several.
-/

namespace PointsTo.Text

/-- The number of a group and the part of the text that it stands for. -/
abbrev Capture := Nat × List Char

/-- A regular pattern with groups. -/
inductive Pattern where
  /-- One character of a class. -/
  | one (accepts : Char → Bool)
  | empty
  | append (first second : Pattern)
  | star (repeated : Pattern)
  | optional (part : Pattern)
  | group (number : Nat) (part : Pattern)

namespace Pattern

/-- A pattern matches a whole text, with the given captures from left to
right. -/
inductive Matches : Pattern → List Char → List Capture → Prop where
  | one {accepts : Char → Bool} {char : Char} (accepted : accepts char = true) :
      Matches (.one accepts) [char] []
  | empty : Matches .empty [] []
  | append {first second : Pattern} {front back : List Char}
      {captures others : List Capture} (before : Matches first front captures)
      (after : Matches second back others) :
      Matches (.append first second) (front ++ back) (captures ++ others)
  | stop {repeated : Pattern} : Matches (.star repeated) [] []
  | again {repeated : Pattern} {front back : List Char}
      {captures others : List Capture}
      (once : Matches repeated front captures)
      (later : Matches (.star repeated) back others) :
      Matches (.star repeated) (front ++ back) (captures ++ others)
  | absent {part : Pattern} : Matches (.optional part) [] []
  | present {part : Pattern} {text : List Char} {captures : List Capture}
      (inside : Matches part text captures) :
      Matches (.optional part) text captures
  | group {number : Nat} {part : Pattern} {text : List Char}
      {captures : List Capture} (inside : Matches part text captures) :
      Matches (.group number part) text ((number, text) :: captures)

/-! ## Derived patterns -/

/-- Several patterns, one after the other. -/
def sequence : List Pattern → Pattern
  | [] => .empty
  | [last] => last
  | first :: next :: rest => .append first (sequence (next :: rest))

/-- Any number of characters of a class. -/
def many (accepts : Char → Bool) : Pattern :=
  .star (.one accepts)

/-- A character of one class and then any number of characters of another. -/
def word (start part : Char → Bool) : Pattern :=
  .append (.one start) (many part)

/-- At least one character of a class. -/
def atLeastOne (accepts : Char → Bool) : Pattern :=
  word accepts accepts

/-- A fixed text. -/
def literal (fixed : String) : Pattern :=
  fixed.toList.foldr (fun expected => .append (.one (· = expected))) .empty

/-- A text between two marks, the second of which does not occur in it. -/
def enclosed (opening closing : Char) : Pattern :=
  sequence [.one (· = opening), many (· ≠ closing), .one (· = closing)]

/-! ## Patterns without groups -/

/-- A pattern has no groups, and it matches the texts with a property. -/
def Describes (pattern : Pattern) (holds : List Char → Prop) : Prop :=
  ∀ text captures, pattern.Matches text captures ↔ holds text ∧ captures = []

section Matching

variable {first second : Pattern} {holds : List Char → Prop} {number : Nat}
  {text : List Char} {captures : List Capture}

theorem matches_optional_iff :
    (optional first).Matches text captures ↔
      text = [] ∧ captures = [] ∨ first.Matches text captures := by
  constructor
  · intro matched
    cases matched with
    | absent => exact .inl ⟨rfl, rfl⟩
    | present inside => exact .inr inside
  · rintro (⟨rfl, rfl⟩ | inside)
    · exact .absent
    · exact .present inside

theorem matches_append_iff :
    (append first second).Matches text captures ↔
      ∃ front back earlier later, text = front ++ back ∧
        captures = earlier ++ later ∧ first.Matches front earlier ∧
        second.Matches back later := by
  constructor
  · intro matched
    cases matched with
    | append before after => exact ⟨_, _, _, _, rfl, rfl, before, after⟩
  · rintro ⟨front, back, earlier, later, rfl, rfl, before, after⟩
    exact .append before after

namespace Describes

variable (describes : first.Describes holds)

include describes

theorem matches_append :
    (append first second).Matches text captures ↔
      ∃ front back, text = front ++ back ∧ holds front ∧
        second.Matches back captures := by
  rw [matches_append_iff]
  constructor
  · rintro ⟨front, back, _, later, rfl, rfl, before, after⟩
    rcases (describes _ _).mp before with ⟨held, rfl⟩
    exact ⟨front, back, rfl, held, after⟩
  · rintro ⟨front, back, rfl, held, after⟩
    exact ⟨front, back, [], captures, rfl, rfl,
      (describes _ _).mpr ⟨held, rfl⟩, after⟩

theorem matches_group :
    (group number first).Matches text captures ↔
      captures = [(number, text)] ∧ holds text := by
  constructor
  · intro matched
    cases matched with
    | group inside =>
        rcases (describes _ _).mp inside with ⟨held, rfl⟩
        exact ⟨rfl, held⟩
  · rintro ⟨rfl, held⟩
    exact .group ((describes _ _).mpr ⟨held, rfl⟩)

theorem matches_group_append :
    (append (group number first) second).Matches text captures ↔
      ∃ front back later, text = front ++ back ∧
        captures = (number, front) :: later ∧ holds front ∧
        second.Matches back later := by
  rw [matches_append_iff]
  constructor
  · rintro ⟨front, back, _, later, rfl, rfl, before, after⟩
    rcases describes.matches_group.mp before with ⟨rfl, held⟩
    exact ⟨front, back, later, rfl, rfl, held, after⟩
  · rintro ⟨front, back, later, rfl, rfl, held, after⟩
    exact ⟨front, back, [(number, front)], later, rfl, rfl,
      describes.matches_group.mpr ⟨rfl, held⟩, after⟩

theorem congr {same : List Char → Prop}
    (equivalent : ∀ text, holds text ↔ same text) :
    first.Describes same := by
  intro text captures
  rw [describes, equivalent]

end Describes

theorem describes_one (accepts : Char → Bool) :
    (one accepts).Describes fun text =>
      ∃ char, accepts char = true ∧ text = [char] := by
  intro text captures
  constructor
  · intro matched
    cases matched with
    | one accepted => exact ⟨⟨_, accepted, rfl⟩, rfl⟩
  · rintro ⟨⟨char, accepted, rfl⟩, rfl⟩
    exact .one accepted

/-- A sequence of patterns without groups has no groups. -/
theorem Describes.append {other : List Char → Prop}
    (before : first.Describes holds) (after : second.Describes other) :
    (append first second).Describes fun text =>
      ∃ front back, text = front ++ back ∧ holds front ∧ other back := by
  intro text captures
  rw [before.matches_append]
  constructor
  · rintro ⟨front, back, rfl, held, later⟩
    rcases (after _ _).mp later with ⟨heldLater, rfl⟩
    exact ⟨⟨front, back, rfl, held, heldLater⟩, rfl⟩
  · rintro ⟨⟨front, back, rfl, held, heldLater⟩, rfl⟩
    exact ⟨front, back, rfl, held, (after _ _).mpr ⟨heldLater, rfl⟩⟩

theorem describes_many (accepts : Char → Bool) :
    (many accepts).Describes fun text =>
      ∀ char ∈ text, accepts char = true := by
  intro text captures
  constructor
  · generalize shape : many accepts = pattern
    intro matched
    -- On the repetitions; each of them takes one character.
    induction matched with
    | stop => exact ⟨nofun, rfl⟩
    | again once later _ ih =>
        cases shape
        rcases (describes_one accepts _ _).mp once with
          ⟨⟨char, accepted, rfl⟩, rfl⟩
        exact ⟨List.forall_mem_cons.mpr ⟨accepted, (ih rfl).1⟩, (ih rfl).2⟩
    | _ => cases shape
  · rintro ⟨all, rfl⟩
    induction text with
    | nil => exact .stop
    | cons char rest ih =>
        rcases List.forall_mem_cons.mp all with ⟨accepted, others⟩
        exact .again (.one accepted) (ih others)

theorem describes_word (start part : Char → Bool) :
    (word start part).Describes fun text =>
      ∃ char rest, text = char :: rest ∧ start char = true ∧
        ∀ char ∈ rest, part char = true := by
  apply ((describes_one start).append (describes_many part)).congr
  intro text
  constructor
  · rintro ⟨_, rest, rfl, ⟨char, first, rfl⟩, others⟩
    exact ⟨char, rest, rfl, first, others⟩
  · rintro ⟨char, rest, rfl, first, others⟩
    exact ⟨[char], rest, rfl, ⟨char, first, rfl⟩, others⟩

theorem describes_atLeastOne (accepts : Char → Bool) :
    (atLeastOne accepts).Describes fun text =>
      text ≠ [] ∧ ∀ char ∈ text, accepts char = true := by
  apply (describes_word accepts accepts).congr
  intro text
  constructor
  · rintro ⟨char, rest, rfl, first, others⟩
    exact ⟨List.cons_ne_nil _ _, List.forall_mem_cons.mpr ⟨first, others⟩⟩
  · rintro ⟨apart, all⟩
    cases text with
    | nil => exact (apart rfl).elim
    | cons char rest =>
        exact ⟨char, rest, rfl, List.forall_mem_cons.mp all⟩

theorem describes_literal (fixed : String) :
    (literal fixed).Describes (· = fixed.toList) := by
  unfold literal
  generalize fixed.toList = letters
  induction letters with
  | nil =>
      intro text captures
      constructor
      · intro matched
        cases matched with
        | empty => exact ⟨rfl, rfl⟩
      · rintro ⟨rfl, rfl⟩
        exact .empty
  | cons letter rest ih =>
      apply ((describes_one _).append ih).congr
      intro text
      constructor
      · rintro ⟨_, _, rfl, ⟨char, same, rfl⟩, rfl⟩
        rw [of_decide_eq_true same]
        rfl
      · rintro rfl
        exact ⟨[letter], rest, rfl, ⟨letter, decide_eq_true rfl, rfl⟩, rfl⟩

theorem describes_enclosed (opening closing : Char) :
    (enclosed opening closing).Describes fun text =>
      ∃ inside, closing ∉ inside ∧
        text = opening :: (inside ++ [closing]) := by
  apply ((describes_one _).append
    ((describes_many _).append (describes_one _))).congr
  intro text
  constructor
  · rintro ⟨_, _, rfl, ⟨char, opens, rfl⟩, inside, _, rfl, free, last, closes,
      rfl⟩
    rw [of_decide_eq_true opens, of_decide_eq_true closes]
    exact ⟨inside, fun member => of_decide_eq_true (free _ member) rfl, rfl⟩
  · rintro ⟨inside, absent, rfl⟩
    refine ⟨[opening], inside ++ [closing], rfl,
      ⟨opening, decide_eq_true rfl, rfl⟩, inside, [closing], rfl, ?_, closing,
      decide_eq_true rfl, rfl⟩
    intro char member
    exact decide_eq_true fun same => absent (same ▸ member)

end Matching

end Pattern

end PointsTo.Text
