/-!
# Blanks and words

Names, types and statements are surrounded by optional white space.  This
module fixes which characters count as white space and how a text is trimmed
and cut into pieces.  Everything works on lists of characters; the functions
on `String` at the end are the forms used by the rest of the library.
-/

namespace PointsTo.Text

/--
White space: the ASCII controls from tabulator to carriage return, the space,
and the spacing and separator characters of Unicode.
-/
def isBlank (char : Char) : Bool :=
  let code := char.toNat
  (0x9 ≤ code && code ≤ 0xD) || code == 0x20 || code == 0x85 ||
    code == 0xA0 || code == 0x1680 || (0x2000 ≤ code && code ≤ 0x200A) ||
    code == 0x2028 || code == 0x2029 || code == 0x202F || code == 0x205F ||
    code == 0x3000

/-- White space inside a statement: only the ASCII blanks separate words. -/
def isGap (char : Char) : Bool :=
  char == ' ' || char == '\t' || char == '\n' || char == '\r' ||
    char == '\x0c'

/-- Remove the white space at both ends. -/
def trim (text : List Char) : List Char :=
  ((text.dropWhile isBlank).reverse.dropWhile isBlank).reverse

/-- The pieces between the characters that satisfy `separates`. -/
def splitWhen (separates : Char → Bool) : List Char → List (List Char)
  | [] => [[]]
  | char :: rest =>
      if separates char then
        [] :: splitWhen separates rest
      else
        match splitWhen separates rest with
        | [] => [[char]]
        | piece :: pieces => (char :: piece) :: pieces

@[simp]
theorem splitWhen_nil (separates : Char → Bool) :
    splitWhen separates [] = [[]] := rfl

theorem splitWhen_ne_nil (separates : Char → Bool) (text : List Char) :
    splitWhen separates text ≠ [] := by
  cases text with
  | nil => simp
  | cons char rest =>
      unfold splitWhen
      split
      · simp
      · split <;> simp

/-- The words of a text: its non-empty pieces between white space. -/
def words (text : List Char) : List (List Char) :=
  (splitWhen isBlank text).filter fun word => !word.isEmpty

/-- The part before the first `mark` and the part after it. -/
def cut? (mark : Char) : List Char → Option (List Char × List Char)
  | [] => none
  | char :: rest =>
      if char = mark then
        some ([], rest)
      else
        (cut? mark rest).map fun (before, after) => (char :: before, after)

/-- Cutting loses nothing but the mark, and cuts at its first occurrence. -/
theorem cut?_eq_some {mark : Char} {text before after : List Char}
    (found : cut? mark text = some (before, after)) :
    text = before ++ mark :: after ∧ mark ∉ before := by
  induction text generalizing before after with
  | nil => simp [cut?] at found
  | cons char rest ih =>
      unfold cut? at found
      split at found
      · rename_i equal
        simp only [Option.some.injEq, Prod.mk.injEq] at found
        obtain ⟨rfl, rfl⟩ := found
        simp [equal]
      · rename_i distinct
        obtain ⟨⟨left, right⟩, cutRest, shape⟩ :=
          Option.map_eq_some_iff.mp found
        simp only [Prod.mk.injEq] at shape
        obtain ⟨rfl, rfl⟩ := shape
        obtain ⟨whole, absent⟩ := ih cutRest
        exact ⟨by simp [whole], by
          simp [absent, Ne.symm distinct]⟩

/-- Remove one space after every comma. -/
def dropSpaceAfterComma : List Char → List Char
  | ',' :: ' ' :: rest => ',' :: dropSpaceAfterComma rest
  | char :: rest => char :: dropSpaceAfterComma rest
  | [] => []

/-- `text` with the white space at both ends removed. -/
def trimmed (text : String) : String :=
  String.ofList (trim text.toList)

end PointsTo.Text
