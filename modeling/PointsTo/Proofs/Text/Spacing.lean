import Mathlib.Data.List.Infix
import PointsTo.Proofs.Text.Cutting

/-!
# Spaces after commas

A list may be written with spaces after its commas.  `tighten` removes all of
them.  It commutes with trimming and with cutting at other marks, so the parts of
a tightened text are the tightened parts of the text.  `dropSpaceAfterComma`
removes one space after each comma only: it tightens a text exactly if no comma
in it is followed by two spaces.
-/

namespace PointsTo.Text

/-- Remove the spaces after commas; `after` says whether a comma and possibly
some spaces stand right before the text. -/
def tightenFrom : Bool → List Char → List Char
  | _, [] => []
  | after, char :: rest =>
      if after = true ∧ char = ' ' then tightenFrom true rest
      else char :: tightenFrom (char = ',') rest

/-- Remove every run of spaces that directly follows a comma. -/
def tighten (text : List Char) : List Char :=
  tightenFrom false text

/-- `text` without the spaces that follow commas. -/
def tightened (text : String) : String :=
  String.ofList (tighten text.toList)

/-- Some comma is followed by two spaces. -/
def Gapped (text : List Char) : Prop :=
  [',', ' ', ' '] <:+: text

instance (text : List Char) : Decidable (Gapped text) :=
  inferInstanceAs (Decidable ([',', ' ', ' '] <:+: text))

/-! ## Removing spaces -/

section Tightening

variable {after : Bool} {char mark : Char} {text front back : List Char}

@[simp]
theorem tighten_nil : tighten [] = [] := rfl

@[simp]
theorem tightenFrom_nil : tightenFrom after [] = [] := rfl

/-- Spaces are dropped one by one, as long as nothing else has come after the
comma. -/
@[simp]
theorem tightenFrom_space :
    tightenFrom true (' ' :: text) = tightenFrom true text :=
  if_pos ⟨rfl, rfl⟩

/-- Anything but a space ends the spaces after a comma. -/
theorem tightenFrom_cons (solid : char ≠ ' ') :
    tightenFrom after (char :: text) = char :: tightenFrom (char = ',') text :=
  if_neg fun space => solid space.2

theorem tighten_cons :
    tighten (char :: text) = char :: tightenFrom (char = ',') text := by
  rw [tighten, tightenFrom, if_neg fun space => Bool.false_ne_true space.1]

theorem tighten_cons_of_ne (other : char ≠ ',') :
    tighten (char :: text) = char :: tighten text := by
  rw [tighten_cons, decide_eq_false other, tighten]

/-- What comes first is never dropped. -/
theorem tighten_eq_nil_iff : tighten text = [] ↔ text = [] := by
  cases text with
  | nil => exact Iff.rfl
  | cons char rest => simp [tighten_cons]

/-! ## Parts of tightened texts -/

/-- A text may be cut at a character other than a space, since tightening looks
no further back. -/
theorem tightenFrom_append_cons (solid : mark ≠ ' ') :
    tightenFrom after (front ++ mark :: back) =
      tightenFrom after front ++ mark :: tightenFrom (mark = ',') back := by
  induction front generalizing after with
  | nil => exact tightenFrom_cons solid
  | cons char rest ih =>
      rw [List.cons_append, tightenFrom, tightenFrom]
      split
      · exact ih
      · rw [ih, List.cons_append]

/-- Nothing changes before the first comma. -/
theorem tighten_append (absent : ',' ∉ front) :
    tighten (front ++ back) = front ++ tighten back := by
  induction front with
  | nil => rfl
  | cons char rest ih =>
      rw [List.mem_cons, not_or] at absent
      rw [List.cons_append, tighten_cons_of_ne (Ne.symm absent.1),
        ih absent.2, List.cons_append]

theorem tighten_of_not_mem_comma (absent : ',' ∉ text) :
    tighten text = text := by
  have whole : tighten (text ++ []) = text ++ tighten [] :=
    tighten_append absent
  rwa [List.append_nil, tighten_nil, List.append_nil] at whole

theorem tightenFrom_of_not_mem_space (absent : ' ' ∉ text) :
    tightenFrom after text = text := by
  induction text generalizing after with
  | nil => rfl
  | cons char rest ih =>
      rw [List.mem_cons, not_or] at absent
      rw [tightenFrom_cons (Ne.symm absent.1), ih absent.2]

theorem mem_tightenFrom_iff (solid : mark ≠ ' ') :
    mark ∈ tightenFrom after text ↔ mark ∈ text := by
  induction text generalizing after with
  | nil => exact Iff.rfl
  | cons char rest ih =>
      rw [tightenFrom]
      split
      · rename_i space
        rw [ih, List.mem_cons, space.2, or_iff_right solid]
      · rw [List.mem_cons, List.mem_cons, ih]

/-- Everything but spaces is kept. -/
theorem mem_tighten_iff (solid : mark ≠ ' ') :
    mark ∈ tighten text ↔ mark ∈ text :=
  mem_tightenFrom_iff solid

/-- Tightening and cutting at a mark commute, as the parts do not share spaces
after a comma. -/
theorem cut?_tightenFrom (solid : mark ≠ ' ') (other : mark ≠ ',') :
    cut? mark (tightenFrom after text) =
      (cut? mark text).map fun parts =>
        (tightenFrom after parts.1, tighten parts.2) := by
  induction text generalizing after with
  | nil => rfl
  | cons char rest ih =>
      by_cases here : char = mark
      · subst here
        rw [tightenFrom_cons solid, cut?, if_pos rfl, cut?, if_pos rfl,
          decide_eq_false other]
        rfl
      · rw [tightenFrom, cut?, if_neg here, Option.map_map]
        split
        · rename_i space
          rw [ih]
          congr 1
          funext parts
          rw [Function.comp_apply, space.1, space.2, tightenFrom_space]
        · rename_i kept
          rw [cut?, if_neg here, ih, Option.map_map]
          congr 1
          funext parts
          rw [Function.comp_apply, Function.comp_apply, tightenFrom,
            if_neg kept]

/-- The parts of a tightened text are the tightened parts. -/
theorem cut?_tighten (solid : mark ≠ ' ') (other : mark ≠ ',') :
    cut? mark (tighten text) =
      (cut? mark text).map fun parts => (tighten parts.1, tighten parts.2) :=
  cut?_tightenFrom solid other

/-- A space before the first comma is kept. -/
theorem cut?_space_tighten (found : cut? ' ' text = some (front, back))
    (absent : ',' ∉ front) :
    cut? ' ' (tighten text) = some (front, tighten back) := by
  rcases cut?_eq_some found with ⟨rfl, solid⟩
  rw [tighten_append absent, tighten_cons_of_ne (by decide)]
  exact cut?_eq_some_iff.mpr ⟨rfl, solid⟩

/-- A comma before the first space stays before it. -/
theorem mem_of_cut?_space_tighten {before behind : List Char}
    (found : cut? ' ' text = some (front, back)) (comma : ',' ∈ front)
    (again : cut? ' ' (tighten text) = some (before, behind)) :
    ',' ∈ before := by
  induction text generalizing front before with
  | nil => cases found
  | cons char rest ih =>
      rw [cut?] at found
      rw [tighten_cons, cut?] at again
      split at found
      · cases found
        cases comma
      · rename_i solid
        rw [if_neg solid] at again
        rcases Option.map_eq_some_iff.mp found with ⟨⟨left, _⟩, cut, same⟩
        rcases Option.map_eq_some_iff.mp again with ⟨⟨_, _⟩, next, moved⟩
        cases same
        cases moved
        by_cases here : char = ','
        · exact here ▸ .head _
        · rw [decide_eq_false here] at next
          exact .tail _ (ih cut
            ((List.mem_cons.mp comma).resolve_left (Ne.symm here)) next)

theorem tighten_of_cut?_space_eq_none (absent : cut? ' ' text = none) :
    tighten text = text := by
  apply tightenFrom_of_not_mem_space
  intro member
  rcases List.eq_append_cons_of_mem member with ⟨before, behind, whole, first⟩
  rw [cut?_eq_some_iff.mpr ⟨whole, first⟩] at absent
  cases absent

/-! ## The ends of tightened texts -/

/-- A final space is kept, or it follows a comma and possibly some spaces; the
comma may be the one before the text. -/
theorem tightenFrom_concat_space (after : Bool) (text : List Char) :
    tightenFrom after (text ++ [' ']) = tightenFrom after text ++ [' '] ∨
      tightenFrom after (text ++ [' ']) = tightenFrom after text ∧
        (after = true ∧ tightenFrom after text = [] ∨
          (tightenFrom after text).getLast? = some ',') := by
  induction text generalizing after with
  | nil => cases after <;> simp [tightenFrom]
  | cons char rest ih =>
      rw [List.cons_append, tightenFrom, tightenFrom]
      split
      · rename_i space
        rw [space.1]
        exact ih true
      · rcases ih (char = ',') with kept | ⟨removed, ⟨comma, empty⟩ | comma⟩
        · exact .inl (by rw [kept, List.cons_append])
        · refine .inr ⟨by rw [removed], .inr ?_⟩
          rw [empty, of_decide_eq_true comma]
          rfl
        · refine .inr ⟨by rw [removed], .inr ?_⟩
          rw [List.getLast?_cons, comma]
          rfl

theorem tighten_concat_space (text : List Char) :
    tighten (text ++ [' ']) = tighten text ++ [' '] ∨
      tighten (text ++ [' ']) = tighten text ∧
        (tighten text).getLast? = some ',' := by
  rcases tightenFrom_concat_space false text with
    kept | ⟨removed, ⟨never, _⟩ | comma⟩
  · exact .inl kept
  · cases never
  · exact .inr ⟨removed, comma⟩

/-- The last character is kept unless it is a space. -/
theorem tighten_concat (solid : mark ≠ ' ') :
    tighten (text ++ [mark]) = tighten text ++ [mark] :=
  tightenFrom_append_cons solid

/-- Tightening does not change which mark a text ends with. -/
theorem getLast?_tighten_iff (solid : mark ≠ ' ') (other : mark ≠ ',') :
    (tighten text).getLast? = some mark ↔ text.getLast? = some mark := by
  rcases List.eq_nil_or_concat text with rfl | ⟨front, last, rfl⟩
  · exact Iff.rfl
  · rw [List.concat_eq_append, List.getLast?_concat]
    by_cases space : last = ' '
    · subst space
      rcases tighten_concat_space front with kept | ⟨removed, comma⟩
      · rw [kept, List.getLast?_concat]
      · rw [removed, comma]
        simp [solid.symm, other.symm]
    · rw [tighten_concat space, List.getLast?_concat]

/-- Blanks at the front do not come after a comma. -/
theorem dropWhile_isBlank_tighten :
    (tighten text).dropWhile isBlank = tighten (text.dropWhile isBlank) := by
  induction text with
  | nil => rfl
  | cons char rest ih =>
      cases blank : isBlank char with
      | true =>
          have other : char ≠ ',' := by
            rintro rfl
            cases blank
          rw [tighten_cons_of_ne other, List.dropWhile_cons_of_pos blank, ih,
            List.dropWhile_cons_of_pos blank]
      | false =>
          have solid := Bool.eq_false_iff.mp blank
          rw [List.dropWhile_cons_of_neg solid, tighten_cons,
            List.dropWhile_cons_of_neg solid]

/-- Blanks at the end may be dropped before tightening or after it. -/
theorem reverse_dropWhile_isBlank_tighten :
    ((tighten text).reverse.dropWhile isBlank).reverse =
      tighten (text.reverse.dropWhile isBlank).reverse := by
  induction text using List.reverseRecOn with
  | nil => rfl
  | append_singleton front last ih =>
      cases blank : isBlank last with
      | false =>
          have solid : last ≠ ' ' := by
            rintro rfl
            cases blank
          simp [tighten_concat solid, blank]
      | true =>
          rw [List.reverse_append, List.reverse_singleton,
            List.singleton_append, List.dropWhile_cons_of_pos blank, ← ih]
          by_cases space : last = ' '
          · subst space
            rcases tighten_concat_space front with kept | removed
            · simp [kept, blank]
            · rw [removed.1]
          · simp [tighten_concat space, blank]

/-- Tightening commutes with trimming. -/
theorem trim_tighten : trim (tighten text) = tighten (trim text) := by
  rw [trim, dropWhile_isBlank_tighten, reverse_dropWhile_isBlank_tighten, trim]

/-! ## Pieces of tightened texts -/

/-- Every piece but the first loses the spaces at its front; the first one loses
them if a comma came before. -/
theorem splitWhen_tightenFrom {first : List Char} {others : List (List Char)}
    (split : splitWhen (· = ',') text = first :: others) :
    splitWhen (· = ',') (tightenFrom after text) =
      (if after = true then first.dropWhile (· = ' ') else first) ::
        others.map fun piece => piece.dropWhile (· = ' ') := by
  induction text generalizing after first others with
  | nil =>
      cases split
      cases after <;> rfl
  | cons char rest ih =>
      cases later : splitWhen (· = ',') rest with
      | nil => exact (splitWhen_ne_nil _ _ later).elim
      | cons next pieces =>
          by_cases comma : char = ','
          · subst comma
            rw [splitWhen, if_pos (decide_eq_true rfl), later] at split
            cases split
            rw [tightenFrom_cons (by decide), splitWhen,
              if_pos (decide_eq_true rfl), ih later]
            simp
          · have inside := fun yes => comma (of_decide_eq_true yes)
            rw [splitWhen, if_neg inside, later] at split
            cases split
            rw [tightenFrom]
            split
            · rename_i space
              rw [ih later, space.1, space.2]
              simp
            · rename_i kept
              rw [splitWhen, if_neg inside, decide_eq_false comma, ih later]
              by_cases behind : after = true
              · have solid : char ≠ ' ' := fun space => kept ⟨behind, space⟩
                simp [behind, solid]
              · simp [behind]

theorem trim_dropWhile_space :
    trim (text.dropWhile (· = ' ')) = trim text := by
  induction text with
  | nil => rfl
  | cons char rest ih =>
      by_cases space : char = ' '
      · subst space
        rw [trim_cons_of_blank (by decide), ← ih]
        rfl
      · rw [dropWhile_of_stops (stops_cons.mpr (decide_eq_false space))]

/-- Between the commas, tightening changes blanks at the ends only. -/
theorem map_trim_splitWhen_tighten :
    (splitWhen (· = ',') (tighten text)).map trim =
      (splitWhen (· = ',') text).map trim := by
  cases split : splitWhen (· = ',') text with
  | nil => exact (splitWhen_ne_nil _ _ split).elim
  | cons first others =>
      rw [tighten, splitWhen_tightenFrom split]
      simp [Function.comp_def, trim_dropWhile_space]

end Tightening

/-! ## Removing single spaces -/

section Single

variable {after : Bool} {char mark : Char} {text front back : List Char}

/-- Where no space comes first, it does not matter whether a comma came before.
-/
theorem tightenFrom_of_stops (stops : Stops (· = ' ') text) :
    tightenFrom after text = tighten text := by
  cases text with
  | nil => rfl
  | cons char rest =>
      rw [tighten_cons,
        tightenFrom_cons (of_decide_eq_false (stops_cons.mp stops))]

theorem stops_tightenFrom (text : List Char) :
    Stops (· = ' ') (tightenFrom true text) := by
  induction text with
  | nil => exact stops_nil
  | cons char rest ih =>
      by_cases space : char = ' '
      · rw [space, tightenFrom_space]
        exact ih
      · rw [tightenFrom_cons space, stops_cons]
        exact decide_eq_false space

/-- Spaces that have been dropped after a comma before make no difference. -/
theorem tightenFrom_dropSpaceAfterComma :
    tightenFrom after (dropSpaceAfterComma text) = tightenFrom after text := by
  fun_induction dropSpaceAfterComma text generalizing after with
  | case1 rest ih =>
      rw [tightenFrom_cons (by decide), tightenFrom_cons (by decide), ih]
      simp
  | case2 char rest other ih => rw [tightenFrom, tightenFrom, ih, ih]
  | case3 => rfl

theorem dropSpaceAfterComma_tightenFrom :
    dropSpaceAfterComma (tightenFrom after text) = tightenFrom after text := by
  induction text generalizing after with
  | nil => rfl
  | cons char rest ih =>
      rw [tightenFrom]
      split
      · exact ih
      · rw [dropSpaceAfterComma, ih]
        rintro next rfl spaced
        have solid := stops_tightenFrom rest
        rw [show tightenFrom true rest = ' ' :: next from spaced] at solid
        cases stops_cons.mp solid

theorem tighten_dropSpaceAfterComma :
    tighten (dropSpaceAfterComma text) = tighten text :=
  tightenFrom_dropSpaceAfterComma

/-- A tightened text has no space after a comma. -/
theorem dropSpaceAfterComma_tighten :
    dropSpaceAfterComma (tighten text) = tighten text :=
  dropSpaceAfterComma_tightenFrom

theorem dropSpaceAfterComma_eq_nil_iff :
    dropSpaceAfterComma text = [] ↔ text = [] := by
  rw [← tighten_eq_nil_iff, tighten_dropSpaceAfterComma, tighten_eq_nil_iff]

/-- Two spaces after a comma are found at the front or later. -/
theorem gapped_cons_iff :
    Gapped (char :: text) ↔
      (char = ',' ∧ [' ', ' '] <+: text) ∨ Gapped text := by
  rw [Gapped, List.infix_cons_iff, List.cons_prefix_cons, eq_comm, Gapped]

theorem gapped_cons_of_ne (other : char ≠ ',') :
    Gapped (char :: text) ↔ Gapped text := by
  rw [gapped_cons_iff, or_iff_right fun comma => other comma.1]

theorem Gapped.mono (gapped : Gapped front) (part : front <:+: text) :
    Gapped text :=
  List.IsInfix.trans gapped part

theorem not_stops_space_iff :
    ¬ Stops (· = ' ') text ↔ ∃ rest, text = ' ' :: rest := by
  cases text <;> simp

/-- Removing one space after each comma removes all of them unless some comma is
followed by two. -/
theorem dropSpaceAfterComma_eq_tighten_iff :
    dropSpaceAfterComma text = tighten text ↔ ¬ Gapped text := by
  fun_induction dropSpaceAfterComma text with
  | case1 rest ih =>
      rw [tighten_cons, decide_eq_true rfl, tightenFrom_space,
        List.cons_inj_right, gapped_cons_iff, gapped_cons_of_ne (by decide),
        List.cons_prefix_cons]
      by_cases stops : Stops (· = ' ') rest
      · have single : ¬ [' '] <+: rest := by
          rintro ⟨later, rfl⟩
          exact not_stops_space_iff.mpr ⟨later, rfl⟩ stops
        rw [tightenFrom_of_stops stops, ih, or_iff_right]
        exact fun spaces => single spaces.2.2
      · rcases not_stops_space_iff.mp stops with ⟨later, rfl⟩
        refine iff_of_false ?_ (not_not.mpr (.inl ⟨rfl, rfl, later, rfl⟩))
        intro same
        have solid := stops_tightenFrom (' ' :: later)
        rw [← same, dropSpaceAfterComma, stops_cons] at solid
        · cases solid
        · exact fun _ comma => by cases comma
  | case2 char rest other ih =>
      rw [tighten_cons, List.cons_inj_right, gapped_cons_iff]
      by_cases comma : char = ','
      · have stops : Stops (· = ' ') rest := by
          by_contra spaced
          rcases not_stops_space_iff.mp spaced with ⟨later, same⟩
          exact other later comma same
        rw [tightenFrom_of_stops stops, ih, or_iff_right]
        rintro ⟨_, later, rfl⟩
        exact not_stops_space_iff.mpr ⟨_, rfl⟩ stops
      · rw [decide_eq_false comma, or_iff_right fun spaces => comma spaces.1]
        exact ih
  | case3 => exact iff_of_true rfl (by decide)

/-- A mark other than a space or a comma separates the places where spaces are
left. -/
theorem gapped_append_cons (solid : mark ≠ ' ') (other : mark ≠ ',') :
    Gapped (front ++ mark :: back) ↔ Gapped front ∨ Gapped back := by
  induction front with
  | nil =>
      rw [List.nil_append, gapped_cons_of_ne other, or_iff_right]
      decide
  | cons char rest ih =>
      have spaces : [' ', ' '] <+: rest ++ mark :: back ↔
          [' ', ' '] <+: rest := by
        rcases rest with _ | ⟨first, _ | ⟨second, rest⟩⟩ <;>
          simp [List.cons_prefix_cons, solid.symm]
      rw [List.cons_append, gapped_cons_iff, ih, gapped_cons_iff, or_assoc,
        spaces]

theorem gapped_append (absent : ',' ∉ front) :
    Gapped (front ++ text) ↔ Gapped text := by
  induction front with
  | nil => rfl
  | cons char rest ih =>
      rw [List.mem_cons, not_or] at absent
      rw [List.cons_append, gapped_cons_of_ne (Ne.symm absent.1), ih absent.2]

/-- Trimming takes no spaces away from a comma unless the comma is last. -/
theorem gapped_trim_iff (ends : (trim text).getLast? = some mark)
    (solid : mark ≠ ' ') (other : mark ≠ ',') :
    Gapped (trim text) ↔ Gapped text := by
  rcases exists_trim text with ⟨lead, trail, whole, before, behind⟩
  rcases List.getLast?_eq_some_iff.mp ends with ⟨core, same⟩
  have noComma : ∀ {blanks : List Char},
      (∀ char ∈ blanks, isBlank char = true) → ',' ∉ blanks := by
    intro blanks blank comma
    cases blank ',' comma
  have closed : ¬ Gapped trail := by
    rw [← List.append_nil trail, gapped_append (noComma behind)]
    decide
  conv_rhs => rw [whole, same]
  rw [gapped_append (noComma before), List.append_assoc,
    List.singleton_append, gapped_append_cons solid other, same,
    gapped_append_cons solid other, or_iff_left closed, or_iff_left]
  decide

end Single

end PointsTo.Text
