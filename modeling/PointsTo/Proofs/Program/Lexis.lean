import PointsTo.Program.Shape
import PointsTo.Proofs.Text.Cutting

/-!
# The pieces of statements

Statements are put together from names, gaps, equals signs, indices, qualified
names, signatures and argument lists.  Each reader of such a piece is described
by the texts that it accepts: the piece that it takes off and the rest that it
leaves.  Runs of characters end where the rest `Stops`.
-/

namespace PointsTo

open Text

namespace Shape

/-! ## Characters and names -/

/-- Characters that may follow the target of an assignment. -/
def followsTarget (char : Char) : Bool :=
  isGap char || char == '=' || char == '.' || char == '['

section Characters

variable {char : Char}

/-- What may begin an identifier may also go on with it. -/
theorem isIdentPart_of_isIdentStart (start : isIdentStart char = true) :
    isIdentPart char = true := by
  simp only [isIdentStart, isIdentPart, isWordChar, Char.isAlphanum,
    Bool.or_eq_true] at start ⊢
  rcases start with (letter | underscore) | dollar
  · exact .inl (.inl (.inl letter))
  · exact .inl (.inr underscore)
  · exact .inr dollar

theorem isIdentPart_of_isWordChar (word : isWordChar char = true) :
    isIdentPart char = true := by
  rw [isIdentPart, word, Bool.true_or]

/-- A dot is all that class names have beyond identifiers. -/
theorem isClassPart_of_isIdentPart (part : isIdentPart char = true) :
    isClassPart char = true := by
  rw [isClassPart, part, Bool.true_or]

/-- Names end before a gap. -/
theorem isClassPart_of_isGap (gap : isGap char = true) :
    isClassPart char = false := by
  simp only [isGap, Bool.or_eq_true, beq_iff_eq] at gap
  rcases gap with (((rfl | rfl) | rfl) | rfl) | rfl <;> decide

theorem isIdentPart_of_isGap (gap : isGap char = true) :
    isIdentPart char = false := by
  apply Bool.eq_false_iff.mpr
  intro part
  have outside := isClassPart_of_isGap gap
  rw [isClassPart_of_isIdentPart part] at outside
  cases outside

/-- The target of a statement ends where something may follow it. -/
theorem isIdentPart_of_followsTarget (follows : followsTarget char = true) :
    isIdentPart char = false := by
  simp only [followsTarget, Bool.or_eq_true, beq_iff_eq] at follows
  rcases follows with ((gap | rfl) | rfl) | rfl
  · exact isIdentPart_of_isGap gap
  · rfl
  · rfl
  · rfl

theorem followsTarget_of_isGap (gap : isGap char = true) :
    followsTarget char = true := by
  rw [followsTarget, gap]
  rfl

end Characters

section Names

variable {name text rest : List Char}

/-- The first character of an identifier is checked apart from the others. -/
theorem isIdent_cons {first : Char} :
    isIdent (first :: rest) = true ↔
      isIdentStart first = true ∧ ∀ char ∈ rest, isIdentPart char = true := by
  rw [isIdent, Bool.and_eq_true, List.all_eq_true]

theorem isClassName_cons {first : Char} :
    isClassName (first :: rest) = true ↔
      isIdentStart first = true ∧ ∀ char ∈ rest, isClassPart char = true := by
  rw [isClassName, Bool.and_eq_true, List.all_eq_true]

theorem isIdentPart_of_mem (ident : isIdent name = true) :
    ∀ char ∈ name, isIdentPart char = true := by
  cases name with
  | nil => cases ident
  | cons first rest =>
      rcases isIdent_cons.mp ident with ⟨start, parts⟩
      rintro char (_ | ⟨_, later⟩)
      · exact isIdentPart_of_isIdentStart start
      · exact parts char later

theorem isClassPart_of_mem (named : isClassName name = true) :
    ∀ char ∈ name, isClassPart char = true := by
  cases name with
  | nil => cases named
  | cons first rest =>
      rcases isClassName_cons.mp named with ⟨start, parts⟩
      rintro char (_ | ⟨_, later⟩)
      · exact isClassPart_of_isIdentPart (isIdentPart_of_isIdentStart start)
      · exact parts char later

/-- Every identifier has the form of a class name without dots. -/
theorem isClassName_of_isIdent (ident : isIdent name = true) :
    isClassName name = true := by
  cases name with
  | nil => cases ident
  | cons first rest =>
      rcases isIdent_cons.mp ident with ⟨start, parts⟩
      exact isClassName_cons.mpr ⟨start, fun char member =>
        isClassPart_of_isIdentPart (parts char member)⟩

/-- An identifier may be continued by further parts of identifiers. -/
theorem isIdent_append (ident : isIdent name = true)
    (parts : ∀ char ∈ text, isIdentPart char = true) :
    isIdent (name ++ text) = true := by
  cases name with
  | nil => cases ident
  | cons first rest =>
      rcases isIdent_cons.mp ident with ⟨start, others⟩
      refine isIdent_cons.mpr ⟨start, fun char member => ?_⟩
      rcases List.mem_append.mp member with here | later
      · exact others char here
      · exact parts char later

/-- The first word of a class name ends before a dot. -/
theorem exists_ident_append (named : isClassName name = true) :
    ∃ word dotted, name = word ++ dotted ∧ isIdent word = true ∧
      (dotted = [] ∨ ∃ rest, dotted = '.' :: rest) := by
  cases name with
  | nil => cases named
  | cons first rest =>
      rcases isClassName_cons.mp named with ⟨start, parts⟩
      refine ⟨first :: rest.takeWhile isIdentPart, rest.dropWhile isIdentPart,
        ?_, isIdent_cons.mpr ⟨start, fun _ => all_of_mem_takeWhile⟩, ?_⟩
      · rw [List.cons_append, List.takeWhile_append_dropWhile]
      · have stops := @stops_dropWhile isIdentPart rest
        cases dropped : rest.dropWhile isIdentPart with
        | nil => exact .inl rfl
        | cons char others =>
            rw [dropped, stops_cons] at stops
            have member : char ∈ rest :=
              (List.dropWhile_sublist isIdentPart).subset
                (dropped ▸ List.mem_cons_self)
            have part := parts char member
            rw [isClassPart, stops, Bool.false_or, beq_iff_eq] at part
            exact .inr ⟨others, by rw [part]⟩

/-- The longest identifier at the front of a text is read. -/
theorem ident?_eq_some_iff :
    ident? text = some (name, rest) ↔
      text = name ++ rest ∧ isIdent name = true ∧ Stops isIdentPart rest := by
  constructor
  · intro found
    cases text with
    | nil => cases found
    | cons first others =>
        rw [ident?] at found
        split at found
        · rename_i start
          cases found
          refine ⟨?_, isIdent_cons.mpr ⟨start, fun _ => all_of_mem_takeWhile⟩,
            stops_dropWhile⟩
          rw [List.cons_append, List.takeWhile_append_dropWhile]
        · cases found
  · rintro ⟨rfl, ident, stops⟩
    cases name with
    | nil => cases ident
    | cons first others =>
        rcases isIdent_cons.mp ident with ⟨start, parts⟩
        rw [List.cons_append, ident?, if_pos start,
          takeWhile_append parts stops, dropWhile_append parts stops]

/-- No gap comes before a name. -/
theorem stops_isGap_of_isClassName (named : isClassName name = true)
    (rest : List Char) : Stops isGap (name ++ rest) := by
  cases name with
  | nil => cases named
  | cons char others =>
      apply stops_cons.mpr
      apply Bool.eq_false_iff.mpr
      intro gap
      have part := isClassPart_of_mem named char (.head _)
      rw [isClassPart_of_isGap gap] at part
      cases part

theorem stops_isGap_of_isIdent (ident : isIdent name = true)
    (rest : List Char) : Stops isGap (name ++ rest) :=
  stops_isGap_of_isClassName (isClassName_of_isIdent ident) rest

theorem stops_isGap_of_isIdent_whole (ident : isIdent name = true) :
    Stops isGap name := by
  rw [← List.append_nil name]
  exact stops_isGap_of_isIdent ident []

/-- A second name is not what follows the target of a statement. -/
theorem stops_followsTarget_of_isIdent (ident : isIdent name = true)
    (rest : List Char) : Stops followsTarget (name ++ rest) := by
  cases name with
  | nil => cases ident
  | cons char others =>
      apply stops_cons.mpr
      apply Bool.eq_false_iff.mpr
      intro follows
      have part := isIdentPart_of_mem ident char (.head _)
      rw [isIdentPart_of_followsTarget follows] at part
      cases part

theorem stops_isIdentPart (stops : Stops isClassPart text) :
    Stops isIdentPart text :=
  stops.mono fun _ => isClassPart_of_isIdentPart

/-- An identifier is read back if what comes after it cannot belong to it. -/
theorem ident?_append (ident : isIdent name = true)
    (stops : Stops isIdentPart rest) :
    ident? (name ++ rest) = some (name, rest) :=
  ident?_eq_some_iff.mpr ⟨rfl, ident, stops⟩

end Names

/-! ## Pieces of statements -/

/-- Blanks between words; there may be none. -/
def Gap (gap : List Char) : Prop :=
  ∀ char ∈ gap, isGap char = true

instance (gap : List Char) : Decidable (Gap gap) :=
  decidable_of_iff (gap.all isGap = true) List.all_eq_true

/-- An equals sign and the gaps around it. -/
def Equals (sign : List Char) : Prop :=
  ∃ before after, Gap before ∧ Gap after ∧ sign = before ++ '=' :: after

/-- An index in brackets. -/
def Index (index : List Char) : Prop :=
  ∃ inside, ']' ∉ inside ∧ index = '[' :: (inside ++ [']'])

theorem Gap.space : Gap " ".toList := by
  decide

theorem Equals.spaced : Equals " = ".toList :=
  ⟨[' '], [' '], by decide, by decide, rfl⟩

theorem Index.star : Index "[*]".toList :=
  ⟨['*'], by decide, rfl⟩

/-- The variable that takes the result of a call, with an equals sign. -/
inductive Assigns : Option (List Char) → List Char → Prop where
  | none : Assigns none []
  | some {target sign : List Char} (ident : isIdent target = true)
      (equals : Equals sign) :
      Assigns (some target) (target ++ sign)

/-- The receiver of a call, with a dot. -/
inductive Receives : Option (List Char) → List Char → Prop where
  | none : Receives none []
  | some {receiver : List Char} (ident : isIdent receiver = true) :
      Receives (some receiver) (receiver ++ ['.'])

section Pieces

variable {text rest : List Char}

/-- A gap separates an identifier from what comes next. -/
theorem Gap.stops {gap : List Char} (blank : Gap gap) (apart : gap ≠ [])
    (rest : List Char) : Stops isIdentPart (gap ++ rest) := by
  cases gap with
  | nil => exact (apart rfl).elim
  | cons char others =>
      exact stops_cons.mpr (isIdentPart_of_isGap (blank char (.head _)))

/-- An equals sign ends a class name, with blanks or without. -/
theorem Equals.stops {sign : List Char} (equals : Equals sign)
    (rest : List Char) : Stops isClassPart (sign ++ rest) := by
  rcases equals with ⟨before, after, blank, _, rfl⟩
  cases before with
  | nil => exact stops_cons.mpr rfl
  | cons char others =>
      exact stops_cons.mpr (isClassPart_of_isGap (blank char (.head _)))

/-- All blanks of a gap are read, and at least one. -/
theorem afterGap?_eq_some_iff :
    afterGap? text = some rest ↔
      ∃ gap, Gap gap ∧ gap ≠ [] ∧ text = gap ++ rest ∧ Stops isGap rest := by
  constructor
  · intro found
    cases text with
    | nil => cases found
    | cons char others =>
        rw [afterGap?] at found
        split at found
        · rename_i blank
          cases found
          refine ⟨char :: others.takeWhile isGap, ?_, List.cons_ne_nil _ _, ?_,
            stops_dropWhile⟩
          · rintro other (_ | ⟨_, later⟩)
            · exact blank
            · exact all_of_mem_takeWhile later
          · rw [List.cons_append, List.takeWhile_append_dropWhile]
        · cases found
  · rintro ⟨gap, blank, apart, rfl, stops⟩
    cases gap with
    | nil => exact (apart rfl).elim
    | cons char others =>
        rw [List.cons_append, afterGap?, if_pos (blank char (.head _)),
          dropWhile_append (fun other later => blank other (.tail _ later))
            stops]

theorem afterGap?_append {gap : List Char} (blank : Gap gap) (apart : gap ≠ [])
    (stops : Stops isGap rest) :
    afterGap? (gap ++ rest) = some rest :=
  afterGap?_eq_some_iff.mpr ⟨gap, blank, apart, rfl, stops⟩

/-- The blanks on both sides belong to an equals sign. -/
theorem afterEquals?_eq_some_iff :
    afterEquals? text = some rest ↔
      ∃ sign, Equals sign ∧ text = sign ++ rest ∧ Stops isGap rest := by
  constructor
  · intro found
    rw [afterEquals?] at found
    split at found
    · rename_i others shape
      cases found
      refine ⟨text.takeWhile isGap ++ '=' :: others.takeWhile isGap,
        ⟨_, _, fun _ => all_of_mem_takeWhile, fun _ => all_of_mem_takeWhile,
          rfl⟩, ?_, stops_dropWhile⟩
      rw [List.append_assoc, List.cons_append,
        List.takeWhile_append_dropWhile, ← shape,
        List.takeWhile_append_dropWhile]
    · cases found
  · rintro ⟨_, ⟨before, after, blank, blankAfter, rfl⟩, rfl, stops⟩
    rw [afterEquals?, List.append_assoc,
      dropWhile_append blank (by exact stops_cons.mpr rfl)]
    exact congrArg some (dropWhile_append blankAfter stops)

theorem afterEquals?_append {sign : List Char} (equals : Equals sign)
    (stops : Stops isGap rest) :
    afterEquals? (sign ++ rest) = some rest :=
  afterEquals?_eq_some_iff.mpr ⟨sign, equals, rfl, stops⟩

/-- There is no equals sign where a statement goes on otherwise. -/
theorem afterEquals?_eq_none {gap : List Char} (blank : Gap gap)
    (stops : Stops followsTarget rest) :
    afterEquals? (gap ++ rest) = none := by
  rw [afterEquals?,
    dropWhile_append blank (stops.mono fun _ => followsTarget_of_isGap)]
  split
  · cases stops_cons.mp stops
  · rfl

/-- A keyword is read where the text begins with it. -/
theorem afterWord?_eq_some_iff {word : List Char} :
    afterWord? word text = some rest ↔ text = word ++ rest := by
  fun_induction afterWord? word text with
  | case1 text => rw [List.nil_append, Option.some.injEq]
  | case2 => simp_all
  | case3 expected word text ih => rw [ih, List.cons_append, List.cons.injEq,
      eq_self, true_and]
  | case4 expected word char text different =>
      simp [Ne.symm different]

@[simp]
theorem afterWord?_append (word rest : List Char) :
    afterWord? word (word ++ rest) = some rest :=
  afterWord?_eq_some_iff.mpr rfl

theorem Index.stops {index : List Char} (indexed : Index index)
    (rest : List Char) : Stops isIdentPart (index ++ rest) := by
  rcases indexed with ⟨inside, _, rfl⟩
  exact stops_cons.mpr rfl

/-- An index ends at the first closing bracket. -/
theorem afterIndex?_eq_some_iff :
    afterIndex? text = some rest ↔
      ∃ index, Index index ∧ text = index ++ rest := by
  constructor
  · intro found
    unfold afterIndex? at found
    split at found
    · rcases Option.map_eq_some_iff.mp found with ⟨⟨inside, _⟩, cut, rfl⟩
      rcases cut?_eq_some_iff.mp cut with ⟨rfl, absent⟩
      exact ⟨_, ⟨inside, absent, rfl⟩, by simp⟩
    · cases found
  · rintro ⟨_, ⟨inside, absent, rfl⟩, rfl⟩
    have cut : cut? ']' (inside ++ ']' :: rest) = some (inside, rest) :=
      cut?_eq_some_iff.mpr ⟨rfl, absent⟩
    simp [afterIndex?, cut]

theorem afterIndex?_append {index : List Char} (indexed : Index index)
    (rest : List Char) : afterIndex? (index ++ rest) = some rest :=
  afterIndex?_eq_some_iff.mpr ⟨index, indexed, rfl⟩

/-- A qualified name is cut at its last dot. -/
theorem qualified?_eq_some_iff {qualifier field : List Char} :
    qualified? text = some (qualifier, field) ↔
      text = qualifier ++ '.' :: field ∧ isClassName qualifier = true ∧
        isIdent field = true := by
  simp only [qualified?, Option.bind_eq_bind, Option.bind_eq_some_iff,
    Prod.exists, cut?_eq_some_iff, List.reverse_eq_iff,
    Option.ite_none_right_eq_some, Bool.and_eq_true, Option.some.injEq,
    Prod.mk.injEq]
  constructor
  · rintro ⟨last, first, ⟨rfl, absent⟩, ⟨named, ident⟩, rfl, rfl⟩
    rw [List.reverse_reverse] at named ident
    exact ⟨by simp, named, ident⟩
  · rintro ⟨rfl, named, ident⟩
    refine ⟨field.reverse, qualifier.reverse, ⟨?_, ?_⟩, ?_, ?_, ?_⟩
    · simp
    · rw [List.mem_reverse]
      intro dot
      have part := isIdentPart_of_mem ident '.' dot
      cases part
    · simp [named, ident]
    · simp
    · simp

/-- A signature ends at the first closing angle. -/
theorem signature?_eq_some_iff {signature : List Char} :
    signature? text = some (signature, rest) ↔
      ∃ inside, '>' ∉ inside ∧ signature = '<' :: (inside ++ ['>']) ∧
        text = signature ++ rest := by
  constructor
  · intro found
    unfold signature? at found
    split at found
    · rcases Option.map_eq_some_iff.mp found with ⟨⟨inside, after⟩, cut, pair⟩
      cases pair
      rcases cut?_eq_some_iff.mp cut with ⟨rfl, absent⟩
      exact ⟨inside, absent, rfl, by simp⟩
    · cases found
  · rintro ⟨inside, absent, rfl, rfl⟩
    have cut : cut? '>' (inside ++ '>' :: rest) = some (inside, rest) :=
      cut?_eq_some_iff.mpr ⟨rfl, absent⟩
    simp [signature?, cut]

/-- Arguments take up the rest of the text, on one line. -/
theorem arguments?_eq_some_iff {arguments : List Char} :
    arguments? text = some arguments ↔
      text = '(' :: (arguments ++ [')']) ∧ '\n' ∉ arguments := by
  constructor
  · intro found
    unfold arguments? at found
    split at found
    · rename_i others
      split at found
      · rename_i inside shape
        split at found
        · cases found
        · rename_i oneLine
          cases found
          rw [List.reverse_eq_cons_iff] at shape
          refine ⟨by rw [shape], ?_⟩
          simpa using oneLine
      · cases found
    · cases found
  · rintro ⟨rfl, oneLine⟩
    simp [arguments?, oneLine]

end Pieces

end Shape

end PointsTo
