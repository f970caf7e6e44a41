import PointsTo.Proofs.Program.Lexis

/-!
# The grammar of statements

`Shape.Spells` says how a statement is written: for each of the eight forms, the
pieces that its text is put together from, with the gaps between them.  The
readers take a text apart from left to right and never look back.  This is
enough because every text has at most one reading: a text that is spelled
somehow shows its form in the characters that follow its first words.
-/

namespace PointsTo

open Text

namespace Shape

/-! ## Spelling -/

/-- How the statement of a shape is written. -/
inductive Spells : Shape → List Char → Prop where
  | ret : Spells (.ret none) "return".toList
  | retValue {gap value : List Char} (blank : Gap gap) (apart : gap ≠ [])
      (ident : isIdent value = true) :
      Spells (.ret (some (String.ofList value)))
        ("return".toList ++ (gap ++ value))
  | invoke {result receiver : Option (List Char)}
      {lead kind gap base inside blanks arguments : List Char}
      (assigns : Assigns result lead) (kinded : kind ≠ [])
      (word : ∀ char ∈ kind, isWordChar char = true)
      (blank : Gap gap) (apart : gap ≠ []) (receives : Receives receiver base)
      (closed : '>' ∉ inside) (blankAfter : Gap blanks)
      (oneLine : '\n' ∉ arguments) :
      Spells
        (.invoke (result.map String.ofList) (String.ofList kind)
          (receiver.map String.ofList)
          (String.ofList ('<' :: (inside ++ ['>'])))
          (String.ofList arguments))
        (lead ++ ("invoke".toList ++ (kind ++ (gap ++ (base ++
          ('<' :: (inside ++ ['>']) ++ (blanks ++
            '(' :: (arguments ++ [')']))))))))
  | new {target sign gap type : List Char} (ident : isIdent target = true)
      (equals : Equals sign) (blank : Gap gap) (apart : gap ≠ [])
      (named : type ≠ []) (solid : ∀ char ∈ type, isGap char = false) :
      Spells (.new (String.ofList target) (String.ofList type))
        (target ++ (sign ++ ("new".toList ++ (gap ++ type))))
  | loadArray {target sign base index : List Char}
      (ident : isIdent target = true) (equals : Equals sign)
      (identBase : isIdent base = true) (indexed : Index index) :
      Spells (.loadArray (String.ofList target) (String.ofList base))
        (target ++ (sign ++ (base ++ index)))
  | storeArray {base index sign source : List Char}
      (identBase : isIdent base = true) (indexed : Index index)
      (equals : Equals sign) (ident : isIdent source = true) :
      Spells (.storeArray (String.ofList base) (String.ofList source))
        (base ++ (index ++ (sign ++ source)))
  | loadField {target sign qualifier field : List Char}
      (ident : isIdent target = true) (equals : Equals sign)
      (named : isClassName qualifier = true)
      (identField : isIdent field = true) :
      Spells
        (.loadField (String.ofList target) (String.ofList qualifier)
          (String.ofList field))
        (target ++ (sign ++ (qualifier ++ '.' :: field)))
  | storeField {qualifier field sign source : List Char}
      (named : isClassName qualifier = true)
      (identField : isIdent field = true) (equals : Equals sign)
      (ident : isIdent source = true) :
      Spells
        (.storeField (String.ofList qualifier) (String.ofList field)
          (String.ofList source))
        (qualifier ++ '.' :: field ++ (sign ++ source))
  | copy {target sign source : List Char} (ident : isIdent target = true)
      (equals : Equals sign) (identSource : isIdent source = true) :
      Spells (.copy (String.ofList target) (String.ofList source))
        (target ++ (sign ++ source))

/-! ## Readers -/

/-- The eight forms of statements. -/
inductive Form where
  | ret | invoke | new | loadArray | storeArray | loadField | storeField | copy
deriving DecidableEq

/-- All forms, in the order in which they are tried. -/
def Form.all : List Form :=
  [.ret, .invoke, .new, .loadArray, .storeArray, .loadField, .storeField,
    .copy]

/-- The reader of a form. -/
def Form.reader : Form → List Char → Option Shape
  | .ret => readReturn?
  | .invoke => readInvoke?
  | .new => readNew?
  | .loadArray => readLoadArray?
  | .storeArray => readStoreArray?
  | .loadField => readLoadField?
  | .storeField => readStoreField?
  | .copy => readCopy?

/-- The form of a shape. -/
def form : Shape → Form
  | .ret _ => .ret
  | .invoke .. => .invoke
  | .new .. => .new
  | .loadArray .. => .loadArray
  | .storeArray .. => .storeArray
  | .loadField .. => .loadField
  | .storeField .. => .storeField
  | .copy .. => .copy

section Readers

variable {text rest : List Char} {shape : Shape}

theorem readReturn?_eq_some_iff :
    readReturn? text = some shape ↔
      shape.form = .ret ∧ Spells shape text := by
  constructor
  · intro read
    simp only [readReturn?, Option.bind_eq_bind, Option.bind_eq_some_iff,
      afterWord?_eq_some_iff] at read
    rcases read with ⟨rest, rfl, read⟩
    split at read
    · rename_i whole
      cases read
      rw [List.isEmpty_iff.mp whole, List.append_nil]
      exact ⟨rfl, .ret⟩
    · simp only [Option.bind_eq_some_iff, afterGap?_eq_some_iff,
        Option.ite_none_right_eq_some, Option.some.injEq] at read
      rcases read with ⟨value, ⟨gap, blank, apart, rfl, _⟩, ident, rfl⟩
      exact ⟨rfl, .retValue blank apart ident⟩
  · rintro ⟨isRet, spelled⟩
    cases spelled with
    | ret => rfl
    | retValue blank apart ident =>
        rw [readReturn?, afterWord?_append]
        simp [afterGap?_append blank apart (stops_isGap_of_isIdent_whole ident),
          apart, ident]
    | _ => cases isRet

/-- The variable that takes a result is there if an equals sign follows it. -/
theorem exists_assigns (text : List Char) :
    ∃ lead, Assigns (assigned text).1 lead ∧
      text = lead ++ (assigned text).2 := by
  unfold assigned
  split
  · exact ⟨[], .none, rfl⟩
  · rename_i target rest found
    rcases ident?_eq_some_iff.mp found with ⟨rfl, ident, _⟩
    split
    · exact ⟨[], .none, rfl⟩
    · rename_i after equal
      rcases afterEquals?_eq_some_iff.mp equal with ⟨sign, equals, rfl, _⟩
      exact ⟨target ++ sign, .some ident equals,
        (List.append_assoc ..).symm⟩

theorem exists_receives (text : List Char) :
    ∃ base, Receives (received text).1 base ∧
      text = base ++ (received text).2 := by
  unfold received
  split
  · rename_i receiver rest found
    rcases ident?_eq_some_iff.mp found with ⟨rfl, ident, _⟩
    exact ⟨receiver ++ ['.'], .some ident, by simp⟩
  · exact ⟨[], .none, rfl⟩

/-- What follows the kind of a call is not taken for an assignment. -/
theorem Receives.stops {receiver : Option (List Char)} {base : List Char}
    (receives : Receives receiver base) (rest : List Char) :
    Stops followsTarget (base ++ '<' :: rest) := by
  cases receives with
  | none => exact stops_cons.mpr rfl
  | some ident =>
      rw [List.append_assoc]
      exact stops_followsTarget_of_isIdent ident _

theorem assigned_append {result : Option (List Char)}
    {lead kind gap : List Char} (assigns : Assigns result lead)
    (word : ∀ char ∈ kind, isWordChar char = true) (blank : Gap gap)
    (apart : gap ≠ [])
    (stops : Stops followsTarget rest) :
    assigned (lead ++ ("invoke".toList ++ (kind ++ (gap ++ rest)))) =
      (result, "invoke".toList ++ (kind ++ (gap ++ rest))) := by
  cases assigns with
  | none =>
      have ident : isIdent ("invoke".toList ++ kind) = true :=
        isIdent_append rfl fun char member =>
          isIdentPart_of_isWordChar (word char member)
      have first := ident?_append ident (blank.stops apart rest)
      rw [List.append_assoc] at first
      rw [List.nil_append, assigned, first]
      simp only [afterEquals?_eq_none blank stops]
  | some ident equals =>
      rw [List.append_assoc, assigned,
        ident?_append ident (stops_isIdentPart (equals.stops _))]
      simp only [afterEquals?_append equals
        (show Stops isGap ("invoke".toList ++ _) from stops_cons.mpr rfl)]

theorem received_append {receiver : Option (List Char)} {base : List Char}
    (receives : Receives receiver base) :
    received (base ++ '<' :: rest) = (receiver, '<' :: rest) := by
  cases receives with
  | none => rfl
  | some ident =>
      rw [List.append_assoc, List.singleton_append, received,
        ident?_append ident (stops_cons.mpr rfl)]
      rfl

theorem readInvoke?_eq_some_iff :
    readInvoke? text = some shape ↔
      shape.form = .invoke ∧ Spells shape text := by
  constructor
  · intro read
    rcases exists_assigns text with ⟨lead, assigns, whole⟩
    simp only [readInvoke?, Option.bind_eq_bind, Option.bind_eq_some_iff,
      afterWord?_eq_some_iff] at read
    rcases read with ⟨rest, called, read⟩
    split at read
    · cases read
    rename_i kinded
    simp only [Option.bind_eq_some_iff, afterGap?_eq_some_iff, Prod.exists,
      signature?_eq_some_iff, arguments?_eq_some_iff,
      Option.some.injEq] at read
    rcases read with ⟨after, ⟨gap, blank, apart, separated, _⟩, _, last,
      ⟨inside, closed, rfl, bracketed⟩, arguments, ⟨listed, oneLine⟩, rfl⟩
    rcases exists_receives after with ⟨base, receives, behind⟩
    have spelled := Spells.invoke assigns
      (fun empty => kinded (List.isEmpty_iff.mpr empty))
      (fun _ => @all_of_mem_takeWhile isWordChar rest _) blank apart receives
      closed (fun _ => @all_of_mem_takeWhile isGap last _) oneLine
    -- The text is put together again, from its last piece to its first.
    rw [← listed, List.takeWhile_append_dropWhile, ← bracketed, ← behind,
      ← separated, List.takeWhile_append_dropWhile, ← called,
      ← whole] at spelled
    exact ⟨rfl, spelled⟩
  · rintro ⟨isInvoke, spelled⟩
    cases spelled with
    | @invoke result receiver lead kind gap base inside blanks arguments
        assigns kinded word blank apart receives closed blankAfter oneLine =>
        have starts := receives.stops
          (inside ++ ['>'] ++ (blanks ++ '(' :: (arguments ++ [')'])))
        have leaves : Stops isWordChar (gap ++ (base ++ '<' :: (inside ++
            ['>'] ++ (blanks ++ '(' :: (arguments ++ [')']))))) :=
          (blank.stops apart _).mono fun _ => isIdentPart_of_isWordChar
        have separated := afterGap?_append blank apart
          (starts.mono fun _ => followsTarget_of_isGap)
        have signed : signature? ('<' :: (inside ++ ['>'] ++
            (blanks ++ '(' :: (arguments ++ [')'])))) = some _ :=
          signature?_eq_some_iff.mpr ⟨inside, closed, rfl, rfl⟩
        have listed : arguments? ((blanks ++
            '(' :: (arguments ++ [')'])).dropWhile isGap) = some arguments := by
          rw [dropWhile_append blankAfter (stops_cons.mpr rfl)]
          exact arguments?_eq_some_iff.mpr ⟨rfl, oneLine⟩
        rw [readInvoke?, List.cons_append,
          assigned_append assigns word blank apart starts]
        simp only [afterWord?_append, Option.bind_eq_bind, Option.bind_some,
          takeWhile_append word leaves, dropWhile_append word leaves,
          separated, received_append receives, signed, listed]
        rw [if_neg (fun empty => kinded (List.isEmpty_iff.mp empty))]
    | _ => cases isInvoke

theorem readNew?_eq_some_iff :
    readNew? text = some shape ↔
      shape.form = .new ∧ Spells shape text := by
  constructor
  · intro read
    simp only [readNew?, Option.bind_eq_bind, Option.bind_eq_some_iff,
      Prod.exists, ident?_eq_some_iff, afterEquals?_eq_some_iff,
      afterWord?_eq_some_iff, afterGap?_eq_some_iff,
      Option.ite_none_right_eq_some, Option.some.injEq, Bool.and_eq_true,
      List.all_eq_true, Bool.not_eq_true', List.isEmpty_eq_false_iff] at read
    rcases read with ⟨target, _, ⟨rfl, ident, _⟩, _, ⟨sign, equals, rfl, _⟩,
      _, rfl, type, ⟨gap, blank, apart, rfl, _⟩, ⟨named, solid⟩, rfl⟩
    exact ⟨rfl, .new ident equals blank apart named solid⟩
  · rintro ⟨isNew, spelled⟩
    cases spelled with
    | @new target sign gap type ident equals blank apart named solid =>
        have starts : Stops isGap ("new".toList ++ (gap ++ type)) :=
          stops_cons.mpr rfl
        have solidStart : Stops isGap type := fun char first =>
          solid char (List.mem_of_mem_head? first)
        rw [readNew?, ident?_append ident (stops_isIdentPart (equals.stops _))]
        simp only [Option.bind_eq_bind, Option.bind_some,
          afterEquals?_append equals starts, afterWord?_append,
          afterGap?_append blank apart solidStart]
        rw [if_pos]
        simpa [named] using solid
    | _ => cases isNew

theorem readLoadArray?_eq_some_iff :
    readLoadArray? text = some shape ↔
      shape.form = .loadArray ∧ Spells shape text := by
  constructor
  · intro read
    simp only [readLoadArray?, Option.bind_eq_bind, Option.bind_eq_some_iff,
      Prod.exists, ident?_eq_some_iff, afterEquals?_eq_some_iff,
      afterIndex?_eq_some_iff, Option.ite_none_right_eq_some,
      Option.some.injEq, List.isEmpty_iff] at read
    rcases read with ⟨target, _, ⟨rfl, ident, _⟩, _, ⟨sign, equals, rfl, _⟩,
      base, _, ⟨rfl, identBase, _⟩, _, ⟨index, indexed, rfl⟩, rfl, rfl⟩
    rw [List.append_nil]
    exact ⟨rfl, .loadArray ident equals identBase indexed⟩
  · rintro ⟨isLoad, spelled⟩
    cases spelled with
    | loadArray ident equals identBase indexed =>
        have bracketed := afterIndex?_append indexed []
        have leaves := indexed.stops []
        rw [List.append_nil] at bracketed leaves
        rw [readLoadArray?,
          ident?_append ident (stops_isIdentPart (equals.stops _))]
        simp [afterEquals?_append equals (stops_isGap_of_isIdent identBase _),
          ident?_append identBase leaves, bracketed]
    | _ => cases isLoad

theorem readStoreArray?_eq_some_iff :
    readStoreArray? text = some shape ↔
      shape.form = .storeArray ∧ Spells shape text := by
  constructor
  · intro read
    simp only [readStoreArray?, Option.bind_eq_bind, Option.bind_eq_some_iff,
      Prod.exists, ident?_eq_some_iff, afterEquals?_eq_some_iff,
      afterIndex?_eq_some_iff, Option.ite_none_right_eq_some,
      Option.some.injEq] at read
    rcases read with ⟨base, _, ⟨rfl, identBase, _⟩, _, ⟨index, indexed, rfl⟩,
      source, ⟨sign, equals, rfl, _⟩, ident, rfl⟩
    exact ⟨rfl, .storeArray identBase indexed equals ident⟩
  · rintro ⟨isStore, spelled⟩
    cases spelled with
    | storeArray identBase indexed equals ident =>
        rw [readStoreArray?, ident?_append identBase (indexed.stops _)]
        simp [afterIndex?_append indexed, ident,
          afterEquals?_append equals (stops_isGap_of_isIdent_whole ident)]
    | _ => cases isStore

theorem readLoadField?_eq_some_iff :
    readLoadField? text = some shape ↔
      shape.form = .loadField ∧ Spells shape text := by
  constructor
  · intro read
    simp only [readLoadField?, Option.bind_eq_bind, Option.bind_eq_some_iff,
      Prod.exists, ident?_eq_some_iff, afterEquals?_eq_some_iff,
      qualified?_eq_some_iff, Option.some.injEq] at read
    rcases read with ⟨target, _, ⟨rfl, ident, _⟩, _, ⟨sign, equals, rfl, _⟩,
      qualifier, field, ⟨rfl, named, identField⟩, rfl⟩
    exact ⟨rfl, .loadField ident equals named identField⟩
  · rintro ⟨isLoad, spelled⟩
    cases spelled with
    | @loadField target sign qualifier field ident equals named identField =>
        have qualified : qualified? (qualifier ++ '.' :: field) =
            some (qualifier, field) :=
          qualified?_eq_some_iff.mpr ⟨rfl, named, identField⟩
        rw [readLoadField?,
          ident?_append ident (stops_isIdentPart (equals.stops _))]
        simp [qualified,
          afterEquals?_append equals (stops_isGap_of_isClassName named _)]
    | _ => cases isLoad

theorem readStoreField?_eq_some_iff :
    readStoreField? text = some shape ↔
      shape.form = .storeField ∧ Spells shape text := by
  constructor
  · intro read
    simp only [readStoreField?, Option.bind_eq_bind, Option.bind_eq_some_iff,
      Prod.exists, afterEquals?_eq_some_iff, qualified?_eq_some_iff,
      Option.ite_none_right_eq_some, Option.some.injEq] at read
    rcases read with ⟨qualifier, field, ⟨qualified, named, identField⟩, source,
      ⟨sign, equals, assigned, _⟩, ident, rfl⟩
    have spelled := Spells.storeField named identField equals ident
    rw [← qualified, ← assigned, List.takeWhile_append_dropWhile] at spelled
    exact ⟨rfl, spelled⟩
  · rintro ⟨isStore, spelled⟩
    cases spelled with
    | @storeField qualifier field sign source named identField equals ident =>
        have qualified : qualified? (qualifier ++ '.' :: field) =
            some (qualifier, field) :=
          qualified?_eq_some_iff.mpr ⟨rfl, named, identField⟩
        have parts : ∀ char ∈ qualifier ++ '.' :: field,
            isClassPart char = true := by
          intro char member
          rcases List.mem_append.mp member with before | dot | ⟨_, after⟩
          · exact isClassPart_of_mem named char before
          · rfl
          · exact isClassPart_of_isIdentPart
              (isIdentPart_of_mem identField char after)
        rw [readStoreField?, takeWhile_append parts (equals.stops _),
          dropWhile_append parts (equals.stops _), qualified]
        simp [ident,
          afterEquals?_append equals (stops_isGap_of_isIdent_whole ident)]
    | _ => cases isStore

theorem readCopy?_eq_some_iff :
    readCopy? text = some shape ↔
      shape.form = .copy ∧ Spells shape text := by
  constructor
  · intro read
    simp only [readCopy?, Option.bind_eq_bind, Option.bind_eq_some_iff,
      Prod.exists, ident?_eq_some_iff, afterEquals?_eq_some_iff,
      Option.ite_none_right_eq_some, Option.some.injEq] at read
    rcases read with ⟨target, _, ⟨rfl, ident, _⟩, source,
      ⟨sign, equals, rfl, _⟩, identSource, rfl⟩
    exact ⟨rfl, .copy ident equals identSource⟩
  · rintro ⟨isCopy, spelled⟩
    cases spelled with
    | copy ident equals identSource =>
        rw [readCopy?,
          ident?_append ident (stops_isIdentPart (equals.stops _))]
        simp [afterEquals?_append equals
          (stops_isGap_of_isIdent_whole identSource), identSource]
    | _ => cases isCopy

/-- The reader of a form accepts exactly the texts that are spelled so. -/
theorem reader_eq_some_iff {form : Form} :
    form.reader text = some shape ↔
      shape.form = form ∧ Spells shape text := by
  cases form with
  | ret => exact readReturn?_eq_some_iff
  | invoke => exact readInvoke?_eq_some_iff
  | new => exact readNew?_eq_some_iff
  | loadArray => exact readLoadArray?_eq_some_iff
  | storeArray => exact readStoreArray?_eq_some_iff
  | loadField => exact readLoadField?_eq_some_iff
  | storeField => exact readStoreField?_eq_some_iff
  | copy => exact readCopy?_eq_some_iff

end Readers

/-! ## Forms -/

/-- The form of an assignment to a variable: the first word on its right side,
and what follows that word. -/
def Form.ofSource (word : List Char) : List Char → Form
  | [] => .copy
  | '.' :: _ => .loadField
  | '[' :: _ => .loadArray
  | _ => if word = "new".toList then .new else .invoke

/-- The form that a text shows in its first words. -/
def Form.of? (text : List Char) : Option Form := do
  let (word, rest) ← ident? text
  match rest.dropWhile isGap with
  | '.' :: _ => some .storeField
  | '[' :: _ => some .storeArray
  | '=' :: rest =>
      let (source, rest) ← ident? (rest.dropWhile isGap)
      some (.ofSource source rest)
  | _ => some (if word = "return".toList then .ret else .invoke)

section Forms

variable {text word rest : List Char} {shape : Shape}

theorem Form.of?_assignment {target sign : List Char}
    (ident : isIdent target = true) (equals : Equals sign)
    (identSource : isIdent word = true) (stops : Stops isIdentPart rest) :
    Form.of? (target ++ (sign ++ (word ++ rest))) =
      some (.ofSource word rest) := by
  have first := ident?_append ident (stops_isIdentPart
    (equals.stops (word ++ rest)))
  rcases equals with ⟨before, after, blank, blankAfter, rfl⟩
  rw [List.append_assoc, List.cons_append] at first ⊢
  rw [Form.of?, first]
  simp only [Option.bind_eq_bind, Option.bind_some,
    dropWhile_append blank (show Stops isGap ('=' :: _) from
      stops_cons.mpr rfl),
    dropWhile_append blankAfter (stops_isGap_of_isIdent identSource rest),
    ident?_append identSource stops]

theorem Form.of?_statement {gap : List Char} (ident : isIdent word = true)
    (leaves : Stops isIdentPart (gap ++ rest)) (blank : Gap gap)
    (stops : Stops followsTarget rest) :
    Form.of? (word ++ (gap ++ rest)) =
      some (if word = "return".toList then .ret else .invoke) := by
  rw [Form.of?, ident?_append ident leaves]
  simp only [Option.bind_eq_bind, Option.bind_some,
    dropWhile_append blank (stops.mono fun _ => followsTarget_of_isGap)]
  split
  · cases stops_cons.mp stops
  · cases stops_cons.mp stops
  · cases stops_cons.mp stops
  · rfl

theorem Form.of?_dot (ident : isIdent word = true) :
    Form.of? (word ++ '.' :: rest) = some .storeField := by
  rw [Form.of?, ident?_append ident (stops_cons.mpr rfl)]
  rfl

theorem Form.of?_bracket (ident : isIdent word = true) :
    Form.of? (word ++ '[' :: rest) = some .storeArray := by
  rw [Form.of?, ident?_append ident (stops_cons.mpr rfl)]
  rfl

theorem Form.ofSource_gap {gap : List Char} (blank : Gap gap)
    (apart : gap ≠ []) :
    Form.ofSource word (gap ++ rest) =
      if word = "new".toList then .new else .invoke := by
  cases gap with
  | nil => exact (apart rfl).elim
  | cons char others =>
      have first := blank char (.head _)
      rw [List.cons_append]
      unfold Form.ofSource
      split
      · rename_i empty
        cases empty
      · rename_i dot
        cases dot
        cases first
      · rename_i bracket
        cases bracket
        cases first
      · rfl

/-- A text that is spelled somehow shows its form. -/
theorem Spells.of?_eq (spelled : Spells shape text) :
    Form.of? text = some shape.form := by
  cases spelled with
  | ret => rfl
  | retValue blank apart ident =>
      have stops := stops_followsTarget_of_isIdent ident []
      rw [List.append_nil] at stops
      exact Form.of?_statement rfl (blank.stops apart _) blank stops
  | @invoke _ _ _ kind _ _ inside blanks arguments assigns kinded letters blank
      apart receives closed blankAfter oneLine =>
      have ident : isIdent ("invoke".toList ++ kind) = true :=
        isIdent_append rfl fun char member =>
          isIdentPart_of_isWordChar (letters char member)
      have starts : ∀ word : List Char, word.head? ≠ some 'i' →
          "invoke".toList ++ kind ≠ word := by
        rintro _ different rfl
        exact different rfl
      rw [← List.append_assoc "invoke".toList]
      cases assigns with
      | none =>
          rw [List.nil_append, List.cons_append, Form.of?_statement ident
            (blank.stops apart _) blank (receives.stops _),
            if_neg (starts _ (by decide))]
          rfl
      | some identTarget equals =>
          rw [List.append_assoc _ _ (_ ++ _),
            Form.of?_assignment identTarget equals ident
              (blank.stops apart _),
            Form.ofSource_gap blank apart, if_neg (starts _ (by decide))]
          rfl
  | new ident equals blank apart named solid =>
      rw [Form.of?_assignment ident equals rfl (blank.stops apart _),
        Form.ofSource_gap blank apart]
      rfl
  | loadArray ident equals identBase indexed =>
      rcases indexed with ⟨inside, _, rfl⟩
      exact Form.of?_assignment ident equals identBase (stops_cons.mpr rfl)
  | storeArray identBase indexed equals ident =>
      rcases indexed with ⟨inside, _, rfl⟩
      exact Form.of?_bracket identBase
  | loadField ident equals named identField =>
      -- The first word may end before the last dot, but a dot follows it.
      rcases exists_ident_append named with
        ⟨word, _, rfl, identWord, rfl | ⟨rest, rfl⟩⟩
      · rw [List.append_nil]
        exact Form.of?_assignment ident equals identWord (stops_cons.mpr rfl)
      · rw [List.append_assoc]
        exact Form.of?_assignment ident equals identWord (stops_cons.mpr rfl)
  | storeField named identField equals ident =>
      rcases exists_ident_append named with
        ⟨word, _, rfl, identWord, rfl | ⟨rest, rfl⟩⟩
      · rw [List.append_nil, List.append_assoc]
        exact Form.of?_dot identWord
      · rw [List.append_assoc, List.append_assoc]
        exact Form.of?_dot identWord
  | copy ident equals identSource =>
      have form := Form.of?_assignment ident equals identSource
        (@stops_nil isIdentPart)
      rwa [List.append_nil] at form

/-- A text that is spelled somehow starts with a word. -/
theorem Spells.exists_ident (spelled : Spells shape text) :
    ∃ word rest, text = word ++ rest ∧ isIdent word = true := by
  have shown := spelled.of?_eq
  rw [Form.of?, Option.bind_eq_bind, Option.bind_eq_some_iff] at shown
  rcases shown with ⟨⟨word, rest⟩, found, _⟩
  rcases ident?_eq_some_iff.mp found with ⟨whole, ident, _⟩
  exact ⟨word, rest, whole, ident⟩

/-- A text is spelled in one way only. -/
theorem Spells.unique {other : Shape} (spelled : Spells shape text)
    (again : Spells other text) : shape = other := by
  have forms : shape.form = other.form :=
    Option.some.inj (spelled.of?_eq.symm.trans again.of?_eq)
  have read := reader_eq_some_iff.mpr ⟨rfl, spelled⟩
  have reread := reader_eq_some_iff.mpr ⟨forms.symm, again⟩
  exact Option.some.inj (read.symm.trans reread)

/-- A text is read as what it spells. -/
theorem read?_eq_some_iff : read? text = some shape ↔ Spells shape text := by
  have listed : readers = Form.all.map Form.reader := rfl
  have sound : ∀ {other : Shape}, read? text = some other →
      Spells other text := by
    intro other read
    rw [read?, listed] at read
    rcases List.exists_of_findSome?_eq_some read with ⟨reader, member, found⟩
    rcases List.mem_map.mp member with ⟨form, _, rfl⟩
    exact (reader_eq_some_iff.mp found).2
  constructor
  · exact sound
  · intro spelled
    cases read : read? text with
    | some other => rw [(sound read).unique spelled]
    | none =>
        have refused := List.findSome?_eq_none_iff.mp read
        rw [listed] at refused
        have nothing := refused shape.form.reader
          (List.mem_map_of_mem (by cases shape <;> simp [Form.all, form]))
        rw [reader_eq_some_iff.mpr ⟨rfl, spelled⟩] at nothing
        cases nothing

end Forms

end Shape

end PointsTo
