import PointsTo.Program.Editing
import PointsTo.Proofs.Program.Grammar
import PointsTo.Proofs.Text.Pattern

/-!
# Statements match one pattern

Each form of statements is described by a pattern whose groups are the parts of
the statement.  Keywords are identifiers as well, and indices and arguments may
contain nearly anything; still no text matches two patterns, and none matches a
pattern in two ways.  So it does not matter in which order the patterns are tried,
nor which match is preferred.
-/

namespace PointsTo

open Text

namespace Shape

/-! ## The patterns of the forms -/

/-- Identifiers. -/
def identPattern : Pattern :=
  .word isIdentStart isIdentPart

/-- Class names. -/
def classPattern : Pattern :=
  .word isIdentStart isClassPart

/-- An equals sign and the gaps around it. -/
def equalsPattern : Pattern :=
  .sequence [.many isGap, .literal "=", .many isGap]

/-- An index in brackets. -/
def indexPattern : Pattern :=
  .enclosed '[' ']'

/-- The variable that takes the result of a call. -/
def resultPattern : Pattern :=
  .optional (.append (.group 1 identPattern) equalsPattern)

/-- The receiver of a call. -/
def receiverPattern : Pattern :=
  .optional (.append (.group 3 identPattern) (.literal "."))

/-- The pattern of a form. -/
def Form.pattern : Form → Pattern
  | .ret =>
      .sequence [.literal "return",
        .optional (.append (.atLeastOne isGap) (.group 1 identPattern))]
  | .invoke =>
      .sequence
        [resultPattern, .literal "invoke", .group 2 (.atLeastOne isWordChar),
          .atLeastOne isGap, receiverPattern, .group 4 (.enclosed '<' '>'),
          .many isGap, .literal "(", .group 5 (.many (· ≠ '\n')),
          .literal ")"]
  | .new =>
      .sequence [.group 1 identPattern, equalsPattern, .literal "new",
        .atLeastOne isGap, .group 2 (.atLeastOne (!isGap ·))]
  | .loadArray =>
      .sequence [.group 1 identPattern, equalsPattern, .group 2 identPattern,
        indexPattern]
  | .storeArray =>
      .sequence [.group 1 identPattern, indexPattern, equalsPattern,
        .group 2 identPattern]
  | .loadField =>
      .sequence [.group 1 identPattern, equalsPattern, .group 2 classPattern,
        .literal ".", .group 3 identPattern]
  | .storeField =>
      .sequence [.group 1 classPattern, .literal ".", .group 2 identPattern,
        equalsPattern, .group 3 identPattern]
  | .copy =>
      .sequence [.group 1 identPattern, equalsPattern, .group 2 identPattern]

/-- The text of a group, if the group takes part in a match. -/
def captured? (captures : List Capture) (number : Nat) : Option String :=
  (captures.find? (·.1 = number)).map fun capture =>
    String.ofList capture.2

/-- The text of a group; it is empty if the group takes no part in a match. -/
def captured (captures : List Capture) (number : Nat) : String :=
  (captured? captures number).getD ""

/-- The shape of a statement whose text matches the pattern of a form. -/
def Form.shape : Form → List Capture → Shape
  | .ret, found => .ret (captured? found 1)
  | .invoke, found =>
      .invoke (captured? found 1) (captured found 2) (captured? found 3)
        (captured found 4) (captured found 5)
  | .new, found => .new (captured found 1) (captured found 2)
  | .loadArray, found => .loadArray (captured found 1) (captured found 2)
  | .storeArray, found => .storeArray (captured found 1) (captured found 2)
  | .loadField, found =>
      .loadField (captured found 1) (captured found 2) (captured found 3)
  | .storeField, found =>
      .storeField (captured found 1) (captured found 2) (captured found 3)
  | .copy, found => .copy (captured found 1) (captured found 2)

/-- A group that may be missing. -/
def capture? (number : Nat) (part : Option String) : List Capture :=
  part.toList.map fun text => (number, text.toList)

/-- The groups that a shape consists of. -/
def captures : Shape → List Capture
  | .ret value => capture? 1 value
  | .invoke result kind receiver signature arguments =>
      capture? 1 result ++ (2, kind.toList) ::
        (capture? 3 receiver ++
          [(4, signature.toList), (5, arguments.toList)])
  | .new target type => [(1, target.toList), (2, type.toList)]
  | .loadArray target base => [(1, target.toList), (2, base.toList)]
  | .storeArray base source => [(1, base.toList), (2, source.toList)]
  | .loadField target qualifier field =>
      [(1, target.toList), (2, qualifier.toList), (3, field.toList)]
  | .storeField qualifier field source =>
      [(1, qualifier.toList), (2, field.toList), (3, source.toList)]
  | .copy target source => [(1, target.toList), (2, source.toList)]

/-- A shape is put together again from its groups. -/
theorem shape_captures (shape : Shape) :
    shape.form.shape shape.captures = shape := by
  cases shape with
  | ret value =>
      cases value <;> simp [form, Form.shape, captures, capture?, captured?]
  | invoke result kind receiver signature arguments =>
      cases result <;> cases receiver <;>
        simp [form, Form.shape, captures, capture?, captured?, captured]
  | _ => simp [form, Form.shape, captures, captured?, captured]

/-! ## The words of a pattern -/

/-- The pattern of identifiers, and what it stands for. -/
theorem describes_ident : identPattern.Describes (isIdent · = true) := by
  apply (Pattern.describes_word _ _).congr
  intro text
  constructor
  · rintro ⟨char, rest, rfl, start, parts⟩
    exact isIdent_cons.mpr ⟨start, parts⟩
  · intro ident
    cases text with
    | nil => cases ident
    | cons char rest => exact ⟨char, rest, rfl, isIdent_cons.mp ident⟩

/-- The pattern of class names allows dots after the first character. -/
theorem describes_className :
    classPattern.Describes (isClassName · = true) := by
  apply (Pattern.describes_word _ _).congr
  intro text
  constructor
  · rintro ⟨char, rest, rfl, start, parts⟩
    exact isClassName_cons.mpr ⟨start, parts⟩
  · intro named
    cases text with
    | nil => cases named
    | cons char rest => exact ⟨char, rest, rfl, isClassName_cons.mp named⟩

theorem describes_gap : (Pattern.many isGap).Describes Gap :=
  Pattern.describes_many isGap

theorem describes_gapApart :
    (Pattern.atLeastOne isGap).Describes fun gap => gap ≠ [] ∧ Gap gap :=
  Pattern.describes_atLeastOne isGap

/-- Blanks are optional on both sides of an equals sign. -/
theorem describes_equals : equalsPattern.Describes Equals := by
  apply (describes_gap.append
    ((Pattern.describes_literal "=").append describes_gap)).congr
  intro text
  constructor
  · rintro ⟨before, _, rfl, blank, _, after, rfl, rfl, blankAfter⟩
    exact ⟨before, after, blank, blankAfter, rfl⟩
  · rintro ⟨before, after, blank, blankAfter, rfl⟩
    exact ⟨before, '=' :: after, rfl, blank, ['='], after, rfl, rfl,
      blankAfter⟩

theorem describes_index : indexPattern.Describes Index :=
  Pattern.describes_enclosed '[' ']'

section Matching

variable {text : List Char} {found : List Capture} {rest : Pattern}

/-- The result of a call is optional, together with the equals sign. -/
theorem matches_result_append :
    (resultPattern.append rest).Matches text found ↔
      ∃ lead back result later, text = lead ++ back ∧
        found = capture? 1 (result.map String.ofList) ++ later ∧
        Assigns result lead ∧ rest.Matches back later := by
  rw [Pattern.matches_append_iff]
  simp only [resultPattern, Pattern.matches_optional_iff,
    describes_ident.matches_group_append, describes_equals _ _]
  constructor
  · rintro ⟨_, back, _, later, rfl, rfl, ⟨rfl, rfl⟩ | ⟨target, sign, _, rfl, rfl,
      ident, equals, rfl⟩, after⟩
    · exact ⟨[], back, none, later, rfl, rfl, .none, after⟩
    · exact ⟨target ++ sign, back, some target, later, rfl, by simp [capture?],
        .some ident equals, after⟩
  · rintro ⟨_, back, _, later, rfl, rfl, assigns, after⟩
    cases assigns with
    | none => exact ⟨[], back, [], later, rfl, rfl, .inl ⟨rfl, rfl⟩, after⟩
    | @some target sign ident equals =>
        exact ⟨target ++ sign, back, [(1, target)], later, rfl,
          by simp [capture?], .inr ⟨target, sign, [], rfl, rfl, ident, equals,
            rfl⟩, after⟩

/-- So is the receiver, together with the dot. -/
theorem matches_receiver_append :
    (receiverPattern.append rest).Matches text found ↔
      ∃ base back receiver later, text = base ++ back ∧
        found = capture? 3 (receiver.map String.ofList) ++ later ∧
        Receives receiver base ∧ rest.Matches back later := by
  rw [Pattern.matches_append_iff]
  simp only [receiverPattern, Pattern.matches_optional_iff,
    describes_ident.matches_group_append, Pattern.describes_literal _ _ _]
  constructor
  · rintro ⟨_, back, _, later, rfl, rfl, ⟨rfl, rfl⟩ | ⟨receiver, _, _, rfl, rfl,
      ident, rfl, rfl⟩, after⟩
    · exact ⟨[], back, none, later, rfl, rfl, .none, after⟩
    · exact ⟨receiver ++ ['.'], back, some receiver, later, rfl,
        by simp [capture?], .some ident, after⟩
  · rintro ⟨_, back, _, later, rfl, rfl, receives, after⟩
    cases receives with
    | none => exact ⟨[], back, [], later, rfl, rfl, .inl ⟨rfl, rfl⟩, after⟩
    | @some receiver ident =>
        exact ⟨receiver ++ ['.'], back, [(3, receiver)], later, rfl,
          by simp [capture?], .inr ⟨receiver, ['.'], [], rfl, rfl, ident, rfl,
            rfl⟩, after⟩

/-! ## Matches are spellings -/

/-- A text is spelled in a form, and the parts of the statement are the given
groups. -/
def Form.Spelled (form : Form) (text : List Char) (found : List Capture) :
    Prop :=
  ∃ shape, shape.form = form ∧ Spells shape text ∧ shape.captures = found

/-- The pattern of `return` matches what is spelled so; so it is for the others.
-/
theorem matches_ret_iff :
    Form.ret.pattern.Matches text found ↔ Form.ret.Spelled text found := by
  simp only [Form.pattern, Pattern.sequence,
    (Pattern.describes_literal _).matches_append,
    Pattern.matches_optional_iff, describes_gapApart.matches_append,
    describes_ident.matches_group]
  constructor
  · rintro ⟨_, _, rfl, rfl, ⟨rfl, rfl⟩ | ⟨gap, value, rfl, ⟨apart, blank⟩, rfl,
      ident⟩⟩
    · exact ⟨_, rfl, .ret, rfl⟩
    · exact ⟨_, rfl, .retValue blank apart ident,
        by simp [captures, capture?]⟩
  · rintro ⟨_, isRet, spelled, rfl⟩
    cases spelled with
    | ret => exact ⟨_, [], rfl, rfl, .inl ⟨rfl, rfl⟩⟩
    | retValue blank apart ident =>
        exact ⟨_, _, rfl, rfl, .inr ⟨_, _, rfl, ⟨apart, blank⟩,
          by simp [captures, capture?], ident⟩⟩
    | _ => cases isRet

theorem matches_new_iff :
    Form.new.pattern.Matches text found ↔ Form.new.Spelled text found := by
  simp only [Form.pattern, Pattern.sequence,
    describes_ident.matches_group_append, describes_equals.matches_append,
    (Pattern.describes_literal _).matches_append,
    describes_gapApart.matches_append,
    (Pattern.describes_atLeastOne _).matches_group, Bool.not_eq_true']
  constructor
  · rintro ⟨target, _, _, rfl, rfl, ident, sign, _, rfl, equals, _, _, rfl, rfl,
      gap, type, rfl, ⟨apart, blank⟩, rfl, named, solid⟩
    exact ⟨_, rfl, .new ident equals blank apart named solid,
      by simp [captures]⟩
  · rintro ⟨_, isNew, spelled, rfl⟩
    cases spelled with
    | new ident equals blank apart named solid =>
        exact ⟨_, _, _, rfl, by simp only [captures, String.toList_ofList],
          ident, _, _, rfl, equals, _, _, rfl, rfl, _, _, rfl, ⟨apart, blank⟩,
          rfl, named, solid⟩
    | _ => cases isNew

/-- The pattern of calls, whose result and receiver may be missing. -/
theorem matches_invoke_iff :
    Form.invoke.pattern.Matches text found ↔
      Form.invoke.Spelled text found := by
  simp only [Form.pattern, Pattern.sequence, matches_result_append,
    (Pattern.describes_literal _).matches_append,
    (Pattern.describes_atLeastOne isWordChar).matches_group_append,
    describes_gapApart.matches_append, matches_receiver_append,
    (Pattern.describes_enclosed _ _).matches_group_append,
    describes_gap.matches_append,
    (Pattern.describes_many _).matches_group_append,
    Pattern.describes_literal _ _ _, decide_eq_true_eq]
  constructor
  · rintro ⟨lead, _, result, _, rfl, rfl, assigns, _, _, rfl, rfl, kind, _, _, rfl,
      rfl, ⟨kinded, word⟩, gap, _, rfl, ⟨apart, blank⟩, base, _, receiver, _, rfl,
      rfl, receives, _, _, _, rfl, rfl, ⟨inside, closed, rfl⟩, blanks, _, rfl,
      blankAfter, _, _, rfl, rfl, arguments, _, _, rfl, rfl, oneLine, rfl, rfl⟩
    exact ⟨_, rfl, .invoke assigns kinded word blank apart receives closed
      blankAfter fun member => oneLine _ member rfl, by simp [captures]⟩
  · rintro ⟨_, isInvoke, spelled, rfl⟩
    cases spelled with
    | @invoke result receiver lead kind gap base inside blanks arguments
        assigns kinded word blank apart receives closed blankAfter oneLine =>
        simp only [captures, String.toList_ofList]
        refine ⟨lead, _, result, _, rfl, rfl, assigns, _, _, rfl, rfl, kind, _,
          _, rfl, rfl, ⟨kinded, word⟩, gap, _, rfl, ⟨apart, blank⟩, base, _,
          receiver, _, rfl, rfl, receives, _, _, _, rfl, rfl,
          ⟨inside, closed, rfl⟩, blanks, _, rfl, blankAfter, ['('],
          arguments ++ [')'], rfl, rfl, arguments, _, _, rfl, rfl, ?_, rfl, rfl⟩
        intro char member newline
        exact oneLine (newline ▸ member)
    | _ => cases isInvoke

theorem matches_loadArray_iff :
    Form.loadArray.pattern.Matches text found ↔
      Form.loadArray.Spelled text found := by
  simp only [Form.pattern, Pattern.sequence,
    describes_ident.matches_group_append, describes_equals.matches_append,
    describes_index _ _]
  constructor
  · rintro ⟨target, _, _, rfl, rfl, ident, sign, _, rfl, equals, base, index, _,
      rfl, rfl, identBase, indexed, rfl⟩
    exact ⟨_, rfl, .loadArray ident equals identBase indexed,
      by simp [captures]⟩
  · rintro ⟨_, isLoad, spelled, rfl⟩
    cases spelled with
    | loadArray ident equals identBase indexed =>
        exact ⟨_, _, _, rfl, by simp only [captures, String.toList_ofList],
          ident, _, _, rfl, equals, _, _, _, rfl, rfl, identBase, indexed, rfl⟩
    | _ => cases isLoad

theorem matches_storeArray_iff :
    Form.storeArray.pattern.Matches text found ↔
      Form.storeArray.Spelled text found := by
  simp only [Form.pattern, Pattern.sequence,
    describes_ident.matches_group_append, describes_index.matches_append,
    describes_equals.matches_append, describes_ident.matches_group]
  constructor
  · rintro ⟨base, _, _, rfl, rfl, identBase, index, _, rfl, indexed, sign,
      source, rfl, equals, rfl, ident⟩
    exact ⟨_, rfl, .storeArray identBase indexed equals ident,
      by simp [captures]⟩
  · rintro ⟨_, isStore, spelled, rfl⟩
    cases spelled with
    | storeArray identBase indexed equals ident =>
        exact ⟨_, _, _, rfl, by simp only [captures, String.toList_ofList],
          identBase, _, _, rfl, indexed, _, _, rfl, equals, rfl, ident⟩
    | _ => cases isStore

theorem matches_loadField_iff :
    Form.loadField.pattern.Matches text found ↔
      Form.loadField.Spelled text found := by
  simp only [Form.pattern, Pattern.sequence,
    describes_ident.matches_group_append, describes_equals.matches_append,
    describes_className.matches_group_append,
    (Pattern.describes_literal _).matches_append,
    describes_ident.matches_group]
  constructor
  · rintro ⟨target, _, _, rfl, rfl, ident, sign, _, rfl, equals, qualifier, _, _,
      rfl, rfl, named, _, field, rfl, rfl, rfl, identField⟩
    exact ⟨_, rfl, .loadField ident equals named identField,
      by simp [captures]⟩
  · rintro ⟨_, isLoad, spelled, rfl⟩
    cases spelled with
    | loadField ident equals named identField =>
        exact ⟨_, _, _, rfl, by simp only [captures, String.toList_ofList],
          ident, _, _, rfl, equals, _, _, _, rfl, rfl, named, _, _, rfl, rfl,
          rfl, identField⟩
    | _ => cases isLoad

theorem matches_storeField_iff :
    Form.storeField.pattern.Matches text found ↔
      Form.storeField.Spelled text found := by
  simp only [Form.pattern, Pattern.sequence,
    describes_className.matches_group_append,
    (Pattern.describes_literal _).matches_append,
    describes_ident.matches_group_append, describes_equals.matches_append,
    describes_ident.matches_group]
  constructor
  · rintro ⟨qualifier, _, _, rfl, rfl, named, _, _, rfl, rfl, field, _, _, rfl,
      rfl, identField, sign, source, rfl, equals, rfl, ident⟩
    have spelled := Spells.storeField named identField equals ident
    rw [List.append_assoc] at spelled
    exact ⟨_, rfl, spelled, by simp [captures]⟩
  · rintro ⟨_, isStore, spelled, rfl⟩
    cases spelled with
    | @storeField qualifier field sign source named identField equals ident =>
        exact ⟨qualifier, _, _, List.append_assoc ..,
          by simp only [captures, String.toList_ofList], named, ['.'],
          field ++ (sign ++ source), rfl, rfl, field, _, _, rfl, rfl,
          identField, _, _, rfl, equals, rfl, ident⟩
    | _ => cases isStore

/-- The pattern of copies, two identifiers around an equals sign. -/
theorem matches_copy_iff :
    Form.copy.pattern.Matches text found ↔ Form.copy.Spelled text found := by
  simp only [Form.pattern, Pattern.sequence,
    describes_ident.matches_group_append, describes_equals.matches_append,
    describes_ident.matches_group]
  constructor
  · rintro ⟨target, _, _, rfl, rfl, ident, sign, source, rfl, equals, rfl,
      identSource⟩
    exact ⟨_, rfl, .copy ident equals identSource, by simp [captures]⟩
  · rintro ⟨_, isCopy, spelled, rfl⟩
    cases spelled with
    | copy ident equals identSource =>
        exact ⟨_, _, _, rfl, by simp only [captures, String.toList_ofList],
          ident, _, _, rfl, equals, rfl, identSource⟩
    | _ => cases isCopy

/-- A text matches the pattern of a form just if it is spelled so. -/
theorem matches_pattern_iff {form : Form} :
    form.pattern.Matches text found ↔ form.Spelled text found := by
  cases form with
  | ret => exact matches_ret_iff
  | invoke => exact matches_invoke_iff
  | new => exact matches_new_iff
  | loadArray => exact matches_loadArray_iff
  | storeArray => exact matches_storeArray_iff
  | loadField => exact matches_loadField_iff
  | storeField => exact matches_storeField_iff
  | copy => exact matches_copy_iff

/-- A text is spelled in at most one form, and with one choice of its groups. -/
theorem Form.Spelled.unique {form other : Form} {others : List Capture}
    (spelled : form.Spelled text found) (again : other.Spelled text others) :
    form = other ∧ found = others := by
  rcases spelled with ⟨shape, rfl, spells, rfl⟩
  rcases again with ⟨_, rfl, spellsAgain, rfl⟩
  rw [spells.unique spellsAgain]
  exact ⟨rfl, rfl⟩

/-- Reading gives the shape that the groups of a match make up. -/
theorem read?_eq_some_iff_matches {shape : Shape} :
    read? text = some shape ↔
      ∃ (form : Form) (found : List Capture),
        form.pattern.Matches text found ∧ form.shape found = shape := by
  rw [read?_eq_some_iff]
  constructor
  · intro spells
    exact ⟨shape.form, shape.captures,
      matches_pattern_iff.mpr ⟨shape, rfl, spells, rfl⟩, shape_captures shape⟩
  · rintro ⟨form, found, matched, rfl⟩
    rcases matches_pattern_iff.mp matched with ⟨shape, rfl, spells, rfl⟩
    rwa [shape_captures]

end Matching

/-! ## Orders and preferences -/

/-- A way of looking for matches: it finds a match if there is one.  If there
were several, it could prefer any of them. -/
structure Finds (find : Form → List Char → Option (List Capture)) : Prop where
  sound {form : Form} {text : List Char} {found : List Capture} :
    find form text = some found → form.pattern.Matches text found
  complete {form : Form} {text : List Char} {found : List Capture} :
    form.pattern.Matches text found → find form text ≠ none

/-- Try the patterns of some forms one after the other; the first match
counts. -/
def attempt (find : Form → List Char → Option (List Capture))
    (order : List Form) (text : List Char) : Option Shape :=
  order.findSome? fun form => (find form text).map form.shape

/-- The order of the attempts does not matter, nor does the preference among
matches. -/
theorem Finds.attempt_eq {find : Form → List Char → Option (List Capture)}
    (finds : Finds find) {order : List Form}
    (every : ∀ form, form ∈ order) (text : List Char) :
    attempt find order text = read? text := by
  apply Option.ext
  intro shape
  rw [read?_eq_some_iff_matches]
  have sound : ∀ {other : Shape}, attempt find order text = some other →
      ∃ (form : Form) (found : List Capture),
        form.pattern.Matches text found ∧ form.shape found = other := by
    intro other attempted
    rcases List.exists_of_findSome?_eq_some attempted with
      ⟨form, _, hit⟩
    rcases Option.map_eq_some_iff.mp hit with ⟨found, located, rfl⟩
    exact ⟨form, found, finds.sound located, rfl⟩
  constructor
  · exact sound
  · rintro ⟨form, found, matched, rfl⟩
    cases attempted : attempt find order text with
    | none =>
        have missed := List.findSome?_eq_none_iff.mp attempted form
          (every form)
        exact (finds.complete matched (Option.map_eq_none_iff.mp missed)).elim
    | some other =>
        rcases sound attempted with ⟨form, found, rematched, rfl⟩
        rcases (matches_pattern_iff.mp matched).unique
          (matches_pattern_iff.mp rematched) with ⟨rfl, rfl⟩
        rfl

/-- The groups that the reader of a form finds. -/
def Form.find (form : Form) (text : List Char) : Option (List Capture) :=
  (form.reader text).map captures

/-- The readers of the forms find a match if there is one. -/
theorem finds_find : Finds Form.find where
  sound located := by
    rcases Option.map_eq_some_iff.mp located with ⟨shape, read, rfl⟩
    rcases reader_eq_some_iff.mp read with ⟨formed, spells⟩
    exact matches_pattern_iff.mpr ⟨shape, formed, spells, rfl⟩
  complete matched missed := by
    rcases matches_pattern_iff.mp matched with ⟨shape, formed, spells, _⟩
    rw [Form.find, reader_eq_some_iff.mpr ⟨formed, spells⟩] at missed
    cases missed

end Shape

/-- Read a statement text that is recognised in the given way, and append the
statement to the method. -/
def Program.readStmtBy (recognise : List Char → Option Shape)
    (program : Program) (method : Method) (text : String) :
    Except Error Method :=
  let text := trimmed text
  match recognise text.toList with
  | none => .error (.notAStatement text)
  | some shape => program.addShape method text shape

theorem Program.readStmtBy_read? (program : Program) (method : Method)
    (text : String) :
    program.readStmtBy Shape.read? method text =
      program.readStmt method text := by
  cases read : Shape.read? (trimmed text).toList with
  | none => simp only [readStmtBy, readStmt, read]
  | some shape => simp only [readStmtBy, readStmt, read]

/-- Read a statement text that is recognised in the given way into a method. -/
def Editing.readStmtBy (recognise : List Char → Option Shape) (id : MethodId)
    (text : String) : Editing Site :=
  let text := trimmed text
  match recognise text.toList with
  | none => throw (.notAStatement text)
  | some shape => readShape id text shape

theorem Editing.readStmtBy_read? (id : MethodId) (text : String) :
    readStmtBy Shape.read? id text = readStmt id text := by
  cases read : Shape.read? (trimmed text).toList with
  | none => simp only [readStmtBy, readStmt, read]
  | some shape => simp only [readStmtBy, readStmt, read]

/--
No text matches the patterns of two forms, and none matches a pattern with two
choices of its groups; so a statement is read in the same way whatever the order
in which the patterns are tried and whatever match is preferred.
-/
theorem statements_unambiguous :
    (∀ (text : List Char) (form other : Shape.Form)
        (found others : List Capture),
      form.pattern.Matches text found → other.pattern.Matches text others →
        form = other ∧ found = others) ∧
    ∀ (find : Shape.Form → List Char → Option (List Capture))
        (order : List Shape.Form),
      Shape.Finds find → (∀ form, form ∈ order) →
        (∀ (program : Program) (method : Method) (text : String),
          program.readStmtBy (Shape.attempt find order) method text =
            program.readStmt method text) ∧
        ∀ (id : MethodId) (text : String),
          Editing.readStmtBy (Shape.attempt find order) id text =
            Editing.readStmt id text := by
  constructor
  · intro text form other found others matched rematched
    exact (Shape.matches_pattern_iff.mp matched).unique
      (Shape.matches_pattern_iff.mp rematched)
  · intro find order finds every
    have same : Shape.attempt find order = Shape.read? :=
      funext (finds.attempt_eq every)
    rw [same]
    exact ⟨Program.readStmtBy_read?, Editing.readStmtBy_read?⟩

/-- Keywords as a variable and as a class, and the patterns from the last to the
first. -/
theorem statements_unambiguous_keywords :
    Shape.Form.new.pattern.Matches "new = new new".toList
        [(1, "new".toList), (2, "new".toList)] ∧
      (∀ (form : Shape.Form) (found : List Capture),
        form.pattern.Matches "new = new new".toList found →
          form = .new ∧ found = [(1, "new".toList), (2, "new".toList)]) ∧
      Shape.Finds Shape.Form.find ∧
      (∀ form, form ∈ Shape.Form.all.reverse) ∧
      ∀ (program : Program) (method : Method) (text : String),
        program.readStmtBy
            (Shape.attempt Shape.Form.find Shape.Form.all.reverse)
            method text =
          program.readStmt method text := by
  have matched : Shape.Form.new.pattern.Matches "new = new new".toList
      [(1, "new".toList), (2, "new".toList)] :=
    Shape.finds_find.sound (by decide +kernel)
  have every : ∀ form, form ∈ Shape.Form.all.reverse := by
    intro form
    cases form <;> decide
  refine ⟨matched, ?_, Shape.finds_find, every, ?_⟩
  · intro form found rematched
    exact statements_unambiguous.1 _ _ _ _ _ rematched matched
  · exact (statements_unambiguous.2 Shape.Form.find Shape.Form.all.reverse
      Shape.finds_find every).1

end PointsTo
