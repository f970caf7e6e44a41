import PointsTo.Proofs.Program.Signatures
import PointsTo.Proofs.Text.Spacing

/-!
# Spaces in signatures

The parameter types of a signature may be separated by a comma and a space.
Neither way of looking up a signature depends on these spaces as long as no comma
is followed by two of them.  With two or more spaces the ways differ: a reference
is read as before, since the types in it are trimmed, but a declared method is no
longer found, since its subsignature is compared as a text.
-/

namespace PointsTo

open Checked Text

/-! ## Parts of tightened signatures -/

section Parts

variable {text inside front back subsignature : List Char} {owner : String}

/-- Removing a final mark commutes with tightening. -/
theorem final_tighten {mark : Char} (solid : mark ≠ ' ') (other : mark ≠ ',')
    {final? : List Char → Option (List Char)}
    (spec : ∀ {text inside}, final? text = some inside ↔
      text = inside ++ [mark]) :
    final? (tighten text) = (final? text).map tighten := by
  cases found : final? text with
  | some inside =>
      rw [spec.mp found, tighten_concat solid]
      exact spec.mpr rfl
  | none =>
      cases again : final? (tighten text) with
      | none => rfl
      | some inside =>
          have ends : (tighten text).getLast? = some mark := by
            rw [spec.mp again, List.getLast?_concat]
          rw [getLast?_tighten_iff solid other] at ends
          rcases List.getLast?_eq_some_iff.mp ends with ⟨front, whole⟩
          rw [spec.mpr whole] at found
          cases found

theorem insideAngles?_tighten :
    insideAngles? (tighten text) = (insideAngles? text).map tighten := by
  cases text with
  | nil => rfl
  | cons char rest =>
      by_cases opening : char = '<'
      · subst opening
        rw [tighten_cons_of_ne (by decide)]
        refine @final_tighten rest '>' (by decide) (by decide)
          (fun rest => insideAngles? ('<' :: rest)) ?_
        intro rest inside
        rw [insideAngles?_eq_some_iff, List.cons_inj_right]
      · have closed : ∀ rest, insideAngles? (char :: rest) = none := by
          intro rest
          unfold insideAngles?
          split
          · rename_i same
            exact (opening (List.cons.inj same).1).elim
          · rfl
        rw [tighten_cons, closed, closed]
        rfl

/-- The parts of a tightened signature are the tightened parts. -/
theorem splitSignature?_tighten :
    splitSignature? (tighten text) =
      (splitSignature? text).map fun parts =>
        (tightened parts.1, tighten parts.2) := by
  rw [splitSignature?, splitSignature?, trim_tighten, insideAngles?_tighten]
  cases insideAngles? (trim text) with
  | none => rfl
  | some inside =>
      simp only [Option.map_some, Option.bind_eq_bind, Option.bind_some,
        cut?_tighten (show ':' ≠ ' ' by decide) (show ':' ≠ ',' by decide)]
      cases cut? ':' inside with
      | none => rfl
      | some parts =>
          simp only [Option.map_some, Option.bind_some, trim_tighten,
            dropSpaceAfterComma_tighten, Bool.or_eq_true, List.isEmpty_iff,
            tighten_eq_nil_iff, dropSpaceAfterComma_eq_nil_iff]
          split
          · rfl
          · rw [Option.map_some, tighten_dropSpaceAfterComma, tightened,
              String.toList_ofList]

/-- The subsignature is tight unless some comma is followed by two spaces. -/
theorem tighten_subsignature_of_not_gapped (single : ¬ Gapped text)
    (split : splitSignature? text = some (owner, subsignature)) :
    tighten subsignature = subsignature := by
  rcases splitSignature?_eq_some_iff.mp split with
    ⟨inside, front, back, angles, cut, _, _, rfl⟩
  have within : trim back <:+: text := by
    rw [insideAngles?_eq_some_iff, (cut?_eq_some cut).1] at angles
    refine (trim_isInfix back).trans (List.IsInfix.trans ?_ (trim_isInfix text))
    rw [angles]
    exact ⟨'<' :: (front ++ [':']), ['>'], by simp⟩
  rw [tighten_dropSpaceAfterComma, eq_comm, dropSpaceAfterComma_eq_tighten_iff]
  exact fun gapped => single (gapped.mono within)

/-- In a signature that ends with a parenthesis, the spaces that are left over
are those of its subsignature. -/
theorem gapped_iff_of_splitSignature?
    (split : splitSignature? text = some (owner, subsignature))
    (plain : ',' ∉ owner.toList) (closed : subsignature.getLast? = some ')') :
    Gapped text ↔ tighten subsignature ≠ subsignature := by
  rcases splitSignature?_eq_some_iff.mp split with
    ⟨inside, front, back, angles, cut, _, rfl, rfl⟩
  rw [String.toList_ofList, mem_trim_iff (by decide)] at plain
  rw [← getLast?_tighten_iff (by decide) (by decide),
    tighten_dropSpaceAfterComma,
    getLast?_tighten_iff (by decide) (by decide)] at closed
  rw [insideAngles?_eq_some_iff] at angles
  have ended : (trim text).getLast? = some '>' := by
    rw [angles, ← List.cons_append, List.getLast?_concat]
  calc Gapped text
    _ ↔ Gapped ('<' :: (inside ++ ['>'])) := by
      rw [← gapped_trim_iff ended (by decide) (by decide), angles]
    _ ↔ Gapped inside := by
      rw [gapped_cons_of_ne (by decide),
        gapped_append_cons (by decide) (by decide), or_iff_left (by decide)]
    _ ↔ Gapped back := by
      rw [(cut?_eq_some cut).1, gapped_append plain,
        gapped_cons_of_ne (by decide)]
    _ ↔ Gapped (trim back) := (gapped_trim_iff closed (by decide)
      (by decide)).symm
    _ ↔ tighten (dropSpaceAfterComma (trim back)) ≠
        dropSpaceAfterComma (trim back) := by
      rw [tighten_dropSpaceAfterComma, ne_comm, Ne,
        dropSpaceAfterComma_eq_tighten_iff, not_not]

/-- The parts of a tightened subsignature are the tightened parts if there is no
comma in the result type. -/
theorem splitSubsignature?_tighten
    (plain : ∀ front back, cut? ' ' text = some (front, back) → ',' ∉ front) :
    Program.splitSubsignature? (tighten text) =
      (Program.splitSubsignature? text).map fun parts =>
        (parts.1, tighten parts.2.1, tighten parts.2.2) := by
  cases first : cut? ' ' text with
  | none =>
      rw [tighten_of_cut?_space_eq_none first, splitSubsignature?_of_none first]
      rfl
  | some parts =>
      have moved := cut?_space_tighten first (plain _ _ first)
      rw [splitSubsignature?_of_some first, splitSubsignature?_of_some moved,
        final_tighten (by decide) (by decide) beforeParenthesis?_eq_some_iff]
      cases Program.beforeParenthesis? parts.2 with
      | none => rfl
      | some inside =>
          simp only [Option.map_some, Option.bind_some,
            cut?_tighten (show '(' ≠ ' ' by decide) (show '(' ≠ ',' by decide)]
          cases cut? '(' inside with
          | none => rfl
          | some parts =>
              simp only [Option.map_some, Option.bind_some, List.isEmpty_iff,
                tighten_eq_nil_iff]
              split <;> rfl

end Parts

/-! ## Looking up tightened signatures -/

namespace Program

variable {program : Program} {text : String} {owner : String}
  {subsignature : List Char}

theorem splitSignature?_tightened :
    splitSignature? (tightened text).toList =
      (splitSignature? text.toList).map fun parts =>
        (tightened parts.1, tighten parts.2) := by
  rw [tightened, String.toList_ofList, splitSignature?_tighten]

theorem splitSignature?_tightened_eq_none
    (malformed : splitSignature? text.toList = none) :
    splitSignature? (tightened text).toList = none := by
  rw [splitSignature?_tightened, malformed]
  rfl

theorem splitSignature?_tightened_eq_some
    (split : splitSignature? text.toList = some (owner, subsignature)) :
    splitSignature? (tightened text).toList =
      some (tightened owner, tighten subsignature) := by
  rw [splitSignature?_tightened, split]
  rfl

theorem tightened_of_not_mem_comma (plain : ',' ∉ owner.toList) :
    tightened owner = owner := by
  rw [tightened, tighten_of_not_mem_comma plain, String.ofList_toList]

/-- Parameter types are read as before. -/
theorem outcome_readParams_tighten (text : List Char) :
    outcome (program.readParams (tighten text)) =
      outcome (program.readParams text) := by
  simp only [readParams, List.isEmpty_iff, tighten_eq_nil_iff]
  split
  · rfl
  · exact outcome_readTypes_congr map_trim_splitWhen_tighten

/-- Where the result type contains no comma, reading the tightened text yields
the reference with a tightened name. -/
theorem outcome_readSubsignature_tighten
    (plain : ∀ front back, cut? ' ' subsignature = some (front, back) →
      ',' ∉ front) :
    outcome (program.readSubsignature owner (tighten subsignature)) =
      (outcome (program.readSubsignature owner subsignature)).map fun ref =>
        { ref with name := tightened ref.name } := by
  have tight := splitSubsignature?_tighten plain
  cases split : splitSubsignature? subsignature with
  | none =>
      rw [split, Option.map_none] at tight
      rw [outcome_readSubsignature_of_none split,
        outcome_readSubsignature_of_none tight]
      rfl
  | some parts =>
      rcases parts with ⟨result, name, params⟩
      rw [split, Option.map_some] at tight
      rw [outcome_readSubsignature split, outcome_readSubsignature tight]
      cases program.readType? result with
      | none => rfl
      | some type =>
          simp only [Option.elim_some, outcome_readParams_tighten]
          cases outcome (program.readParams params) with
          | error kind => rfl
          | ok types =>
              simp only [Except.map, tightened, String.toList_ofList]

/-- A result type with a comma in it is not known. -/
theorem outcome_readSubsignature_of_comma (wellNamed : program.WellNamed)
    (comma : ∀ front back, cut? ' ' subsignature = some (front, back) →
      ',' ∈ front) :
    outcome (program.readSubsignature owner subsignature) =
      if (splitSubsignature? subsignature).isSome then .error .unknownType
      else .error .malformedSignature := by
  cases split : splitSubsignature? subsignature with
  | none => exact outcome_readSubsignature_of_none split
  | some parts =>
      rcases parts with ⟨result, name, params⟩
      rcases cut?_of_splitSubsignature? split with ⟨rest, cut⟩
      rw [outcome_readSubsignature split,
        wellNamed.readType?_eq_none (comma _ _ cut)]
      rfl

/-- A class whose name contains a comma is only found under that name. -/
theorem class?_tightened (plain : program.WellNamed ∨ ',' ∉ owner.toList) :
    program.class? (tightened owner) = program.class? owner := by
  by_cases comma : ',' ∈ owner.toList
  · have wellNamed := plain.resolve_right (not_not.mpr comma)
    have kept : ',' ∈ (tightened owner).toList := by
      rw [tightened, String.toList_ofList]
      exact (mem_tighten_iff (by decide)).mpr comma
    rw [wellNamed.class?_eq_none comma, wellNamed.class?_eq_none kept]
  · rw [tightened_of_not_mem_comma comma]

theorem method?_tightened (plain : program.WellNamed ∨ ',' ∉ owner.toList)
    {name : String} :
    program.method? ⟨tightened owner, name⟩ = program.method? ⟨owner, name⟩ := by
  simp only [method?, class?_tightened plain]

/-- Single spaces after commas make no difference. -/
theorem outcome_of_not_gapped (single : ¬ Gapped text.toList)
    (plain : program.WellNamed ∨ ∀ owner subsignature,
      splitSignature? text.toList = some (owner, subsignature) →
        ',' ∉ owner.toList) :
    outcome (program.findMethod text) =
        outcome (program.findMethod (tightened text)) ∧
      outcome (program.readRef text) =
        outcome (program.readRef (tightened text)) := by
  cases split : splitSignature? text.toList with
  | none =>
      have malformed := splitSignature?_tightened_eq_none split
      rw [outcome_findMethod_of_none split, outcome_findMethod_of_none malformed,
        outcome_readRef_of_none split, outcome_readRef_of_none malformed]
      exact ⟨rfl, rfl⟩
  | some parts =>
      rcases parts with ⟨owner, subsignature⟩
      have again := splitSignature?_tightened_eq_some split
      rw [tighten_subsignature_of_not_gapped single split] at again
      have solid := plain.imp_right fun absent => absent _ _ split
      constructor
      · rw [outcome_findMethod split, outcome_findMethod again,
          method?_tightened solid]
      · rw [outcome_readRef split, outcome_readRef again,
          class?_tightened solid]

/-- In a program with proper names, spaces change what is read if they decide
whether there is a result type, or if they are part of a name. -/
theorem outcome_readSubsignature_tighten_iff (wellNamed : program.WellNamed) :
    outcome (program.readSubsignature owner subsignature) =
        outcome (program.readSubsignature owner (tighten subsignature)) ↔
      (splitSubsignature? (tighten subsignature)).isSome =
          (splitSubsignature? subsignature).isSome ∧
        ∀ ref, program.readSubsignature owner subsignature = .ok ref →
          tightened ref.name = ref.name := by
  by_cases plain : ∀ front back,
      cut? ' ' subsignature = some (front, back) → ',' ∉ front
  · rw [outcome_readSubsignature_tighten plain,
      splitSubsignature?_tighten plain, Option.isSome_map, and_iff_right rfl]
    cases program.readSubsignature owner subsignature with
    | error problem => simp [Except.map]
    | ok ref =>
        constructor
        · intro same other read
          cases read
          exact (congrArg MethodRef.name (Except.ok.inj same)).symm
        · intro tight
          rw [outcome_ok, Except.map, tight ref rfl]
  · push Not at plain
    rcases plain with ⟨front, back, cut, comma⟩
    have here : ∀ before behind,
        cut? ' ' subsignature = some (before, behind) → ',' ∈ before := by
      intro before behind again
      rw [cut] at again
      cases again
      exact comma
    have there : ∀ before behind,
        cut? ' ' (tighten subsignature) = some (before, behind) →
          ',' ∈ before :=
      fun before behind => mem_of_cut?_space_tighten cut comma
    have refused : ∀ ref,
        program.readSubsignature owner subsignature ≠ .ok ref := by
      intro ref read
      have unknown : outcome (program.readSubsignature owner subsignature) =
          _ := outcome_readSubsignature_of_comma wellNamed here
      rw [read] at unknown
      split at unknown <;> cases unknown
    rw [outcome_readSubsignature_of_comma wellNamed here,
      outcome_readSubsignature_of_comma wellNamed there,
      and_iff_left fun ref read => (refused ref read).elim]
    cases (splitSubsignature? subsignature).isSome <;>
      cases (splitSubsignature? (tighten subsignature)).isSome <;> simp

/-- Any number of spaces may stand between parameter types. -/
theorem outcome_readRef_tightened {result name params : List Char}
    (split : splitSignature? text.toList = some (owner, subsignature))
    (inner : splitSubsignature? subsignature = some (result, name, params))
    (plainOwner : ',' ∉ owner.toList) (plainResult : ',' ∉ result)
    (plainName : ',' ∉ name) :
    outcome (program.readRef text) =
      outcome (program.readRef (tightened text)) := by
  have again := splitSignature?_tightened_eq_some split
  rw [tightened_of_not_mem_comma plainOwner] at again
  have plain : ∀ front back, cut? ' ' subsignature = some (front, back) →
      ',' ∉ front := by
    rcases cut?_of_splitSubsignature? inner with ⟨rest, cut⟩
    intro front back other
    rw [cut] at other
    cases other
    exact plainResult
  rw [outcome_readRef split, outcome_readRef again]
  cases program.class? owner with
  | none => rfl
  | some cls =>
      rw [Option.elim_some, Option.elim_some,
        outcome_readSubsignature_tighten plain]
      cases read : program.readSubsignature cls.name subsignature with
      | error problem => rfl
      | ok ref =>
          have named := name_of_readSubsignature inner read
          have tight : tightened ref.name = ref.name :=
            tightened_of_not_mem_comma (by rwa [named, String.toList_ofList])
          rw [outcome_ok, Except.map, tight]

/-- In a program with proper names, a reference is read differently if spaces
decide whether there is a result type, or if they are part of its name. -/
theorem outcome_readRef_tightened_iff (wellNamed : program.WellNamed) :
    outcome (program.readRef text) =
        outcome (program.readRef (tightened text)) ↔
      ∀ owner subsignature,
        splitSignature? text.toList = some (owner, subsignature) →
        (program.class? owner).isSome = true →
          (splitSubsignature? (tighten subsignature)).isSome =
              (splitSubsignature? subsignature).isSome ∧
            ∀ ref, program.readRef text = .ok ref →
              tightened ref.name = ref.name := by
  cases split : splitSignature? text.toList with
  | none =>
      have malformed := splitSignature?_tightened_eq_none split
      rw [outcome_readRef_of_none split, outcome_readRef_of_none malformed]
      exact iff_of_true rfl nofun
  | some parts =>
      rcases parts with ⟨owner, subsignature⟩
      have again := splitSignature?_tightened_eq_some split
      rw [outcome_readRef split, outcome_readRef again,
        class?_tightened (.inl wellNamed)]
      cases known : program.class? owner with
      | none =>
          refine iff_of_true rfl ?_
          rintro _ _ ⟨⟩ declared
          rw [known] at declared
          cases declared
      | some cls =>
          have reads : ∀ ref, program.readRef text = .ok ref ↔
              program.readSubsignature cls.name subsignature = .ok ref := by
            intro ref
            rw [readRef, split]
            simp only [known, mapError_eq_ok]
          simp only [Option.elim_some, reads,
            outcome_readSubsignature_tighten_iff wellNamed]
          constructor
          · rintro alike _ _ ⟨⟩ _
            exact alike
          · intro alike
            exact alike _ _ rfl (known ▸ rfl)

section Loaded

variable (whole : Loaded program) (wellNamed : program.WellNamed)
  (named : ∀ method ∈ program.methods, IsIdent method.name)

include whole wellNamed named

/-- The subsignatures of methods are tight and end with a parenthesis. -/
theorem tight_of_method? {method : Method}
    (found : program.method? ⟨owner, String.ofList subsignature⟩ =
      some method) :
    tighten subsignature = subsignature ∧
      subsignature.getLast? = some ')' := by
  have member := (mem_methods_of_method? whole.built.coherent found).1
  rcases MethodId.mk.inj (whole.built.coherent.method found).2 with ⟨_, same⟩
  rw [← String.toList_ofList (l := subsignature), ← same,
    ← Method.subsignature_ref]
  constructor
  · rcases exists_toList_subsignature wellNamed
      (whole.refers member (named method member)) (named method member) with
      ⟨front, back, shape, noComma, noSpace⟩
    rw [shape, tighten_append noComma, tighten,
      tightenFrom_of_not_mem_space noSpace]
  · simp [toList_subsignature, List.getLast?_cons]

theorem method?_eq_none_of_loose (loose : tighten subsignature ≠ subsignature) :
    program.method? ⟨owner, String.ofList subsignature⟩ = none := by
  cases found : program.method? ⟨owner, String.ofList subsignature⟩ with
  | none => rfl
  | some method =>
      exact (loose (tight_of_method? whole wellNamed named found).1).elim

/-- Where the tightened text denotes a method, two spaces after a comma are left
in the subsignature. -/
theorem gapped_iff_of_method? {method : Method}
    (split : splitSignature? text.toList = some (owner, subsignature))
    (found : program.method? ⟨owner, String.ofList (tighten subsignature)⟩ =
      some method) :
    Gapped text.toList ↔ tighten subsignature ≠ subsignature := by
  have closed := (tight_of_method? whole wellNamed named found).2
  rw [getLast?_tighten_iff (by decide) (by decide)] at closed
  apply gapped_iff_of_splitSignature? split _ closed
  intro comma
  have known := isSome_class?_of_method? found
  rw [wellNamed.class?_eq_none comma] at known
  cases known

/-- A method is found under a text exactly if it is found under the tightened
text and no comma is followed by two spaces. -/
theorem outcome_findMethod_tightened (text : String) :
    outcome (program.findMethod text) =
      if Gapped text.toList ∧ (program.findMethod (tightened text)).isOk then
        .error .unknownMethod
      else outcome (program.findMethod (tightened text)) := by
  rw [← isOk_outcome]
  cases split : splitSignature? text.toList with
  | none =>
      have malformed := splitSignature?_tightened_eq_none split
      rw [outcome_findMethod_of_none split,
        outcome_findMethod_of_none malformed, if_neg]
      exact fun found => Bool.false_ne_true found.2
  | some parts =>
      rcases parts with ⟨owner, subsignature⟩
      have again := splitSignature?_tightened_eq_some split
      rw [outcome_findMethod split, outcome_findMethod again,
        method?_tightened (.inl wellNamed)]
      have absent := @method?_eq_none_of_loose program owner subsignature whole
        wellNamed named
      cases found : program.method? ⟨owner,
          String.ofList (tighten subsignature)⟩ with
      | none =>
          have missing :
              program.method? ⟨owner, String.ofList subsignature⟩ = none := by
            by_cases tight : tighten subsignature = subsignature
            · rwa [tight] at found
            · exact absent tight
          rw [missing, if_neg]
          exact fun both => Bool.false_ne_true both.2
      | some method =>
          have gapped := gapped_iff_of_method? whole wellNamed named split found
          by_cases tight : tighten subsignature = subsignature
          · rw [tight] at found
            rw [found, if_neg fun both => gapped.mp both.1 tight]
          · rw [absent tight, if_pos ⟨gapped.mpr tight, rfl⟩]
            rfl

end Loaded

end Program

/--
Spaces after commas do not matter where no comma is followed by two of them and
the name of the class is not affected, and any number of them may stand between
the parameter types of a reference.  In a program with proper names, a reference
is read differently only if spaces decide whether there is a result type or are
part of its name; a declared method is missed exactly if some comma is followed by
two spaces.
-/
theorem outcome_tightened (program : Program) (text : String) :
    (¬ Gapped text.toList →
      (program.WellNamed ∨ ∀ owner subsignature,
        splitSignature? text.toList = some (owner, subsignature) →
          ',' ∉ owner.toList) →
      outcome (program.findMethod text) =
          outcome (program.findMethod (tightened text)) ∧
        outcome (program.readRef text) =
          outcome (program.readRef (tightened text))) ∧
    (∀ owner subsignature result name params,
      splitSignature? text.toList = some (owner, subsignature) →
      Program.splitSubsignature? subsignature = some (result, name, params) →
      ',' ∉ owner.toList → ',' ∉ result → ',' ∉ name →
      outcome (program.readRef text) =
        outcome (program.readRef (tightened text))) ∧
    (program.WellNamed →
      (outcome (program.readRef text) =
          outcome (program.readRef (tightened text)) ↔
        ∀ owner subsignature,
          splitSignature? text.toList = some (owner, subsignature) →
          (program.class? owner).isSome = true →
            (Program.splitSubsignature? (tighten subsignature)).isSome =
                (Program.splitSubsignature? subsignature).isSome ∧
              ∀ ref, program.readRef text = .ok ref →
                tightened ref.name = ref.name)) ∧
    ∀ spec : ProgramSpec, spec.load = .ok program → program.WellNamed →
      (∀ method ∈ program.methods, IsIdent method.name) →
      outcome (program.findMethod text) =
        if Gapped text.toList ∧ (program.findMethod (tightened text)).isOk then
          .error .unknownMethod
        else outcome (program.findMethod (tightened text)) := by
  refine ⟨?_, ?_, ?_, ?_⟩
  · intro single plain
    exact Program.outcome_of_not_gapped single plain
  · intro owner subsignature result name params split inner plainOwner
      plainResult plainName
    exact Program.outcome_readRef_tightened split inner plainOwner plainResult
      plainName
  · exact Program.outcome_readRef_tightened_iff
  · intro spec loaded wellNamed named
    exact Program.outcome_findMethod_tightened (Program.loaded_of_load loaded)
      wellNamed named text

/-! ## Sample program

One method with two parameters, and its signature with one and with two spaces.
-/

namespace Spaced

def spec : ProgramSpec where
  classes :=
    [{ name := "A", methods := [{ name := "f", params := ["int x", "int y"] }] }]

def program : Program :=
  spec.load.toOption.getD {}

def single : String :=
  "<A: void f(int, int)>"

def double : String :=
  "<A: void f(int,  int)>"

end Spaced

theorem outcome_tightened_fails :
    Spaced.program.findMethod Spaced.double =
        .error (.unknownMethod Spaced.double) ∧
      (Spaced.program.findMethod (tightened Spaced.double)).isOk = true := by
  decide +kernel

theorem outcome_tightened_spaced :
    Spaced.spec.load = .ok Spaced.program ∧ Spaced.program.WellNamed ∧
      (∀ method ∈ Spaced.program.methods, IsIdent method.name) ∧
      ¬ Gapped Spaced.single.toList ∧ Gapped Spaced.double.toList ∧
      (Spaced.program.findMethod Spaced.single).isOk = true ∧
      outcome (Spaced.program.findMethod Spaced.single) =
        outcome (Spaced.program.findMethod (tightened Spaced.single)) ∧
      outcome (Spaced.program.findMethod Spaced.double) =
        .error .unknownMethod ∧
      (Spaced.program.readRef Spaced.double).isOk = true ∧
      outcome (Spaced.program.readRef Spaced.double) =
        outcome (Spaced.program.readRef (tightened Spaced.double)) := by
  have loaded : Spaced.spec.load = .ok Spaced.program := by decide +kernel
  have wellNamed : Spaced.program.WellNamed :=
    List.all_eq_true.mp (show (Spaced.program.declarations.all fun cls =>
      Shape.isClassName cls.name.toList) = true by decide +kernel)
  have named : ∀ method ∈ Spaced.program.methods, IsIdent method.name :=
    List.all_eq_true.mp (show (Spaced.program.methods.all fun method =>
      Shape.isIdent method.name.toList) = true by decide +kernel)
  have once : ¬ Gapped Spaced.single.toList := by decide +kernel
  have twice : Gapped Spaced.double.toList := by decide +kernel
  have found : (Spaced.program.findMethod Spaced.single).isOk = true := by
    decide +kernel
  have tight : (Spaced.program.findMethod
      (tightened Spaced.double)).isOk = true := by decide +kernel
  have read : (Spaced.program.readRef Spaced.double).isOk = true := by
    decide +kernel
  have split : splitSignature? Spaced.double.toList =
      some ("A", "void f(int, int)".toList) := by decide +kernel
  have inner : Program.splitSubsignature? "void f(int, int)".toList =
      some ("void".toList, "f".toList, "int, int".toList) := by
    decide +kernel
  rcases outcome_tightened Spaced.program Spaced.single with ⟨ones, _⟩
  rcases outcome_tightened Spaced.program Spaced.double with
    ⟨_, types, _, methods⟩
  refine ⟨loaded, wellNamed, named, once, twice, found,
    (ones once (.inl wellNamed)).1, ?_, read,
    types _ _ _ _ _ split inner (by decide) (by decide) (by decide)⟩
  rw [methods _ loaded wellNamed named, if_pos ⟨twice, tight⟩]

end PointsTo
