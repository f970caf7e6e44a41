import PointsTo.Proofs.Program.Dispatch
import PointsTo.Proofs.Program.Expressible
import PointsTo.Proofs.Program.Lookup
import PointsTo.Proofs.Program.Typing

/-!
# Methods and their signatures

A signature is looked up in two ways: as the text of a declared method, and as a
reference whose types are read and which is resolved along the superclasses.  In
a loaded program the two ways agree wherever the first one succeeds, and the
signature of a method leads back to the method.
-/

namespace PointsTo

theorem Method.subsignature_ref (method : Method) :
    method.ref.subsignature = method.subsignature := rfl

theorem Method.signature_ref (method : Method) :
    method.ref.signature = method.id.signature := by
  rw [MethodRef.signature, subsignature_ref]
  rfl

namespace Program

variable {program : Program} {method : Method}

theorem isSome_class?_of_method? {id : MethodId}
    (found : program.method? id = some method) :
    (program.class? id.owner).isSome = true := by
  rcases Option.bind_eq_some_iff.mp found with ⟨cls, declared, _⟩
  rw [declared]
  rfl

theorem Loaded.refers (whole : Loaded program) (member : method ∈ program.methods)
    (ident : IsIdent method.name) : program.Refers method.ref := by
  have found := whole.built.coherent.method?_of_mem member
  exact (whole.typed.method found).refers (isSome_class?_of_method? found) ident

/-! ## Looking up signatures -/

/-- A text denotes the method whose class and subsignature it consists of. -/
theorem findMethod_eq_ok_iff {text : String} :
    program.findMethod text = .ok method ↔
      ∃ owner subsignature,
        splitSignature? text.toList = some (owner, subsignature) ∧
        program.method? ⟨owner, String.ofList subsignature⟩ =
          some method := by
  rw [← outcome_eq_ok]
  cases split : splitSignature? text.toList with
  | none =>
      rw [outcome_findMethod_of_none split]
      simp
  | some parts =>
      rcases parts with ⟨owner, subsignature⟩
      rw [outcome_findMethod split]
      cases found : program.method? ⟨owner, String.ofList subsignature⟩ <;>
        simp [found, and_assoc]

/-- The reference of a method is resolved to the method. -/
theorem resolve?_ref (layered : Layered program.declarations)
    (found : program.method? method.id = some method) :
    program.resolve? method.ref = some method := by
  rcases Option.bind_eq_some_iff.mp found with ⟨cls, declared, here⟩
  have chain : program.chain method.ref.owner = _ := chain_eq layered declared
  have first : cls.method? method.ref.subsignature = some method := here
  rw [resolve?, chain, List.findSome?_cons, first]

section Named

variable (wellNamed : program.WellNamed) (refers : program.Refers method.ref)

include wellNamed refers

theorem findMethod_signature (found : program.method? method.id = some method)
    (ident : IsIdent method.name) :
    program.findMethod method.id.signature = .ok method := by
  rw [← Method.signature_ref]
  apply findMethod_eq_ok_iff.mpr
  refine ⟨_, _, splitSignature?_signature wellNamed refers ident, ?_⟩
  rw [String.ofList_toList, Method.subsignature_ref]
  exact found

/-- What denotes a method is read as the reference of the method. -/
theorem readRef_of_findMethod (coherent : program.Coherent) {text : String}
    (found : program.findMethod text = .ok method) :
    program.readRef text = .ok method.ref := by
  rcases findMethod_eq_ok_iff.mp found with ⟨owner, text, split, declared⟩
  rcases MethodId.mk.inj (coherent.method declared).2 with
    ⟨rfl, subsignature⟩
  rcases Option.isSome_iff_exists.mp refers.owner with ⟨cls, known⟩
  have named := name_of_class? known
  have read := readSubsignature_subsignature wellNamed refers
  rw [Method.subsignature_ref, subsignature, String.toList_ofList,
    ← named] at read
  rw [readRef, split]
  simp only [show program.class? method.owner = some cls from known, read]
  rfl

end Named

end Program

/--
The signature of a method denotes the method and is read as its reference, which
is resolved to the method.  Whatever text denotes a method is read as a reference
that is resolved to the same method, and no two methods have one signature.
-/
theorem signatures_read_back {spec : ProgramSpec} {program : Program}
    (loaded : spec.load = .ok program) (wellNamed : program.WellNamed)
    (named : ∀ method ∈ program.methods, IsIdent method.name) :
    (∀ method ∈ program.methods,
      program.findMethod method.id.signature = .ok method ∧
      program.readRef method.id.signature = .ok method.ref ∧
      program.resolve? method.ref = some method) ∧
    (∀ (text : String) (method : Method),
      program.findMethod text = .ok method →
        method ∈ program.methods ∧ program.readRef text = .ok method.ref ∧
        program.resolve? method.ref = some method) ∧
    ∀ method ∈ program.methods, ∀ other ∈ program.methods,
      method.id.signature = other.id.signature → method = other := by
  have whole := Program.loaded_of_load loaded
  have coherent := whole.built.coherent
  have refers : ∀ method ∈ program.methods, program.Refers method.ref :=
    fun method member => whole.refers member (named method member)
  have finds : ∀ method ∈ program.methods,
      program.findMethod method.id.signature = .ok method := by
    intro method member
    exact Program.findMethod_signature wellNamed (refers method member)
      (coherent.method?_of_mem member) (named method member)
  have resolves : ∀ method ∈ program.methods,
      program.resolve? method.ref = some method := by
    intro method member
    exact Program.resolve?_ref whole.built.layered
      (coherent.method?_of_mem member)
  have reads : ∀ (text : String) (method : Method),
      program.findMethod text = .ok method → method ∈ program.methods →
        program.readRef text = .ok method.ref := by
    intro text method found member
    exact Program.readRef_of_findMethod wellNamed (refers method member)
      coherent found
  refine ⟨?_, ?_, ?_⟩
  · intro method member
    exact ⟨finds method member, reads _ method (finds method member) member,
      resolves method member⟩
  · intro text method found
    rcases Program.findMethod_eq_ok_iff.mp found with ⟨_, _, _, declared⟩
    have member := (Program.mem_methods_of_method? coherent declared).1
    exact ⟨member, reads text method found member, resolves method member⟩
  · intro method member other memberOther same
    have first := finds method member
    rw [same, finds other memberOther] at first
    exact (Except.ok.inj first).symm

/-! ## Sample program

Overloaded methods whose types are nested arrays, dotted classes and a primitive
type.
-/

namespace Overloaded

def spec : ProgramSpec where
  classes :=
    [{ name := "p.A"
       methods :=
        [{ name := "f", params := ["p.A[][] x", "int n"], result := "p.A[]" },
          { name := "f", params := ["int n"] }, { name := "f" }] },
      { name := "B", super := "p.A"
        methods := [{ name := "f", params := ["int n"] }] }]

def program : Program :=
  spec.load.toOption.getD {}

/-- The first method, with blanks where they may stand. -/
def text : String :=
  " < p.A :  p.A[] f(p.A[][], int) > "

end Overloaded

theorem signatures_read_back_overloaded :
    Overloaded.spec.load = .ok Overloaded.program ∧
      Overloaded.program.WellNamed ∧
      (∀ method ∈ Overloaded.program.methods, IsIdent method.name) ∧
      Overloaded.program.methods.length = 4 ∧
      (∀ method ∈ Overloaded.program.methods,
        Overloaded.program.readRef method.id.signature = .ok method.ref) ∧
      ∃ method, Overloaded.program.findMethod Overloaded.text = .ok method ∧
        Overloaded.program.readRef Overloaded.text = .ok method.ref ∧
        Overloaded.program.resolve? method.ref = some method := by
  have loaded : Overloaded.spec.load = .ok Overloaded.program := by
    decide +kernel
  have wellNamed : Overloaded.program.WellNamed :=
    List.all_eq_true.mp (show (Overloaded.program.declarations.all fun cls =>
      Shape.isClassName cls.name.toList) = true by decide +kernel)
  have named : ∀ method ∈ Overloaded.program.methods, IsIdent method.name :=
    List.all_eq_true.mp (show (Overloaded.program.methods.all fun method =>
      Shape.isIdent method.name.toList) = true by decide +kernel)
  have counted : Overloaded.program.methods.length = 4 := by decide +kernel
  have denoted : (Overloaded.program.findMethod
      Overloaded.text).toOption.isSome = true := by decide +kernel
  rcases signatures_read_back loaded wellNamed named with ⟨back, found, _⟩
  refine ⟨loaded, wellNamed, named, counted, fun method member =>
    (back method member).2.1, ?_⟩
  cases looked : Overloaded.program.findMethod Overloaded.text with
  | error problem =>
      rw [looked] at denoted
      cases denoted
  | ok method => exact ⟨method, rfl, (found _ method looked).2⟩

end PointsTo
