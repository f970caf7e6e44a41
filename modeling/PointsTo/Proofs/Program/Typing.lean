import PointsTo.Proofs.Program.Loaded

/-!
# Types of methods and calls

The loader takes the types of a method from texts, and so does the reader of
statements with the types of a reference.  In a loaded program all of them are
therefore denoted by their names, and the printed subsignature of a method or of a
reference determines the name, the parameter types and the result type.  A call
has as many arguments as the reference has parameter types, and a method as many
parameters as it has parameter types.
-/

namespace PointsTo

open Checked

/-- The types of a method and of the calls in its body are types of the program,
and parameters and arguments are as many as their types. -/
structure Method.Typed (program : Program) (method : Method) : Prop where
  result : program.Denotes method.result
  paramTypes : ∀ type ∈ method.paramTypes, program.Denotes type
  counted : method.params.length = method.paramTypes.length
  calls : ∀ call, Stmt.invoke call ∈ method.body →
    program.Refers call.ref ∧ call.args.length = call.ref.params.length

namespace Program

/-! ## Declared methods -/

theorem params_addParams {method next : Method} {pairs : List (String × Ty)}
    (added : addParams method pairs = .ok next) :
    next.params = method.params ++ pairs.map Prod.fst := by
  induction pairs generalizing method with
  | nil =>
      cases added
      simp
  | cons pair rest ih =>
      rw [addParams, bind_eq_ok] at added
      rcases added with ⟨grown, created, added⟩
      rcases Method.newVar_eq_ok_iff.mp created with ⟨_, rfl⟩
      rw [ih added]
      simp [Method.withLocals]

namespace MethodHeading

theorem length_paramNames (heading : MethodHeading) :
    heading.paramNames.length = heading.paramTypes.length := by
  unfold paramNames
  split
  · assumption
  · simp

variable {program : Program} {heading : MethodHeading}

/-- A declared method has as many parameters as parameter types. -/
theorem length_params_declare {cls : Class} {method : Method}
    (declared : heading.declare cls = .ok method) :
    method.params.length = method.paramTypes.length := by
  rw [heading.declare_eq] at declared
  have params := params_addParams declared
  rcases exists_addParams_eq declared with ⟨entries, names, rfl⟩
  rw [params, List.length_append, List.length_map, List.length_zip,
    length_paramNames, Nat.min_self]
  exact Nat.zero_add _

theorem Typed.method (typed : heading.Typed program) {cls : Class}
    {method : Method} (declared : heading.declare cls = .ok method) :
    method.Typed program := by
  have body := body_declare declared
  have counted := length_params_declare declared
  rw [heading.declare_eq] at declared
  rcases exists_addParams_eq declared with ⟨entries, names, rfl⟩
  refine ⟨typed.result, typed.params, counted, ?_⟩
  rw [body]
  nofun

end MethodHeading

/-! ## Calls -/

/-- A call that has been read refers to known types and has as many arguments. -/
theorem refers_of_understand {program : Program} {method : Method}
    {text : String} {shape : Shape} {call : Invoke}
    (understood : program.understand method text shape = .ok (.invoke call)) :
    program.Refers call.ref ∧ call.args.length = call.ref.params.length := by
  cases shape with
  | invoke result kind receiver signature arguments =>
      rcases map_eq_ok.mp understood with ⟨_, parts, same⟩
      cases same
      rcases understandInvoke_eq_ok parts with
        ⟨_, read, _, _, _, _, counted⟩
      exact ⟨refers_of_readRef read, counted⟩
  | ret | loadArray | storeArray | copy => cases understood
  | new target type =>
      rw [understand] at understood
      split at understood <;> cases understood
  | loadField target qualifier name =>
      rcases map_eq_ok.mp understood with ⟨access, _, same⟩
      cases access <;> cases same
  | storeField qualifier name source =>
      rcases map_eq_ok.mp understood with ⟨access, _, same⟩
      cases access <;> cases same

end Program

namespace Method.Typed

variable {program : Program} {method : Method}
  (typed : method.Typed program)

include typed

theorem mono {next : Program} (grows : program.names ⊆ next.names) :
    method.Typed next := by
  have kept : ∀ name, (program.class? name).isSome = true →
      (next.class? name).isSome = true := by
    intro name declared
    exact Program.isSome_class?_iff.mpr
      (grows (Program.isSome_class?_iff.mp declared))
  refine ⟨typed.result.mono kept, ?_, typed.counted, ?_⟩
  · intro type member
    exact (typed.paramTypes type member).mono kept
  · intro call member
    rcases typed.calls call member with ⟨refers, counted⟩
    exact ⟨refers.mono kept, counted⟩

theorem newVar {next : Method} {name : String} {type : Option Ty}
    (created : method.newVar name type = .ok next) : next.Typed program := by
  rcases Method.newVar_eq_ok_iff.mp created with ⟨_, rfl⟩
  exact ⟨typed.result, typed.paramTypes, typed.counted, typed.calls⟩

theorem readStmt {next : Method} {text : String}
    (read : program.readStmt method text = .ok next) : next.Typed program := by
  rcases Program.readStmt_eq_ok_iff.mp read with ⟨_, stmt, _, understood, rfl⟩
  have body := method.body_withStmt stmt
  rcases method.exists_ensureVars_eq stmt.mentions with ⟨created, grown, _⟩
  rw [withStmt, grown] at body ⊢
  refine ⟨typed.result, typed.paramTypes, typed.counted, ?_⟩
  intro call member
  rw [body, List.mem_append, List.mem_singleton] at member
  rcases member with old | rfl
  · exact typed.calls call old
  · exact Program.refers_of_understand understood

end Method.Typed

/-- The methods of loaded programs are typed. -/
theorem Program.Loaded.typed {program : Program} (loaded : program.Loaded) :
    program.Each (Method.Typed program) :=
  loaded.each (fun grows typed => typed.mono grows)
    (fun typed declared => typed.method declared)
    (fun created typed => typed.newVar created)
    fun read typed => typed.readStmt read

/-! ## Subsignatures -/

/-- A subsignature determines the reference up to its class. -/
theorem Program.Refers.eq_of_subsignature {program : Program}
    (wellNamed : program.WellNamed) {ref other : MethodRef}
    (refers : program.Refers ref) (refersOther : program.Refers other)
    (same : ref.subsignature = other.subsignature) :
    ref = { other with owner := ref.owner } := by
  have moved : program.Refers { other with owner := ref.owner } :=
    { refersOther with owner := refers.owner }
  have read := readSubsignature_subsignature wellNamed refers
  rw [same] at read
  have again := readSubsignature_subsignature wellNamed moved
  exact Except.ok.inj (read.symm.trans again)

/-- A method is referred to by its own reference. -/
theorem Method.Typed.refers {program : Program} {method : Method}
    (typed : method.Typed program)
    (declared : (program.class? method.owner).isSome = true)
    (ident : Shape.isIdent method.name.toList = true) :
    program.Refers method.ref where
  owner := declared
  named := ne_nil_of_isIdent ident
  closed opening := by cases Shape.isIdentPart_of_mem ident '(' opening
  result := typed.result
  params := typed.paramTypes

end PointsTo
