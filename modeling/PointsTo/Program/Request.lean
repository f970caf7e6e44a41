import PointsTo.Program.Building
import PointsTo.Program.Editing

/-!
# Requests to methods

A method is built up by requests: to create a variable, to append a statement
that is given by its parts, or to append the statement that a text describes.
Requests are carried out in place, one after the other, on any methods of a
program.  A request that is refused does not end the series: the next one meets
whatever the refused one has left behind.
-/

namespace PointsTo

/-- A request to a method. -/
inductive Request where
  | newVar (name : String) (type : Option Ty)
  | addNew (target : Var) (type : Ty)
  | addCopy (target source : Var)
  | addLoadField (target : Var) (base : Option Var) (field : Field)
  | addStoreField (base : Option Var) (field : Field) (source : Var)
  | addLoadArray (target base : Var)
  | addStoreArray (base source : Var)
  | addInvoke (kind : CallKind) (ref : MethodRef) (receiver : Option Var)
      (args : List Var) (result : Option Var)
  | addReturn (value : Option Var)
  | readStmt (text : String)

namespace Editing

/-- Take building steps on a method of the program. -/
def build {α : Type} (id : MethodId) (steps : Building α) : Editing α := do
  match steps.run (← method id) with
  | .ok value grown =>
      modify fun program => program.setMethod grown
      return value
  | .error problem left =>
      modify fun program => program.setMethod left
      throw (.construction problem)

/-- Append a statement by building steps; the answer is its position. -/
def place (id : MethodId) (steps : Building Nat) : Editing (Option Site) := do
  let index ← build id steps
  return some ⟨id, index⟩

/-- Carry out a request; the answer is the position of the statement that it
appends, if it appends one. -/
def perform (id : MethodId) : Request → Editing (Option Site)
  | .newVar name type => do
      build id (Building.newVar name type)
      return none
  | .addNew target type => place id (Building.addNew target type)
  | .addCopy target source => place id (Building.addCopy target source)
  | .addLoadField target base field =>
      place id (Building.addLoadField target base field)
  | .addStoreField base field source =>
      place id (Building.addStoreField base field source)
  | .addLoadArray target base => place id (Building.addLoadArray target base)
  | .addStoreArray base source => place id (Building.addStoreArray base source)
  | .addInvoke kind ref receiver args result =>
      place id (Building.addInvoke kind ref receiver args result)
  | .addReturn value => place id (Building.addReturn value)
  | .readStmt text => do
      let method ← method id
      let site ← readStmt method.id text
      return some site

end Editing

namespace Program

/-- The program after a request, no matter whether it has been refused. -/
def after (program : Program) (id : MethodId) (request : Request) : Program :=
  match (Editing.perform id request).run program with
  | .ok _ next | .error _ next => next

/-- The program after a series of requests. -/
def afterAll (program : Program) (requests : List (MethodId × Request)) :
    Program :=
  requests.foldl (fun program request => program.after request.1 request.2)
    program

end Program

end PointsTo
