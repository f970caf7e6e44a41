import PointsTo.Analysis.Context
import PointsTo.Text.Numeral
import PointsTo.Text.Quoted

/-!
# Context selectors

A selector decides under which contexts callees and objects are analysed.
Under call-site sensitivity a callee is told apart by the most recent call
sites; under object and type sensitivity by the receiver, and static calls
stay in the context of the caller.  Objects keep one element less than
methods.
-/

namespace PointsTo

/-- How contexts are chosen. -/
inductive Selector where
  | insensitive
  | callSite (depth : Int)
  | object (depth : Int)
  | type (depth : Int)
deriving DecidableEq, Repr

/-- Why a name denotes no selector. -/
inductive SelectorError where
  | unknown (name : String)
  | depth (name : String)
deriving DecidableEq, Repr

/-- The wording of a selector error. -/
def SelectorError.message : SelectorError → String
  | .unknown name => "unknown context selector: " ++ Text.quoted name
  | .depth name =>
      "unknown context selector: " ++ Text.quoted name ++
        ": depth must be positive"

namespace Selector

/-- The context of the callee of a static call. -/
def staticCallee (selector : Selector) (site : ContextSite) : Context :=
  match selector with
  | .insensitive => []
  | .callSite depth => site.context.extend (.call site.val) depth
  | .object _ | .type _ => site.context

/-- The context of the callee of a call on `receiver`. -/
def instanceCallee (selector : Selector) (site : ContextSite)
    (receiver : ContextObj) : Context :=
  match selector with
  | .insensitive => []
  | .callSite depth => site.context.extend (.call site.val) depth
  | .object depth => receiver.context.extend (.object receiver.val) depth
  | .type depth =>
      receiver.context.extend (.cls receiver.val.container.owner) depth

/-- The context of an object that is allocated in a method under `context`. -/
def heap (selector : Selector) (context : Context) : Context :=
  match selector with
  | .insensitive => []
  | .callSite depth | .object depth | .type depth =>
      context.truncate (depth - 1)

/-- A bound on the length of contexts. -/
def bound : Selector → Nat
  | .insensitive => 0
  | .callSite depth | .object depth | .type depth => depth.toNat

/-- The kinds of selectors that have a depth. -/
def family? : List Char → Option (Int → Selector)
  | ['c', 'a', 'l', 'l'] => some .callSite
  | ['o', 'b', 'j'] => some .object
  | ['t', 'y', 'p', 'e'] => some .type
  | _ => none

/--
The selector with the given name: `ci`, or a positive depth, a dash and one of
`call`, `obj` and `type`.
-/
def named (name : String) : Except SelectorError Selector :=
  if name = "ci" then .ok .insensitive
  else
    let digits := name.toList.takeWhile Char.isDigit
    match digits, name.toList.dropWhile Char.isDigit with
    | _ :: _, '-' :: kind =>
        match family? kind with
        | none => .error (.unknown name)
        | some family =>
            match Text.decimal? digits with
            | some depth =>
                if 1 ≤ depth then .ok (family depth) else .error (.depth name)
            | none => .error (.depth name)
    | _, _ => .error (.unknown name)

end Selector

end PointsTo
