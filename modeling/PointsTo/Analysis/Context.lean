import PointsTo.Numbering
import PointsTo.Program.Stmt

/-!
# Contexts

Methods and objects are analysed under contexts: short lists of call sites,
objects or classes, oldest first.  A context that grows beyond a depth keeps
its most recent elements; a depth that is not positive leaves none.
-/

namespace PointsTo

/--
An abstract object.  An allocation stands for all objects made by one
statement; a taint object stands for the values that one call of a taint
source returns, seen at a type.
-/
inductive Obj where
  | alloc (site : Site) (target : String) (type : Ty)
  | taint (source : Site) (type : Ty)
deriving DecidableEq, Repr

namespace Obj

/-- The type of an object. -/
def type : Obj → Ty
  | .alloc _ _ type | .taint _ type => type

/-- Whether an object stands for taint. -/
def isTaint : Obj → Bool
  | .alloc .. => false
  | .taint .. => true

/-- The allocation or the source call of an object. -/
def site : Obj → Site
  | .alloc site _ _ | .taint site _ => site

/-- The method that contains the allocation or the source call. -/
def container (obj : Obj) : MethodId :=
  obj.site.method

/-- The object as it is shown to the user. -/
def text : Obj → String
  | .alloc site target type =>
      "NewObj\x7b" ++ site.location ++ ": " ++ newText target type ++ "\x7d"
  | .taint source type =>
      "TaintObj\x7b" ++ source.location ++ ": " ++ type.name ++ "\x7d"

end Obj

/-- An element of a context. -/
inductive Elem where
  | call (site : Site)
  | object (obj : Obj)
  | cls (name : String)
deriving DecidableEq, Repr

/-- An element as it is shown to the user. -/
def Elem.text : Elem → String
  | .call site => site.location
  | .object obj => obj.text
  | .cls name => name

/-- A context, oldest element first. -/
abbrev Context := List Elem

/-- The last `limit` items; none if the limit is not positive. -/
def recent {α : Type} (limit : Int) (items : List α) : List α :=
  items.drop (items.length - limit.toNat)

theorem recent_suffix {α : Type} (limit : Int) (items : List α) :
    recent limit items <:+ items :=
  List.drop_suffix _ _

theorem length_recent {α : Type} (limit : Int) (items : List α) :
    (recent limit items).length = min limit.toNat items.length := by
  simp only [recent, List.length_drop]
  omega

theorem recent_of_nonpos {α : Type} {limit : Int} (none : limit ≤ 0)
    (items : List α) : recent limit items = [] := by
  rw [recent, Int.toNat_of_nonpos none, Nat.sub_zero, List.drop_length]

theorem recent_of_length_le {α : Type} {limit : Int} {items : List α}
    (enough : (items.length : Int) ≤ limit) : recent limit items = items := by
  rw [recent, Nat.sub_eq_zero_of_le (by omega), List.drop_zero]

namespace Context

/-- A context as it is shown to the user. -/
def text (context : Context) : String :=
  "[" ++ ", ".intercalate (context.map Elem.text) ++ "]"

/-- The last `limit` elements of a context followed by one more. -/
def extend (context : Context) (elem : Elem) (limit : Int) : Context :=
  recent limit (context ++ [elem])

/-- The last `limit` elements of a context. -/
def truncate (context : Context) (limit : Int) : Context :=
  recent limit context

end Context

/-- Something that is analysed under a context. -/
structure InContext (α : Type) where
  context : Context
  val : α
deriving DecidableEq, Repr, Inhabited

namespace InContext

/-- Show the context before the thing itself. -/
def shown {α : Type} (render : α → String) (item : InContext α) : String :=
  item.context.text ++ ":" ++ render item.val

end InContext

/-- A method under a context. -/
abbrev ContextMethod := InContext MethodId

/-- A call site in a method under a context. -/
abbrev ContextSite := InContext Site

/-- An object under its heap context. -/
abbrev ContextObj := InContext Obj

/-- A variable of a method under a context. -/
abbrev ContextVar := InContext Var

namespace ContextMethod

/-- The method as it is shown to the user. -/
def text (method : ContextMethod) : String :=
  method.shown MethodId.signature

end ContextMethod

namespace ContextSite

/-- The call site as it is shown to the user. -/
def text (site : ContextSite) : String :=
  site.shown Site.location

/-- The method under a context that contains the call site. -/
def container (site : ContextSite) : ContextMethod :=
  ⟨site.context, site.val.method⟩

end ContextSite

namespace ContextObj

/-- The object as it is shown to the user. -/
def text (obj : ContextObj) : String :=
  obj.shown Obj.text

/-- Whether the object stands for taint. -/
def isTaint (obj : ContextObj) : Bool :=
  obj.val.isTaint

end ContextObj

namespace ContextVar

/-- The variable as it is shown to the user. -/
def text (var : ContextVar) : String :=
  var.shown fun var => var.method.signature ++ "/" ++ var.name

/-- The method under a context that the variable belongs to. -/
def container (var : ContextVar) : ContextMethod :=
  ⟨var.context, var.val.method⟩

end ContextVar

/--
A node of a trie, which stands for a context.  It knows the context that it
extends by one element and the contexts that extend it by one element.
-/
structure ContextNode (α : Type) where
  /-- The node of the context without its last element, and that element; the
  empty context has neither. -/
  origin : Option (Nat × α) := none
  /-- The number of elements. -/
  length : Nat := 0
  /-- The nodes of the contexts with one element more, by that element. -/
  children : List (α × Nat) := []
deriving DecidableEq, Repr

/--
A trie of contexts.  Contexts are compared by their nodes, so the trie must
never hold two nodes with the same elements: a context is looked for from the
root on, and only the nodes that are missing are created.
-/
structure ContextTrie (α : Type) where
  /-- The nodes in the order of their creation, the root first. -/
  nodes : List (ContextNode α) := [{}]
deriving DecidableEq, Repr

namespace ContextTrie

/-- The node of the empty context. -/
def root : Nat := 0

section

variable {α : Type} (trie : ContextTrie α)

/-- The number of elements of a context. -/
def length (context : Nat) : Nat :=
  (trie.nodes[context]?.map ContextNode.length).getD 0

/-- The context that a context extends, and the element that it adds. -/
def origin? (context : Nat) : Option (Nat × α) :=
  trie.nodes[context]?.bind ContextNode.origin

/-- The last `count` elements on the way from the root to a context. -/
def climb : Nat → Nat → List α
  | 0, _ => []
  | count + 1, context =>
      match trie.origin? context with
      | none => []
      | some (parent, elem) => climb count parent ++ [elem]

/-- The elements of a context, oldest first. -/
def elems (context : Nat) : List α :=
  trie.climb (trie.length context) context

/-- Create the context that extends a context by an element. -/
def addChild (context : Nat) (elem : α) : ContextTrie α where
  nodes :=
    trie.nodes.modify context (fun node =>
      { node with children := (elem, trie.nodes.length) :: node.children }) ++
    [{ origin := some (context, elem), length := trie.length context + 1 }]

end

section

variable {α : Type} [DecidableEq α] (trie : ContextTrie α)

/-- The context that extends a context by an element, if it is there. -/
def child? (context : Nat) (elem : α) : Option Nat :=
  trie.nodes[context]?.bind fun node => node.children.lookup elem

/-- The context that extends a context by an element. -/
def child (context : Nat) (elem : α) : ContextTrie α × Nat :=
  match trie.child? context elem with
  | some child => (trie, child)
  | none => (trie.addChild context elem, trie.nodes.length)

/-- The context that extends a context by several elements. -/
def descend (trie : ContextTrie α) (context : Nat) :
    List α → ContextTrie α × Nat
  | [] => (trie, context)
  | elem :: rest =>
      let (grown, child) := trie.child context elem
      descend grown child rest

/-- The context with the given elements. -/
def get (elems : List α) : ContextTrie α × Nat :=
  trie.descend root elems

/-- Extend a context by an element and keep the last `limit` elements. -/
def append (context : Nat) (elem : α) (limit : Int) : ContextTrie α × Nat :=
  if limit ≤ 0 then (trie, root)
  else trie.get (recent limit (trie.elems context ++ [elem]))

/-- Keep the last `limit` elements of a context; a context that has no more
than these is returned as it is. -/
def truncate (context : Nat) (limit : Int) : ContextTrie α × Nat :=
  if trie.length context ≤ limit then (trie, context)
  else if limit ≤ 0 then (trie, root)
  else trie.get (recent limit (trie.elems context))

end

end ContextTrie

/--
A trie whose contexts get numbers in the order in which they are first
returned.  The empty context is there from the start.
-/
structure ContextPool (α : Type) where
  trie : ContextTrie α := {}
  returned : Numbering Nat := Numbering.empty.request ContextTrie.root

namespace ContextPool

variable {α : Type} [DecidableEq α]

/-- The node of the context with the given number. -/
def node (pool : ContextPool α) (number : Nat) : Nat :=
  (pool.returned.get? number).getD ContextTrie.root

/-- The elements of the context with the given number. -/
def elems (pool : ContextPool α) (number : Nat) : List α :=
  pool.trie.elems (pool.node number)

/-- Number the context that an operation on the trie has returned. -/
def returning (pool : ContextPool α) (result : ContextTrie α × Nat) :
    ContextPool α × Nat :=
  let returned := pool.returned.request result.2
  ({ trie := result.1, returned }, returned.numberOf result.2)

/-- The number of the context with the given elements. -/
def get (pool : ContextPool α) (elems : List α) : ContextPool α × Nat :=
  pool.returning (pool.trie.get elems)

/-- Extend a context by an element and keep the last `limit` elements. -/
def append (pool : ContextPool α) (number : Nat) (elem : α) (limit : Int) :
    ContextPool α × Nat :=
  pool.returning (pool.trie.append (pool.node number) elem limit)

/-- Keep the last `limit` elements of a context. -/
def truncate (pool : ContextPool α) (number : Nat) (limit : Int) :
    ContextPool α × Nat :=
  pool.returning (pool.trie.truncate (pool.node number) limit)

end ContextPool

end PointsTo
