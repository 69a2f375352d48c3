import NameResolution.CanonicalPath
import NameResolution.Violation
import NameResolution.Tree.Basic

/-!
# NameResolution.Tables

**What a resolution finds out**, in tables keyed by the identities of tree nodes. Later
phases read them; nothing is ever erased.

* A `Register` keeps every entry it was ever given, newest first, and reads the newest
  one of a key (`Register.get?`). That a key was entered only once can therefore be seen
  from the register.
* `Tables.setPath` is the one entry that can be refused: a declaration has one canonical
  path, and being given another one is a `Violation`.
* The module a node was declared in gives every node a chain of enclosing modules
  (`Tables.enclosing`), on which visibility is decided.
-/

namespace NameResolution

/-! ## Registers -/

/-- Entries under node identities, newest first. -/
structure Register (α : Type) where
  entries : List (NodeId × α)
  deriving DecidableEq, Repr

namespace Register

variable {α : Type}

/-- The register without entries. -/
def empty : Register α := ⟨[]⟩

/-- Enter something under an identity. -/
def set (r : Register α) (id : NodeId) (a : α) : Register α := ⟨(id, a) :: r.entries⟩

/-- What was last entered under an identity. -/
def get? (r : Register α) (id : NodeId) : Option α := r.entries.lookup id

/-- The identities with an entry, newest first, once for each entry. -/
def keys (r : Register α) : List NodeId := r.entries.map Prod.fst

/-- The identities with an entry in the order of their first entries, each with its newest one. -/
def toList (r : Register α) : List (NodeId × α) :=
  r.keys.reverse.eraseDups.filterMap fun id => (r.get? id).map (id, ·)

@[simp] theorem get?_empty (id : NodeId) : (empty : Register α).get? id = none := rfl

theorem get?_set (r : Register α) (id key : NodeId) (a : α) :
    (r.set id a).get? key = if key = id then some a else r.get? key := by
  by_cases h : key = id
  · simp [get?, set, h]
  · have hne : (key == id) = false := by simpa using h
    simp [get?, set, List.lookup_cons, h, hne]

@[simp] theorem keys_set (r : Register α) (id : NodeId) (a : α) :
    (r.set id a).keys = id :: r.keys := rfl

end Register

/-! ## Tables -/

/-- The declarations whose children can be named by a further path segment. -/
inductive ContainerKind
  | module
  | enum
  | trait
  deriving DecidableEq, Repr

/-- A named child of a module, an enum or a trait. -/
structure Child where
  name : String
  id : NodeId
  deriving DecidableEq, Repr

/-- How far a declaration can be seen, and from where on. -/
structure DeclVisibility where
  /-- As written on the declaration, or on the enum or trait that it belongs to. -/
  vis : Visibility
  /-- The module that the declaration lives in. -/
  module : NodeId
  /-- The place of the declared name. -/
  span : Span
  deriving DecidableEq, Repr

/-- A path segment that was found to name a declaration with a visibility. -/
structure UseSite where
  /-- The path segment. -/
  segment : NodeId
  decl : NodeId
  /-- The module that the path stands in. -/
  module : NodeId
  name : String
  span : Span
  deriving DecidableEq, Repr

/-- Everything a resolution finds out about a crate. -/
structure Tables where
  /-- The canonical path of a declaration. -/
  paths : Register CanonicalPath
  /-- The module that an item or module is declared in. -/
  parents : Register NodeId
  /-- A module and one nested in it, in the order of declaration. -/
  nested : List (NodeId × NodeId)
  /-- A container and a child of it, each pair once, in the order of declaration. -/
  childEntries : List (NodeId × Child)
  containers : Register ContainerKind
  /-- The declaration in the name namespace that a path or segment was resolved to. -/
  names : Register NodeId
  /-- The declaration in the type namespace that a path, segment or type was resolved to. -/
  types : Register NodeId
  /-- The canonical form of a path that starts from a type. -/
  qualified : Register CanonicalPath
  visibilities : Register DeclVisibility
  /-- The resolved segments whose visibility matters, in the order of resolution. -/
  useSites : List UseSite
  deriving DecidableEq, Repr

namespace Tables

/-- Nothing is known yet. -/
def empty : Tables :=
  ⟨.empty, .empty, [], [], .empty, .empty, .empty, .empty, .empty, []⟩

/-! ### Canonical paths -/

/-- Enter the canonical path of a declaration. The same name again changes nothing, another
one is refused. -/
def setPath (t : Tables) (id : NodeId) (path : CanonicalPath) : Except Violation Tables :=
  match t.paths.get? id with
  | none => .ok { t with paths := t.paths.set id path }
  | some existing =>
    if existing.SameText path then .ok t
    else .error (.canonicalPathConflict id existing.text path.text)

/-! ### Modules and children -/

/-- Enter a module nested in another. -/
def addNested (t : Tables) (parent module : NodeId) : Tables :=
  { t with nested := t.nested ++ [(parent, module)] }

/-- The modules nested directly in a module, in the order of declaration. -/
def nestedIn (t : Tables) (parent : NodeId) : List NodeId :=
  t.nested.filterMap fun (p, m) => if p = parent then some m else none

/-- Enter a child of a container, unless it is there under the same name already. -/
def addChild (t : Tables) (parent : NodeId) (child : Child) : Tables :=
  if (parent, child) ∈ t.childEntries then t
  else { t with childEntries := t.childEntries ++ [(parent, child)] }

/-- The children of a container, in the order of declaration. -/
def childrenOf (t : Tables) (parent : NodeId) : List Child :=
  t.childEntries.filterMap fun (p, c) => if p = parent then some c else none

/-- The children of a container that have a given name. A module may hold one for each
namespace. -/
def childrenNamed (t : Tables) (parent : NodeId) (name : String) : List NodeId :=
  (t.childrenOf parent).filterMap fun c => if c.name = name then some c.id else none

/-- The first child of a container with a given name, as a path of one segment. -/
def firstChild? (t : Tables) (parent : NodeId) (name : String) : Option CanonicalPath :=
  (t.childrenNamed parent name).head?.map fun id => .single id name

/-- Whether an identity is known to be that of a module. -/
def isModule (t : Tables) (id : NodeId) : Bool := t.containers.get? id == some .module

/-- Whether an identity is known to have children that a path segment can name. -/
def isContainer (t : Tables) (id : NodeId) : Bool := (t.containers.get? id).isSome

/-- The first `n` links of the chain that leads from a node to the modules around it. -/
def enclosingUpTo (t : Tables) : Nat → NodeId → List NodeId
  | 0, id => [id]
  | n + 1, id =>
    match t.parents.get? id with
    | none => [id]
    | some parent => id :: t.enclosingUpTo n parent

/-- A node and the modules around it, innermost first. A chain without repetition has at most
one link for each entry of the table of parents. -/
def enclosing (t : Tables) (id : NodeId) : List NodeId :=
  t.enclosingUpTo t.parents.entries.length id

/-- Whether a module is the given one or nested somewhere inside it. -/
def isWithin (t : Tables) (module ancestor : NodeId) : Bool :=
  decide (ancestor ∈ t.enclosing module)

/-! ### Uses -/

/-- Enter the declaration that a node was resolved to, in the table of its namespace. -/
def setResolved (t : Tables) (space : Namespace) (use decl : NodeId) : Tables :=
  match space with
  | .name => { t with names := t.names.set use decl }
  | .type => { t with types := t.types.set use decl }

/-- The declaration that a node was resolved to, in either namespace. -/
def resolved? (t : Tables) (use : NodeId) : Option NodeId :=
  (t.names.get? use).or (t.types.get? use)

/-- Enter a use site. -/
def addUseSite (t : Tables) (site : UseSite) : Tables :=
  { t with useSites := t.useSites ++ [site] }

end Tables

end NameResolution
