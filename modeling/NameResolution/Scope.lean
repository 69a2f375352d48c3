import NameResolution.CanonicalPath
import NameResolution.Violation

/-!
# NameResolution.Scope

**Symbol tables.** A `Scope` is the symbol table of one namespace: a family of *ribs*,
one per node that opened a frame (a module, an item with generics, a block), together
with the stack of ribs that are open at the moment.

* A rib **persists** when it is closed. A later pass that reopens a module finds the
  bindings an earlier pass made there.
* A new binding is checked against the **innermost** open rib only (`Scope.insert`),
  so an inner frame may reuse a name of an outer one.
* Reading searches the open ribs **innermost first** (`Scope.findBinding?`).
* `Scope.declared` remembers every identity ever bound, also when its rib is closed or
  its binding has been shadowed since.
-/

namespace NameResolution

/-- One entry of a rib: a name, relative to the rib's owner, and what it stands for. -/
structure Binding where
  path : CanonicalPath
  /-- The declaration that the name stands for. -/
  id : NodeId
  /-- Where it was declared; a later duplicate points back here. -/
  locus : Span
  deriving DecidableEq, Repr

/-- The bindings that one node introduced, in the order in which their names first came up. -/
structure Rib where
  owner : NodeId
  bindings : List Binding
  deriving DecidableEq, Repr

namespace Rib

/-- The rib of `owner` before anything is bound. -/
def empty (owner : NodeId) : Rib := ⟨owner, []⟩

/-- The binding of a name, found by its segment texts. -/
def find? (r : Rib) (path : CanonicalPath) : Option Binding :=
  r.bindings.find? fun b => decide (b.path.SameText path)

/-- Bind a name; a binding of the same name gives way and the new one takes its position. -/
def bind (r : Rib) (b : Binding) : Rib :=
  match r.find? b.path with
  | none => { r with bindings := r.bindings ++ [b] }
  | some _ =>
    { r with bindings := r.bindings.map fun old => if old.path.SameText b.path then b else old }

end Rib

/-- The symbol table of one namespace. -/
structure Scope where
  space : Namespace
  /-- Every rib ever opened, at most one per owner. -/
  ribs : List Rib
  /-- The owners of the open ribs, innermost first. -/
  opened : List NodeId
  /-- Every identity ever bound, newest first. -/
  declared : List NodeId
  deriving DecidableEq, Repr

/-- What became of an attempt to bind a name. -/
inductive Insertion
  /-- The name was bound, and this is the table that holds it. -/
  | added (scope : Scope)
  /-- The innermost rib already held the name; the table stays as it was. -/
  | duplicate (earlier : Binding)
  deriving Repr

namespace Scope

/-- The table of a namespace before any rib is opened. -/
def empty (space : Namespace) : Scope := ⟨space, [], [], []⟩

/-- The rib of a node, open or not, if it was ever opened. -/
def rib? (s : Scope) (owner : NodeId) : Option Rib :=
  s.ribs.find? fun r => decide (r.owner = owner)

/-- Open a node's rib, which is created on first use. -/
def push (s : Scope) (owner : NodeId) : Scope :=
  { s with
    ribs := if (s.rib? owner).isSome then s.ribs else s.ribs ++ [Rib.empty owner]
    opened := owner :: s.opened }

/-- Close the innermost rib, which should be `owner`'s. It is closed even when it is not. -/
def pop (s : Scope) (owner : NodeId) : Except Violation Unit × Scope :=
  match s.opened with
  | [] => (.error (.scopeStackUnderflow s.space), s)
  | found :: outer =>
    let result :=
      if found = owner then .ok () else .error (.unbalancedScopeStack s.space owner found)
    (result, { s with opened := outer })

/-- The number of open ribs. -/
def depth (s : Scope) : Nat := s.opened.length

/-- The innermost open rib. -/
def innermost? (s : Scope) : Option Rib := s.opened.head?.bind s.rib?

/-- Put a binding into the rib of `owner`, whatever that rib holds already. -/
def bindIn (s : Scope) (owner : NodeId) (b : Binding) : Scope :=
  { s with
    ribs := s.ribs.map fun r => if r.owner = owner then r.bind b else r
    declared := b.id :: s.declared }

/-- Bind a name in the innermost rib. Unless shadowing is allowed, a name that this rib
already holds is refused. -/
def insert (s : Scope) (b : Binding) (shadow : Bool) : Except Violation Insertion :=
  match s.opened with
  | [] => .error (.scopeStackUnderflow s.space)
  | owner :: _ =>
    match (s.rib? owner).bind (Rib.find? · b.path), shadow with
    | some earlier, false => .ok (.duplicate earlier)
    | _, _ => .ok (.added (s.bindIn owner b))

/-- The binding that a name has at this point: the open ribs are searched innermost first. -/
def findBinding? (s : Scope) (path : CanonicalPath) : Option Binding :=
  s.opened.findSome? fun owner => (s.rib? owner).bind (Rib.find? · path)

/-- The declaration that a name stands for at this point. -/
def lookup? (s : Scope) (path : CanonicalPath) : Option NodeId :=
  (s.findBinding? path).map Binding.id

/-- Whether an identity was ever bound in this namespace. -/
def wasDeclared (s : Scope) (id : NodeId) : Bool := decide (id ∈ s.declared)

end Scope

end NameResolution
