import NameResolution.Session
import NameResolution.ImplHeader
import NameResolution.Tree.Item

/-!
# NameResolution.Declaration

**The first pass: every declaration of a crate is registered.** A declaration gets a
binding in its namespace, a canonical path and a visibility and, where a path can name it,
becomes a child of its module, enum or trait. Nothing is resolved here, so the items of a
module may refer to each other in any order.

A declaration has two names (`Place`): the *key* under which its module's rib binds it,
which starts afresh in every module, and its *path*, which starts at the crate root.
-/

namespace NameResolution

/-- The names under which things are declared at a point of the crate. -/
structure Place where
  /-- Relative to the innermost module. -/
  key : CanonicalPath
  /-- From the crate root. -/
  path : CanonicalPath
  deriving DecidableEq, Repr

namespace Place

/-- The place directly inside a module with the given canonical path. -/
def ofModule (path : CanonicalPath) : Place := ⟨.empty, path⟩

/-- The place further in, under a relative path. -/
def extend (p : Place) (inner : CanonicalPath) : Place := ⟨p.key ++ inner, p.path ++ inner⟩

end Place

open Resolution

/-- The error of a segment that could not be read. -/
def PathSegment.unreadable (s : PathSegment) : ResolveError :=
  .segmentHasError s.text s.node.span

/-- Register a named declaration and answer with its place. A name that the module holds
already is reported and not bound; the declaration keeps its canonical path and visibility
all the same, but does not become a child of its container. -/
def declare (space : Namespace) (id : NodeId) (name : Ident) (place : Place) (vis : Visibility)
    (container : Option NodeId) : Resolution Place := do
  let inner := place.extend (.single id name.name)
  if ← bindNew space ⟨inner.key, id, name.span⟩ then
    match container with
    | some parent => updateTables (·.addChild parent ⟨name.name, id⟩)
    | none => pure ()
  let here ← currentModule
  updateTables fun t => { t with visibilities := t.visibilities.set id ⟨vis, here, name.span⟩ }
  setPath id inner.path
  return inner

/-- Note the module that a node is declared in. -/
def setParent (id module : NodeId) : Resolution Unit :=
  updateTables fun t => { t with parents := t.parents.set id module }

/-- Note the innermost module as the one that a node is declared in. -/
def placeInModule (id : NodeId) : Resolution Unit := do
  setParent id (← currentModule)

/-- Note that a node is a container. -/
def markContainer (id : NodeId) (kind : ContainerKind) : Resolution Unit :=
  updateTables fun t => { t with containers := t.containers.set id kind }

/-- Register a variant, which is as visible as its enum. -/
def Variant.declare (owner : NodeId) (vis : Visibility) (place : Place) (v : Variant) :
    Resolution Unit := do
  discard <| NameResolution.declare .type v.node.id v.name place vis (some owner)
  placeInModule v.node.id

/-- The namespace and the name that an implementation item declares. -/
def ImplItemKind.declares : ImplItemKind → Namespace × Ident
  | .function f => (.name, f.name)
  | .const c => (.name, c.name)
  | .typeAlias a => (.type, a.name)

/-- Register an implementation item. It is reached through its type and never as a child of
the module. -/
def ImplItem.declare (place : Place) (i : ImplItem) : Resolution Unit := do
  let (space, name) := i.kind.declares
  discard <| NameResolution.declare space i.node.id name place i.vis none
  placeInModule i.node.id

/-- The namespace and the name that a trait item declares. -/
def TraitItemKind.declares : TraitItemKind → Namespace × Ident
  | .function f => (.name, f.name)
  | .const c => (.name, c.name)
  | .type t => (.type, t.name)

/-- Register a trait item, which is as visible as its trait. -/
def TraitItem.declare (owner : NodeId) (vis : Visibility) (place : Place) (i : TraitItem) :
    Resolution Unit := do
  let (space, name) := i.kind.declares
  discard <| NameResolution.declare space i.node.id name place vis (some owner)
  placeInModule i.node.id

/-- The name that an extern item declares. -/
def ForeignItemKind.name : ForeignItemKind → Ident
  | .function f => f.name
  | .static name _ _ => name

/-- Register an extern item. It belongs to the module around its block. -/
def ForeignItem.declare (place : Place) (i : ForeignItem) : Resolution Unit := do
  let here ← currentModule
  discard <| NameResolution.declare .name i.node.id i.kind.name place i.vis (some here)
  setParent i.node.id here

/-- Register the items of an implementation without a trait under the path of its type. If the
implementation is generic, the path leaves out the generic arguments of the type. -/
def InherentImpl.declare (id : NodeId) (place : Place) (i : InherentImpl) : Resolution Unit :=
  match i.selfTy.headerPath i.generics.isEmpty with
  | .error malformed => report malformed.unreadable
  | .ok selfTy => do
    let inner := place.extend selfTy
    setPath id inner.path
    i.items.forM (ImplItem.declare inner)

/-- Register the items of an implementation of a trait under `<Type as Trait>`. That projection
is a binding itself, so a second implementation of a trait for a type is reported once and its
items are passed over. -/
def TraitImpl.declare (node : Node) (place : Place) (i : TraitImpl) : Resolution Unit :=
  let withArgs := i.generics.isEmpty
  let header := do
    let selfTy ← i.selfTy.headerPath withArgs
    let traitPath ← i.traitPath.headerPath withArgs
    return CanonicalPath.projection node.id traitPath selfTy
  match header with
  | .error malformed => report malformed.unreadable
  | .ok projection => do
    let inner := place.extend projection
    if ← bindNew .name ⟨inner.key, node.id, node.span⟩ then
      setPath node.id inner.path
      i.items.forM (ImplItem.declare inner)

/-- Register a declaration that holds no others. -/
def declareLeaf (space : Namespace) (node : Node) (vis : Visibility) (here : NodeId)
    (place : Place) (name : Ident) : Resolution Unit :=
  discard <| declare space node.id name place vis (some here)

mutual

/-- Register an item and everything nested in it. -/
def Item.declare (place : Place) : Item → Resolution Unit
  | ⟨node, vis, kind⟩ => do
    let here ← currentModule
    kind.declare node vis here place
    setParent node.id here

/-- Register what an item of a kind declares, given the module around it. -/
def ItemKind.declare (node : Node) (vis : Visibility) (here : NodeId) (place : Place) :
    ItemKind → Resolution Unit
  | .module name items => do
    let inner ← NameResolution.declare .name node.id name place vis (some here)
    markContainer node.id .module
    updateTables (·.addNested here node.id)
    inModule node.id (declareItems (.ofModule inner.path) items)
  | .enum e => do
    let inner ← NameResolution.declare .type node.id e.name place vis (some here)
    markContainer node.id .enum
    e.variants.forM (Variant.declare node.id vis inner)
  | .trait t => do
    let inner ← NameResolution.declare .type node.id t.name place vis (some here)
    markContainer node.id .trait
    t.items.forM (TraitItem.declare node.id vis inner)
  | .typeAlias a => declareLeaf .type node vis here place a.name
  | .struct s => declareLeaf .type node vis here place s.name
  | .tupleStruct s => declareLeaf .type node vis here place s.name
  | .union u => declareLeaf .type node vis here place u.name
  | .static s => declareLeaf .name node vis here place s.name
  | .const c => declareLeaf .name node vis here place c.name
  | .function f => declareLeaf .name node vis here place f.name
  | .inherentImpl i => i.declare node.id place
  | .traitImpl i => i.declare node place
  | .foreign b => b.items.forM (ForeignItem.declare place)

/-- Register items one after the other. -/
def declareItems (place : Place) : List Item → Resolution Unit
  | [] => pure ()
  | item :: rest => do
    item.declare place
    declareItems place rest

end

/-- Register every declaration of a crate. -/
def Crate.declare (c : Crate) : Resolution Unit := do
  let s ← get
  inCrate (declareItems (.ofModule s.rootPath) c.items)

end NameResolution
