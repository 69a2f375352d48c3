import NameResolution.Resolve.Path

/-!
# NameResolution.Resolve.Item

**The second pass: everything inside the items is resolved.** Modules are entered again,
so that what the first pass bound in them can be seen. An item with generics has a frame
of its own for its parameters, and for `Self` inside an implementation or a trait; a
function has one for its generics, its receiver and its parameters.
-/

namespace NameResolution

open Resolution

/-- Resolve a part that may be missing. -/
def resolveOptional (f : α → Resolution Unit) : Option α → Resolution Unit
  | none => pure ()
  | some a => f a

/-! ## Generics -/

/-- The error of a generic parameter that has the name of an earlier one. -/
def GenericParam.redefinition (b earlier : Binding) : ResolveError :=
  .genericParamRedefined b.path.text b.locus earlier.locus

/-- Bind the name of a generic parameter in the innermost frame. -/
def GenericParam.bindName (p : GenericParam) (space : Namespace) : Resolution Unit := do
  let path := CanonicalPath.single p.node.id p.name.name
  if ← makeBinding space ⟨path, p.node.id, p.name.span⟩ false GenericParam.redefinition then
    setPath p.node.id path

/-- Resolve the default and the bounds of a parameter, and bind its name after them. A lifetime
binds nothing. -/
def GenericParam.resolve (p : GenericParam) : Resolution Unit :=
  match p.kind with
  | .type bounds default => do
    resolveOptional (fun ty => discard ty.resolve) default
    resolveBounds bounds
    p.bindName .type
  | .const ty default => do
    discard ty.resolve
    resolveOptional Expr.resolve default
    p.bindName .name
  | .lifetime => pure ()

/-- Resolve a condition of a where clause. -/
def WherePredicate.resolve (p : WherePredicate) : Resolution Unit := do
  discard p.ty.resolve
  resolveBounds p.bounds

/-- Resolve generic parameters in order, and then the conditions on them. -/
def Generics.resolve (g : Generics) : Resolution Unit := do
  g.params.forM GenericParam.resolve
  resolveOptional (fun w => w.predicates.forM WherePredicate.resolve) g.whereClause

/-! ## Members -/

/-- Resolve a constant. -/
def ConstDecl.resolve (c : ConstDecl) : Resolution Unit := do
  discard c.ty.resolve
  resolveOptional Expr.resolve c.init

/-- Resolve a type alias in a frame of its own. -/
def AliasDecl.resolve (owner : NodeId) (a : AliasDecl) : Resolution Unit :=
  inFrame owner do
    a.generics.resolve
    discard a.ty.resolve

/-- Bind the receiver of a method. -/
def SelfParam.bindName (r : SelfParam) : Resolution Unit := do
  let path := CanonicalPath.single r.node.id "self"
  if ← bindNew .name ⟨path, r.node.id, r.node.span⟩ then
    setPath r.node.id path

/-- Resolve the type of a parameter and bind the names of its pattern after it. -/
def Param.resolve (p : Param) : Resolution Unit := do
  discard p.ty.resolve
  p.pattern.bindNames false

/-- Resolve a function. Generics, receiver, parameters and return type share its frame; the body
has one of its own. -/
def FunctionDecl.resolve (owner : NodeId) (f : FunctionDecl) : Resolution Unit :=
  inFrame owner do
    f.generics.resolve
    resolveOptional SelfParam.bindName f.receiver
    f.params.forM Param.resolve
    resolveOptional (fun ty => discard ty.resolve) f.ret
    resolveOptional Block.resolve f.body

/-- Resolve a field with a name. -/
def NamedField.resolve (f : NamedField) : Resolution Unit := discard f.ty.resolve

/-- Resolve a field without a name. -/
def TupleField.resolve (f : TupleField) : Resolution Unit := discard f.ty.resolve

/-- Resolve a variant in the frame of its enum. -/
def Variant.resolve (v : Variant) : Resolution Unit :=
  match v.kind with
  | .unit => pure ()
  | .tuple fields => fields.forM TupleField.resolve
  | .record fields => fields.forM NamedField.resolve
  | .discriminant value => value.resolve

/-- Resolve an implementation item. -/
def ImplItem.resolve (i : ImplItem) : Resolution Unit :=
  match i.kind with
  | .function f => f.resolve i.node.id
  | .const c => c.resolve
  | .typeAlias a => a.resolve i.node.id

/-- Resolve a trait item. -/
def TraitItem.resolve (i : TraitItem) : Resolution Unit :=
  match i.kind with
  | .function f => f.resolve i.node.id
  | .const c => c.resolve
  | .type t => resolveBounds t.bounds

/-- Resolve an extern item. -/
def ForeignItem.resolve (i : ForeignItem) : Resolution Unit :=
  match i.kind with
  | .function f => f.resolve i.node.id
  | .static _ _ ty => discard ty.resolve

/-! ## Items -/

/-- Bind `Self` in the innermost frame. Nothing is bound for a type that names no single
declaration. -/
def bindSelf (owner : NodeId) (target : Option NodeId) (locus : Span) : Resolution Unit :=
  match target with
  | none => pure ()
  | some decl => discard <| bindNew .type ⟨.single owner "Self", decl, locus⟩

/-- Resolve an implementation without a trait in a frame of its own. -/
def InherentImpl.resolve (owner : NodeId) (i : InherentImpl) : Resolution Unit :=
  inFrame owner do
    i.generics.resolve
    let selfTy ← i.selfTy.resolve
    bindSelf owner selfTy.decl i.selfTy.node.span
    i.items.forM ImplItem.resolve

/-- Resolve an implementation of a trait in a frame of its own. -/
def TraitImpl.resolve (owner : NodeId) (i : TraitImpl) : Resolution Unit :=
  inFrame owner do
    i.generics.resolve
    discard <| i.traitPath.resolve .type
    let selfTy ← i.selfTy.resolve
    bindSelf owner selfTy.decl i.selfTy.node.span
    i.items.forM ImplItem.resolve

/-- Resolve a trait in a frame of its own, in which `Self` is the trait. -/
def TraitDecl.resolve (node : Node) (t : TraitDecl) : Resolution Unit :=
  inFrame node.id do
    t.generics.resolve
    bindSelf node.id (some node.id) node.span
    resolveBounds t.supertraits
    t.items.forM TraitItem.resolve

/-- Resolve a struct or a union in a frame of its own. -/
def RecordDecl.resolve (owner : NodeId) (r : RecordDecl) : Resolution Unit :=
  inFrame owner do
    r.generics.resolve
    r.fields.forM NamedField.resolve

/-- Resolve a struct without field names in a frame of its own. -/
def TupleStructDecl.resolve (owner : NodeId) (s : TupleStructDecl) : Resolution Unit :=
  inFrame owner do
    s.generics.resolve
    s.fields.forM TupleField.resolve

/-- Resolve an enum in a frame of its own. -/
def EnumDecl.resolve (owner : NodeId) (e : EnumDecl) : Resolution Unit :=
  inFrame owner do
    e.generics.resolve
    e.variants.forM Variant.resolve

/-- Resolve a static. -/
def StaticDecl.resolve (s : StaticDecl) : Resolution Unit := do
  discard s.ty.resolve
  resolveOptional Expr.resolve s.init

mutual

/-- Resolve everything inside an item. -/
def Item.resolve : Item → Resolution Unit
  | ⟨node, _, kind⟩ => kind.resolve node

/-- Resolve everything inside an item of a kind. -/
def ItemKind.resolve (node : Node) : ItemKind → Resolution Unit
  | .module _ items => inModule node.id (resolveItems items)
  | .typeAlias a => a.resolve node.id
  | .struct s => s.resolve node.id
  | .tupleStruct s => s.resolve node.id
  | .enum e => e.resolve node.id
  | .union u => u.resolve node.id
  | .static s => s.resolve
  | .const c => c.resolve
  | .function f => f.resolve node.id
  | .inherentImpl i => i.resolve node.id
  | .traitImpl i => i.resolve node.id
  | .trait t => t.resolve node
  | .foreign b => b.items.forM ForeignItem.resolve

/-- Resolve items one after the other. -/
def resolveItems : List Item → Resolution Unit
  | [] => pure ()
  | item :: rest => do
    item.resolve
    resolveItems rest

end

/-- Resolve everything inside the items of a crate. -/
def Crate.resolveItems (c : Crate) : Resolution Unit :=
  inCrate (NameResolution.resolveItems c.items)

end NameResolution
