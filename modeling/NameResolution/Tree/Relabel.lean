import NameResolution.Tree.Item

/-!
# NameResolution.Tree.Relabel

**The same tree under other identities and visibilities.** A `Relabelling` says what
becomes of the identity of a node and of a visibility; `Crate.relabel` puts both through
a whole crate and leaves names, places and the shape of the tree as they are.
-/

namespace NameResolution

/-- What becomes of the identity of a node, and of how far a declaration can be seen. -/
structure Relabelling where
  node : NodeId → NodeId
  vis : Visibility → Visibility

/-- A node under its new identity. -/
def Node.relabel (ρ : Relabelling) (n : Node) : Node := ⟨ρ.node n.id, n.span⟩

@[simp] theorem Node.id_relabel (ρ : Relabelling) (n : Node) : (n.relabel ρ).id = ρ.node n.id := rfl

@[simp] theorem Node.span_relabel (ρ : Relabelling) (n : Node) : (n.relabel ρ).span = n.span := rfl

mutual

/-- A pattern under a relabelling. -/
def Pattern.relabel (ρ : Relabelling) : Pattern → Pattern
  | .binding n name mutable => .binding (n.relabel ρ) name mutable
  | .tuple n elems => .tuple (n.relabel ρ) (relabelPatterns ρ elems)
  | .wildcard n => .wildcard (n.relabel ρ)

def relabelPatterns (ρ : Relabelling) : List Pattern → List Pattern
  | [] => []
  | p :: ps => p.relabel ρ :: relabelPatterns ρ ps

end

mutual

/-- A path under a relabelling. -/
def Path.relabel (ρ : Relabelling) : Path → Path
  | ⟨n, segments⟩ => ⟨n.relabel ρ, relabelSegments ρ segments⟩

def relabelSegments (ρ : Relabelling) : List PathSegment → List PathSegment
  | [] => []
  | s :: rest => s.relabel ρ :: relabelSegments ρ rest

/-- A segment under a relabelling. -/
def PathSegment.relabel (ρ : Relabelling) : PathSegment → PathSegment
  | ⟨n, ident, none⟩ => ⟨n.relabel ρ, ident, none⟩
  | ⟨n, ident, some args⟩ => ⟨n.relabel ρ, ident, some (args.relabel ρ)⟩

/-- Arguments under a relabelling. -/
def GenericArgs.relabel (ρ : Relabelling) : GenericArgs → GenericArgs
  | ⟨types, span⟩ => ⟨relabelTys ρ types, span⟩

def relabelTys (ρ : Relabelling) : List Ty → List Ty
  | [] => []
  | t :: ts => t.relabel ρ :: relabelTys ρ ts

/-- A type under a relabelling. -/
def Ty.relabel (ρ : Relabelling) : Ty → Ty
  | .path n p => .path (n.relabel ρ) (p.relabel ρ)
  | .qualified n p => .qualified (n.relabel ρ) (p.relabel ρ)
  | .tuple n elems => .tuple (n.relabel ρ) (relabelTys ρ elems)
  | .array n elem size => .array (n.relabel ρ) (elem.relabel ρ) (size.relabel ρ)
  | .slice n elem => .slice (n.relabel ρ) (elem.relabel ρ)
  | .reference n mutable inner => .reference (n.relabel ρ) mutable (inner.relabel ρ)
  | .pointer n mutable inner => .pointer (n.relabel ρ) mutable (inner.relabel ρ)
  | .dynOne n bound => .dynOne (n.relabel ρ) (bound.relabel ρ)
  | .dyn n bounds => .dyn (n.relabel ρ) (relabelBounds ρ bounds)
  | .fnPointer n params none => .fnPointer (n.relabel ρ) (relabelParamTys ρ params) none
  | .fnPointer n params (some ret) =>
    .fnPointer (n.relabel ρ) (relabelParamTys ρ params) (some (ret.relabel ρ))
  | .inferred n => .inferred (n.relabel ρ)
  | .never n => .never (n.relabel ρ)

/-- A path that starts from a type under a relabelling. -/
def QualifiedPath.relabel (ρ : Relabelling) : QualifiedPath → QualifiedPath
  | ⟨n, qualifier, associated, rest⟩ =>
    ⟨n.relabel ρ, qualifier.relabel ρ, associated.relabel ρ, relabelSegments ρ rest⟩

/-- The head of a qualified path under a relabelling. -/
def Qualifier.relabel (ρ : Relabelling) : Qualifier → Qualifier
  | ⟨n, selfTy, none⟩ => ⟨n.relabel ρ, selfTy.relabel ρ, none⟩
  | ⟨n, selfTy, some asTrait⟩ => ⟨n.relabel ρ, selfTy.relabel ρ, some (asTrait.relabel ρ)⟩

/-- A trait bound under a relabelling. -/
def TraitBound.relabel (ρ : Relabelling) : TraitBound → TraitBound
  | ⟨n, path⟩ => ⟨n.relabel ρ, path.relabel ρ⟩

/-- A bound under a relabelling. -/
def Bound.relabel (ρ : Relabelling) : Bound → Bound
  | .trait bound => .trait (bound.relabel ρ)
  | .lifetime name => .lifetime name

def relabelBounds (ρ : Relabelling) : List Bound → List Bound
  | [] => []
  | b :: bs => b.relabel ρ :: relabelBounds ρ bs

/-- The parameters of a function pointer under a relabelling. -/
def relabelParamTys (ρ : Relabelling) : List FnPointerParam → List FnPointerParam
  | [] => []
  | ⟨id, name, ty⟩ :: ps => ⟨ρ.node id, name, ty.relabel ρ⟩ :: relabelParamTys ρ ps

/-- An expression under a relabelling. -/
def Expr.relabel (ρ : Relabelling) : Expr → Expr
  | .literal n value => .literal (n.relabel ρ) value
  | .path n p => .path (n.relabel ρ) (p.relabel ρ)
  | .unary n op operand => .unary (n.relabel ρ) op (operand.relabel ρ)
  | .binary n op lhs rhs => .binary (n.relabel ρ) op (lhs.relabel ρ) (rhs.relabel ρ)
  | .call n callee args => .call (n.relabel ρ) (callee.relabel ρ) (relabelExprs ρ args)
  | .cast n operand ty => .cast (n.relabel ρ) (operand.relabel ρ) (ty.relabel ρ)
  | .tuple n elems => .tuple (n.relabel ρ) (relabelExprs ρ elems)
  | .group n inner => .group (n.relabel ρ) (inner.relabel ρ)
  | .block n body => .block (n.relabel ρ) (body.relabel ρ)

def relabelExprs (ρ : Relabelling) : List Expr → List Expr
  | [] => []
  | e :: es => e.relabel ρ :: relabelExprs ρ es

/-- A block under a relabelling. -/
def Block.relabel (ρ : Relabelling) : Block → Block
  | ⟨n, stmts, none⟩ => ⟨n.relabel ρ, relabelStmts ρ stmts, none⟩
  | ⟨n, stmts, some tail⟩ => ⟨n.relabel ρ, relabelStmts ρ stmts, some (tail.relabel ρ)⟩

def relabelStmts (ρ : Relabelling) : List Stmt → List Stmt
  | [] => []
  | s :: rest => s.relabel ρ :: relabelStmts ρ rest

/-- A statement under a relabelling. -/
def Stmt.relabel (ρ : Relabelling) : Stmt → Stmt
  | .bind n pattern none none => .bind (n.relabel ρ) (pattern.relabel ρ) none none
  | .bind n pattern (some ty) none =>
    .bind (n.relabel ρ) (pattern.relabel ρ) (some (ty.relabel ρ)) none
  | .bind n pattern none (some init) =>
    .bind (n.relabel ρ) (pattern.relabel ρ) none (some (init.relabel ρ))
  | .bind n pattern (some ty) (some init) =>
    .bind (n.relabel ρ) (pattern.relabel ρ) (some (ty.relabel ρ)) (some (init.relabel ρ))
  | .expr n value => .expr (n.relabel ρ) (value.relabel ρ)
  | .empty n => .empty (n.relabel ρ)

end

/-- A kind of generic parameter under a relabelling. -/
def GenericParamKind.relabel (ρ : Relabelling) : GenericParamKind → GenericParamKind
  | .type bounds default => .type (relabelBounds ρ bounds) (default.map (Ty.relabel ρ))
  | .const ty default => .const (ty.relabel ρ) (default.map (Expr.relabel ρ))
  | .lifetime => .lifetime

/-- A generic parameter under a relabelling. -/
def GenericParam.relabel (ρ : Relabelling) (p : GenericParam) : GenericParam :=
  ⟨p.node.relabel ρ, p.name, p.kind.relabel ρ⟩

/-- A condition of a where clause under a relabelling. -/
def WherePredicate.relabel (ρ : Relabelling) (p : WherePredicate) : WherePredicate :=
  ⟨p.node.relabel ρ, p.ty.relabel ρ, relabelBounds ρ p.bounds⟩

/-- A where clause under a relabelling. -/
def WhereClause.relabel (ρ : Relabelling) (w : WhereClause) : WhereClause :=
  ⟨w.predicates.map (WherePredicate.relabel ρ), w.span⟩

/-- Generic parameters under a relabelling. -/
def Generics.relabel (ρ : Relabelling) (g : Generics) : Generics :=
  ⟨g.params.map (GenericParam.relabel ρ), g.whereClause.map (WhereClause.relabel ρ)⟩

/-- A type alias under a relabelling. -/
def AliasDecl.relabel (ρ : Relabelling) (a : AliasDecl) : AliasDecl :=
  ⟨a.name, a.generics.relabel ρ, a.ty.relabel ρ⟩

/-- A field with a name under a relabelling. -/
def NamedField.relabel (ρ : Relabelling) (f : NamedField) : NamedField :=
  ⟨f.node.relabel ρ, ρ.vis f.vis, f.name, f.ty.relabel ρ⟩

/-- A field without a name under a relabelling. -/
def TupleField.relabel (ρ : Relabelling) (f : TupleField) : TupleField :=
  ⟨f.node.relabel ρ, ρ.vis f.vis, f.ty.relabel ρ⟩

/-- A struct or a union under a relabelling. -/
def RecordDecl.relabel (ρ : Relabelling) (r : RecordDecl) : RecordDecl :=
  ⟨r.name, r.generics.relabel ρ, r.fields.map (NamedField.relabel ρ)⟩

/-- A struct without field names under a relabelling. -/
def TupleStructDecl.relabel (ρ : Relabelling) (s : TupleStructDecl) : TupleStructDecl :=
  ⟨s.name, s.generics.relabel ρ, s.fields.map (TupleField.relabel ρ)⟩

/-- A kind of variant under a relabelling. -/
def VariantKind.relabel (ρ : Relabelling) : VariantKind → VariantKind
  | .unit => .unit
  | .tuple fields => .tuple (fields.map (TupleField.relabel ρ))
  | .record fields => .record (fields.map (NamedField.relabel ρ))
  | .discriminant value => .discriminant (value.relabel ρ)

/-- A variant under a relabelling. -/
def Variant.relabel (ρ : Relabelling) (v : Variant) : Variant :=
  ⟨v.node.relabel ρ, v.name, v.kind.relabel ρ⟩

/-- An enum under a relabelling. -/
def EnumDecl.relabel (ρ : Relabelling) (e : EnumDecl) : EnumDecl :=
  ⟨e.name, e.generics.relabel ρ, e.variants.map (Variant.relabel ρ)⟩

/-- A static under a relabelling. -/
def StaticDecl.relabel (ρ : Relabelling) (s : StaticDecl) : StaticDecl :=
  ⟨s.name, s.mutable, s.ty.relabel ρ, s.init.map (Expr.relabel ρ)⟩

/-- A constant under a relabelling. -/
def ConstDecl.relabel (ρ : Relabelling) (c : ConstDecl) : ConstDecl :=
  ⟨c.name, c.ty.relabel ρ, c.init.map (Expr.relabel ρ)⟩

/-- A receiver under a relabelling. -/
def SelfParam.relabel (ρ : Relabelling) (r : SelfParam) : SelfParam :=
  ⟨r.node.relabel ρ, r.byRef, r.mutable⟩

/-- A function parameter under a relabelling. -/
def Param.relabel (ρ : Relabelling) (p : Param) : Param :=
  ⟨p.node.relabel ρ, p.pattern.relabel ρ, p.ty.relabel ρ⟩

/-- A function under a relabelling. -/
def FunctionDecl.relabel (ρ : Relabelling) (f : FunctionDecl) : FunctionDecl :=
  ⟨f.name, f.generics.relabel ρ, f.receiver.map (SelfParam.relabel ρ),
    f.params.map (Param.relabel ρ), f.ret.map (Ty.relabel ρ), f.body.map (Block.relabel ρ)⟩

/-- A kind of implementation item under a relabelling. -/
def ImplItemKind.relabel (ρ : Relabelling) : ImplItemKind → ImplItemKind
  | .function f => .function (f.relabel ρ)
  | .const c => .const (c.relabel ρ)
  | .typeAlias a => .typeAlias (a.relabel ρ)

/-- An implementation item under a relabelling. -/
def ImplItem.relabel (ρ : Relabelling) (i : ImplItem) : ImplItem :=
  ⟨i.node.relabel ρ, ρ.vis i.vis, i.kind.relabel ρ⟩

/-- An implementation without a trait under a relabelling. -/
def InherentImpl.relabel (ρ : Relabelling) (i : InherentImpl) : InherentImpl :=
  ⟨i.generics.relabel ρ, i.selfTy.relabel ρ, i.items.map (ImplItem.relabel ρ)⟩

/-- An implementation of a trait under a relabelling. -/
def TraitImpl.relabel (ρ : Relabelling) (i : TraitImpl) : TraitImpl :=
  ⟨i.generics.relabel ρ, i.traitPath.relabel ρ, i.selfTy.relabel ρ,
    i.items.map (ImplItem.relabel ρ)⟩

/-- A kind of trait item under a relabelling. -/
def TraitItemKind.relabel (ρ : Relabelling) : TraitItemKind → TraitItemKind
  | .function f => .function (f.relabel ρ)
  | .const c => .const (c.relabel ρ)
  | .type t => .type ⟨t.name, relabelBounds ρ t.bounds⟩

/-- A trait item under a relabelling. -/
def TraitItem.relabel (ρ : Relabelling) (i : TraitItem) : TraitItem :=
  ⟨i.node.relabel ρ, i.kind.relabel ρ⟩

/-- A trait under a relabelling. -/
def TraitDecl.relabel (ρ : Relabelling) (t : TraitDecl) : TraitDecl :=
  ⟨t.name, t.generics.relabel ρ, relabelBounds ρ t.supertraits, t.items.map (TraitItem.relabel ρ)⟩

/-- A kind of extern item under a relabelling. -/
def ForeignItemKind.relabel (ρ : Relabelling) : ForeignItemKind → ForeignItemKind
  | .function f => .function (f.relabel ρ)
  | .static name mutable ty => .static name mutable (ty.relabel ρ)

/-- An extern item under a relabelling. -/
def ForeignItem.relabel (ρ : Relabelling) (i : ForeignItem) : ForeignItem :=
  ⟨i.node.relabel ρ, ρ.vis i.vis, i.kind.relabel ρ⟩

/-- An extern block under a relabelling. -/
def ForeignBlock.relabel (ρ : Relabelling) (b : ForeignBlock) : ForeignBlock :=
  ⟨b.abi, b.items.map (ForeignItem.relabel ρ)⟩

mutual

/-- An item under a relabelling. -/
def Item.relabel (ρ : Relabelling) : Item → Item
  | ⟨n, vis, kind⟩ => ⟨n.relabel ρ, ρ.vis vis, kind.relabel ρ⟩

/-- A kind of item under a relabelling. -/
def ItemKind.relabel (ρ : Relabelling) : ItemKind → ItemKind
  | .module name items => .module name (relabelItems ρ items)
  | .typeAlias a => .typeAlias (a.relabel ρ)
  | .struct s => .struct (s.relabel ρ)
  | .tupleStruct s => .tupleStruct (s.relabel ρ)
  | .enum e => .enum (e.relabel ρ)
  | .union u => .union (u.relabel ρ)
  | .static s => .static (s.relabel ρ)
  | .const c => .const (c.relabel ρ)
  | .function f => .function (f.relabel ρ)
  | .inherentImpl i => .inherentImpl (i.relabel ρ)
  | .traitImpl i => .traitImpl (i.relabel ρ)
  | .trait t => .trait (t.relabel ρ)
  | .foreign b => .foreign (b.relabel ρ)

def relabelItems (ρ : Relabelling) : List Item → List Item
  | [] => []
  | item :: rest => item.relabel ρ :: relabelItems ρ rest

end

/-- A crate under a relabelling. The identities of the built-in types are taken from another
bound. -/
def Crate.relabel (ρ : Relabelling) (bound : NodeId) (c : Crate) : Crate :=
  ⟨c.node.relabel ρ, relabelItems ρ c.items, bound⟩

end NameResolution
