import NameResolution.Tree.NodeIds

/-!
# NameResolution.Proofs.Sites

**Everything in a tree that can be resolved**, in the order in which the second pass would
come to it. A `Site` is a path segment, a path or a type with a form of its own;
`Crate.sites` lists those of a crate, each with the modules around it. The list is read
off the tree alone, so it says what there is to be done without saying how.

There are three places at which the second pass may turn back before it has seen all of a
path. What lies further in is behind a `Gate` there, and every path comes with the gates
in front of it.
-/

namespace NameResolution

/-- A place where the second pass may turn back. -/
inductive Gate
  /-- In front of the arguments of a segment, once the segments before it have been followed. -/
  | args (before : List PathSegment) (seg : PathSegment)
  /-- In front of the trait that comes after a type in the head of a qualified path. -/
  | asTrait (selfTy : Ty)
  /-- In front of the arguments of the segments after the head of a qualified path. -/
  | tail (head : Qualifier)

/-- Something that can be resolved. -/
inductive Site
  | segment (seg : PathSegment)
  /-- A path, with the gates in front of it, outermost first. -/
  | path (path : Path) (gates : List Gate)
  /-- A type that is built in and has a form of its own. -/
  | type (use : NodeId)

namespace Site

/-- The node that is resolved. -/
def id : Site → NodeId
  | segment seg => seg.node.id
  | path p _ => p.node.id
  | type use => use

/-- The site behind one more gate. -/
def behind (gate : Gate) : Site → Site
  | path p gates => path p (gate :: gates)
  | segment seg => segment seg
  | type use => type use

@[simp] theorem id_behind (gate : Gate) (s : Site) : (s.behind gate).id = s.id := by
  cases s <;> rfl

theorem ids_behind (gate : Gate) (l : List Site) :
    (l.map (behind gate)).map Site.id = l.map Site.id := by
  rw [List.map_map]
  exact List.map_congr_left fun s _ => id_behind gate s

end Site

mutual

/-- The sites of a path, which is resolved after its segments. -/
def Path.sites : Path → List Site
  | ⟨node, segments⟩ => segmentsSites [] segments ++ [.path ⟨node, segments⟩ []]

/-- The sites of the remaining segments of a path. -/
def segmentsSites (before : List PathSegment) : List PathSegment → List Site
  | [] => []
  | seg :: rest => seg.sites (.args before seg) ++ segmentsSites (before ++ [seg]) rest

/-- The sites of a segment, which is resolved after its arguments. -/
def PathSegment.sites (gate : Gate) : PathSegment → List Site
  | ⟨node, ident, none⟩ => [.segment ⟨node, ident, none⟩]
  | ⟨node, ident, some args⟩ =>
    args.sites.map (Site.behind gate) ++ [.segment ⟨node, ident, some args⟩]

def GenericArgs.sites : GenericArgs → List Site
  | ⟨types, _⟩ => tysSites types

def tysSites : List Ty → List Site
  | [] => []
  | t :: ts => t.sites ++ tysSites ts

/-- The sites of a type. -/
def Ty.sites : Ty → List Site
  | .path _ p => p.sites
  | .qualified _ p => p.sites
  | .tuple n [] => [.type n.id]
  | .tuple _ elems => tysSites elems
  | .array _ elem size => elem.sites ++ size.sites
  | .slice _ elem => elem.sites
  | .reference _ _ inner => inner.sites
  | .pointer _ _ inner => inner.sites
  | .dynOne _ bound => bound.sites
  | .dyn _ bounds => boundsSites bounds
  | .fnPointer _ params none => paramTysSites params
  | .fnPointer _ params (some ret) => paramTysSites params ++ ret.sites
  | .inferred n => [.type n.id]
  | .never n => [.type n.id]

/-- The sites of a path that starts from a type. It is not resolved itself. -/
def QualifiedPath.sites : QualifiedPath → List Site
  | ⟨_, qualifier, associated, rest⟩ =>
    qualifier.sites ++ (associated.sites (.tail qualifier) ++ appendedSites (.tail qualifier) rest)

/-- The sites of the head of a qualified path. -/
def Qualifier.sites : Qualifier → List Site
  | ⟨_, selfTy, none⟩ => selfTy.sites
  | ⟨_, selfTy, some asTrait⟩ => selfTy.sites ++ asTrait.sites.map (Site.behind (.asTrait selfTy))

/-- The sites of segments behind the head of a qualified path. -/
def appendedSites (gate : Gate) : List PathSegment → List Site
  | [] => []
  | seg :: rest => seg.sites gate ++ appendedSites gate rest

def TraitBound.sites : TraitBound → List Site
  | ⟨_, path⟩ => path.sites

def Bound.sites : Bound → List Site
  | .trait bound => bound.sites
  | .lifetime _ => []

def boundsSites : List Bound → List Site
  | [] => []
  | b :: bs => b.sites ++ boundsSites bs

def paramTysSites : List FnPointerParam → List Site
  | [] => []
  | ⟨_, _, ty⟩ :: ps => ty.sites ++ paramTysSites ps

/-- The sites of an expression. -/
def Expr.sites : Expr → List Site
  | .literal _ _ => []
  | .path _ p => p.sites
  | .unary _ _ operand => operand.sites
  | .binary _ _ lhs rhs => lhs.sites ++ rhs.sites
  | .call _ callee args => callee.sites ++ exprsSites args
  | .cast _ operand ty => operand.sites ++ ty.sites
  | .tuple _ elems => exprsSites elems
  | .group _ inner => inner.sites
  | .block _ body => body.sites

def exprsSites : List Expr → List Site
  | [] => []
  | e :: es => e.sites ++ exprsSites es

def Block.sites : Block → List Site
  | ⟨_, stmts, none⟩ => stmtsSites stmts
  | ⟨_, stmts, some tail⟩ => stmtsSites stmts ++ tail.sites

def stmtsSites : List Stmt → List Site
  | [] => []
  | s :: rest => s.sites ++ stmtsSites rest

/-- The sites of a statement. -/
def Stmt.sites : Stmt → List Site
  | .bind _ _ none none => []
  | .bind _ _ (some ty) none => ty.sites
  | .bind _ _ none (some init) => init.sites
  | .bind _ _ (some ty) (some init) => ty.sites ++ init.sites
  | .expr _ value => value.sites
  | .empty _ => []

end

/-! ### Items -/

/-- The sites of a part that may be missing. -/
def optionalSites (f : α → List Site) : Option α → List Site
  | none => []
  | some a => f a

/-- The sites of a generic parameter. -/
def GenericParam.sites (p : GenericParam) : List Site :=
  match p.kind with
  | .type bounds default => optionalSites Ty.sites default ++ boundsSites bounds
  | .const ty default => ty.sites ++ optionalSites Expr.sites default
  | .lifetime => []

def WherePredicate.sites (p : WherePredicate) : List Site := p.ty.sites ++ boundsSites p.bounds

/-- The sites of generic parameters and of the conditions on them. -/
def Generics.sites (g : Generics) : List Site :=
  g.params.flatMap GenericParam.sites
    ++ optionalSites (fun w => w.predicates.flatMap WherePredicate.sites) g.whereClause

def ConstDecl.sites (c : ConstDecl) : List Site := c.ty.sites ++ optionalSites Expr.sites c.init

def StaticDecl.sites (s : StaticDecl) : List Site := s.ty.sites ++ optionalSites Expr.sites s.init

def AliasDecl.sites (a : AliasDecl) : List Site := a.generics.sites ++ a.ty.sites

def Param.sites (p : Param) : List Site := p.ty.sites

/-- The sites of a function. -/
def FunctionDecl.sites (f : FunctionDecl) : List Site :=
  f.generics.sites ++ (f.params.flatMap Param.sites
    ++ (optionalSites Ty.sites f.ret ++ optionalSites Block.sites f.body))

def NamedField.sites (f : NamedField) : List Site := f.ty.sites

def TupleField.sites (f : TupleField) : List Site := f.ty.sites

/-- The sites of a variant. -/
def Variant.sites (v : Variant) : List Site :=
  match v.kind with
  | .unit => []
  | .tuple fields => fields.flatMap TupleField.sites
  | .record fields => fields.flatMap NamedField.sites
  | .discriminant value => value.sites

/-- The sites of an implementation item. -/
def ImplItem.sites (i : ImplItem) : List Site :=
  match i.kind with
  | .function f => f.sites
  | .const c => c.sites
  | .typeAlias a => a.sites

/-- The sites of a trait item. -/
def TraitItem.sites (i : TraitItem) : List Site :=
  match i.kind with
  | .function f => f.sites
  | .const c => c.sites
  | .type t => boundsSites t.bounds

/-- The sites of an extern item. -/
def ForeignItem.sites (i : ForeignItem) : List Site :=
  match i.kind with
  | .function f => f.sites
  | .static _ _ ty => ty.sites

def RecordDecl.sites (r : RecordDecl) : List Site :=
  r.generics.sites ++ r.fields.flatMap NamedField.sites

def TupleStructDecl.sites (s : TupleStructDecl) : List Site :=
  s.generics.sites ++ s.fields.flatMap TupleField.sites

def EnumDecl.sites (e : EnumDecl) : List Site :=
  e.generics.sites ++ e.variants.flatMap Variant.sites

def InherentImpl.sites (i : InherentImpl) : List Site :=
  i.generics.sites ++ (i.selfTy.sites ++ i.items.flatMap ImplItem.sites)

def TraitImpl.sites (i : TraitImpl) : List Site :=
  i.generics.sites ++ (i.traitPath.sites ++ (i.selfTy.sites ++ i.items.flatMap ImplItem.sites))

def TraitDecl.sites (t : TraitDecl) : List Site :=
  t.generics.sites ++ (boundsSites t.supertraits ++ t.items.flatMap TraitItem.sites)

/-- A site and the modules around it, innermost first. The crate root is the last of them. -/
structure PlacedSite where
  modules : List NodeId
  site : Site

mutual

/-- The sites of an item inside some modules. -/
def Item.sites (modules : List NodeId) : Item → List PlacedSite
  | ⟨node, _, kind⟩ => kind.sites modules node

def ItemKind.sites (modules : List NodeId) (node : Node) : ItemKind → List PlacedSite
  | .module _ items => itemsSites (node.id :: modules) items
  | .typeAlias a => a.sites.map (.mk modules)
  | .struct s => s.sites.map (.mk modules)
  | .tupleStruct s => s.sites.map (.mk modules)
  | .enum e => e.sites.map (.mk modules)
  | .union u => u.sites.map (.mk modules)
  | .static s => s.sites.map (.mk modules)
  | .const c => c.sites.map (.mk modules)
  | .function f => f.sites.map (.mk modules)
  | .inherentImpl i => i.sites.map (.mk modules)
  | .traitImpl i => i.sites.map (.mk modules)
  | .trait t => t.sites.map (.mk modules)
  | .foreign b => (b.items.flatMap ForeignItem.sites).map (.mk modules)

def itemsSites (modules : List NodeId) : List Item → List PlacedSite
  | [] => []
  | item :: rest => item.sites modules ++ itemsSites modules rest

end

/-- Everything in a crate that can be resolved, in the order of resolution. -/
def Crate.sites (c : Crate) : List PlacedSite := itemsSites [c.node.id] c.items

end NameResolution
