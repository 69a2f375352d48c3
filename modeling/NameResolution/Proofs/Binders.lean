import NameResolution.CanonicalPath
import NameResolution.Namespace
import NameResolution.Tree.Item

/-!
# NameResolution.Proofs.Binders

**Everything in a tree that introduces a local name**, in the order in which the second
pass would come to it. A `Binder` is a generic parameter, the receiver of a method or a
name in a pattern; `Crate.binders` lists those of a crate. The list is read off the tree
alone. Which of them really introduce a name depends on what else is called the same, and
on how far the paths around them lead.
-/

namespace NameResolution

/-- What introduces a local name. -/
inductive BinderKind
  | typeParam
  | constParam
  | receiver
  | pattern
  deriving DecidableEq, Repr

/-- A node that introduces a local name for itself. -/
structure Binder where
  kind : BinderKind
  id : NodeId
  name : String
  deriving DecidableEq, Repr

namespace Binder

/-- The namespace of the name. -/
def space (b : Binder) : Namespace :=
  match b.kind with
  | .typeParam => .type
  | .constParam | .receiver | .pattern => .name

/-- The canonical path of the node: a local name is part of no other name. -/
def path (b : Binder) : CanonicalPath := .single b.id b.name

end Binder

mutual

/-- The names in a pattern. -/
def Pattern.binders : Pattern → List Binder
  | .binding node name _ => [⟨.pattern, node.id, name.name⟩]
  | .tuple _ elems => patternsBinders elems
  | .wildcard _ => []

def patternsBinders : List Pattern → List Binder
  | [] => []
  | p :: ps => p.binders ++ patternsBinders ps

end

mutual

/-- The binders in the arguments of a path. -/
def Path.binders : Path → List Binder
  | ⟨_, segments⟩ => segmentsBinders segments

def segmentsBinders : List PathSegment → List Binder
  | [] => []
  | seg :: rest => seg.binders ++ segmentsBinders rest

def PathSegment.binders : PathSegment → List Binder
  | ⟨_, _, none⟩ => []
  | ⟨_, _, some args⟩ => args.binders

def GenericArgs.binders : GenericArgs → List Binder
  | ⟨types, _⟩ => tysBinders types

def tysBinders : List Ty → List Binder
  | [] => []
  | t :: ts => t.binders ++ tysBinders ts

/-- The binders in a type. There are some only if an array type in it has a block for its size. -/
def Ty.binders : Ty → List Binder
  | .path _ p => p.binders
  | .qualified _ p => p.binders
  | .tuple _ elems => tysBinders elems
  | .array _ elem size => elem.binders ++ size.binders
  | .slice _ elem => elem.binders
  | .reference _ _ inner => inner.binders
  | .pointer _ _ inner => inner.binders
  | .dynOne _ bound => bound.binders
  | .dyn _ bounds => boundsBinders bounds
  | .fnPointer _ params none => paramTysBinders params
  | .fnPointer _ params (some ret) => paramTysBinders params ++ ret.binders
  | .inferred _ => []
  | .never _ => []

def QualifiedPath.binders : QualifiedPath → List Binder
  | ⟨_, qualifier, associated, rest⟩ =>
    qualifier.binders ++ (associated.binders ++ segmentsBinders rest)

def Qualifier.binders : Qualifier → List Binder
  | ⟨_, selfTy, none⟩ => selfTy.binders
  | ⟨_, selfTy, some asTrait⟩ => selfTy.binders ++ asTrait.binders

def TraitBound.binders : TraitBound → List Binder
  | ⟨_, path⟩ => path.binders

def Bound.binders : Bound → List Binder
  | .trait bound => bound.binders
  | .lifetime _ => []

def boundsBinders : List Bound → List Binder
  | [] => []
  | b :: bs => b.binders ++ boundsBinders bs

def paramTysBinders : List FnPointerParam → List Binder
  | [] => []
  | ⟨_, _, ty⟩ :: ps => ty.binders ++ paramTysBinders ps

/-- The binders in an expression: they are in its blocks. -/
def Expr.binders : Expr → List Binder
  | .literal _ _ => []
  | .path _ p => p.binders
  | .unary _ _ operand => operand.binders
  | .binary _ _ lhs rhs => lhs.binders ++ rhs.binders
  | .call _ callee args => callee.binders ++ exprsBinders args
  | .cast _ operand ty => operand.binders ++ ty.binders
  | .tuple _ elems => exprsBinders elems
  | .group _ inner => inner.binders
  | .block _ body => body.binders

def exprsBinders : List Expr → List Binder
  | [] => []
  | e :: es => e.binders ++ exprsBinders es

def Block.binders : Block → List Binder
  | ⟨_, stmts, none⟩ => stmtsBinders stmts
  | ⟨_, stmts, some tail⟩ => stmtsBinders stmts ++ tail.binders

def stmtsBinders : List Stmt → List Binder
  | [] => []
  | s :: rest => s.binders ++ stmtsBinders rest

/-- The binders in a statement. A `let` introduces its own names last. -/
def Stmt.binders : Stmt → List Binder
  | .bind _ pattern none none => pattern.binders
  | .bind _ pattern (some ty) none => ty.binders ++ pattern.binders
  | .bind _ pattern none (some init) => init.binders ++ pattern.binders
  | .bind _ pattern (some ty) (some init) => ty.binders ++ (init.binders ++ pattern.binders)
  | .expr _ value => value.binders
  | .empty _ => []

end

/-! ### Items -/

/-- The binders of a part that may be missing. -/
def optionalBinders (f : α → List Binder) : Option α → List Binder
  | none => []
  | some a => f a

/-- A generic parameter introduces its own name last, and a lifetime none. -/
def GenericParam.binders (p : GenericParam) : List Binder :=
  match p.kind with
  | .type bounds default =>
    optionalBinders Ty.binders default
      ++ (boundsBinders bounds ++ [⟨.typeParam, p.node.id, p.name.name⟩])
  | .const ty default =>
    ty.binders ++ (optionalBinders Expr.binders default
      ++ [⟨.constParam, p.node.id, p.name.name⟩])
  | .lifetime => []

def WherePredicate.binders (p : WherePredicate) : List Binder :=
  p.ty.binders ++ boundsBinders p.bounds

/-- The binders of generic parameters and of the conditions on them. -/
def Generics.binders (g : Generics) : List Binder :=
  g.params.flatMap GenericParam.binders
    ++ optionalBinders (fun w => w.predicates.flatMap WherePredicate.binders) g.whereClause

def ConstDecl.binders (c : ConstDecl) : List Binder :=
  c.ty.binders ++ optionalBinders Expr.binders c.init

def StaticDecl.binders (s : StaticDecl) : List Binder :=
  s.ty.binders ++ optionalBinders Expr.binders s.init

def AliasDecl.binders (a : AliasDecl) : List Binder := a.generics.binders ++ a.ty.binders

/-- The receiver of a method. -/
def SelfParam.binders (r : SelfParam) : List Binder := [⟨.receiver, r.node.id, "self"⟩]

def Param.binders (p : Param) : List Binder := p.ty.binders ++ p.pattern.binders

/-- The binders of a function. -/
def FunctionDecl.binders (f : FunctionDecl) : List Binder :=
  f.generics.binders ++ (optionalBinders SelfParam.binders f.receiver
    ++ (f.params.flatMap Param.binders ++ (optionalBinders Ty.binders f.ret
      ++ optionalBinders Block.binders f.body)))

def NamedField.binders (f : NamedField) : List Binder := f.ty.binders

def TupleField.binders (f : TupleField) : List Binder := f.ty.binders

/-- The binders of a variant. -/
def Variant.binders (v : Variant) : List Binder :=
  match v.kind with
  | .unit => []
  | .tuple fields => fields.flatMap TupleField.binders
  | .record fields => fields.flatMap NamedField.binders
  | .discriminant value => value.binders

/-- The binders of an implementation item. -/
def ImplItem.binders (i : ImplItem) : List Binder :=
  match i.kind with
  | .function f => f.binders
  | .const c => c.binders
  | .typeAlias a => a.binders

/-- The binders of a trait item. -/
def TraitItem.binders (i : TraitItem) : List Binder :=
  match i.kind with
  | .function f => f.binders
  | .const c => c.binders
  | .type t => boundsBinders t.bounds

/-- The binders of an extern item. -/
def ForeignItem.binders (i : ForeignItem) : List Binder :=
  match i.kind with
  | .function f => f.binders
  | .static _ _ ty => ty.binders

def RecordDecl.binders (r : RecordDecl) : List Binder :=
  r.generics.binders ++ r.fields.flatMap NamedField.binders

def TupleStructDecl.binders (s : TupleStructDecl) : List Binder :=
  s.generics.binders ++ s.fields.flatMap TupleField.binders

def EnumDecl.binders (e : EnumDecl) : List Binder :=
  e.generics.binders ++ e.variants.flatMap Variant.binders

def InherentImpl.binders (i : InherentImpl) : List Binder :=
  i.generics.binders ++ (i.selfTy.binders ++ i.items.flatMap ImplItem.binders)

def TraitImpl.binders (i : TraitImpl) : List Binder :=
  i.generics.binders
    ++ (i.traitPath.binders ++ (i.selfTy.binders ++ i.items.flatMap ImplItem.binders))

def TraitDecl.binders (t : TraitDecl) : List Binder :=
  t.generics.binders ++ (boundsBinders t.supertraits ++ t.items.flatMap TraitItem.binders)

mutual

/-- The binders of an item. -/
def Item.binders : Item → List Binder
  | ⟨_, _, kind⟩ => kind.binders

def ItemKind.binders : ItemKind → List Binder
  | .module _ items => itemsBinders items
  | .typeAlias a => a.binders
  | .struct s => s.binders
  | .tupleStruct s => s.binders
  | .enum e => e.binders
  | .union u => u.binders
  | .static s => s.binders
  | .const c => c.binders
  | .function f => f.binders
  | .inherentImpl i => i.binders
  | .traitImpl i => i.binders
  | .trait t => t.binders
  | .foreign b => b.items.flatMap ForeignItem.binders

def itemsBinders : List Item → List Binder
  | [] => []
  | item :: rest => item.binders ++ itemsBinders rest

end

mutual

/-- What comes of an item inside some modules. What comes of a module is what comes of the items in
it. -/
def Item.gathered (one : List NodeId → Item → List α) (modules : List NodeId) : Item → List α
  | ⟨node, _, .module _ items⟩ => itemsGathered one (node.id :: modules) items
  | item => one modules item

def itemsGathered (one : List NodeId → Item → List α) (modules : List NodeId) :
    List Item → List α
  | [] => []
  | item :: rest => item.gathered one modules ++ itemsGathered one modules rest

end

/-- Everything in a crate that introduces a local name, in the order of resolution. -/
def Crate.binders (c : Crate) : List Binder := itemsBinders c.items

end NameResolution
