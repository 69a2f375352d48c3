import NameResolution.Tree.Item

/-!
# NameResolution.Tree.NodeIds

**The identities that a tree carries.** `Crate.nodeIds` lists the identity of every node,
the crate root first and every node before its parts. A crate is **well formed**
(`Crate.WellFormed`) when no identity occurs twice and each lies below the bound from
which the identities of the built-in types are taken; trees made with
`NameResolution.Tree.Builder` are.
-/

namespace NameResolution

mutual

/-- The identities of a pattern and its parts. -/
def Pattern.nodeIds : Pattern → List NodeId
  | .binding n _ _ => [n.id]
  | .tuple n elems => n.id :: patternsNodeIds elems
  | .wildcard n => [n.id]

def patternsNodeIds : List Pattern → List NodeId
  | [] => []
  | p :: ps => p.nodeIds ++ patternsNodeIds ps

end

mutual

/-- The identities of a path, its segments and their arguments. -/
def Path.nodeIds : Path → List NodeId
  | ⟨n, segments⟩ => n.id :: segmentsNodeIds segments

def segmentsNodeIds : List PathSegment → List NodeId
  | [] => []
  | s :: rest => s.nodeIds ++ segmentsNodeIds rest

/-- The identities of a segment and its arguments. -/
def PathSegment.nodeIds : PathSegment → List NodeId
  | ⟨n, _, none⟩ => [n.id]
  | ⟨n, _, some args⟩ => n.id :: args.nodeIds

/-- The identities of the arguments; the list itself has none. -/
def GenericArgs.nodeIds : GenericArgs → List NodeId
  | ⟨types, _⟩ => tysNodeIds types

def tysNodeIds : List Ty → List NodeId
  | [] => []
  | t :: ts => t.nodeIds ++ tysNodeIds ts

/-- The identities of a type and its parts. -/
def Ty.nodeIds : Ty → List NodeId
  | .path n p => n.id :: p.nodeIds
  | .qualified n p => n.id :: p.nodeIds
  | .tuple n elems => n.id :: tysNodeIds elems
  | .array n elem size => n.id :: (elem.nodeIds ++ size.nodeIds)
  | .slice n elem => n.id :: elem.nodeIds
  | .reference n _ inner => n.id :: inner.nodeIds
  | .pointer n _ inner => n.id :: inner.nodeIds
  | .dynOne n bound => n.id :: bound.nodeIds
  | .dyn n bounds => n.id :: boundsNodeIds bounds
  | .fnPointer n params none => n.id :: paramTysNodeIds params
  | .fnPointer n params (some ret) => n.id :: (paramTysNodeIds params ++ ret.nodeIds)
  | .inferred n => [n.id]
  | .never n => [n.id]

/-- The identities of a path that starts from a type. -/
def QualifiedPath.nodeIds : QualifiedPath → List NodeId
  | ⟨n, qualifier, associated, rest⟩ =>
    n.id :: (qualifier.nodeIds ++ associated.nodeIds ++ segmentsNodeIds rest)

/-- The identities of the head of a qualified path. -/
def Qualifier.nodeIds : Qualifier → List NodeId
  | ⟨n, selfTy, none⟩ => n.id :: selfTy.nodeIds
  | ⟨n, selfTy, some asTrait⟩ => n.id :: (selfTy.nodeIds ++ asTrait.nodeIds)

/-- The identities of a trait bound. -/
def TraitBound.nodeIds : TraitBound → List NodeId
  | ⟨n, path⟩ => n.id :: path.nodeIds

/-- The identities of a bound; a lifetime has none. -/
def Bound.nodeIds : Bound → List NodeId
  | .trait bound => bound.nodeIds
  | .lifetime _ => []

def boundsNodeIds : List Bound → List NodeId
  | [] => []
  | b :: bs => b.nodeIds ++ boundsNodeIds bs

/-- The identities of the parameters of a function pointer. -/
def paramTysNodeIds : List FnPointerParam → List NodeId
  | [] => []
  | ⟨id, _, ty⟩ :: ps => id :: (ty.nodeIds ++ paramTysNodeIds ps)

/-- The identities of an expression and its parts. -/
def Expr.nodeIds : Expr → List NodeId
  | .literal n _ => [n.id]
  | .path n p => n.id :: p.nodeIds
  | .unary n _ operand => n.id :: operand.nodeIds
  | .binary n _ lhs rhs => n.id :: (lhs.nodeIds ++ rhs.nodeIds)
  | .call n callee args => n.id :: (callee.nodeIds ++ exprsNodeIds args)
  | .cast n operand ty => n.id :: (operand.nodeIds ++ ty.nodeIds)
  | .tuple n elems => n.id :: exprsNodeIds elems
  | .group n inner => n.id :: inner.nodeIds
  | .block n body => n.id :: body.nodeIds

def exprsNodeIds : List Expr → List NodeId
  | [] => []
  | e :: es => e.nodeIds ++ exprsNodeIds es

/-- The identities of a block and its parts. -/
def Block.nodeIds : Block → List NodeId
  | ⟨n, stmts, none⟩ => n.id :: stmtsNodeIds stmts
  | ⟨n, stmts, some tail⟩ => n.id :: (stmtsNodeIds stmts ++ tail.nodeIds)

def stmtsNodeIds : List Stmt → List NodeId
  | [] => []
  | s :: rest => s.nodeIds ++ stmtsNodeIds rest

/-- The identities of a statement and its parts. -/
def Stmt.nodeIds : Stmt → List NodeId
  | .bind n pattern none none => n.id :: pattern.nodeIds
  | .bind n pattern (some ty) none => n.id :: (pattern.nodeIds ++ ty.nodeIds)
  | .bind n pattern none (some init) => n.id :: (pattern.nodeIds ++ init.nodeIds)
  | .bind n pattern (some ty) (some init) =>
    n.id :: (pattern.nodeIds ++ ty.nodeIds ++ init.nodeIds)
  | .expr n value => n.id :: value.nodeIds
  | .empty n => [n.id]

end

/-- The identities of a part that may be missing. -/
def optionalIds (f : α → List NodeId) : Option α → List NodeId
  | none => []
  | some a => f a

/-- The identities of a generic parameter and its parts. -/
def GenericParam.nodeIds (p : GenericParam) : List NodeId :=
  p.node.id :: match p.kind with
    | .type bounds default => boundsNodeIds bounds ++ optionalIds Ty.nodeIds default
    | .const ty default => ty.nodeIds ++ optionalIds Expr.nodeIds default
    | .lifetime => []

/-- The identities of a condition of a where clause. -/
def WherePredicate.nodeIds (p : WherePredicate) : List NodeId :=
  p.node.id :: (p.ty.nodeIds ++ boundsNodeIds p.bounds)

/-- The identities of generic parameters and of the conditions on them. -/
def Generics.nodeIds (g : Generics) : List NodeId :=
  g.params.flatMap GenericParam.nodeIds
    ++ optionalIds (fun w => w.predicates.flatMap WherePredicate.nodeIds) g.whereClause

/-- The identities of a field with a name. -/
def NamedField.nodeIds (f : NamedField) : List NodeId := f.node.id :: f.ty.nodeIds

/-- The identities of a field without a name. -/
def TupleField.nodeIds (f : TupleField) : List NodeId := f.node.id :: f.ty.nodeIds

/-- The identities of a variant and its parts. -/
def Variant.nodeIds (v : Variant) : List NodeId :=
  v.node.id :: match v.kind with
    | .unit => []
    | .tuple fields => fields.flatMap TupleField.nodeIds
    | .record fields => fields.flatMap NamedField.nodeIds
    | .discriminant value => value.nodeIds

/-- The identities of a function parameter. -/
def Param.nodeIds (p : Param) : List NodeId :=
  p.node.id :: (p.pattern.nodeIds ++ p.ty.nodeIds)

/-- The identities of the parts of a function; its own is that of the item it belongs to. -/
def FunctionDecl.nodeIds (f : FunctionDecl) : List NodeId :=
  f.generics.nodeIds ++ optionalIds (fun r => [r.node.id]) f.receiver
    ++ f.params.flatMap Param.nodeIds ++ optionalIds Ty.nodeIds f.ret
    ++ optionalIds Block.nodeIds f.body

/-- The identities of the parts of a constant. -/
def ConstDecl.nodeIds (c : ConstDecl) : List NodeId :=
  c.ty.nodeIds ++ optionalIds Expr.nodeIds c.init

/-- The identities of the parts of a type alias. -/
def AliasDecl.nodeIds (a : AliasDecl) : List NodeId := a.generics.nodeIds ++ a.ty.nodeIds

/-- The identities of an implementation item and its parts. -/
def ImplItem.nodeIds (i : ImplItem) : List NodeId :=
  i.node.id :: match i.kind with
    | .function f => f.nodeIds
    | .const c => c.nodeIds
    | .typeAlias a => a.nodeIds

/-- The identities of a trait item and its parts. -/
def TraitItem.nodeIds (i : TraitItem) : List NodeId :=
  i.node.id :: match i.kind with
    | .function f => f.nodeIds
    | .const c => c.nodeIds
    | .type t => boundsNodeIds t.bounds

/-- The identities of an extern item and its parts. -/
def ForeignItem.nodeIds (i : ForeignItem) : List NodeId :=
  i.node.id :: match i.kind with
    | .function f => f.nodeIds
    | .static _ _ ty => ty.nodeIds

mutual

/-- The identities of an item and its parts. -/
def Item.nodeIds : Item → List NodeId
  | ⟨n, _, kind⟩ => n.id :: kind.nodeIds

/-- The identities of the parts of an item. -/
def ItemKind.nodeIds : ItemKind → List NodeId
  | .module _ items => itemsNodeIds items
  | .typeAlias a => a.nodeIds
  | .struct s => s.generics.nodeIds ++ s.fields.flatMap NamedField.nodeIds
  | .tupleStruct s => s.generics.nodeIds ++ s.fields.flatMap TupleField.nodeIds
  | .enum e => e.generics.nodeIds ++ e.variants.flatMap Variant.nodeIds
  | .union u => u.generics.nodeIds ++ u.fields.flatMap NamedField.nodeIds
  | .static s => s.ty.nodeIds ++ optionalIds Expr.nodeIds s.init
  | .const c => c.nodeIds
  | .function f => f.nodeIds
  | .inherentImpl i => i.generics.nodeIds ++ i.selfTy.nodeIds ++ i.items.flatMap ImplItem.nodeIds
  | .traitImpl i =>
    i.generics.nodeIds ++ i.traitPath.nodeIds ++ i.selfTy.nodeIds
      ++ i.items.flatMap ImplItem.nodeIds
  | .trait t =>
    t.generics.nodeIds ++ boundsNodeIds t.supertraits ++ t.items.flatMap TraitItem.nodeIds
  | .foreign b => b.items.flatMap ForeignItem.nodeIds

def itemsNodeIds : List Item → List NodeId
  | [] => []
  | i :: rest => i.nodeIds ++ itemsNodeIds rest

end

/-- The identities of all nodes of a crate, the crate root first. -/
def Crate.nodeIds (c : Crate) : List NodeId := c.node.id :: itemsNodeIds c.items

/-- No identity occurs twice, and every one lies below the bound of the crate. -/
def Crate.WellFormed (c : Crate) : Prop :=
  c.nodeIds.Nodup ∧ ∀ id ∈ c.nodeIds, id.value < c.idBound.value

instance (c : Crate) : Decidable c.WellFormed :=
  inferInstanceAs (Decidable (_ ∧ _))

end NameResolution
