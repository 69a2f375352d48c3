import NameResolution.Tree.Item

/-!
# NameResolution.Tree.Spans

**The places that a tree carries.** `Crate.spans` lists the place of every node, of every name, of
every argument list and of every where clause, the crate root first and every node before its parts.
The parameters of a function pointer have an identity but only their names have places.
-/

namespace NameResolution

mutual

/-- The places of a pattern and its parts. -/
def Pattern.spans : Pattern → List Span
  | .binding n name _ => [n.span, name.span]
  | .tuple n elems => n.span :: patternsSpans elems
  | .wildcard n => [n.span]

def patternsSpans : List Pattern → List Span
  | [] => []
  | p :: ps => p.spans ++ patternsSpans ps

end

mutual

/-- The places of a path, its segments and their arguments. -/
def Path.spans : Path → List Span
  | ⟨n, segments⟩ => n.span :: segmentsSpans segments

def segmentsSpans : List PathSegment → List Span
  | [] => []
  | s :: rest => s.spans ++ segmentsSpans rest

/-- The places of a segment and its arguments. -/
def PathSegment.spans : PathSegment → List Span
  | ⟨n, _, none⟩ => [n.span]
  | ⟨n, _, some args⟩ => n.span :: args.spans

/-- The places of an argument list and of the arguments. -/
def GenericArgs.spans : GenericArgs → List Span
  | ⟨types, span⟩ => span :: tysSpans types

def tysSpans : List Ty → List Span
  | [] => []
  | t :: ts => t.spans ++ tysSpans ts

/-- The places of a type and its parts. -/
def Ty.spans : Ty → List Span
  | .path n p => n.span :: p.spans
  | .qualified n p => n.span :: p.spans
  | .tuple n elems => n.span :: tysSpans elems
  | .array n elem size => n.span :: (elem.spans ++ size.spans)
  | .slice n elem => n.span :: elem.spans
  | .reference n _ inner => n.span :: inner.spans
  | .pointer n _ inner => n.span :: inner.spans
  | .dynOne n bound => n.span :: bound.spans
  | .dyn n bounds => n.span :: boundsSpans bounds
  | .fnPointer n params none => n.span :: paramTysSpans params
  | .fnPointer n params (some ret) => n.span :: (paramTysSpans params ++ ret.spans)
  | .inferred n => [n.span]
  | .never n => [n.span]

/-- The places of a path that starts from a type. -/
def QualifiedPath.spans : QualifiedPath → List Span
  | ⟨n, qualifier, associated, rest⟩ =>
    n.span :: (qualifier.spans ++ associated.spans ++ segmentsSpans rest)

/-- The places of the head of a qualified path. -/
def Qualifier.spans : Qualifier → List Span
  | ⟨n, selfTy, none⟩ => n.span :: selfTy.spans
  | ⟨n, selfTy, some asTrait⟩ => n.span :: (selfTy.spans ++ asTrait.spans)

/-- The places of a trait bound. -/
def TraitBound.spans : TraitBound → List Span
  | ⟨n, path⟩ => n.span :: path.spans

/-- The places of a bound. -/
def Bound.spans : Bound → List Span
  | .trait bound => bound.spans
  | .lifetime name => [name.span]

def boundsSpans : List Bound → List Span
  | [] => []
  | b :: bs => b.spans ++ boundsSpans bs

/-- The places of the parameters of a function pointer, which have none of their own. -/
def paramTysSpans : List FnPointerParam → List Span
  | [] => []
  | ⟨_, none, ty⟩ :: ps => ty.spans ++ paramTysSpans ps
  | ⟨_, some name, ty⟩ :: ps => name.span :: (ty.spans ++ paramTysSpans ps)

/-- The places of an expression and its parts. -/
def Expr.spans : Expr → List Span
  | .literal n _ => [n.span]
  | .path n p => n.span :: p.spans
  | .unary n _ operand => n.span :: operand.spans
  | .binary n _ lhs rhs => n.span :: (lhs.spans ++ rhs.spans)
  | .call n callee args => n.span :: (callee.spans ++ exprsSpans args)
  | .cast n operand ty => n.span :: (operand.spans ++ ty.spans)
  | .tuple n elems => n.span :: exprsSpans elems
  | .group n inner => n.span :: inner.spans
  | .block n body => n.span :: body.spans

def exprsSpans : List Expr → List Span
  | [] => []
  | e :: es => e.spans ++ exprsSpans es

/-- The places of a block and its parts. -/
def Block.spans : Block → List Span
  | ⟨n, stmts, none⟩ => n.span :: stmtsSpans stmts
  | ⟨n, stmts, some tail⟩ => n.span :: (stmtsSpans stmts ++ tail.spans)

def stmtsSpans : List Stmt → List Span
  | [] => []
  | s :: rest => s.spans ++ stmtsSpans rest

/-- The places of a statement and its parts. -/
def Stmt.spans : Stmt → List Span
  | .bind n pattern none none => n.span :: pattern.spans
  | .bind n pattern (some ty) none => n.span :: (pattern.spans ++ ty.spans)
  | .bind n pattern none (some init) => n.span :: (pattern.spans ++ init.spans)
  | .bind n pattern (some ty) (some init) => n.span :: (pattern.spans ++ ty.spans ++ init.spans)
  | .expr n value => n.span :: value.spans
  | .empty n => [n.span]

end

/-- The places of a part that may be missing. -/
def optionalSpans (f : α → List Span) : Option α → List Span
  | none => []
  | some a => f a

/-- The places of what a generic parameter is given. -/
def GenericParamKind.spans : GenericParamKind → List Span
  | .type bounds default => boundsSpans bounds ++ optionalSpans Ty.spans default
  | .const ty default => ty.spans ++ optionalSpans Expr.spans default
  | .lifetime => []

/-- The places of a generic parameter and its parts. -/
def GenericParam.spans (p : GenericParam) : List Span :=
  p.node.span :: p.name.span :: p.kind.spans

/-- The places of a condition of a where clause. -/
def WherePredicate.spans (p : WherePredicate) : List Span :=
  p.node.span :: (p.ty.spans ++ boundsSpans p.bounds)

/-- The places of a where clause and its conditions. -/
def WhereClause.spans (w : WhereClause) : List Span :=
  w.span :: w.predicates.flatMap WherePredicate.spans

/-- The places of generic parameters and of the conditions on them. -/
def Generics.spans (g : Generics) : List Span :=
  g.params.flatMap GenericParam.spans ++ optionalSpans WhereClause.spans g.whereClause

/-- The places of a field with a name. -/
def NamedField.spans (f : NamedField) : List Span := f.node.span :: f.name.span :: f.ty.spans

/-- The places of a field without a name. -/
def TupleField.spans (f : TupleField) : List Span := f.node.span :: f.ty.spans

/-- The places of the parts of a variant. -/
def VariantKind.spans : VariantKind → List Span
  | .unit => []
  | .tuple fields => fields.flatMap TupleField.spans
  | .record fields => fields.flatMap NamedField.spans
  | .discriminant value => value.spans

/-- The places of a variant and its parts. -/
def Variant.spans (v : Variant) : List Span := v.node.span :: v.name.span :: v.kind.spans

/-- The places of a function parameter. -/
def Param.spans (p : Param) : List Span := p.node.span :: (p.pattern.spans ++ p.ty.spans)

/-- The places of the name and the parts of a function. -/
def FunctionDecl.spans (f : FunctionDecl) : List Span :=
  f.name.span :: (f.generics.spans ++ optionalSpans (fun r => [r.node.span]) f.receiver
    ++ f.params.flatMap Param.spans ++ optionalSpans Ty.spans f.ret
    ++ optionalSpans Block.spans f.body)

/-- The places of the name and the parts of a constant. -/
def ConstDecl.spans (c : ConstDecl) : List Span :=
  c.name.span :: (c.ty.spans ++ optionalSpans Expr.spans c.init)

/-- The places of the name and the parts of a type alias. -/
def AliasDecl.spans (a : AliasDecl) : List Span :=
  a.name.span :: (a.generics.spans ++ a.ty.spans)

/-- The places of the parts of an implementation item. -/
def ImplItemKind.spans : ImplItemKind → List Span
  | .function f => f.spans
  | .const c => c.spans
  | .typeAlias a => a.spans

/-- The places of an implementation item and its parts. -/
def ImplItem.spans (i : ImplItem) : List Span := i.node.span :: i.kind.spans

/-- The places of the parts of a trait item. -/
def TraitItemKind.spans : TraitItemKind → List Span
  | .function f => f.spans
  | .const c => c.spans
  | .type t => t.name.span :: boundsSpans t.bounds

/-- The places of a trait item and its parts. -/
def TraitItem.spans (i : TraitItem) : List Span := i.node.span :: i.kind.spans

/-- The places of the parts of an extern item. -/
def ForeignItemKind.spans : ForeignItemKind → List Span
  | .function f => f.spans
  | .static name _ ty => name.span :: ty.spans

/-- The places of an extern item and its parts. -/
def ForeignItem.spans (i : ForeignItem) : List Span := i.node.span :: i.kind.spans

mutual

/-- The places of an item and its parts. -/
def Item.spans : Item → List Span
  | ⟨n, _, kind⟩ => n.span :: kind.spans

/-- The places of the name and the parts of an item. -/
def ItemKind.spans : ItemKind → List Span
  | .module name items => name.span :: itemsSpans items
  | .typeAlias a => a.spans
  | .struct s => s.name.span :: (s.generics.spans ++ s.fields.flatMap NamedField.spans)
  | .tupleStruct s => s.name.span :: (s.generics.spans ++ s.fields.flatMap TupleField.spans)
  | .enum e => e.name.span :: (e.generics.spans ++ e.variants.flatMap Variant.spans)
  | .union u => u.name.span :: (u.generics.spans ++ u.fields.flatMap NamedField.spans)
  | .static s => s.name.span :: (s.ty.spans ++ optionalSpans Expr.spans s.init)
  | .const c => c.spans
  | .function f => f.spans
  | .inherentImpl i => i.generics.spans ++ i.selfTy.spans ++ i.items.flatMap ImplItem.spans
  | .traitImpl i =>
    i.generics.spans ++ i.traitPath.spans ++ i.selfTy.spans ++ i.items.flatMap ImplItem.spans
  | .trait t =>
    t.name.span :: (t.generics.spans ++ boundsSpans t.supertraits
      ++ t.items.flatMap TraitItem.spans)
  | .foreign b => b.items.flatMap ForeignItem.spans

def itemsSpans : List Item → List Span
  | [] => []
  | i :: rest => i.spans ++ itemsSpans rest

end

/-- The places of a crate, that of the crate root first. -/
def Crate.spans (c : Crate) : List Span := c.node.span :: itemsSpans c.items

end NameResolution
