import NameResolution.Tree.Item
import NameResolution.Tree.Text

/-!
# NameResolution.Tree.Outline

**A tree as a list of rows**, one per node, every node before its parts and the parts in
the order in which they are written. A row names the kind of node, its identity and
place where it has them, and a text that tells it apart at a glance: the written form of
a type or expression, the name and visibility of an item.
-/

namespace NameResolution

/-- One line of an outline. -/
structure OutlineRow where
  kind : String
  id : Option NodeId
  span : Option Span
  text : Option String
  deriving DecidableEq, Repr

namespace OutlineRow

/-- The row of a node with a text. -/
def titled (kind : String) (node : Node) (text : String) : OutlineRow :=
  ⟨kind, some node.id, some node.span, some text⟩

/-- The row of a node without a text. -/
def plain (kind : String) (node : Node) : OutlineRow :=
  ⟨kind, some node.id, some node.span, none⟩

/-- The row of a name, which has no identity. -/
def ofIdent (name : Ident) : OutlineRow :=
  ⟨"ident", none, some name.span, some name.name⟩

end OutlineRow

open OutlineRow (titled plain ofIdent)

/-- The word an outline uses for a visibility. -/
def Visibility.word : Visibility → String
  | ownModule => "Private"
  | everywhere => "Public"
  | ownCrate => "Crate"
  | parentModule => "Super"

/-- The word an outline uses for the kind of a path segment. -/
def PathIdent.word : PathIdent → String
  | ident _ => "ident"
  | crate => "crate"
  | super => "super"
  | selfModule => "self"
  | malformed => "error"

/-- The rows of a part that may be missing. -/
def optionalRows (f : α → List OutlineRow) : Option α → List OutlineRow
  | none => []
  | some a => f a

/-! ## Patterns, paths, types and expressions -/

mutual

/-- The rows of a pattern. -/
def Pattern.outline : Pattern → List OutlineRow
  | .binding n name mutable =>
    [titled "pat" n (Pattern.binding n name mutable).text, ofIdent name]
  | .tuple n elems => titled "pat" n (Pattern.tuple n elems).text :: patternsOutline elems
  | .wildcard n => [titled "pat" n (Pattern.wildcard n).text]

def patternsOutline : List Pattern → List OutlineRow
  | [] => []
  | p :: ps => p.outline ++ patternsOutline ps

end

mutual

/-- The rows of a path. -/
def Path.outline : Path → List OutlineRow
  | ⟨n, segments⟩ =>
    titled "path" n (if (Path.mk n segments).isSingle then "single" else "multi")
      :: segmentsOutline segments

def segmentsOutline : List PathSegment → List OutlineRow
  | [] => []
  | s :: rest => s.outline ++ segmentsOutline rest

/-- The rows of a segment; a plus sign marks one with generic arguments. -/
def PathSegment.outline : PathSegment → List OutlineRow
  | ⟨n, ident, none⟩ => [titled "seg" n (ident.word ++ " " ++ ident.text)]
  | ⟨n, ident, some args⟩ =>
    let mark := if (PathSegment.mk n ident (some args)).hasArgs then "+" else ""
    titled "seg" n (ident.word ++ " " ++ ident.text ++ mark) :: args.outline

/-- The rows of an argument list. -/
def GenericArgs.outline : GenericArgs → List OutlineRow
  | ⟨types, span⟩ => ⟨"args", none, some span, none⟩ :: tysOutline types

def tysOutline : List Ty → List OutlineRow
  | [] => []
  | t :: ts => t.outline ++ tysOutline ts

/-- The rows of a type. -/
def Ty.outline : Ty → List OutlineRow
  | .path n p => titled "ty.path" n (Ty.path n p).text :: p.outline
  | .qualified n p => titled "ty.qualified" n (Ty.qualified n p).text :: p.outline
  | .tuple n elems =>
    titled (if elems.isEmpty then "ty.unit" else "ty.tuple") n (Ty.tuple n elems).text
      :: tysOutline elems
  | .array n elem size =>
    titled "ty.array" n (Ty.array n elem size).text :: (elem.outline ++ size.outline)
  | .slice n elem => titled "ty.slice" n (Ty.slice n elem).text :: elem.outline
  | .reference n mutable inner =>
    titled "ty.ref" n (Ty.reference n mutable inner).text :: inner.outline
  | .pointer n mutable inner =>
    titled "ty.ptr" n (Ty.pointer n mutable inner).text :: inner.outline
  | .dynOne n bound => titled "ty.dyn1" n (Ty.dynOne n bound).text :: bound.outline
  | .dyn n bounds => titled "ty.dyn" n (Ty.dyn n bounds).text :: boundsOutline bounds
  | .fnPointer n params none =>
    titled "ty.fn" n (Ty.fnPointer n params none).text :: paramTysOutline params
  | .fnPointer n params (some ret) =>
    titled "ty.fn" n (Ty.fnPointer n params (some ret)).text
      :: (paramTysOutline params ++ ret.outline)
  | .inferred n => [titled "ty.inferred" n (Ty.inferred n).text]
  | .never n => [titled "ty.never" n (Ty.never n).text]

/-- The rows of a path that starts from a type; its segments follow its head. -/
def QualifiedPath.outline : QualifiedPath → List OutlineRow
  | ⟨n, qualifier, associated, rest⟩ =>
    plain "qpath" n :: (qualifier.outline ++ associated.outline ++ segmentsOutline rest)

/-- The rows of the head of a qualified path. -/
def Qualifier.outline : Qualifier → List OutlineRow
  | ⟨n, selfTy, none⟩ => titled "qtype" n "bare" :: selfTy.outline
  | ⟨n, selfTy, some asTrait⟩ => titled "qtype" n "as" :: (selfTy.outline ++ asTrait.outline)

/-- The rows of a trait bound. -/
def TraitBound.outline : TraitBound → List OutlineRow
  | ⟨n, path⟩ => plain "bound" n :: path.outline

/-- The rows of a bound; a lifetime is a bare name. -/
def Bound.outline : Bound → List OutlineRow
  | .trait bound => bound.outline
  | .lifetime name => [ofIdent name]

def boundsOutline : List Bound → List OutlineRow
  | [] => []
  | b :: bs => b.outline ++ boundsOutline bs

/-- The rows of the parameters of a function pointer, which have no place of their own. -/
def paramTysOutline : List FnPointerParam → List OutlineRow
  | [] => []
  | ⟨id, _, ty⟩ :: ps => ⟨"fnparam", some id, none, none⟩ :: (ty.outline ++ paramTysOutline ps)

/-- The rows of an expression. -/
def Expr.outline : Expr → List OutlineRow
  | .literal n value => [titled "ex.lit" n (Expr.literal n value).text]
  | .path n p => titled "ex.path" n (Expr.path n p).text :: p.outline
  | .unary n op operand => titled "ex.unary" n (Expr.unary n op operand).text :: operand.outline
  | .binary n op lhs rhs =>
    titled "ex.binary" n (Expr.binary n op lhs rhs).text :: (lhs.outline ++ rhs.outline)
  | .call n callee args =>
    titled "ex.call" n (Expr.call n callee args).text :: (callee.outline ++ exprsOutline args)
  | .cast n operand ty =>
    titled "ex.cast" n (Expr.cast n operand ty).text :: (operand.outline ++ ty.outline)
  | .tuple n elems => titled "ex.tuple" n (Expr.tuple n elems).text :: exprsOutline elems
  | .group n inner => titled "ex.group" n (Expr.group n inner).text :: inner.outline
  | .block n body => titled "ex.block" n (Expr.block n body).text :: body.outline

def exprsOutline : List Expr → List OutlineRow
  | [] => []
  | e :: es => e.outline ++ exprsOutline es

/-- The rows of a block. -/
def Block.outline : Block → List OutlineRow
  | ⟨n, stmts, none⟩ => plain "block" n :: stmtsOutline stmts
  | ⟨n, stmts, some tail⟩ => plain "block" n :: (stmtsOutline stmts ++ tail.outline)

def stmtsOutline : List Stmt → List OutlineRow
  | [] => []
  | s :: rest => s.outline ++ stmtsOutline rest

/-- The rows of a statement. -/
def Stmt.outline : Stmt → List OutlineRow
  | .bind n pattern none none => plain "let" n :: pattern.outline
  | .bind n pattern (some ty) none => plain "let" n :: (pattern.outline ++ ty.outline)
  | .bind n pattern none (some init) => plain "let" n :: (pattern.outline ++ init.outline)
  | .bind n pattern (some ty) (some init) =>
    plain "let" n :: (pattern.outline ++ ty.outline ++ init.outline)
  | .expr n value => plain "stmt" n :: value.outline
  | .empty n => [plain "empty" n]

end

/-! ## Generics and declarations -/

/-- The rows of a generic parameter. -/
def GenericParam.outline (p : GenericParam) : List OutlineRow :=
  match p.kind with
  | .type bounds default =>
    plain "gp.type" p.node :: ofIdent p.name
      :: (boundsOutline bounds ++ optionalRows Ty.outline default)
  | .const ty default =>
    plain "gp.const" p.node :: ofIdent p.name
      :: (ty.outline ++ optionalRows Expr.outline default)
  | .lifetime => [plain "gp.life" p.node, ofIdent p.name]

/-- The rows of a condition of a where clause. -/
def WherePredicate.outline (p : WherePredicate) : List OutlineRow :=
  plain "pred" p.node :: (p.ty.outline ++ boundsOutline p.bounds)

/-- The rows of a where clause, which has a place but no identity. -/
def WhereClause.outline (w : WhereClause) : List OutlineRow :=
  ⟨"where", none, some w.span, none⟩ :: w.predicates.flatMap WherePredicate.outline

/-- The rows of generic parameters and of the conditions on them. -/
def Generics.outline (g : Generics) : List OutlineRow :=
  g.params.flatMap GenericParam.outline ++ optionalRows WhereClause.outline g.whereClause

/-- The rows of a field with a name. -/
def NamedField.outline (f : NamedField) : List OutlineRow :=
  titled "field" f.node f.vis.word :: ofIdent f.name :: f.ty.outline

/-- The rows of a field without a name. -/
def TupleField.outline (f : TupleField) : List OutlineRow :=
  titled "tfield" f.node f.vis.word :: f.ty.outline

/-- The rows of a variant. -/
def Variant.outline (v : Variant) : List OutlineRow :=
  plain "variant" v.node :: ofIdent v.name :: match v.kind with
    | .unit => []
    | .tuple fields => fields.flatMap TupleField.outline
    | .record fields => fields.flatMap NamedField.outline
    | .discriminant value => value.outline

/-- The receiver as written. -/
def SelfParam.text (r : SelfParam) : String :=
  (if r.byRef then "&" else "") ++ (if r.mutable then "mut " else "") ++ "self"

/-- The rows of a function parameter, pattern before type. -/
def Param.outline (p : Param) : List OutlineRow :=
  plain "param" p.node :: (p.pattern.outline ++ p.ty.outline)

/-- The rows of a function. -/
def FunctionDecl.outline (f : FunctionDecl) : List OutlineRow :=
  ofIdent f.name :: (f.generics.outline
    ++ optionalRows (fun r => [titled "selfparam" r.node r.text]) f.receiver
    ++ f.params.flatMap Param.outline ++ optionalRows Ty.outline f.ret
    ++ optionalRows Block.outline f.body)

/-- The rows of a constant. -/
def ConstDecl.outline (c : ConstDecl) : List OutlineRow :=
  ofIdent c.name :: (c.ty.outline ++ optionalRows Expr.outline c.init)

/-- The rows of a type alias. -/
def AliasDecl.outline (a : AliasDecl) : List OutlineRow :=
  ofIdent a.name :: (a.generics.outline ++ a.ty.outline)

/-- The rows of an implementation item. -/
def ImplItem.outline (i : ImplItem) : List OutlineRow :=
  titled "iitem" i.node i.vis.word :: match i.kind with
    | .function f => f.outline
    | .const c => c.outline
    | .typeAlias a => a.outline

/-- The rows of a trait item. -/
def TraitItem.outline (i : TraitItem) : List OutlineRow :=
  plain "titem" i.node :: match i.kind with
    | .function f => f.outline
    | .const c => c.outline
    | .type t => ofIdent t.name :: boundsOutline t.bounds

/-- The rows of an extern item. -/
def ForeignItem.outline (i : ForeignItem) : List OutlineRow :=
  titled "xitem" i.node i.vis.word :: match i.kind with
    | .function f => f.outline
    | .static name _ ty => ofIdent name :: ty.outline

/-! ## Items -/

/-- The word an outline uses for the kind of an item. -/
def ItemKind.word : ItemKind → String
  | .module _ _ => "mod"
  | .typeAlias _ => "alias"
  | .struct _ => "struct"
  | .tupleStruct _ => "tstruct"
  | .enum _ => "enum"
  | .union _ => "union"
  | .static _ => "static"
  | .const _ => "const"
  | .function _ => "fn"
  | .inherentImpl _ => "impl"
  | .traitImpl _ => "timpl"
  | .trait _ => "trait"
  | .foreign _ => "extern"

/-- The visibility and name of an item, and whether it takes and has generic parameters. -/
def Item.title (item : Item) : String :=
  let name := match item.name? with
    | none => "-"
    | some name => name.name
  let generics := match item.generics? with
    | none => "none"
    | some g => if g.isEmpty then "empty" else "generic"
  item.vis.word ++ " " ++ name ++ " " ++ generics

mutual

/-- The rows of an item. -/
def Item.outline : Item → List OutlineRow
  | ⟨n, vis, kind⟩ => titled kind.word n (Item.mk n vis kind).title :: kind.outline

/-- The rows of the parts of an item. -/
def ItemKind.outline : ItemKind → List OutlineRow
  | .module name items => ofIdent name :: itemsOutline items
  | .typeAlias a => a.outline
  | .struct s | .union s =>
    ofIdent s.name :: (s.generics.outline ++ s.fields.flatMap NamedField.outline)
  | .tupleStruct s =>
    ofIdent s.name :: (s.generics.outline ++ s.fields.flatMap TupleField.outline)
  | .enum e => ofIdent e.name :: (e.generics.outline ++ e.variants.flatMap Variant.outline)
  | .static s => ofIdent s.name :: (s.ty.outline ++ optionalRows Expr.outline s.init)
  | .const c => c.outline
  | .function f => f.outline
  | .inherentImpl i => i.generics.outline ++ i.selfTy.outline ++ i.items.flatMap ImplItem.outline
  | .traitImpl i =>
    i.generics.outline ++ i.traitPath.outline ++ i.selfTy.outline
      ++ i.items.flatMap ImplItem.outline
  | .trait t =>
    ofIdent t.name :: (t.generics.outline ++ boundsOutline t.supertraits
      ++ t.items.flatMap TraitItem.outline)
  | .foreign b => ⟨"abi", none, none, b.abi⟩ :: b.items.flatMap ForeignItem.outline

def itemsOutline : List Item → List OutlineRow
  | [] => []
  | i :: rest => i.outline ++ itemsOutline rest

end

/-- The rows of a whole crate; its text is the bound of its identities. -/
def Crate.outline (c : Crate) : List OutlineRow :=
  titled "crate" c.node c.idBound.text :: itemsOutline c.items

end NameResolution
