import NameResolution.Proofs.Binders
import NameResolution.Resolve.Item

/-!
# NameResolution.Proofs.LocalFrames

**The frames of local names, read off the tree.** An item that can have generic parameters,
a function, an implementation and a trait each open a frame. `Crate.frames` lists these
with all that is introduced in them, in order (`LocalFrame`): the generic parameters, then
`Self`, then the receiver and the names of the parameters. What is introduced first under a
name is what the name stands for, and every later introduction is reported
(`LocalFrame.reports`).

A block opens a frame as well (`Crate.blocks`), in which the latest name counts and none is
reported.
-/

namespace NameResolution

/-! ### Introductions -/

/-- An attempt to introduce a name in a frame. -/
inductive Introduction
  /-- A node introduces a name for itself. -/
  | own (b : Binder) (locus : Span)
  /-- `Self` is introduced for a declaration. -/
  | selfName (owner decl : NodeId) (locus : Span)
  deriving DecidableEq, Repr

namespace Introduction

def space : Introduction → Namespace
  | own b _ => b.space
  | selfName _ _ _ => .type

def name : Introduction → String
  | own b _ => b.name
  | selfName _ _ _ => "Self"

/-- The binding that is made unless the name is refused. -/
def binding : Introduction → Binding
  | own b locus => ⟨b.path, b.id, locus⟩
  | selfName owner decl locus => ⟨.single owner "Self", decl, locus⟩

/-- What is reported of a name that an earlier binding has. -/
def redefinition : Introduction → Binding → ResolveError
  | own b locus, earlier =>
    match b.kind with
    | .typeParam | .constParam => GenericParam.redefinition ⟨b.path, b.id, locus⟩ earlier
    | .receiver | .pattern => Resolution.redefinition ⟨b.path, b.id, locus⟩ earlier
  | selfName owner decl locus, earlier =>
    Resolution.redefinition ⟨.single owner "Self", decl, locus⟩ earlier

/-- Whether it is a given name of a namespace that is introduced. -/
def names (i : Introduction) (space : Namespace) (name : String) : Bool :=
  decide (i.space = space ∧ i.name = name)

/-- Each introduction with the first one of the same name before it, if there is one. -/
def withEarlier (before : List Introduction) :
    List Introduction → List (Introduction × Option Introduction)
  | [] => []
  | i :: rest => (i, before.find? (·.names i.space i.name)) :: withEarlier (before ++ [i]) rest

end Introduction

/-- What is introduced in one frame, in order. -/
structure LocalFrame where
  owner : NodeId
  introductions : List Introduction
  deriving DecidableEq, Repr

namespace LocalFrame

/-- What is introduced first under a name. -/
def first? (f : LocalFrame) (space : Namespace) (name : String) : Option Introduction :=
  f.introductions.find? (·.names space name)

/-- Each introduction with the first one of the same name before it, if there is one. -/
def outcomes (f : LocalFrame) : List (Introduction × Option Introduction) :=
  Introduction.withEarlier [] f.introductions

/-- One report for each name that has been introduced before. -/
def reports (f : LocalFrame) : List ResolveError :=
  f.outcomes.filterMap fun (i, earlier) => earlier.map fun first => i.redefinition first.binding

end LocalFrame

/-! ### What is introduced -/

mutual

/-- The names in a pattern, from left to right. -/
def Pattern.introductions : Pattern → List Introduction
  | .binding node name _ => [.own ⟨.pattern, node.id, name.name⟩ name.span]
  | .tuple _ elems => patternsIntroductions elems
  | .wildcard _ => []

def patternsIntroductions : List Pattern → List Introduction
  | [] => []
  | p :: ps => p.introductions ++ patternsIntroductions ps

end

/-- The names that a statement introduces in its block. -/
def Stmt.introductions : Stmt → List Introduction
  | .bind _ pattern _ _ => pattern.introductions
  | .expr _ _ | .empty _ => []

def Block.introductions (b : Block) : List Introduction := b.stmts.flatMap Stmt.introductions

/-- What is introduced last under a name. -/
def Block.latest? (b : Block) (space : Namespace) (name : String) : Option Introduction :=
  b.introductions.reverse.find? (·.names space name)

/-- A lifetime introduces no name. -/
def GenericParam.introductions (p : GenericParam) : List Introduction :=
  match p.kind with
  | .type _ _ => [.own ⟨.typeParam, p.node.id, p.name.name⟩ p.name.span]
  | .const _ _ => [.own ⟨.constParam, p.node.id, p.name.name⟩ p.name.span]
  | .lifetime => []

def Generics.introductions (g : Generics) : List Introduction :=
  g.params.flatMap GenericParam.introductions

def SelfParam.introduction (r : SelfParam) : Introduction :=
  .own ⟨.receiver, r.node.id, "self"⟩ r.node.span

/-- The names that a function introduces around its body. -/
def FunctionDecl.introductions (f : FunctionDecl) : List Introduction :=
  f.generics.introductions ++ (f.receiver.toList.map SelfParam.introduction
    ++ f.params.flatMap fun p => p.pattern.introductions)

/-- `Self` is introduced if there is a declaration that it can stand for. -/
def selfIntroductions (owner : NodeId) (target : Option NodeId) (locus : Span) :
    List Introduction :=
  target.toList.map fun decl => .selfName owner decl locus

/-! ### Frames of items -/

/-- The declaration that a type has been resolved to, if it names just one. -/
def Ty.named? (t : Tables) : Ty → Option NodeId
  | .path _ p => t.resolved? p.node.id
  | .dynOne _ bound => t.resolved? bound.path.node.id
  | .tuple n [] | .inferred n | .never n => t.resolved? n.id
  | .array _ elem _ => elem.named? t
  | .slice _ elem => elem.named? t
  | .reference _ _ inner => inner.named? t
  | .pointer _ _ inner => inner.named? t
  | .qualified _ _ | .tuple _ (_ :: _) | .dyn _ _ | .fnPointer _ _ _ => none

def ImplItem.frames (i : ImplItem) : List LocalFrame :=
  match i.kind with
  | .function f => [⟨i.node.id, f.introductions⟩]
  | .const _ => []
  | .typeAlias a => [⟨i.node.id, a.generics.introductions⟩]

def TraitItem.frames (i : TraitItem) : List LocalFrame :=
  match i.kind with
  | .function f => [⟨i.node.id, f.introductions⟩]
  | .const _ | .type _ => []

def ForeignItem.frames (i : ForeignItem) : List LocalFrame :=
  match i.kind with
  | .function f => [⟨i.node.id, f.introductions⟩]
  | .static _ _ _ => []

mutual

/-- The frame of an item, if it opens one, and those of the items and members inside it. -/
def Item.frames (t : Tables) : Item → List LocalFrame
  | ⟨node, _, kind⟩ => kind.frames t node

/-- The frames of an item of a kind. In an implementation `Self` stands for what its type has been
resolved to, and in a trait for the trait. -/
def ItemKind.frames (t : Tables) (node : Node) : ItemKind → List LocalFrame
  | .module _ items => itemsFrames t items
  | .typeAlias a => [⟨node.id, a.generics.introductions⟩]
  | .struct r => [⟨node.id, r.generics.introductions⟩]
  | .tupleStruct s => [⟨node.id, s.generics.introductions⟩]
  | .enum e => [⟨node.id, e.generics.introductions⟩]
  | .union r => [⟨node.id, r.generics.introductions⟩]
  | .static _ => []
  | .const _ => []
  | .function f => [⟨node.id, f.introductions⟩]
  | .inherentImpl i =>
    ⟨node.id, i.generics.introductions
      ++ selfIntroductions node.id (i.selfTy.named? t) i.selfTy.node.span⟩
      :: i.items.flatMap ImplItem.frames
  | .traitImpl i =>
    ⟨node.id, i.generics.introductions
      ++ selfIntroductions node.id (i.selfTy.named? t) i.selfTy.node.span⟩
      :: i.items.flatMap ImplItem.frames
  | .trait d =>
    ⟨node.id, d.generics.introductions ++ selfIntroductions node.id (some node.id) node.span⟩
      :: d.items.flatMap TraitItem.frames
  | .foreign b => b.items.flatMap ForeignItem.frames

def itemsFrames (t : Tables) : List Item → List LocalFrame
  | [] => []
  | item :: rest => item.frames t ++ itemsFrames t rest

end

/-- The frames of everything in a crate that is no block, each before those inside it. -/
def Crate.frames (c : Crate) (t : Tables) : List LocalFrame := itemsFrames t c.items

/-! ### Blocks -/

mutual

/-- The blocks in the arguments of a path. -/
def Path.blocks : Path → List Block
  | ⟨_, segments⟩ => segmentsBlocks segments

def segmentsBlocks : List PathSegment → List Block
  | [] => []
  | seg :: rest => seg.blocks ++ segmentsBlocks rest

def PathSegment.blocks : PathSegment → List Block
  | ⟨_, _, none⟩ => []
  | ⟨_, _, some args⟩ => args.blocks

def GenericArgs.blocks : GenericArgs → List Block
  | ⟨types, _⟩ => tysBlocks types

def tysBlocks : List Ty → List Block
  | [] => []
  | t :: ts => t.blocks ++ tysBlocks ts

/-- The blocks in a type. There are some only if an array type in it has a block for its size. -/
def Ty.blocks : Ty → List Block
  | .path _ p => p.blocks
  | .qualified _ p => p.blocks
  | .tuple _ elems => tysBlocks elems
  | .array _ elem size => elem.blocks ++ size.blocks
  | .slice _ elem => elem.blocks
  | .reference _ _ inner => inner.blocks
  | .pointer _ _ inner => inner.blocks
  | .dynOne _ bound => bound.blocks
  | .dyn _ bounds => boundsBlocks bounds
  | .fnPointer _ params none => paramTysBlocks params
  | .fnPointer _ params (some ret) => paramTysBlocks params ++ ret.blocks
  | .inferred _ => []
  | .never _ => []

def QualifiedPath.blocks : QualifiedPath → List Block
  | ⟨_, qualifier, associated, rest⟩ =>
    qualifier.blocks ++ (associated.blocks ++ segmentsBlocks rest)

def Qualifier.blocks : Qualifier → List Block
  | ⟨_, selfTy, none⟩ => selfTy.blocks
  | ⟨_, selfTy, some asTrait⟩ => selfTy.blocks ++ asTrait.blocks

def TraitBound.blocks : TraitBound → List Block
  | ⟨_, path⟩ => path.blocks

def Bound.blocks : Bound → List Block
  | .trait bound => bound.blocks
  | .lifetime _ => []

def boundsBlocks : List Bound → List Block
  | [] => []
  | b :: bs => b.blocks ++ boundsBlocks bs

def paramTysBlocks : List FnPointerParam → List Block
  | [] => []
  | ⟨_, _, ty⟩ :: ps => ty.blocks ++ paramTysBlocks ps

/-- The blocks in an expression, each before those inside it. -/
def Expr.blocks : Expr → List Block
  | .literal _ _ => []
  | .path _ p => p.blocks
  | .unary _ _ operand => operand.blocks
  | .binary _ _ lhs rhs => lhs.blocks ++ rhs.blocks
  | .call _ callee args => callee.blocks ++ exprsBlocks args
  | .cast _ operand ty => operand.blocks ++ ty.blocks
  | .tuple _ elems => exprsBlocks elems
  | .group _ inner => inner.blocks
  | .block _ body => body.blocks

def exprsBlocks : List Expr → List Block
  | [] => []
  | e :: es => e.blocks ++ exprsBlocks es

/-- A block and the blocks inside it. -/
def Block.blocks : Block → List Block
  | ⟨node, stmts, none⟩ => ⟨node, stmts, none⟩ :: stmtsBlocks stmts
  | ⟨node, stmts, some tail⟩ => ⟨node, stmts, some tail⟩ :: (stmtsBlocks stmts ++ tail.blocks)

def stmtsBlocks : List Stmt → List Block
  | [] => []
  | s :: rest => s.blocks ++ stmtsBlocks rest

def Stmt.blocks : Stmt → List Block
  | .bind _ _ none none => []
  | .bind _ _ (some ty) none => ty.blocks
  | .bind _ _ none (some init) => init.blocks
  | .bind _ _ (some ty) (some init) => ty.blocks ++ init.blocks
  | .expr _ value => value.blocks
  | .empty _ => []

end

/-- The blocks of a part that may be missing. -/
def optionalBlocks (f : α → List Block) : Option α → List Block
  | none => []
  | some a => f a

def GenericParam.blocks (p : GenericParam) : List Block :=
  match p.kind with
  | .type bounds default => optionalBlocks Ty.blocks default ++ boundsBlocks bounds
  | .const ty default => ty.blocks ++ optionalBlocks Expr.blocks default
  | .lifetime => []

def WherePredicate.blocks (p : WherePredicate) : List Block := p.ty.blocks ++ boundsBlocks p.bounds

/-- The blocks in generic parameters and in the conditions on them. -/
def Generics.blocks (g : Generics) : List Block :=
  g.params.flatMap GenericParam.blocks
    ++ optionalBlocks (fun w => w.predicates.flatMap WherePredicate.blocks) g.whereClause

def ConstDecl.blocks (c : ConstDecl) : List Block :=
  c.ty.blocks ++ optionalBlocks Expr.blocks c.init

def StaticDecl.blocks (s : StaticDecl) : List Block :=
  s.ty.blocks ++ optionalBlocks Expr.blocks s.init

def AliasDecl.blocks (a : AliasDecl) : List Block := a.generics.blocks ++ a.ty.blocks

def FunctionDecl.blocks (f : FunctionDecl) : List Block :=
  f.generics.blocks ++ (f.params.flatMap (fun p => p.ty.blocks)
    ++ (optionalBlocks Ty.blocks f.ret ++ optionalBlocks Block.blocks f.body))

def Variant.blocks (v : Variant) : List Block :=
  match v.kind with
  | .unit => []
  | .tuple fields => fields.flatMap fun f => f.ty.blocks
  | .record fields => fields.flatMap fun f => f.ty.blocks
  | .discriminant value => value.blocks

def ImplItem.blocks (i : ImplItem) : List Block :=
  match i.kind with
  | .function f => f.blocks
  | .const c => c.blocks
  | .typeAlias a => a.blocks

def TraitItem.blocks (i : TraitItem) : List Block :=
  match i.kind with
  | .function f => f.blocks
  | .const c => c.blocks
  | .type t => boundsBlocks t.bounds

def ForeignItem.blocks (i : ForeignItem) : List Block :=
  match i.kind with
  | .function f => f.blocks
  | .static _ _ ty => ty.blocks

mutual

/-- The blocks in an item. -/
def Item.blocks : Item → List Block
  | ⟨_, _, kind⟩ => kind.blocks

def ItemKind.blocks : ItemKind → List Block
  | .module _ items => itemsBlocks items
  | .typeAlias a => a.blocks
  | .struct r => r.generics.blocks ++ r.fields.flatMap fun f => f.ty.blocks
  | .tupleStruct s => s.generics.blocks ++ s.fields.flatMap fun f => f.ty.blocks
  | .enum e => e.generics.blocks ++ e.variants.flatMap Variant.blocks
  | .union r => r.generics.blocks ++ r.fields.flatMap fun f => f.ty.blocks
  | .static s => s.blocks
  | .const c => c.blocks
  | .function f => f.blocks
  | .inherentImpl i => i.generics.blocks ++ (i.selfTy.blocks ++ i.items.flatMap ImplItem.blocks)
  | .traitImpl i =>
    i.generics.blocks ++ (i.traitPath.blocks ++ (i.selfTy.blocks ++ i.items.flatMap ImplItem.blocks))
  | .trait t =>
    t.generics.blocks ++ (boundsBlocks t.supertraits ++ t.items.flatMap TraitItem.blocks)
  | .foreign b => b.items.flatMap ForeignItem.blocks

def itemsBlocks : List Item → List Block
  | [] => []
  | item :: rest => item.blocks ++ itemsBlocks rest

end

/-- All blocks of a crate, each before those inside it. -/
def Crate.blocks (c : Crate) : List Block := itemsBlocks c.items

end NameResolution
