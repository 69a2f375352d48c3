import NameResolution.Tree.Basic

/-!
# NameResolution.Tree.Item

**Items and crates.** An item declares something (a module, a type, a function, a
trait) or holds declarations for something declared elsewhere (an `impl`, an `extern`
block). Items nest only through modules; everything else an item holds is built from
the forms of `NameResolution.Tree.Basic`.
-/

namespace NameResolution

/-! ## Generics -/

/-- What kind of parameter a generic parameter is. -/
inductive GenericParamKind
  | type (bounds : List Bound) (default : Option Ty)
  | const (ty : Ty) (default : Option Expr)
  | lifetime

structure GenericParam where
  node : Node
  name : Ident
  kind : GenericParamKind

/-- One condition `Ty: Bound + Bound` of a where clause. -/
structure WherePredicate where
  node : Node
  ty : Ty
  bounds : List Bound

structure WhereClause where
  predicates : List WherePredicate
  span : Span

/-- Generic parameters, and the conditions on them. -/
structure Generics where
  params : List GenericParam
  whereClause : Option WhereClause

/-- No parameters and no conditions. -/
def Generics.none : Generics := ⟨[], Option.none⟩

instance : Inhabited Generics := ⟨Generics.none⟩

/-- Whether there is no parameter. A where clause alone does not count. -/
def Generics.isEmpty (g : Generics) : Bool := g.params.isEmpty

/-! ## Declarations -/

structure AliasDecl where
  name : Ident
  generics : Generics
  ty : Ty

structure NamedField where
  node : Node
  vis : Visibility
  name : Ident
  ty : Ty

structure TupleField where
  node : Node
  vis : Visibility
  ty : Ty

/-- A struct or a union with named fields. -/
structure RecordDecl where
  name : Ident
  generics : Generics
  fields : List NamedField

structure TupleStructDecl where
  name : Ident
  generics : Generics
  fields : List TupleField

inductive VariantKind
  | unit
  | tuple (fields : List TupleField)
  | record (fields : List NamedField)
  /-- A variant with a value, `Name = expr`. -/
  | discriminant (value : Expr)

structure Variant where
  node : Node
  name : Ident
  kind : VariantKind

structure EnumDecl where
  name : Ident
  generics : Generics
  variants : List Variant

structure StaticDecl where
  name : Ident
  mutable : Bool
  ty : Ty
  init : Option Expr

/-- A constant; inside a trait the initializer may be left out. -/
structure ConstDecl where
  name : Ident
  ty : Ty
  init : Option Expr

/-- The receiver `self` of a method. -/
structure SelfParam where
  node : Node
  byRef : Bool
  mutable : Bool

structure Param where
  node : Node
  pattern : Pattern
  ty : Ty

/-- A function; a trait method or an extern function may have no body. -/
structure FunctionDecl where
  name : Ident
  generics : Generics
  receiver : Option SelfParam
  params : List Param
  ret : Option Ty
  body : Option Block

inductive ImplItemKind
  | function (f : FunctionDecl)
  | const (c : ConstDecl)
  | typeAlias (a : AliasDecl)

structure ImplItem where
  node : Node
  vis : Visibility
  kind : ImplItemKind

/-- The items of `impl<G> Type`. -/
structure InherentImpl where
  generics : Generics
  selfTy : Ty
  items : List ImplItem

/-- The items of `impl<G> Trait for Type`. -/
structure TraitImpl where
  generics : Generics
  traitPath : Path
  selfTy : Ty
  items : List ImplItem

/-- An associated type `type Name: Bounds;` of a trait. -/
structure AssocTypeDecl where
  name : Ident
  bounds : List Bound

inductive TraitItemKind
  | function (f : FunctionDecl)
  | const (c : ConstDecl)
  | type (t : AssocTypeDecl)

structure TraitItem where
  node : Node
  kind : TraitItemKind

structure TraitDecl where
  name : Ident
  generics : Generics
  supertraits : List Bound
  items : List TraitItem

inductive ForeignItemKind
  | function (f : FunctionDecl)
  | static (name : Ident) (mutable : Bool) (ty : Ty)

structure ForeignItem where
  node : Node
  vis : Visibility
  kind : ForeignItemKind

/-- An `extern` block: declarations of things that are defined elsewhere. -/
structure ForeignBlock where
  abi : Option String
  items : List ForeignItem

/-! ## Items -/

mutual

structure Item where
  node : Node
  vis : Visibility
  kind : ItemKind

inductive ItemKind
  | module (name : Ident) (items : List Item)
  | typeAlias (a : AliasDecl)
  | struct (s : RecordDecl)
  | tupleStruct (s : TupleStructDecl)
  | enum (e : EnumDecl)
  | union (u : RecordDecl)
  | static (s : StaticDecl)
  | const (c : ConstDecl)
  | function (f : FunctionDecl)
  | inherentImpl (i : InherentImpl)
  | traitImpl (i : TraitImpl)
  | trait (t : TraitDecl)
  | foreign (b : ForeignBlock)

end

/-- A whole compilation unit. Its node is the crate root module. -/
structure Crate where
  node : Node
  items : List Item
  /-- The identities of the built-in types are taken from here on. -/
  idBound : NodeId

/-- The name that an item declares, if it declares one. -/
def Item.name? (item : Item) : Option Ident :=
  match item.kind with
  | .module name _ => some name
  | .typeAlias a => some a.name
  | .struct s | .union s => some s.name
  | .tupleStruct s => some s.name
  | .enum e => some e.name
  | .static s => some s.name
  | .const c => some c.name
  | .function f => some f.name
  | .trait t => some t.name
  | .inherentImpl _ | .traitImpl _ | .foreign _ => none

/-- The generics of an item, if it is of a kind that takes any. -/
def Item.generics? (item : Item) : Option Generics :=
  match item.kind with
  | .typeAlias a => some a.generics
  | .struct s | .union s => some s.generics
  | .tupleStruct s => some s.generics
  | .enum e => some e.generics
  | .function f => some f.generics
  | .inherentImpl i => some i.generics
  | .traitImpl i => some i.generics
  | .trait t => some t.generics
  | .module _ _ | .static _ | .const _ | .foreign _ => none

/-- The item with other generics; an item that takes none stays as it is. -/
def Item.withGenerics (item : Item) (g : Generics) : Item :=
  let kind := match item.kind with
    | .typeAlias a => .typeAlias { a with generics := g }
    | .struct s => .struct { s with generics := g }
    | .union s => .union { s with generics := g }
    | .tupleStruct s => .tupleStruct { s with generics := g }
    | .enum e => .enum { e with generics := g }
    | .function f => .function { f with generics := g }
    | .inherentImpl i => .inherentImpl { i with generics := g }
    | .traitImpl i => .traitImpl { i with generics := g }
    | .trait t => .trait { t with generics := g }
    | other => other
  { item with kind }

end NameResolution
