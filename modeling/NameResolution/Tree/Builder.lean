import NameResolution.Tree.Item

/-!
# NameResolution.Tree.Builder

**Making trees without a parser.** A `Build` action makes nodes and hands every one a
fresh identity and a fresh place, so that a message about a node can be traced back to
exactly that node.

* Identities and places come from **two separate counters** (`Allocation`). Places are one
  character long and two apart.
* A node is made **after its parts**: `Build.located` takes the identity and the place of
  the node once the parts are there. A name inside a node gets its place before the node.
* `Build.crate` closes the tree. The crate root has the first identity of all, and the
  bound of the crate lies above every identity handed out.
-/

namespace NameResolution

/-- What has been handed out so far. -/
structure Allocation where
  ids : IdSupply
  /-- Where the next place starts. -/
  offset : Nat
  deriving DecidableEq, Repr

/-- Nothing has been handed out. -/
def Allocation.start : Allocation := ⟨.full, 0⟩

/-- An action that makes a part of a tree. -/
abbrev Build := StateM Allocation

namespace Build

/-! ## Identities and places -/

/-- A fresh identity. -/
def freshId : Build NodeId := do
  let a ← get
  let (id, ids) := a.ids.fresh
  set { a with ids }
  return id

/-- A fresh place. -/
def freshSpan : Build Span := do
  let a ← get
  set { a with offset := a.offset + 2 }
  return ⟨a.offset, 1⟩

/-- A fresh identity with a fresh place. -/
def node : Build Node := do
  let id ← freshId
  let span ← freshSpan
  return ⟨id, span⟩

/-- Make a node whose parts are there already. -/
def located (make : Node → α) : Build α := do
  return make (← node)

/-- A name at a fresh place. -/
def ident (name : String) : Build Ident := do
  return ⟨name, ← freshSpan⟩

/-! ## Paths -/

/-- A path segment without arguments; `crate`, `super` and `self` are keywords. -/
def segment (word : String) : Build PathSegment :=
  located fun n => ⟨n, .ofWord word, none⟩

/-- A path segment with generic arguments. -/
def segmentWithArgs (word : String) (args : List Ty) : Build PathSegment := do
  let s ← segment word
  let span ← freshSpan
  return { s with generics := some ⟨args, span⟩ }

/-- A path segment that could not be read. -/
def malformedSegment : Build PathSegment :=
  located fun n => ⟨n, .malformed, none⟩

/-- A path made of the given segments. -/
def path (segments : List PathSegment) : Build Path :=
  located fun n => ⟨n, segments⟩

/-- A path made of the given words. -/
def pathOfWords (words : List String) : Build Path := do
  path (← words.mapM segment)

/-! ## Types -/

/-- A type given by a path. -/
def tyPath (p : Path) : Build Ty := located (.path · p)

/-- A type given by a single segment with generic arguments. -/
def tyGeneric (word : String) (args : List Ty) : Build Ty := do
  tyPath (← path [← segmentWithArgs word args])

/-- A bound that names a trait. -/
def traitBound (p : Path) : Build TraitBound := located fun n => ⟨n, p⟩

/-- A bound that names a lifetime. -/
def lifetimeBound (name : String) : Build Bound := return .lifetime (← ident name)

/-- A trait object with a single bound. -/
def tyDynOne (p : Path) : Build Ty := do
  let bound ← traitBound p
  located (.dynOne · bound)

/-- A trait object whose bounds all name traits. -/
def tyDynPaths (paths : List Path) : Build Ty := do
  let bounds ← paths.mapM traitBound
  located (.dyn · (bounds.map .trait))

/-- A function pointer type; its parameters have no names. -/
def tyFnPointer (params : List Ty) (ret : Option Ty) : Build Ty := do
  let params ← params.mapM fun ty => return ⟨← freshId, none, ty⟩
  located (.fnPointer · params ret)

/-- The head of a path that starts from a type. -/
def qualifier (selfTy : Ty) (asTrait : Option Path) : Build Qualifier :=
  located fun n => ⟨n, selfTy, asTrait⟩

/-- A type given by a path that starts from a type. -/
def tyQualified (head : Qualifier) (associated : PathSegment) (rest : List PathSegment) :
    Build Ty := do
  let p ← located fun n => QualifiedPath.mk n head associated rest
  located (.qualified · p)

/-! ## Generics -/

/-- A generic parameter. -/
def genericParam (name : String) (kind : GenericParamKind) : Build GenericParam := do
  let name ← ident name
  located fun n => ⟨n, name, kind⟩

/-- A condition of a where clause. -/
def wherePredicate (ty : Ty) (bounds : List Bound) : Build WherePredicate :=
  located fun n => ⟨n, ty, bounds⟩

/-- A where clause, which has a place but no identity. -/
def whereClause (predicates : List WherePredicate) : Build WhereClause := do
  return ⟨predicates, ← freshSpan⟩

/-! ## Patterns and statements -/

/-- A pattern that binds one name. -/
def binding (name : String) (mutable : Bool) : Build Pattern := do
  let name ← ident name
  located (.binding · name mutable)

/-- A `let` statement that binds one name. -/
def letStmt (name : String) (ty : Option Ty) (init : Option Expr) : Build Stmt := do
  let pattern ← binding name false
  located (.bind · pattern ty init)

/-- A block. -/
def block (stmts : List Stmt) (tail : Option Expr) : Build Block :=
  located fun n => ⟨n, stmts, tail⟩

/-! ## Functions, fields and variants -/

/-- A function; of its own it only has the place of its name. -/
def function (name : String) (generics : Generics) (receiver : Option SelfParam)
    (params : List Param) (ret : Option Ty) (body : Option Block) : Build FunctionDecl := do
  return ⟨← ident name, generics, receiver, params, ret, body⟩

/-- A receiver. -/
def selfParam (byRef mutable : Bool) : Build SelfParam :=
  located fun n => ⟨n, byRef, mutable⟩

/-- A parameter that binds one name. -/
def param (name : String) (ty : Ty) : Build Param := do
  let pattern ← binding name false
  located fun n => ⟨n, pattern, ty⟩

/-- A constant; of its own it only has the place of its name. -/
def constDecl (name : String) (ty : Ty) (init : Option Expr) : Build ConstDecl := do
  return ⟨← ident name, ty, init⟩

/-- A type alias; of its own it only has the place of its name. -/
def aliasDecl (name : String) (generics : Generics) (ty : Ty) : Build AliasDecl := do
  return ⟨← ident name, generics, ty⟩

/-- Fields with names. -/
def namedFields (fields : List (String × Ty)) : Build (List NamedField) :=
  fields.mapM fun (name, ty) => do
    let name ← ident name
    located fun n => ⟨n, .ownModule, name, ty⟩

/-- Fields without names. -/
def tupleFields (types : List Ty) : Build (List TupleField) :=
  types.mapM fun ty => located fun n => ⟨n, .ownModule, ty⟩

/-- A variant of an enum. -/
def variant (name : String) (kind : VariantKind) : Build Variant := do
  let name ← ident name
  located fun n => ⟨n, name, kind⟩

/-! ## Items -/

/-- An item that only its own module can see. -/
def item (kind : ItemKind) : Build Item :=
  located fun n => ⟨n, .ownModule, kind⟩

/-- A module. -/
def module (name : String) (items : List Item) : Build Item := do
  item (.module (← ident name) items)

/-- A type alias without generics. -/
def typeAlias (name : String) (ty : Ty) : Build Item := do
  item (.typeAlias (← aliasDecl name .none ty))

/-- A struct with named fields. -/
def struct (name : String) (fields : List (String × Ty)) : Build Item := do
  item (.struct ⟨← ident name, .none, ← namedFields fields⟩)

/-- A union. -/
def union (name : String) (fields : List (String × Ty)) : Build Item := do
  item (.union ⟨← ident name, .none, ← namedFields fields⟩)

/-- A struct whose fields have no names. -/
def tupleStruct (name : String) (fields : List Ty) : Build Item := do
  item (.tupleStruct ⟨← ident name, .none, ← tupleFields fields⟩)

/-- An enum. -/
def enum (name : String) (variants : List Variant) : Build Item := do
  item (.enum ⟨← ident name, .none, variants⟩)

/-- A static. -/
def static (name : String) (mutable : Bool) (ty : Ty) (init : Option Expr) : Build Item := do
  item (.static ⟨← ident name, mutable, ty, init⟩)

/-- A constant item. -/
def const (name : String) (ty : Ty) (init : Option Expr) : Build Item := do
  item (.const (← constDecl name ty init))

/-- A function with nothing but an empty body. -/
def emptyFunction (name : String) : Build Item := do
  let name ← ident name
  let body ← block [] none
  item (.function ⟨name, .none, none, [], none, some body⟩)

/-- A trait. -/
def trait (name : String) (supertraits : List Bound) (items : List TraitItem) : Build Item := do
  item (.trait ⟨← ident name, .none, supertraits, items⟩)

/-- An `impl` block without a trait. -/
def inherentImpl (selfTy : Ty) (items : List ImplItem) : Build Item :=
  item (.inherentImpl ⟨.none, selfTy, items⟩)

/-- An `impl` block for a trait. -/
def traitImpl (traitPath : Path) (selfTy : Ty) (items : List ImplItem) : Build Item :=
  item (.traitImpl ⟨.none, traitPath, selfTy, items⟩)

/-- A block of declarations with the calling convention of C. -/
def foreignBlock (items : List ForeignItem) : Build Item :=
  item (.foreign ⟨some "C", items⟩)

/-- An implementation item that only its own module can see. -/
def implItem (kind : ImplItemKind) : Build ImplItem :=
  located fun n => ⟨n, .ownModule, kind⟩

/-- A trait item. -/
def traitItem (kind : TraitItemKind) : Build TraitItem :=
  located fun n => ⟨n, kind⟩

/-- An extern item that only its own module can see. -/
def foreignItem (kind : ForeignItemKind) : Build ForeignItem :=
  located fun n => ⟨n, .ownModule, kind⟩

/-! ## Whole trees -/

/-- The crate with the items that an action makes. -/
def crate (items : Build (List Item)) : Crate :=
  let make : Build Crate := do
    let root ← freshId
    let items ← items
    let span ← freshSpan
    return ⟨⟨root, span⟩, items, (← get).ids.bound⟩
  (make.run .start).1

end Build

end NameResolution
