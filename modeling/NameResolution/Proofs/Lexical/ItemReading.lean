import NameResolution.Resolve.Crate
import NameResolution.Proofs.Lexical.PathReading

/-!
# NameResolution.Proofs.Lexical.ItemReading

**Items are read in the modules around them**, and in no other environment: an item sees
no local name of another item. Within an item the environment grows from left to right. A
generic parameter, a receiver, a parameter or `Self` is seen by what comes after it, and
only the first one of a name in a frame is.
-/

namespace NameResolution

/-- Read a part that may be missing. -/
def readOptional (f : α → Reading Unit) : Option α → Reading Unit
  | none => pure ()
  | some a => f a

/-! ### Generics -/

/-- Read the default and the bounds of a parameter, and introduce its name after them. A lifetime
introduces nothing. -/
def GenericParam.read (base : Session) (env : Env) (p : GenericParam) : Reading Env :=
  match p.kind with
  | .type bounds default => do
    readOptional (fun ty => discard (ty.read base env)) default
    readBounds base env bounds
    env.readNew .type (.own .type p.node.id p.name.name p.name.span) GenericParam.redefinition
  | .const ty default => do
    discard (ty.read base env)
    readOptional (Expr.read base env) default
    env.readNew .name (.own .name p.node.id p.name.name p.name.span) GenericParam.redefinition
  | .lifetime => return env

/-- Read a condition of a where clause. -/
def WherePredicate.read (base : Session) (env : Env) (p : WherePredicate) : Reading Unit := do
  discard (p.ty.read base env)
  readBounds base env p.bounds

/-- Read generic parameters in order, and then the conditions on them. -/
def Generics.read (base : Session) (env : Env) (g : Generics) : Reading Env := do
  let env ← g.params.foldlM (GenericParam.read base) env
  readOptional (fun w => w.predicates.forM (WherePredicate.read base env)) g.whereClause
  return env

/-! ### Members -/

/-- Read a constant. -/
def ConstDecl.read (base : Session) (env : Env) (c : ConstDecl) : Reading Unit := do
  discard (c.ty.read base env)
  readOptional (Expr.read base env) c.init

/-- Read a type alias in a frame of its own. -/
def AliasDecl.read (base : Session) (env : Env) (owner : NodeId) (a : AliasDecl) :
    Reading Unit := do
  let env ← a.generics.read base (env.enter owner (owner :: a.nodeIds))
  discard (a.ty.read base env)

/-- Introduce the receiver of a method, if there is one. -/
def readReceiver (env : Env) : Option SelfParam → Reading Env
  | none => return env
  | some r => env.readNew .name (.own .name r.node.id "self" r.node.span) Resolution.redefinition

/-- Read the type of a parameter and introduce the names of its pattern after it. -/
def Param.read (base : Session) (env : Env) (p : Param) : Reading Env := do
  discard (p.ty.read base env)
  p.pattern.read env false

/-- Read a function. Generics, receiver, parameters and return type share its frame; the body has
one of its own. -/
def FunctionDecl.read (base : Session) (env : Env) (owner : NodeId) (f : FunctionDecl) :
    Reading Unit := do
  let env ← f.generics.read base (env.enter owner (owner :: f.nodeIds))
  let env ← readReceiver env f.receiver
  let env ← f.params.foldlM (Param.read base) env
  readOptional (fun ty => discard (ty.read base env)) f.ret
  readOptional (Block.read base env) f.body

/-- Read a field with a name. -/
def NamedField.read (base : Session) (env : Env) (f : NamedField) : Reading Unit :=
  discard (f.ty.read base env)

/-- Read a field without a name. -/
def TupleField.read (base : Session) (env : Env) (f : TupleField) : Reading Unit :=
  discard (f.ty.read base env)

/-- Read a variant in the environment of its enum. -/
def Variant.read (base : Session) (env : Env) (v : Variant) : Reading Unit :=
  match v.kind with
  | .unit => pure ()
  | .tuple fields => fields.forM (TupleField.read base env)
  | .record fields => fields.forM (NamedField.read base env)
  | .discriminant value => value.read base env

/-- Read an implementation item. -/
def ImplItem.read (base : Session) (env : Env) (i : ImplItem) : Reading Unit :=
  match i.kind with
  | .function f => f.read base env i.node.id
  | .const c => c.read base env
  | .typeAlias a => a.read base env i.node.id

/-- Read a trait item. -/
def TraitItem.read (base : Session) (env : Env) (i : TraitItem) : Reading Unit :=
  match i.kind with
  | .function f => f.read base env i.node.id
  | .const c => c.read base env
  | .type t => readBounds base env t.bounds

/-- Read an extern item. -/
def ForeignItem.read (base : Session) (env : Env) (i : ForeignItem) : Reading Unit :=
  match i.kind with
  | .function f => f.read base env i.node.id
  | .static _ _ ty => discard (ty.read base env)

/-! ### Items -/

/-- Introduce `Self`, unless the type it stands for names no single declaration. -/
def Env.readSelf (env : Env) (owner : NodeId) (target : Option Meaning) (locus : Span) :
    Reading Env :=
  match target with
  | none => return env
  | some m => env.readNew .type ⟨owner, "Self", locus, m⟩ Resolution.redefinition

/-- Read an implementation without a trait in a frame of its own. -/
def InherentImpl.read (base : Session) (env : Env) (owner : NodeId) (i : InherentImpl) :
    Reading Unit := do
  let env ← i.generics.read base (env.enter owner (owner :: (ItemKind.inherentImpl i).nodeIds))
  let selfTy ← i.selfTy.read base env
  let env ← env.readSelf owner selfTy.decl i.selfTy.node.span
  i.items.forM (ImplItem.read base env)

/-- Read an implementation of a trait in a frame of its own. -/
def TraitImpl.read (base : Session) (env : Env) (owner : NodeId) (i : TraitImpl) :
    Reading Unit := do
  let env ← i.generics.read base (env.enter owner (owner :: (ItemKind.traitImpl i).nodeIds))
  discard (i.traitPath.read base env .type)
  let selfTy ← i.selfTy.read base env
  let env ← env.readSelf owner selfTy.decl i.selfTy.node.span
  i.items.forM (ImplItem.read base env)

/-- Read a trait in a frame of its own, in which `Self` is the trait. -/
def TraitDecl.read (base : Session) (env : Env) (node : Node) (t : TraitDecl) : Reading Unit := do
  let env ← t.generics.read base (env.enter node.id (node.id :: (ItemKind.trait t).nodeIds))
  let env ← env.readSelf node.id (some (base.meaning node.id)) node.span
  readBounds base env t.supertraits
  t.items.forM (TraitItem.read base env)

/-- Read a struct or a union in a frame of its own. -/
def RecordDecl.read (base : Session) (env : Env) (owner : NodeId) (r : RecordDecl) :
    Reading Unit := do
  let env ← r.generics.read base (env.enter owner (owner :: (ItemKind.struct r).nodeIds))
  r.fields.forM (NamedField.read base env)

/-- Read a struct without field names in a frame of its own. -/
def TupleStructDecl.read (base : Session) (env : Env) (owner : NodeId) (s : TupleStructDecl) :
    Reading Unit := do
  let env ← s.generics.read base (env.enter owner (owner :: (ItemKind.tupleStruct s).nodeIds))
  s.fields.forM (TupleField.read base env)

/-- Read an enum in a frame of its own. -/
def EnumDecl.read (base : Session) (env : Env) (owner : NodeId) (e : EnumDecl) : Reading Unit := do
  let env ← e.generics.read base (env.enter owner (owner :: (ItemKind.enum e).nodeIds))
  e.variants.forM (Variant.read base env)

/-- Read a static. -/
def StaticDecl.read (base : Session) (env : Env) (s : StaticDecl) : Reading Unit := do
  discard (s.ty.read base env)
  readOptional (Expr.read base env) s.init

mutual

/-- Read an item inside some modules. -/
def Item.read (base : Session) (modules : List NodeId) : Item → Reading Unit
  | ⟨node, _, kind⟩ => kind.read base modules node

def ItemKind.read (base : Session) (modules : List NodeId) (node : Node) : ItemKind → Reading Unit
  | .module _ items => readItems base (node.id :: modules) items
  | .typeAlias a => a.read base (.inside modules) node.id
  | .struct s => s.read base (.inside modules) node.id
  | .tupleStruct s => s.read base (.inside modules) node.id
  | .enum e => e.read base (.inside modules) node.id
  | .union u => u.read base (.inside modules) node.id
  | .static s => s.read base (.inside modules)
  | .const c => c.read base (.inside modules)
  | .function f => f.read base (.inside modules) node.id
  | .inherentImpl i => i.read base (.inside modules) node.id
  | .traitImpl i => i.read base (.inside modules) node.id
  | .trait t => t.read base (.inside modules) node
  | .foreign b => b.items.forM (ForeignItem.read base (.inside modules))

def readItems (base : Session) (modules : List NodeId) : List Item → Reading Unit
  | [] => pure ()
  | item :: rest => do
    item.read base modules
    readItems base modules rest

end

/-- Read everything inside the items of a crate. -/
def Crate.read (c : Crate) (base : Session) : Reading Unit := readItems base [c.node.id] c.items

end NameResolution
