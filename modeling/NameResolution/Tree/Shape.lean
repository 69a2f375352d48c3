import NameResolution.Tree.Basic

/-!
# NameResolution.Tree.Shape

**What a type looks like.** The shape of a type (`Ty.shape`) is the type without all that is
passed over when types are compared as they are written: identities and places, the names
of the parameters of function pointers, and argument lists without arguments. A trait object
with a single bound has the same shape in either of its forms. Types are structurally equal
if they have the same shape.

A type is plain (`Ty.isPlain`) if each of its names is a plain word and none of its parts is
missing. Only integers and paths are plain as the size of an array.
-/

namespace NameResolution

mutual

/-- A path without identities and places. -/
def Path.shape : Path → Path
  | ⟨_, segments⟩ => ⟨default, segmentShapes segments⟩

def segmentShapes : List PathSegment → List PathSegment
  | [] => []
  | s :: rest => s.shape :: segmentShapes rest

/-- A segment without identities and places. An argument list without arguments is no list. -/
def PathSegment.shape : PathSegment → PathSegment
  | ⟨_, ident, none⟩ => ⟨default, ident, none⟩
  | ⟨_, ident, some args⟩ => ⟨default, ident, args.shape⟩

def GenericArgs.shape : GenericArgs → Option GenericArgs
  | ⟨[], _⟩ => none
  | ⟨t :: ts, _⟩ => some ⟨t.shape :: tyShapes ts, default⟩

def tyShapes : List Ty → List Ty
  | [] => []
  | t :: ts => t.shape :: tyShapes ts

/-- What a type looks like. -/
def Ty.shape : Ty → Ty
  | .path _ p => .path default p.shape
  | .qualified _ p => .qualified default p.shape
  | .tuple _ elems => .tuple default (tyShapes elems)
  | .array _ elem size => .array default elem.shape size.sizeShape
  | .slice _ elem => .slice default elem.shape
  | .reference _ mutable inner => .reference default mutable inner.shape
  | .pointer _ mutable inner => .pointer default mutable inner.shape
  | .dynOne _ bound => .dyn default [.trait bound.shape]
  | .dyn _ bounds => .dyn default (boundShapes bounds)
  | .fnPointer _ params none => .fnPointer default (paramShapes params) none
  | .fnPointer _ params (some ret) => .fnPointer default (paramShapes params) (some ret.shape)
  | .inferred _ => .inferred default
  | .never _ => .never default

def QualifiedPath.shape : QualifiedPath → QualifiedPath
  | ⟨_, qualifier, associated, rest⟩ =>
    ⟨default, qualifier.shape, associated.shape, segmentShapes rest⟩

def Qualifier.shape : Qualifier → Qualifier
  | ⟨_, selfTy, none⟩ => ⟨default, selfTy.shape, none⟩
  | ⟨_, selfTy, some asTrait⟩ => ⟨default, selfTy.shape, some asTrait.shape⟩

def TraitBound.shape : TraitBound → TraitBound
  | ⟨_, path⟩ => ⟨default, path.shape⟩

def Bound.shape : Bound → Bound
  | .trait bound => .trait bound.shape
  | .lifetime name => .lifetime ⟨name.name, default⟩

def boundShapes : List Bound → List Bound
  | [] => []
  | b :: bs => b.shape :: boundShapes bs

def paramShapes : List FnPointerParam → List FnPointerParam
  | [] => []
  | ⟨_, _, ty⟩ :: ps => ⟨default, none, ty.shape⟩ :: paramShapes ps

/-- The size of an array without identities and places, if it is a literal or a path. -/
def Expr.sizeShape : Expr → Expr
  | .literal _ value => .literal default value
  | .path _ p => .path default p.shape
  | size => size

end

/-! ### Plain types -/

/-- The characters that types are put together with. They are in no word. -/
def delimiters : List Char :=
  [' ', '!', '&', '\'', '(', ')', '*', '+', ',', '-', ':', ';', '<', '>', '[', ']']

def isDelimiter (c : Char) : Bool := c ∈ delimiters

/-- The words that are not names where a type is written. -/
def typeKeywords : List String := ["_", "crate", "dyn", "fn", "mut", "self", "super"]

/-- A plain name is a word that is no keyword and starts with no digit. -/
def isPlainName (name : String) : Bool :=
  match name.toList with
  | [] => false
  | c :: rest =>
    (c :: rest).all (!isDelimiter ·) && !c.isDigit && !typeKeywords.contains name

/-- Whether a segment is a keyword or a plain name. -/
def PathIdent.isPlain : PathIdent → Bool
  | .ident name => isPlainName name
  | .crate | .super | .selfModule => true
  | .malformed => false

/-- A lifetime is an apostrophe and a plain name. -/
def isPlainLifetime (name : String) : Bool :=
  match name.toList with
  | '\'' :: word => isPlainName (String.ofList word)
  | _ => false

mutual

/-- Whether a path has segments, all of which are plain. -/
def Path.isPlain : Path → Bool
  | ⟨_, segments⟩ => !segments.isEmpty && segmentsPlain segments

def segmentsPlain : List PathSegment → Bool
  | [] => true
  | s :: rest => s.isPlain && segmentsPlain rest

def PathSegment.isPlain : PathSegment → Bool
  | ⟨_, ident, none⟩ => ident.isPlain
  | ⟨_, ident, some args⟩ => ident.isPlain && args.isPlain

def GenericArgs.isPlain : GenericArgs → Bool
  | ⟨types, _⟩ => tysPlain types

def tysPlain : List Ty → Bool
  | [] => true
  | t :: ts => t.isPlain && tysPlain ts

/-- Whether the names in a type are plain, and none of its parts is missing. -/
def Ty.isPlain : Ty → Bool
  | .path _ p => p.isPlain
  | .qualified _ p => p.isPlain
  | .tuple _ elems => tysPlain elems
  | .array _ elem size => elem.isPlain && size.isPlainSize
  | .slice _ elem => elem.isPlain
  | .reference _ _ inner => inner.isPlain
  | .pointer _ _ inner => inner.isPlain
  | .dynOne _ bound => bound.isPlain
  | .dyn _ bounds => !bounds.isEmpty && boundsPlain bounds
  | .fnPointer _ params none => paramsPlain params
  | .fnPointer _ params (some ret) => paramsPlain params && ret.isPlain
  | .inferred _ | .never _ => true

def QualifiedPath.isPlain : QualifiedPath → Bool
  | ⟨_, qualifier, associated, rest⟩ =>
    qualifier.isPlain && associated.isPlain && segmentsPlain rest

def Qualifier.isPlain : Qualifier → Bool
  | ⟨_, selfTy, none⟩ => selfTy.isPlain
  | ⟨_, selfTy, some asTrait⟩ => selfTy.isPlain && asTrait.isPlain

def TraitBound.isPlain : TraitBound → Bool
  | ⟨_, path⟩ => path.isPlain

def Bound.isPlain : Bound → Bool
  | .trait bound => bound.isPlain
  | .lifetime name => isPlainLifetime name.name

def boundsPlain : List Bound → Bool
  | [] => true
  | b :: bs => b.isPlain && boundsPlain bs

def paramsPlain : List FnPointerParam → Bool
  | [] => true
  | ⟨_, _, ty⟩ :: ps => ty.isPlain && paramsPlain ps

/-- Whether the size of an array is an integer or a plain path. -/
def Expr.isPlainSize : Expr → Bool
  | .literal _ (.int _) => true
  | .path _ p => p.isPlain
  | _ => false

end

end NameResolution
