import NameResolution.Tree.NodeIds
import NameResolution.Proofs.Lexical.Environment

/-!
# NameResolution.Proofs.Lexical.PathReading

**Paths, types and expressions are read in an environment**, which is handed down and
never changed behind the reader's back. A block enters a frame of its own and hands each
statement the environment that the ones before it have made.

The reading of a part says what the part stands for and what there is to be found out
about it. It does not depend on anything that was read before.
-/

namespace NameResolution

/-- How far along a path a reading has come. -/
structure Spot where
  /-- The module, enum or trait whose children the next segment may name. -/
  scope : NodeId
  /-- What the segments so far stand for; nothing before the first one. -/
  reached : Option Meaning
  deriving DecidableEq, Repr

/-- What a type stands for: the declaration it names, if it names exactly one, and its canonical
path, if it has one. -/
structure TypeMeaning where
  decl : Option Meaning
  path : Option CanonicalPath
  deriving DecidableEq, Repr

namespace TypeMeaning

/-- A type that names nothing. -/
def none : TypeMeaning := ⟨.none, .none⟩

/-- The type around another. -/
def wrapped (t : TypeMeaning) (id : NodeId) (wrap : String → String) : TypeMeaning :=
  ⟨t.decl, t.path.map fun p => .single id (wrap p.text)⟩

/-- The canonical path that the head of a qualified path takes from its type. -/
def headPath (t : TypeMeaning) : Option CanonicalPath := t.path.or (t.decl.map Meaning.path)

end TypeMeaning

section Steps

variable (base : Session) (env : Env)

/-- A segment is resolved. -/
def PathSegment.readTo (seg : PathSegment) (space : Namespace) (decl : NodeId) : Reading Unit :=
  .note (.segment space seg.node seg.ident.text decl (env.here base))

/-- Whether the rest of a path is left to type checking. -/
def Spot.isDeferred (spot : Spot) : Bool :=
  match spot.reached with
  | none => false
  | some m => !base.tables.isContainer m.decl

/-- The spot that a plain name leads to. -/
def Spot.advance (spot : Spot) (m : Meaning) : Spot :=
  ⟨if base.tables.isContainer m.decl then m.decl else spot.scope, some m⟩

/-- A keyword leads to a module. -/
def readModule (seg : PathSegment) (module : NodeId) : Reading (Option Spot) := do
  seg.readTo base env .name module
  return some ⟨module, some (base.meaning module)⟩

/-- The keywords `crate` and `self` can only come first. -/
def readFirst (spot : Spot) (seg : PathSegment) (module : NodeId) : Reading (Option Spot) :=
  if spot.reached.isSome then .stopWith seg.notFound else readModule base env seg module

/-- The module around a module. -/
def Env.parentModule? (module : NodeId) : Option NodeId :=
  if module = env.here base then env.modules[1]? else base.tables.parents.get? module

/-- The keyword `super` leads to the parent of the module reached. -/
def readSuper (spot : Spot) (seg : PathSegment) : Reading (Option Spot) :=
  if spot.scope = base.root then .stopWith (.superAtCrateScope seg.node.span)
  else if base.tables.isModule spot.scope then
    match env.parentModule? base spot.scope with
    | none => .stopWith (.superAtCrateScope seg.node.span)
    | some parent => readModule base env seg parent
  else .stopWith seg.notFound

/-- A plain name leads to a child of what has been reached or else, if it comes first, to what it
stands for in the environment. A path of a single segment is looked up in the environment only. -/
def readName (prefer : Namespace) (single : Bool) (spot : Spot) (seg : PathSegment) (name : String)
    (isLast : Bool) : Reading (Option Spot) :=
  let child :=
    if single then none
    else base.pickChild? prefer isLast (base.tables.childrenNamed spot.scope name)
  match child with
  | some child => do
    let m := base.meaning child
    seg.readTo base env m.space m.decl
    return some (spot.advance base m)
  | none =>
    if spot.reached.isSome then .stopWith seg.notFound
    else
      match env.resolve base prefer name with
      | none => .stopWith (.failedToResolvePath name seg.node.span)
      | some (space, m) => do
        seg.readTo base env space m.decl
        return some (spot.advance base m)

/-- The receiver that a lone `self` in an expression stands for, inside a method. -/
def Env.receiver? (prefer : Namespace) : List PathSegment → Option (PathSegment × Meaning)
  | [seg] =>
    match prefer with
    | .name =>
      if seg.ident = .selfModule then (env.find? base .name "self").map (seg, ·) else none
    | .type => none
  | _ => none

/-- What a path stands for, given the reading of its segments, and what there is to be found out
about it. A lone `self` may be a receiver; then its segment is not read as that of a path. -/
def readWhole (prefer : Namespace) (node : Node) (segments : List PathSegment)
    (walked : Reading (Option Meaning)) : Reading (Option Meaning) :=
  match env.receiver? base prefer segments with
  | some (seg, m) => do
    seg.readTo base env .name m.decl
    Reading.note (.resolved .name node.id m.decl)
    return some m
  | none => do
    match ← walked with
    | none => return none
    | some m =>
      Reading.note (.resolved m.space node.id m.decl)
      return some m

/-- Introduce a name that the innermost frame may not have yet. -/
def Env.readNew (space : Namespace) (l : LocalName)
    (complaint : Binding → Binding → ResolveError) : Reading Env :=
  match env.findInnermost? space l.name with
  | some earlier => do
    .note (.error (complaint l.binding earlier.binding))
    return env
  | none => return env.bind space l

end Steps

/-- Introduce a name of a pattern. Where shadowing is allowed, it comes before any earlier one. -/
def Env.readPatternName (env : Env) (shadow : Bool) (node : Node) (name : Ident) : Reading Env :=
  let l := LocalName.own .name node.id name.name name.span
  if shadow then return env.bind .name l else env.readNew .name l Resolution.redefinition

mutual

/-- Introduce every name of a pattern, from left to right. -/
def Pattern.read (env : Env) (shadow : Bool) : Pattern → Reading Env
  | .binding node name _ => env.readPatternName shadow node name
  | .tuple _ elems => readPatterns env shadow elems
  | .wildcard _ => return env

def readPatterns (env : Env) (shadow : Bool) : List Pattern → Reading Env
  | [] => return env
  | p :: ps => do
    let env ← p.read env shadow
    readPatterns env shadow ps

end

/-- A type with a form of its own stands for a built-in type. -/
def readBuiltin (base : Session) (use builtin : NodeId) : Reading TypeMeaning := do
  .note (.resolved .type use builtin)
  return ⟨some (base.meaning builtin), some (base.meaning builtin).path⟩

mutual

/-- Read a path, trying one namespace before the other. -/
def Path.read (base : Session) (env : Env) (prefer : Namespace) : Path → Reading (Option Meaning)
  | ⟨node, segments⟩ => do
    let outcome ← readWhole base env prefer node segments
      (readSegments base env prefer (segments.length == 1) ⟨env.here base, none⟩ segments)
    Reading.note (.visit ⟨node, segments⟩ prefer env outcome)
    return outcome

/-- Read the remaining segments of a path. -/
def readSegments (base : Session) (env : Env) (prefer : Namespace) (single : Bool) (spot : Spot) :
    List PathSegment → Reading (Option Meaning)
  | [] => return spot.reached
  | seg :: rest => do
    match ← seg.read base env prefer single spot rest.isEmpty with
    | none => return none
    | some spot => readSegments base env prefer single spot rest

/-- Read one segment. A plain name is looked up after its arguments have been read. -/
def PathSegment.read (base : Session) (env : Env) (prefer : Namespace) (single : Bool) (spot : Spot)
    (isLast : Bool) : PathSegment → Reading (Option Spot)
  | ⟨node, ident, generics⟩ =>
    let seg : PathSegment := ⟨node, ident, generics⟩
    match ident with
    | .malformed => .stopWith seg.unreadable
    | .crate =>
      if spot.isDeferred base then return none else readFirst base env spot seg base.root
    | .selfModule =>
      if spot.isDeferred base then return none else readFirst base env spot seg (env.here base)
    | .super => if spot.isDeferred base then return none else readSuper base env spot seg
    | .ident name =>
      if spot.isDeferred base then return none
      else do
        match generics with
        | none => pure ()
        | some args => args.read base env
        readName base env prefer single spot seg name isLast

/-- Read the arguments of a segment. -/
def GenericArgs.read (base : Session) (env : Env) : GenericArgs → Reading Unit
  | ⟨types, _⟩ => readTys base env types

def readTys (base : Session) (env : Env) : List Ty → Reading Unit
  | [] => pure ()
  | t :: ts => do
    discard (t.read base env)
    readTys base env ts

/-- Read a type. -/
def Ty.read (base : Session) (env : Env) : Ty → Reading TypeMeaning
  | .path _ p => do
    match ← p.read base env .type with
    | none => return .none
    | some m => return ⟨some m, some (m.path.specialise p.segments.getLast?)⟩
  | .qualified _ p => return ⟨none, ← p.read base env⟩
  | .tuple n [] => readBuiltin base n.id base.builtins.unit
  | .tuple _ elems => do
    readTys base env elems
    return .none
  | .array _ elem size => do
    let elem ← elem.read base env
    size.read base env
    return ⟨elem.decl, none⟩
  | .slice n elem => return (← elem.read base env).wrapped n.id fun p => "[" ++ p ++ "]"
  | .reference n mutable inner =>
    return (← inner.read base env).wrapped n.id fun p => (if mutable then "&mut " else "&") ++ p
  | .pointer n mutable inner =>
    return (← inner.read base env).wrapped n.id fun p =>
      (if mutable then "*mut " else "*const ") ++ p
  | .dynOne _ bound => return ⟨← bound.read base env, none⟩
  | .dyn _ bounds => do
    readBounds base env bounds
    return .none
  | .fnPointer _ params ret => do
    readParamTys base env params
    match ret with
    | none => return .none
    | some ret =>
      discard (ret.read base env)
      return .none
  | .inferred n => readBuiltin base n.id base.builtins.inferred
  | .never n => readBuiltin base n.id base.builtins.never

/-- Read a path that starts from a type. -/
def QualifiedPath.read (base : Session) (env : Env) :
    QualifiedPath → Reading (Option CanonicalPath)
  | ⟨node, qualifier, associated, rest⟩ => do
    match ← qualifier.read base env with
    | none => return none
    | some head =>
      match ← associated.readAppended base env head with
      | none => return none
      | some path =>
        match ← readAppendedSegments base env path rest with
        | none => return none
        | some path =>
          Reading.note (.qualified node.id path)
          return some path

/-- Read the head of a qualified path. -/
def Qualifier.read (base : Session) (env : Env) : Qualifier → Reading (Option CanonicalPath)
  | ⟨node, selfTy, asTrait⟩ => do
    match (← selfTy.read base env).headPath with
    | none => return none
    | some selfPath =>
      match asTrait with
      | none => return some selfPath
      | some traitPath =>
        match ← traitPath.read base env .type with
        | none => return none
        | some m => return some (.projection node.id m.path selfPath)

/-- Read segments that are appended as written to a canonical path. -/
def readAppendedSegments (base : Session) (env : Env) (path : CanonicalPath) :
    List PathSegment → Reading (Option CanonicalPath)
  | [] => return some path
  | seg :: rest => do
    match ← seg.readAppended base env path with
    | none => return none
    | some path => readAppendedSegments base env path rest

/-- Read a segment that is appended as written to a canonical path. -/
def PathSegment.readAppended (base : Session) (env : Env) (path : CanonicalPath) :
    PathSegment → Reading (Option CanonicalPath)
  | ⟨node, ident, generics⟩ => do
    let seg : PathSegment := ⟨node, ident, generics⟩
    if ident = .malformed then .stopWith seg.unreadable
    else
      match generics with
      | none => pure ()
      | some args => args.read base env
      return some (path ++ .single node.id (seg.canonicalText true))

/-- Read a trait bound. -/
def TraitBound.read (base : Session) (env : Env) : TraitBound → Reading (Option Meaning)
  | ⟨_, path⟩ => path.read base env .type

/-- Read a bound; a lifetime stands for nothing. -/
def Bound.read (base : Session) (env : Env) : Bound → Reading (Option Meaning)
  | .trait bound => bound.read base env
  | .lifetime _ => return none

def readBounds (base : Session) (env : Env) : List Bound → Reading Unit
  | [] => pure ()
  | b :: bs => do
    discard (b.read base env)
    readBounds base env bs

/-- Read the parameters of a function pointer. -/
def readParamTys (base : Session) (env : Env) : List FnPointerParam → Reading Unit
  | [] => pure ()
  | ⟨_, _, ty⟩ :: ps => do
    discard (ty.read base env)
    readParamTys base env ps

/-- Read an expression. -/
def Expr.read (base : Session) (env : Env) : Expr → Reading Unit
  | .literal _ _ => pure ()
  | .path _ p => discard (p.read base env .name)
  | .unary _ _ operand => operand.read base env
  | .binary _ _ lhs rhs => do
    lhs.read base env
    rhs.read base env
  | .call _ callee args => do
    callee.read base env
    readExprs base env args
  | .cast _ operand ty => do
    operand.read base env
    discard (ty.read base env)
  | .tuple _ elems => readExprs base env elems
  | .group _ inner => inner.read base env
  | .block _ body => body.read base env

def readExprs (base : Session) (env : Env) : List Expr → Reading Unit
  | [] => pure ()
  | e :: es => do
    e.read base env
    readExprs base env es

/-- Read a block in a frame of its own. -/
def Block.read (base : Session) (env : Env) : Block → Reading Unit
  | ⟨node, stmts, tail⟩ => do
    let inner ← readStmts base (env.enter node.id (Block.nodeIds ⟨node, stmts, tail⟩)) stmts
    match tail with
    | none => pure ()
    | some tail => tail.read base inner

/-- Read statements, each in the environment that those before it have made. -/
def readStmts (base : Session) (env : Env) : List Stmt → Reading Env
  | [] => return env
  | s :: rest => do
    let env ← s.read base env
    readStmts base env rest

/-- Read a statement. A `let` introduces its names last, so that its type and initializer see what
the names meant before. -/
def Stmt.read (base : Session) (env : Env) : Stmt → Reading Env
  | .bind _ pattern ty init => do
    match ty with
    | none => pure ()
    | some ty => discard (ty.read base env)
    match init with
    | none => pure ()
    | some init => init.read base env
    pattern.read env true
  | .expr _ value => do
    value.read base env
    return env
  | .empty _ => return env

end

/-- Read the arguments of a segment, if it has any. -/
def readGenericArgs (base : Session) (env : Env) : Option GenericArgs → Reading Unit
  | none => pure ()
  | some args => args.read base env

end NameResolution
