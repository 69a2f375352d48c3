import NameResolution.Resolve.Step

/-!
# NameResolution.Resolve.Path

**Paths, types and expressions are resolved**, in one mutual recursion over the tree.

* `Path.resolve` answers with the declaration that a path names, or with nothing if it
  failed and was reported, or if its end is left to type checking.
* `Ty.resolve` answers with the declaration that a type names, if it names exactly one, and
  with the canonical path of the type, if it has one. References, pointers and slices name
  what they refer to.
* `Expr.resolve` and `Block.resolve` answer nothing. A block has a frame of its own, in
  which a later `let` may shadow an earlier one.
-/

namespace NameResolution

open Resolution

/-- What became of a type. -/
structure ResolvedTy where
  /-- The declaration that the type names, if it names exactly one. -/
  decl : Option NodeId
  path : Option CanonicalPath
  deriving DecidableEq, Repr

namespace ResolvedTy

/-- A type that names nothing. -/
def none : ResolvedTy := ⟨.none, .none⟩

/-- The type around another: it names the same declaration, and `wrap` writes its path. -/
def wrapped (t : ResolvedTy) (id : NodeId) (wrap : String → String) : ResolvedTy :=
  ⟨t.decl, t.path.map fun p => .single id (wrap p.text)⟩

end ResolvedTy

/-- The canonical path of a declaration named by a path, whose last segment lends its generic
arguments to the innermost segment. -/
def CanonicalPath.specialise (p : CanonicalPath) (last : Option PathSegment) : CanonicalPath :=
  match last with
  | none => p
  | some seg =>
    if seg.hasArgs then
      p.mapLast fun (_, text) => (seg.node.id, text ++ "::" ++ canonicalArgs seg.args)
    else p

/-- Resolve a type that has a form of its own to a built-in type. -/
def resolveBuiltin (use : NodeId) (pick : Builtins → NodeId) : Resolution ResolvedTy := do
  let s ← get
  let builtin := pick s.builtins
  updateTables (·.setResolved .type use builtin)
  return ⟨some builtin, s.tables.paths.get? builtin⟩

/-- The canonical path of a declaration that has to have one. -/
def pathOf (decl : NodeId) : Resolution CanonicalPath := do
  match (← get).tables.paths.get? decl with
  | some path => return path
  | none => throw (.missingCanonicalPath decl)

/-- The canonical path that the head of a qualified path takes from its type: that of the type
itself or else that of the declaration it names. -/
def ResolvedTy.headPath (t : ResolvedTy) : Resolution (Option CanonicalPath) :=
  match t.path, t.decl with
  | some path, _ => return some path
  | .none, some decl => some <$> pathOf decl
  | .none, .none => return Option.none

/-- Bind a name of a pattern in the innermost frame. Where shadowing is not allowed, the frame may
not hold the name already. -/
def bindPatternName (shadow : Bool) (node : Node) (name : Ident) : Resolution Unit := do
  let path := CanonicalPath.single node.id name.name
  if ← makeBinding .name ⟨path, node.id, name.span⟩ shadow redefinition then
    setPath node.id path

mutual

/-- Bind every name of a pattern, from left to right. -/
def Pattern.bindNames (shadow : Bool) : Pattern → Resolution Unit
  | .binding node name _ => bindPatternName shadow node name
  | .tuple _ elems => bindPatterns shadow elems
  | .wildcard _ => pure ()

/-- Bind the names of patterns one after the other. -/
def bindPatterns (shadow : Bool) : List Pattern → Resolution Unit
  | [] => pure ()
  | p :: ps => do
    p.bindNames shadow
    bindPatterns shadow ps

end

mutual

/-- Resolve a path, trying one namespace before the other. -/
def Path.resolve (prefer : Namespace) : Path → Resolution (Option NodeId)
  | ⟨node, segments⟩ => do
    let w : Walk := ⟨← currentModule, ← rootModule, prefer, segments.length == 1⟩
    match ← receiver? w segments with
    | some receiver =>
      updateTables (·.setResolved .name node.id receiver)
      return some receiver
    | none =>
      match ← walk w ⟨w.here, none⟩ segments with
      | none => return none
      | some decl =>
        recordPath node.id decl
        return some decl

/-- Walk along the remaining segments of a path. -/
def walk (w : Walk) (pos : Position) : List PathSegment → Resolution (Option NodeId)
  | [] => return pos.reached
  | seg :: rest => do
    match ← seg.follow w pos rest.isEmpty with
    | none => return none
    | some pos => walk w pos rest

/-- Follow one segment. A plain name is looked up after its arguments have been resolved. -/
def PathSegment.follow (w : Walk) (pos : Position) (isLast : Bool) :
    PathSegment → Resolution (Option Position)
  | ⟨node, ident, generics⟩ =>
    let seg : PathSegment := ⟨node, ident, generics⟩
    match ident with
    | .malformed => stopWith seg.unreadable
    | .crate => unlessDeferred pos (followFirst w pos seg w.root)
    | .selfModule => unlessDeferred pos (followFirst w pos seg w.here)
    | .super => unlessDeferred pos (followSuper w pos seg)
    | .ident name =>
      unlessDeferred pos do
        match generics with
        | none => pure ()
        | some args => args.resolve
        followName w pos seg name isLast

/-- Resolve the arguments of a segment. -/
def GenericArgs.resolve : GenericArgs → Resolution Unit
  | ⟨types, _⟩ => resolveTys types

/-- Resolve types one after the other. -/
def resolveTys : List Ty → Resolution Unit
  | [] => pure ()
  | t :: ts => do
    discard t.resolve
    resolveTys ts

/-- Resolve a type. -/
def Ty.resolve : Ty → Resolution ResolvedTy
  | .path _ p => do
    match ← p.resolve .type with
    | none => return .none
    | some decl =>
      let path := (← get).tables.paths.get? decl
      return ⟨some decl, path.map (·.specialise p.segments.getLast?)⟩
  | .qualified _ p => return ⟨none, ← p.resolve⟩
  | .tuple n [] => resolveBuiltin n.id Builtins.unit
  | .tuple _ elems => do
    resolveTys elems
    return .none
  | .array _ elem size => do
    let elem ← elem.resolve
    size.resolve
    return ⟨elem.decl, none⟩
  | .slice n elem => return (← elem.resolve).wrapped n.id fun p => "[" ++ p ++ "]"
  | .reference n mutable inner =>
    return (← inner.resolve).wrapped n.id fun p => (if mutable then "&mut " else "&") ++ p
  | .pointer n mutable inner =>
    return (← inner.resolve).wrapped n.id fun p => (if mutable then "*mut " else "*const ") ++ p
  | .dynOne _ bound => return ⟨← bound.resolve, none⟩
  | .dyn _ bounds => do
    resolveBounds bounds
    return .none
  | .fnPointer _ params ret => do
    resolveParamTys params
    match ret with
    | none => return .none
    | some ret =>
      discard ret.resolve
      return .none
  | .inferred n => resolveBuiltin n.id Builtins.inferred
  | .never n => resolveBuiltin n.id Builtins.never

/-- Resolve a path that starts from a type to its canonical path, and record that. Its head is the
projection of the trait's path and the type's, or just the type's; the other segments are appended
as written. -/
def QualifiedPath.resolve : QualifiedPath → Resolution (Option CanonicalPath)
  | ⟨node, qualifier, associated, rest⟩ => do
    match ← qualifier.resolve with
    | none => return none
    | some head =>
      match ← associated.append head with
      | none => return none
      | some path =>
        match ← appendSegments path rest with
        | none => return none
        | some path =>
          updateTables fun t => { t with qualified := t.qualified.set node.id path }
          return some path

/-- Resolve the head of a qualified path. -/
def Qualifier.resolve : Qualifier → Resolution (Option CanonicalPath)
  | ⟨node, selfTy, asTrait⟩ => do
    match ← (← selfTy.resolve).headPath with
    | none => return none
    | some selfPath =>
      match asTrait with
      | none => return some selfPath
      | some traitPath =>
        match ← traitPath.resolve .type with
        | none => return none
        | some decl => return some (.projection node.id (← pathOf decl) selfPath)

/-- Append segments as written to a canonical path. -/
def appendSegments (path : CanonicalPath) : List PathSegment → Resolution (Option CanonicalPath)
  | [] => return some path
  | seg :: rest => do
    match ← seg.append path with
    | none => return none
    | some path => appendSegments path rest

/-- Append a segment as written to a canonical path, resolving its arguments. -/
def PathSegment.append (path : CanonicalPath) :
    PathSegment → Resolution (Option CanonicalPath)
  | ⟨node, ident, generics⟩ => do
    let seg : PathSegment := ⟨node, ident, generics⟩
    if ident = .malformed then stopWith seg.unreadable
    else
      match generics with
      | none => pure ()
      | some args => args.resolve
      return some (path ++ .single node.id (seg.canonicalText true))

/-- Resolve a trait bound to the trait that it names. -/
def TraitBound.resolve : TraitBound → Resolution (Option NodeId)
  | ⟨_, path⟩ => path.resolve .type

/-- Resolve a bound; a lifetime names nothing. -/
def Bound.resolve : Bound → Resolution (Option NodeId)
  | .trait bound => bound.resolve
  | .lifetime _ => return none

/-- Resolve bounds one after the other. -/
def resolveBounds : List Bound → Resolution Unit
  | [] => pure ()
  | b :: bs => do
    discard b.resolve
    resolveBounds bs

/-- Resolve the parameters of a function pointer one after the other. -/
def resolveParamTys : List FnPointerParam → Resolution Unit
  | [] => pure ()
  | ⟨_, _, ty⟩ :: ps => do
    discard ty.resolve
    resolveParamTys ps

/-- Resolve the paths and types of an expression. -/
def Expr.resolve : Expr → Resolution Unit
  | .literal _ _ => pure ()
  | .path _ p => discard (p.resolve .name)
  | .unary _ _ operand => operand.resolve
  | .binary _ _ lhs rhs => do
    lhs.resolve
    rhs.resolve
  | .call _ callee args => do
    callee.resolve
    resolveExprs args
  | .cast _ operand ty => do
    operand.resolve
    discard ty.resolve
  | .tuple _ elems => resolveExprs elems
  | .group _ inner => inner.resolve
  | .block _ body => body.resolve

/-- Resolve expressions one after the other. -/
def resolveExprs : List Expr → Resolution Unit
  | [] => pure ()
  | e :: es => do
    e.resolve
    resolveExprs es

/-- Resolve a block in a frame of its own. -/
def Block.resolve : Block → Resolution Unit
  | ⟨node, stmts, tail⟩ =>
    inFrame node.id do
      resolveStmts stmts
      match tail with
      | none => pure ()
      | some tail => tail.resolve

/-- Resolve statements one after the other. -/
def resolveStmts : List Stmt → Resolution Unit
  | [] => pure ()
  | s :: rest => do
    s.resolve
    resolveStmts rest

/-- Resolve a statement. A `let` binds its names last, so that its type and initializer see what
the names meant before. -/
def Stmt.resolve : Stmt → Resolution Unit
  | .bind _ pattern ty init => do
    match ty with
    | none => pure ()
    | some ty => discard ty.resolve
    match init with
    | none => pure ()
    | some init => init.resolve
    pattern.bindNames true
  | .expr _ value => value.resolve
  | .empty _ => pure ()

end

end NameResolution
