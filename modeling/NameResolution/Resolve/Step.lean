import NameResolution.Declaration

/-!
# NameResolution.Resolve.Step

**One step along a path.** A path is walked segment by segment from the module it stands
in. This module holds everything a step does apart from resolving the generic arguments
of a segment, which is left to `NameResolution.Resolve.Path`:

* keywords (`followKeyword`) move to the crate root, the parent module or the current one;
* a plain name is looked for among the children of what has been reached
  (`Session.pickChild?`) and, if it comes first, in the open frames
  (`Session.findLexical?`).

Every step either goes on with a declaration or stops, and a step that stops for an error
has reported it.
-/

namespace NameResolution

open Resolution

/-- What stays the same all along a path. -/
structure Walk where
  /-- The module that the path stands in. -/
  here : NodeId
  root : NodeId
  /-- The namespace that comes first: types in a type, names in an expression. -/
  prefer : Namespace
  /-- Whether the path consists of a single segment. -/
  single : Bool
  deriving DecidableEq, Repr

/-- How far along a path a walk has come. -/
structure Position where
  /-- The module, enum or trait whose children the next segment may name. -/
  scope : NodeId
  /-- What the segments so far name; nothing before the first one. -/
  reached : Option NodeId
  deriving DecidableEq, Repr

namespace Session

/-- The child that a segment names among those with its name. A segment before the last one
wants something with children of its own, the last one wants the preferred namespace; if no
child is as wanted, the first one is taken. -/
def pickChild? (s : Session) (prefer : Namespace) (isLast : Bool) (candidates : List NodeId) :
    Option NodeId :=
  let wanted (id : NodeId) : Bool :=
    if isLast then s.classify id == some prefer else s.tables.isContainer id
  (candidates.find? wanted).or candidates.head?

/-- The module around a module: the stack knows that of the current one, the table of parents
that of any other. -/
def parentModule? (s : Session) (here module : NodeId) : Option NodeId :=
  if module = here then s.modules.parent? else s.tables.parents.get? module

/-- Whether what has been reached has no children that a further segment could name, so that the
rest of the path is left to type checking. -/
def isDeferred (s : Session) (pos : Position) : Bool :=
  match pos.reached with
  | none => false
  | some decl => !s.tables.isContainer decl

/-- Where a walk stands once a plain name has led to a declaration. Something without children
leaves the container as it was. -/
def advance (s : Session) (pos : Position) (decl : NodeId) : Position :=
  ⟨if s.tables.isContainer decl then decl else pos.scope, some decl⟩

end Session

/-- The error of a segment that is not a child of what comes before it. -/
def PathSegment.notFound (seg : PathSegment) : ResolveError :=
  .cannotFindPath seg.text seg.node.span

/-- Resolve a segment to a declaration. -/
def PathSegment.bindTo (seg : PathSegment) (space : Namespace) (decl here : NodeId) :
    Resolution Unit :=
  bindSegment seg.node seg.ident.text space decl here

/-- Stop at a segment with an error. -/
def stopWith (e : ResolveError) : Resolution (Option α) := do
  report e
  return none

/-- Take a step unless the rest of the path is left to type checking. -/
def unlessDeferred (pos : Position) (step : Resolution (Option Position)) :
    Resolution (Option Position) := do
  if (← get).isDeferred pos then return none else step

/-- Go on to a module that a keyword stands for. -/
def enterModule (w : Walk) (seg : PathSegment) (module : NodeId) :
    Resolution (Option Position) := do
  seg.bindTo .name module w.here
  return some ⟨module, some module⟩

/-- Follow a segment that names a fixed module; such a segment can only come first. -/
def followFirst (w : Walk) (pos : Position) (seg : PathSegment) (module : NodeId) :
    Resolution (Option Position) :=
  if pos.reached.isSome then stopWith seg.notFound else enterModule w seg module

/-- Follow the keyword `super` to the parent of the module reached. -/
def followSuper (w : Walk) (pos : Position) (seg : PathSegment) :
    Resolution (Option Position) := do
  let s ← get
  if pos.scope = w.root then stopWith (.superAtCrateScope seg.node.span)
  else if s.tables.isModule pos.scope then
    match s.parentModule? w.here pos.scope with
    | none => stopWith (.superAtCrateScope seg.node.span)
    | some parent => enterModule w seg parent
  else stopWith seg.notFound

/-- Go on to the declaration that a plain name stands for. -/
def enterDeclaration (w : Walk) (pos : Position) (seg : PathSegment) (space : Namespace)
    (decl : NodeId) : Resolution (Option Position) := do
  seg.bindTo space decl w.here
  return some ((← get).advance pos decl)

/-- Follow a plain name. A path of a single segment is looked up in the open frames only. -/
def followName (w : Walk) (pos : Position) (seg : PathSegment) (name : String) (isLast : Bool) :
    Resolution (Option Position) := do
  let s ← get
  let child :=
    if w.single then none
    else s.pickChild? w.prefer isLast (s.tables.childrenNamed pos.scope name)
  match child with
  | some child =>
    match s.classify child with
    | none => throw (.unclassifiedDeclaration child)
    | some space => enterDeclaration w pos seg space child
  | none =>
    if pos.reached.isSome then stopWith seg.notFound
    else
      match s.findLexical? w.prefer (.single seg.node.id name) with
      | none => stopWith (.failedToResolvePath name seg.node.span)
      | some (space, decl) => enterDeclaration w pos seg space decl

/-- The receiver that a lone `self` in an expression stands for, inside a method. -/
def receiver? (w : Walk) (segments : List PathSegment) : Resolution (Option NodeId) := do
  match segments, w.prefer with
  | [seg], .name =>
    if seg.ident = .selfModule then
      match (← get).names.lookup? (.single seg.node.id "self") with
      | none => return none
      | some receiver =>
        seg.bindTo .name receiver w.here
        return some receiver
    else return none
  | _, _ => return none

/-- Record what a whole path names, in the namespace that declared it. -/
def recordPath (path decl : NodeId) : Resolution Unit := do
  match (← get).classify decl with
  | none => throw (.unclassifiedDeclaration decl)
  | some space => updateTables (·.setResolved space path decl)

end NameResolution
