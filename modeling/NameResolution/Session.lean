import NameResolution.Scope
import NameResolution.ModuleStack
import NameResolution.Tables
import NameResolution.Diagnostic
import NameResolution.Builtins

/-!
# NameResolution.Session

**One resolution under way.** A `Session` holds the two symbol tables, the stack of open
modules, the tables being filled and the errors reported so far. A `Resolution` is an
action on it that may fail with a `Violation`; the session survives a failure, so a frame
that was opened is closed on every way out.

Every pass is written in terms of the few actions of this module, which are the only ones
that touch the session:

* `Resolution.inFrame` and `Resolution.inModule` run an action with a frame open;
* `Resolution.makeBinding` makes a binding, reporting a duplicate;
* `Resolution.report`, `Resolution.updateTables` and `Resolution.setPath` add to what has
  been found out.

So a property that these keep, and that composition keeps, holds of every pass. What an
action does is read off `Resolution.exec`, its outcome and the session it leaves behind.
-/

namespace NameResolution

/-- The state of a resolution. -/
structure Session where
  builtins : Builtins
  /-- The crate root module. -/
  root : NodeId
  /-- The canonical path of the crate root. -/
  rootPath : CanonicalPath
  names : Scope
  types : Scope
  modules : ModuleStack
  tables : Tables
  errors : Collector
  deriving DecidableEq, Repr

namespace Session

/-- The symbol table of a namespace. -/
def scope (s : Session) : Namespace → Scope
  | .name => s.names
  | .type => s.types

/-- The session with another symbol table for a namespace. -/
def withScope (s : Session) (space : Namespace) (sc : Scope) : Session :=
  match space with
  | .name => { s with names := sc }
  | .type => { s with types := sc }

/-- Open the frame of a node in both namespaces. -/
def openFrame (s : Session) (owner : NodeId) : Session :=
  { s with names := s.names.push owner, types := s.types.push owner }

/-- Close the innermost frame of both namespaces, whatever either of them says. -/
def closeFrame (s : Session) (owner : NodeId) : Except Violation Unit × Session :=
  let (types, typeScope) := s.types.pop owner
  let (names, nameScope) := s.names.pop owner
  (types >>= fun _ => names, { s with names := nameScope, types := typeScope })

/-- Enter a module: its frame is opened in both namespaces. -/
def openModule (s : Session) (module : NodeId) : Session :=
  { s.openFrame module with modules := s.modules.push module }

/-- Leave the innermost module and close its frame. -/
def closeModule (s : Session) (module : NodeId) : Except Violation Unit × Session :=
  let (frame, s) := s.closeFrame module
  let (stack, modules) := s.modules.pop module
  (frame >>= fun _ => stack, { s with modules })

/-- The namespace that declared an identity. A module counts as a name wherever it was
declared, since the crate root is declared nowhere and a module refused as a duplicate can
still be reached from inside. -/
def classify (s : Session) (id : NodeId) : Option Namespace :=
  if s.names.wasDeclared id || s.tables.isModule id then some .name
  else if s.types.wasDeclared id then some .type
  else none

/-- What a name stands for in the preferred namespace or else in the other one. -/
def findLexical? (s : Session) (prefer : Namespace) (key : CanonicalPath) :
    Option (Namespace × NodeId) :=
  ((s.scope prefer).lookup? key).map (prefer, ·)
    |>.or (((s.scope prefer.other).lookup? key).map (prefer.other, ·))

end Session

/-- An action of a resolution. -/
abbrev Resolution := ExceptT Violation (StateM Session)

namespace Resolution

/-- The outcome of an action on a session, and the session that it leaves behind. -/
def exec (act : Resolution α) (s : Session) : Except Violation α × Session := act.run.run s

/-- Take a result that may be a violation as it is. -/
def ofExcept (r : Except Violation α) : Resolution α := ExceptT.mk (pure r)

/-- Run an action between an opening and a closing step. The closing step is taken whatever
becomes of the action, whose own violation comes first. -/
def between (opening : Session → Session) (closing : Session → Except Violation Unit × Session)
    (act : Resolution α) : Resolution α :=
  ExceptT.mk fun s =>
    let (result, s) := act.exec (opening s)
    let (closed, s) := closing s
    (result >>= fun a => closed.map fun _ => a, s)

/-! ### What the actions do to a session -/

@[simp]
theorem exec_pure (a : α) (s : Session) : (pure a : Resolution α).exec s = (.ok a, s) := rfl

@[simp]
theorem exec_throw (v : Violation) (s : Session) :
    (throw v : Resolution α).exec s = (.error v, s) := rfl

@[simp]
theorem exec_get (s : Session) : (get : Resolution Session).exec s = (.ok s, s) := rfl

@[simp]
theorem exec_set (s s' : Session) : (set s' : Resolution Unit).exec s = (.ok (), s') := rfl

@[simp]
theorem exec_modify (f : Session → Session) (s : Session) :
    (modify f : Resolution Unit).exec s = (.ok (), f s) := rfl

@[simp]
theorem exec_ofExcept (r : Except Violation α) (s : Session) : (ofExcept r).exec s = (r, s) := rfl

/-- The second action goes on from the session of the first one, unless that one failed. -/
theorem exec_bind (act : Resolution α) (next : α → Resolution β) (s : Session) :
    (act >>= next).exec s =
      match act.exec s with
      | (.ok a, s') => (next a).exec s'
      | (.error v, s') => (.error v, s') := by
  change ExceptT.bindCont next (act s).1 (act s).2 =
    match act s with
    | (.ok a, s') => next a s'
    | (.error v, s') => (.error v, s')
  rcases act s with ⟨result, s'⟩
  cases result <;> rfl

/-- The closing step is taken on the session that the action leaves behind. -/
theorem exec_between (opening : Session → Session)
    (closing : Session → Except Violation Unit × Session) (act : Resolution α) (s : Session) :
    (between opening closing act).exec s =
      ((act.exec (opening s)).1 >>= fun a => (closing (act.exec (opening s)).2).1.map fun _ => a,
        (closing (act.exec (opening s)).2).2) := rfl

/-! ### The vocabulary of the passes -/

/-- Run an action with the frame of a node open. -/
def inFrame (owner : NodeId) (act : Resolution α) : Resolution α :=
  between (·.openFrame owner) (·.closeFrame owner) act

/-- Run an action inside a module. -/
def inModule (module : NodeId) (act : Resolution α) : Resolution α :=
  between (·.openModule module) (·.closeModule module) act

/-- Run an action inside the crate root, with the prelude open beneath it. -/
def inCrate (act : Resolution α) : Resolution α := do
  let s ← get
  inFrame s.builtins.prelude (inModule s.root act)

/-- Report an error in the program. -/
def report (e : ResolveError) : Resolution Unit :=
  modify fun s => { s with errors := s.errors.push e }

/-- Change the tables. -/
def updateTables (f : Tables → Tables) : Resolution Unit :=
  modify fun s => { s with tables := f s.tables }

/-- Enter the canonical path of a declaration. -/
def setPath (id : NodeId) (path : CanonicalPath) : Resolution Unit := do
  let s ← get
  let tables ← ofExcept (s.tables.setPath id path)
  set { s with tables }

/-- The innermost open module. -/
def currentModule : Resolution NodeId := do
  ofExcept (← get).modules.current

/-- The outermost open module. -/
def rootModule : Resolution NodeId := do
  ofExcept (← get).modules.root

/-- The error of a name that is declared twice. -/
def redefinition (b earlier : Binding) : ResolveError :=
  .duplicateDefinition earlier.path.text b.locus earlier.locus

/-- Make a binding in the innermost frame of a namespace. Unless shadowing is allowed, a name
that the frame holds already is complained about and stays as it was. The answer is whether the
binding was made. -/
def makeBinding (space : Namespace) (b : Binding) (shadow : Bool)
    (complaint : Binding → Binding → ResolveError) : Resolution Bool := do
  let s ← get
  match ← ofExcept ((s.scope space).insert b shadow) with
  | .added scope =>
    set (s.withScope space scope)
    return true
  | .duplicate earlier =>
    report (complaint b earlier)
    return false

/-- Make a binding that may not repeat a name of the frame. -/
def bindNew (space : Namespace) (b : Binding) : Resolution Bool :=
  makeBinding space b false redefinition

/-- Note that a path segment was resolved to a declaration. Where the declaration has a
visibility, the use is kept for the privacy check. -/
def bindSegment (node : Node) (name : String) (space : Namespace) (decl here : NodeId) :
    Resolution Unit :=
  updateTables fun t =>
    let t := t.setResolved space node.id decl
    match t.visibilities.get? decl with
    | none => t
    | some _ => t.addUseSite ⟨node.id, decl, here, name, node.span⟩

end Resolution

end NameResolution
