import NameResolution.Resolve.Item
import NameResolution.Privacy
import NameResolution.Settings

/-!
# NameResolution.Resolve.Crate

**A whole crate is resolved.** `Crate.resolve` seeds a session with the built-in types,
registers every declaration, resolves everything inside the items and, if the settings ask
for it, reports the uses of declarations that cannot be seen. What has been found out is a
`ResolvedCrate`.

The settings decide how names are written and what is reported, never what a path names.
-/

namespace NameResolution

open Resolution

namespace Session

/-- The canonical path of the crate root: empty, unless every path is to start with the name of
the crate. -/
def rootPathFor (c : Crate) (settings : Settings) : CanonicalPath :=
  if settings.prefixCrateName then .single c.node.id settings.crateName else .empty

/-- The session in which nothing has been done yet. The identities of the built-in types are taken
from the bound of the crate on. -/
def start (c : Crate) (settings : Settings) : Session where
  builtins := (Builtins.allocate (.startingAt c.idBound)).1
  root := c.node.id
  rootPath := rootPathFor c settings
  names := .empty .name
  types := .empty .type
  modules := .empty
  tables := .empty
  errors := .withLimit settings.maxDiagnostics

/-- Open the prelude in the type namespace, which is the only one it has anything in. -/
def openPrelude (s : Session) : Session := { s with types := s.types.push s.builtins.prelude }

/-- Close the prelude. -/
def closePrelude (s : Session) : Except Violation Unit × Session :=
  let (result, types) := s.types.pop s.builtins.prelude
  (result, { s with types })

end Session

/-- Bind a primitive type in the prelude. -/
def bindPrimitive (name : String) (id : NodeId) : Resolution Unit := do
  let path := CanonicalPath.single id name
  discard <| bindNew .type ⟨path, id, ⟨0, 0⟩⟩
  setPath id path

/-- Make the crate root known as a module, and the built-in types under their names. -/
def seed : Resolution Unit := do
  let s ← get
  markContainer s.root .module
  setPath s.root s.rootPath
  between Session.openPrelude Session.closePrelude do
    s.builtins.primitives.forM fun (name, id) => bindPrimitive name id
  setPath s.builtins.unit (.single s.builtins.unit "()")
  setPath s.builtins.never (.single s.builtins.never "!")
  setPath s.builtins.inferred (.single s.builtins.inferred "_")

/-- Report every use of a declaration that cannot be seen from where it is used. -/
def reportPrivateUses : Resolution Unit := do
  (← get).tables.privateUses.forM report

/-- Make sure that every module that was entered has been left. -/
def expectNoModule : Resolution Unit := do
  let s ← get
  match s.modules.current with
  | .error _ => pure ()
  | .ok found => throw (.unbalancedModuleStack s.root found)

/-- All of a resolution, in order. -/
def Crate.run (c : Crate) (settings : Settings) : Resolution Unit := do
  seed
  c.declare
  c.resolveItems
  if settings.checkPrivacy then reportPrivateUses
  expectNoModule

/-- Everything that has been found out about a crate. -/
structure ResolvedCrate where
  root : NodeId
  tables : Tables
  builtins : Builtins
  /-- The errors that are kept, in the order in which they were found. -/
  errors : List ResolveError
  /-- The number of errors that are not kept. -/
  dropped : Nat
  deriving DecidableEq, Repr

/-- The result of a session that has come to its end. -/
def Session.finish (s : Session) : ResolvedCrate :=
  ⟨s.root, s.tables, s.builtins, s.errors.kept, s.errors.dropped⟩

/-- Resolve every name of a crate. -/
def Crate.resolve (c : Crate) (settings : Settings) : Except Violation ResolvedCrate :=
  let (result, s) := (c.run settings).exec (.start c settings)
  result.map fun _ => s.finish

namespace ResolvedCrate

/-- Whether anything was reported. -/
def hasErrors (r : ResolvedCrate) : Bool := !r.errors.isEmpty || decide (0 < r.dropped)

/-- The canonical path of a declaration as text. -/
def pathText? (r : ResolvedCrate) (id : NodeId) : Option String :=
  (r.tables.paths.get? id).map CanonicalPath.text

/-- The declaration that a path or segment was resolved to, in either namespace. -/
def declarationOf? (r : ResolvedCrate) (use : NodeId) : Option NodeId := r.tables.resolved? use

/-- One line for each error, with its message and where it is, and one for those not kept. -/
def summary (r : ResolvedCrate) : String :=
  let line (e : ResolveError) : String := e.message ++ " @" ++ toString e.span.offset ++ "\n"
  let rest := if 0 < r.dropped then "... " ++ toString r.dropped ++ " more\n" else ""
  String.join (r.errors.map line) ++ rest

/-- What a reader is shown about each error, with the source text. -/
def reports (r : ResolvedCrate) (name text : String) : List Diagnostic :=
  r.errors.map fun e => e.diagnostic.withSource name text

end ResolvedCrate

end NameResolution
