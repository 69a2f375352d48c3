import NameResolution.Resolve.Path
import NameResolution.Proofs.SymbolTable

/-!
# NameResolution.Proofs.Lexical.Environment

**Lexical environments.** The second pass finds a name by searching ribs that are opened
and closed as it goes along. What it finds can be said without any such state: an
environment (`Env`) is a list of frames of local names, innermost first, and the modules
around them; a name stands for what the first frame has under it, then for what the first
module has under it, then for a primitive type (`Env.find?`), in the preferred namespace
or else in the other one (`Env.resolve`).

What the modules hold was settled by the first pass and never changes. It is read off the
session that the first pass leaves behind, which is called `base` throughout.
-/

namespace NameResolution

/-- What a name stands for: a declaration, the namespace that declared it and its canonical path. -/
structure Meaning where
  decl : NodeId
  space : Namespace
  path : CanonicalPath
  deriving DecidableEq, Repr

/-- What a declaration that the first pass has registered, or a built-in type, means. A built-in
type that no name stands for counts as a type. -/
def Session.meaning (base : Session) (id : NodeId) : Meaning :=
  ⟨id, (base.classify id).getD .type, (base.tables.paths.get? id).getD .empty⟩

/-- A name that is visible in one frame only. -/
structure LocalName where
  /-- The node that introduces the name. -/
  node : NodeId
  name : String
  locus : Span
  meaning : Meaning
  deriving DecidableEq, Repr

/-- The binding of a local name. -/
def LocalName.binding (l : LocalName) : Binding := ⟨.single l.node l.name, l.meaning.decl, l.locus⟩

/-- The local name that a node introduces for itself. -/
def LocalName.own (space : Namespace) (node : NodeId) (name : String) (locus : Span) : LocalName :=
  ⟨node, name, locus, ⟨node, space, .single node name⟩⟩

/-- The local names of one construct, those that come first in front. -/
structure Frame where
  /-- The node that opens the frame. -/
  owner : NodeId
  /-- The nodes of the construct. Nowhere else is any of the names visible. -/
  extent : List NodeId
  names : List LocalName
  types : List LocalName
  deriving DecidableEq, Repr

namespace Frame

/-- The local names in a namespace. -/
def locals (f : Frame) : Namespace → List LocalName
  | .name => f.names
  | .type => f.types

/-- The frame with one more local name, which comes before all others. -/
def add (f : Frame) (space : Namespace) (l : LocalName) : Frame :=
  match space with
  | .name => { f with names := l :: f.names }
  | .type => { f with types := l :: f.types }

/-- The local name that is spelled in a given way. -/
def find? (f : Frame) (space : Namespace) (name : String) : Option LocalName :=
  (f.locals space).find? fun l => decide (l.name = name)

end Frame

/-- What is visible at a point of the crate. -/
structure Env where
  /-- Innermost first. -/
  frames : List Frame
  /-- The modules around, innermost first. The crate root is the last of them. -/
  modules : List NodeId
  deriving DecidableEq, Repr

namespace Env

/-- Directly inside some modules, where no local name is visible. -/
def inside (modules : List NodeId) : Env := ⟨[], modules⟩

/-- Inside a construct that opens a frame. -/
def enter (env : Env) (owner : NodeId) (extent : List NodeId) : Env :=
  { env with frames := ⟨owner, extent, [], []⟩ :: env.frames }

/-- With one more name in the innermost frame, where it comes before all others. -/
def bind (env : Env) (space : Namespace) (l : LocalName) : Env :=
  match env.frames with
  | [] => env
  | f :: outer => { env with frames := f.add space l :: outer }

/-- The name that the innermost frame has already. -/
def findInnermost? (env : Env) (space : Namespace) (name : String) : Option LocalName :=
  env.frames.head?.bind (·.find? space name)

/-- The nodes whose ribs are open, innermost first. -/
def owners (base : Session) (env : Env) : List NodeId :=
  env.frames.map Frame.owner ++ env.modules ++ [base.builtins.prelude]

/-- The innermost module. -/
def here (base : Session) (env : Env) : NodeId := env.modules.headD base.root

/-- What the first pass has made of a name in a module, or what primitive type it is. -/
def findMember? (base : Session) (space : Namespace) (owner : NodeId) (name : String) :
    Option Meaning :=
  ((base.scope space).bindingIn? owner (.single owner name)).map fun b => base.meaning b.id

/-- What a name stands for in a namespace: the first frame that has it decides, then the first
module, then the prelude. -/
def find? (base : Session) (env : Env) (space : Namespace) (name : String) : Option Meaning :=
  ((env.frames.findSome? (·.find? space name)).map LocalName.meaning).or
    ((env.modules ++ [base.builtins.prelude]).findSome? (findMember? base space · name))

/-- What a name stands for in the preferred namespace or else in the other one, and in which of
them it was found. -/
def resolve (base : Session) (env : Env) (prefer : Namespace) (name : String) :
    Option (Namespace × Meaning) :=
  ((env.find? base prefer name).map (prefer, ·)).or
    ((env.find? base prefer.other name).map (prefer.other, ·))

end Env

/-! ### Findings -/

/-- What the second pass finds out on its way. -/
inductive Finding
  /-- A segment was resolved, in a module. -/
  | segment (space : Namespace) (node : Node) (name : String) (decl here : NodeId)
  /-- A path or a type was resolved. -/
  | resolved (space : Namespace) (use decl : NodeId)
  /-- A path that starts from a type has a canonical form. -/
  | qualified (use : NodeId) (path : CanonicalPath)
  | error (e : ResolveError)
  /-- A path has been followed to its end, or as far as it leads. -/
  | visit (path : Path) (prefer : Namespace) (env : Env) (outcome : Option Meaning)

/-- The tables and errors that the second pass adds to. -/
structure Ledger where
  names : Register NodeId
  types : Register NodeId
  qualified : Register CanonicalPath
  useSites : List UseSite
  reported : List ResolveError
  deriving DecidableEq, Repr

/-- The part of a session that the second pass adds to. -/
def Session.ledger (s : Session) : Ledger :=
  ⟨s.tables.names, s.tables.types, s.tables.qualified, s.tables.useSites, s.errors.reported⟩

namespace Ledger

/-- Enter the declaration that a node was resolved to. -/
def setResolved (l : Ledger) (space : Namespace) (use decl : NodeId) : Ledger :=
  match space with
  | .name => { l with names := l.names.set use decl }
  | .type => { l with types := l.types.set use decl }

/-- Enter one finding. A segment is a use site if its declaration has a visibility. -/
def note (base : Session) (l : Ledger) : Finding → Ledger
  | .segment space node name decl here =>
    let l := l.setResolved space node.id decl
    match base.tables.visibilities.get? decl with
    | none => l
    | some _ => { l with useSites := l.useSites ++ [⟨node.id, decl, here, name, node.span⟩] }
  | .resolved space use decl => l.setResolved space use decl
  | .qualified use path => { l with qualified := l.qualified.set use path }
  | .error e => { l with reported := l.reported ++ [e] }
  | .visit _ _ _ _ => l

/-- Enter findings one after the other. -/
def noteAll (base : Session) (l : Ledger) (findings : List Finding) : Ledger :=
  findings.foldl (note base) l

end Ledger

/-- A value together with what was found out on the way to it. -/
structure Reading (α : Type) where
  value : α
  findings : List Finding

namespace Reading

/-- Nothing is found out. -/
def of (a : α) : Reading α := ⟨a, []⟩

/-- One more finding. -/
def note (f : Finding) : Reading Unit := ⟨(), [f]⟩

instance : Monad Reading where
  pure := of
  bind r next := ⟨(next r.value).value, r.findings ++ (next r.value).findings⟩

@[simp] theorem value_pure (a : α) : (pure a : Reading α).value = a := rfl

@[simp] theorem findings_pure (a : α) : (pure a : Reading α).findings = [] := rfl

@[simp] theorem value_bind (r : Reading α) (next : α → Reading β) :
    (r >>= next).value = (next r.value).value := rfl

@[simp] theorem findings_bind (r : Reading α) (next : α → Reading β) :
    (r >>= next).findings = r.findings ++ (next r.value).findings := rfl

@[simp] theorem findings_note (f : Finding) : (note f).findings = [f] := rfl

/-- What comes next only has to be the same for the value that there is. -/
theorem bind_congr {r : Reading α} {next next' : α → Reading β}
    (h : next r.value = next' r.value) : r >>= next = r >>= next' :=
  congrArg (fun after : Reading β => (⟨after.value, r.findings ++ after.findings⟩ : Reading β)) h

/-- Stop with an error. -/
def stopWith (e : ResolveError) : Reading (Option α) := ⟨none, [.error e]⟩

end Reading

end NameResolution
