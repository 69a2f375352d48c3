import NameResolution.NodeId

/-!
# NameResolution.Diagnostic

**Errors in the program that is being resolved.** They never end a resolution: each is
reported to a `Collector`, and the path or declaration concerned is left as it is.

A `ResolveError` says what is wrong and where. Its wording, code, advice and marked
places (`ResolveError.diagnostic`) are what a reader is shown; attaching the source text
(`Diagnostic.withSource`) makes it possible to show the marked code itself.
-/

namespace NameResolution

/-- What can be wrong with the names of a program. -/
inductive ResolveError
  /-- A name was declared twice in one scope of one namespace. -/
  | duplicateDefinition (name : String) (span previous : Span)
  /-- A generic parameter has the name of an earlier declaration in the frame of its item. -/
  | genericParamRedefined (name : String) (span previous : Span)
  /-- The keyword `super` was used where the module is the crate root. -/
  | superAtCrateScope (span : Span)
  /-- A segment after the first is not a child of what the segments before it name. -/
  | cannotFindPath (path : String) (span : Span)
  /-- The first segment of a path names nothing that can be seen from where it stands. -/
  | failedToResolvePath (name : String) (span : Span)
  /-- A segment could not be read. -/
  | segmentHasError (segment : String) (span : Span)
  /-- A path names a declaration that cannot be seen from where the path stands. -/
  | privateItem (name : String) (span declared : Span)
  deriving DecidableEq, Repr

/-- What a reader is shown about an error. -/
structure Diagnostic where
  message : String
  code : String
  /-- Advice on how to mend the error. -/
  help : Option String
  /-- The places that matter, each with what to note about it. -/
  labels : List (String × Span)
  /-- The name and text of the source that the places refer to. -/
  source : Option (String × String)
  deriving DecidableEq, Repr

/-- The diagnostic together with the source text that it refers to. -/
def Diagnostic.withSource (d : Diagnostic) (name text : String) : Diagnostic :=
  { d with source := some (name, text) }

namespace ResolveError

/-- The place where the error is. -/
def span : ResolveError → Span
  | duplicateDefinition _ span _ | genericParamRedefined _ span _ | superAtCrateScope span
  | cannotFindPath _ span | failedToResolvePath _ span | segmentHasError _ span
  | privateItem _ span _ => span

/-- The wording of each error. -/
def message : ResolveError → String
  | duplicateDefinition name _ _ => "`" ++ name ++ "` redefined multiple times"
  | genericParamRedefined _ _ _ => "generic param redefined multiple times"
  | superAtCrateScope _ => "cannot use `super` at the crate scope"
  | cannotFindPath path _ => "cannot find path `" ++ path ++ "` in this scope"
  | failedToResolvePath name _ => "failed to resolve path: `" ++ name ++ "` in this scope"
  | segmentHasError segment _ => "segment has error: `" ++ segment ++ "`"
  | privateItem name _ _ => "`" ++ name ++ "` is private"

/-- The code that identifies the kind of error. -/
def code : ResolveError → String
  | duplicateDefinition _ _ _ => "osprey_resolve::duplicate_definition"
  | genericParamRedefined _ _ _ => "osprey_resolve::generic_param_redefined"
  | superAtCrateScope _ => "osprey_resolve::super_at_crate_scope"
  | cannotFindPath _ _ => "osprey_resolve::cannot_find_path"
  | failedToResolvePath _ _ => "osprey_resolve::failed_to_resolve_path"
  | segmentHasError _ _ => "osprey_resolve::segment_has_error"
  | privateItem _ _ _ => "osprey_resolve::private_item"

/-- The advice for the kinds of error that have any. -/
def help : ResolveError → Option String
  | superAtCrateScope _ => some "the crate root has no parent module"
  | failedToResolvePath name _ =>
    some ("Is `" ++ name ++ "` declared in this module or one of its parents?")
  | _ => none

/-- The marked places, the error's own first. -/
def labels : ResolveError → List (String × Span)
  | duplicateDefinition _ span previous =>
    [("redefined here", span), ("previous definition here", previous)]
  | genericParamRedefined name span previous =>
    [("`" ++ name ++ "` redefined here", span), ("first declared here", previous)]
  | superAtCrateScope span => [("`super` used here", span)]
  | cannotFindPath _ span => [("not found", span)]
  | failedToResolvePath _ span => [("not found in this scope", span)]
  | segmentHasError _ span => [("malformed segment", span)]
  | privateItem _ span declared =>
    [("private item used here", span), ("declared here", declared)]

/-- What a reader is shown about the error, without the source text. -/
def diagnostic (e : ResolveError) : Diagnostic :=
  ⟨e.message, e.code, e.help, e.labels, none⟩

end ResolveError

/-- The errors reported so far, and how many of them to keep. -/
structure Collector where
  /-- How many errors to keep; zero keeps them all. -/
  limit : Nat
  /-- Every error, in the order of the reports. -/
  reported : List ResolveError
  deriving DecidableEq, Repr

namespace Collector

/-- A collector with a limit, before any report. -/
def withLimit (limit : Nat) : Collector := ⟨limit, []⟩

/-- Report an error. -/
def push (c : Collector) (e : ResolveError) : Collector :=
  { c with reported := c.reported ++ [e] }

/-- The errors that are kept: the first ones, as far as the limit allows. -/
def kept (c : Collector) : List ResolveError :=
  if c.limit = 0 then c.reported else c.reported.take c.limit

/-- The number of errors that are not kept. -/
def dropped (c : Collector) : Nat := c.reported.length - c.kept.length

@[simp] theorem reported_push (c : Collector) (e : ResolveError) :
    (c.push e).reported = c.reported ++ [e] := rfl

@[simp] theorem limit_push (c : Collector) (e : ResolveError) : (c.push e).limit = c.limit := rfl

theorem kept_eq_reported {c : Collector} (h : c.limit = 0) : c.kept = c.reported := by
  simp [kept, h]

end Collector

end NameResolution
