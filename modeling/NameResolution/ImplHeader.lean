import NameResolution.CanonicalPath
import NameResolution.Tree.Text

/-!
# NameResolution.ImplHeader

**The path an implementation is registered under**, read off its header as written and
without resolving anything. Path segments are kept as they stand; references, pointers
and slices wrap the form of what they refer to; any other type is a single segment, its
written form. A segment that could not be read has no such form, and is returned instead.
-/

namespace NameResolution

/-- The segments of a path as written, with their generic arguments or without. -/
def Path.headerPath (withArgs : Bool) (p : Path) : Except PathSegment CanonicalPath := do
  let segments ← p.segments.mapM fun s =>
    if s.ident = .malformed then .error s else .ok (s.node.id, s.canonicalText withArgs)
  return ⟨segments⟩

/-- The path that a type contributes to the header of an implementation. -/
def Ty.headerPath (withArgs : Bool) : Ty → Except PathSegment CanonicalPath
  | .path _ p => p.headerPath withArgs
  | .reference n mutable inner =>
    (inner.headerPath withArgs).map fun p =>
      .single n.id ((if mutable then "&mut " else "&") ++ p.text)
  | .pointer n mutable inner =>
    (inner.headerPath withArgs).map fun p =>
      .single n.id ((if mutable then "*mut " else "*const ") ++ p.text)
  | .slice n elem =>
    (elem.headerPath withArgs).map fun p => .single n.id ("[" ++ p.text ++ "]")
  | other => .ok (.single other.node.id other.text)

end NameResolution
