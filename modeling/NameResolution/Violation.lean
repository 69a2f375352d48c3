import NameResolution.NodeId
import NameResolution.Namespace

/-!
# NameResolution.Violation

**Broken bookkeeping.** A `Violation` says that a step was asked to do something its
own bookkeeping rules out, such as closing a frame that is not the innermost one. It
ends the resolution, unlike an error in the program being resolved, which is only
collected (`NameResolution.Diagnostic`).
-/

namespace NameResolution

/-- The ways in which the bookkeeping of a resolution can be broken. -/
inductive Violation
  /-- A module was asked for or closed while none was open. -/
  | moduleStackUnderflow
  /-- The module closed was not the innermost open one. -/
  | unbalancedModuleStack (expected found : NodeId)
  /-- A frame was needed or closed while none was open. -/
  | scopeStackUnderflow (space : Namespace)
  /-- The frame closed was not the innermost open one. -/
  | unbalancedScopeStack (space : Namespace) (expected found : NodeId)
  /-- A path led to a declaration that neither namespace ever bound. -/
  | unclassifiedDeclaration (id : NodeId)
  /-- A declaration that a qualified path names has no canonical path. -/
  | missingCanonicalPath (id : NodeId)
  /-- One declaration was given two different canonical paths. -/
  | canonicalPathConflict (id : NodeId) (existing new : String)
  deriving DecidableEq, Repr

namespace Violation

/-- The wording of each violation. -/
def message : Violation → String
  | moduleStackUnderflow => "module stack is empty"
  | unbalancedModuleStack expected found =>
    "popped module " ++ found.text ++ " while " ++ expected.text ++ " was expected on top"
  | scopeStackUnderflow space => space.text ++ " scope has no open frame"
  | unbalancedScopeStack space expected found =>
    space.text ++ " scope popped frame " ++ found.text ++ " while " ++ expected.text
      ++ " was expected on top"
  | unclassifiedDeclaration id =>
    "declaration " ++ id.text ++ " resolved but is registered in neither namespace"
  | missingCanonicalPath id => "declaration " ++ id.text ++ " has no canonical path"
  | canonicalPathConflict id existing new =>
    "canonical path of " ++ id.text ++ " re-inserted as `" ++ new ++ "`, already `" ++ existing
      ++ "`"

end Violation

end NameResolution
