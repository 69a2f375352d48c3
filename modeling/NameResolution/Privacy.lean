import NameResolution.Tables
import NameResolution.Diagnostic

/-!
# NameResolution.Privacy

**Who may see what.** A declaration can be seen from every module that its visibility
reaches; a use site in any other module is an error. The check runs over the recorded
use sites once everything is resolved, so visibility never influences what a path names.
-/

namespace NameResolution

namespace Tables

/-- The outermost module from which a declaration can be seen, or none if all of the crate
can see it. The crate root stands in for its missing parent. -/
def visibleWithin (t : Tables) (d : DeclVisibility) : Option NodeId :=
  match d.vis with
  | .everywhere | .ownCrate => none
  | .ownModule => some d.module
  | .parentModule => some ((t.parents.get? d.module).getD d.module)

/-- Whether code in a module can see a declaration. -/
def isVisible (t : Tables) (d : DeclVisibility) (module : NodeId) : Bool :=
  match t.visibleWithin d with
  | none => true
  | some outermost => t.isWithin module outermost

/-- The error of a use site whose declaration cannot be seen from it. -/
def privateUse? (t : Tables) (site : UseSite) : Option ResolveError :=
  match t.visibilities.get? site.decl with
  | none => none
  | some d =>
    if t.isVisible d site.module then none else some (.privateItem site.name site.span d.span)

/-- The errors of all use sites, in the order of resolution. -/
def privateUses (t : Tables) : List ResolveError := t.useSites.filterMap t.privateUse?

end Tables

end NameResolution
