import NameResolution.Violation

/-!
# NameResolution.ModuleStack

**The modules a pass is inside of**, from the innermost out to the crate root.
-/

namespace NameResolution

/-- The open modules, innermost first; the crate root is the last of them. -/
structure ModuleStack where
  opened : List NodeId
  deriving DecidableEq, Repr, Inhabited

namespace ModuleStack

/-- No module is open. -/
def empty : ModuleStack := ⟨[]⟩

/-- Enter a module. -/
def push (s : ModuleStack) (module : NodeId) : ModuleStack := ⟨module :: s.opened⟩

/-- Leave the innermost module, which should be `module`. It is left even when it is not. -/
def pop (s : ModuleStack) (module : NodeId) : Except Violation Unit × ModuleStack :=
  match s.opened with
  | [] => (.error .moduleStackUnderflow, s)
  | found :: outer =>
    (if found = module then .ok () else .error (.unbalancedModuleStack module found), ⟨outer⟩)

/-- The innermost open module. -/
def current (s : ModuleStack) : Except Violation NodeId :=
  match s.opened.head? with
  | some m => .ok m
  | none => .error .moduleStackUnderflow

/-- The module around the innermost one; the crate root has none. -/
def parent? (s : ModuleStack) : Option NodeId := s.opened[1]?

/-- The outermost open module. -/
def root (s : ModuleStack) : Except Violation NodeId :=
  match s.opened.getLast? with
  | some m => .ok m
  | none => .error .moduleStackUnderflow

/-- The number of open modules. -/
def depth (s : ModuleStack) : Nat := s.opened.length

/-- Whether no module is open. -/
def isEmpty (s : ModuleStack) : Bool := s.opened.isEmpty

end ModuleStack

end NameResolution
