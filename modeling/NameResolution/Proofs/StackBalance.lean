import NameResolution.Proofs.TreeRules

/-!
# NameResolution.Proofs.StackBalance

**Every action leaves the stacks as it found them** (`Resolution.stacks_balanced`), the
stack of modules and the stacks of open ribs of both namespaces: from any session, for any
tree, and also if it ends with a violation.

Only `between` opens anything, and its closing step takes one rib off each stack, and one
module if a module was entered, whatever it finds there. So once the action inside is
balanced, what is closed is what was opened.
-/

namespace NameResolution

open Resolution

/-- The same modules and, in both namespaces, the same ribs are open. -/
structure Session.SameStacks (s s' : Session) : Prop where
  modules : s'.modules = s.modules
  opened : ∀ space, (s'.scope space).opened = (s.scope space).opened

namespace Session.SameStacks

variable {s s₁ s₂ : Session}

theorem refl (s : Session) : s.SameStacks s := ⟨rfl, fun _ => rfl⟩

theorem trans (h₁ : s.SameStacks s₁) (h₂ : s₁.SameStacks s₂) : s.SameStacks s₂ where
  modules := h₂.modules.trans h₁.modules
  opened space := (h₂.opened space).trans (h₁.opened space)

theorem withTables (s : Session) (t : Tables) : s.SameStacks (s.withTables t) :=
  ⟨rfl, fun space => by rw [scope_withTables]⟩

theorem reporting (s : Session) (e : ResolveError) : s.SameStacks (s.reporting e) :=
  ⟨rfl, fun space => by rw [scope_reporting]⟩

theorem withBinding (s : Session) (space : Namespace) (owner : NodeId) (b : Binding) :
    s.SameStacks (s.withBinding space owner b) where
  modules := s.modules_withScope space _
  opened x := s.opened_withBinding space owner b x

/-- The frame that is closed is the one that was opened, since nothing else is open on top of it
any more. -/
theorem withoutFrame {owner : NodeId} (h : (s.openFrame owner).SameStacks s₁) :
    s.SameStacks s₁.withoutFrame where
  modules := h.modules
  opened space := by
    calc (s₁.withoutFrame.scope space).opened
        = (s₁.scope space).opened.tail := by rw [scope_withoutFrame]
      _ = ((s.openFrame owner).scope space).opened.tail := by rw [h.opened]
      _ = (s.scope space).opened := by rw [scope_openFrame]; rfl

theorem withoutModule {module : NodeId} (h : (s.openModule module).SameStacks s₁) :
    s.SameStacks s₁.withoutModule where
  modules := by
    calc s₁.withoutModule.modules
        = ⟨s₁.modules.opened.tail⟩ := rfl
      _ = ⟨(s.openModule module).modules.opened.tail⟩ := by rw [h.modules]
  opened space := by
    calc (s₁.withoutModule.scope space).opened
        = (s₁.scope space).opened.tail := by rw [scope_withoutModule]
      _ = ((s.openModule module).scope space).opened.tail := by rw [h.opened]
      _ = (s.scope space).opened := by rw [scope_openModule]; rfl

theorem stable : Session.Stable Session.SameStacks where
  refl := refl
  trans := trans
  reporting := reporting
  withPath s _ _ := withTables s _
  withBinding := withBinding

end Session.SameStacks

/-- Whatever becomes of an action, the stacks are the same before and after it. -/
def Resolution.Balanced (act : Resolution α) : Prop :=
  ∀ s : Session, s.SameStacks (act.exec s).2

/-- All actions of the passes are balanced. -/
theorem Resolution.Balanced.primitives : PrimitiveRules @Balanced :=
  Session.SameStacks.stable.primitives (fun s t _ => .withTables s t) .withoutFrame .withoutModule

/-- From any session, for any tree, and whatever the outcome is: registering and resolving, of a
whole crate, of an item, a function, generics, a block, an expression, a type or a path of any
kind, leaves the stack of modules and the stacks of open ribs as they were. -/
theorem Resolution.stacks_balanced :
    (∀ c : Crate, Balanced c.declare ∧ Balanced c.resolveItems) ∧
    (∀ (place : Place) (item : Item), Balanced (item.declare place)) ∧
    (∀ item : Item, Balanced item.resolve) ∧
    (∀ (owner : NodeId) (f : FunctionDecl), Balanced (f.resolve owner)) ∧
    (∀ g : Generics, Balanced g.resolve) ∧
    (∀ b : Block, Balanced b.resolve) ∧
    (∀ e : Expr, Balanced e.resolve) ∧
    (∀ t : Ty, Balanced t.resolve) ∧
    (∀ (prefer : Namespace) (p : Path), Balanced (p.resolve prefer)) ∧
    (∀ p : QualifiedPath, Balanced p.resolve) ∧
    (∀ q : Qualifier, Balanced q.resolve) := by
  have rules : TreeRules @Balanced := Balanced.primitives.treeRules
  refine ⟨fun c => ⟨rules.declareCrate c, rules.resolveCrate c⟩, rules.declareItem, ?_,
    rules.passRules.function, rules.passRules.generics, rules.block, rules.expr, rules.ty,
    rules.path, rules.qualified, rules.qualifier⟩
  intro item
  exact rules.passRules.item item fun _ _ => trivial

end NameResolution
