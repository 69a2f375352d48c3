import NameResolution.Proofs.ModuleTree
import NameResolution.Proofs.PrivateUses

/-!
# NameResolution.Proofs.VisibilityOrder

**What can be seen from a module can be seen from all modules inside it**
(`Crate.visibility_monotone`). A declaration can be seen from everywhere or from within one
module. To be within is to have a module on the chain of parents, and as the end of such a chain is
the chain of the module reached, it is transitive (`Tables.isWithin_trans`). That makes visibility
monotone. A module is within its parent, so what is private to a module can be seen
wherever what is declared for its parent can be.
-/

namespace NameResolution

/-! ### Being within a module -/

namespace Tables

variable {t : Tables} {inner module outer : NodeId}

theorem isWithin_iff {rest : List NodeId} (h : Chained t.parents.get? (inner :: rest)) :
    t.isWithin inner outer ↔ outer ∈ inner :: rest := by
  rw [isWithin, enclosing_eq h, decide_eq_true_iff]

/-- Every way up from one node to the next comes to an end. -/
def HasChains (t : Tables) : Prop := ∀ id, ∃ rest, Chained t.parents.get? (id :: rest)

variable (h : t.HasChains)

include h

/-- What is within a module is within all that the module is within. -/
theorem isWithin_trans (hinner : t.isWithin inner module) (hmodule : t.isWithin module outer) :
    t.isWithin inner outer := by
  obtain ⟨rest, hchain⟩ := h inner
  obtain ⟨before, after, hsplit⟩ := List.append_of_mem ((isWithin_iff hchain).mp hinner)
  -- The chain of the module is the end of the chain that leads to it.
  have hafter : Chained t.parents.get? (module :: after) := .of_append (hsplit ▸ hchain)
  refine (isWithin_iff hchain).mpr ?_
  rw [hsplit]
  exact List.mem_append_right _ ((isWithin_iff hafter).mp hmodule)

/-- What is within a module is within the parent of the module. -/
theorem isWithin_parent (hparent : t.parents.get? module = some outer)
    (hinner : t.isWithin inner module) : t.isWithin inner outer := by
  obtain ⟨rest, hchain⟩ := h outer
  have hmodule : t.isWithin module outer :=
    (isWithin_iff (.step hparent hchain)).mpr (List.mem_cons_of_mem _ List.mem_cons_self)
  exact isWithin_trans h hinner hmodule

/-! ### Being visible -/

/-- A declaration that can be seen from a module can be seen from all that is within the module. -/
theorem isVisible_of_isWithin {d : DeclVisibility} (hinner : t.isWithin inner outer)
    (hvisible : t.isVisible d outer) : t.isVisible d inner := by
  unfold isVisible at hvisible ⊢
  cases hd : t.visibleWithin d with
  | none => rfl
  | some outermost =>
    rw [hd] at hvisible
    exact isWithin_trans h hinner hvisible

/-- What is visible for the declaring module is visible for the parent of that module. -/
theorem isVisible_parentModule {d : DeclVisibility}
    (hvisible : t.isVisible { d with vis := .ownModule } module) :
    t.isVisible { d with vis := .parentModule } module := by
  change t.isWithin module ((t.parents.get? d.module).getD d.module) = true
  change t.isWithin module d.module = true at hvisible
  cases hparent : t.parents.get? d.module with
  | none => exact hvisible
  | some parent => exact isWithin_parent h hparent hvisible

end Tables

/-! ### Whole crates -/

namespace Crate

variable {c : Crate} (hwf : c.WellFormed) (settings : Settings)

include hwf

theorem hasChains : (c.registered settings).tables.HasChains := c.exists_chain hwf settings

/-- What the tables say of a module and a declaration is what the tree says. -/
theorem isVisible_moduleTree {s : Session} (hs : c.SecondPass (c.registered settings) s)
    {decl : NodeId} {d : DeclVisibility} (hd : s.tables.visibilities.get? decl = some d)
    {module : NodeId} {around : List NodeId} {items : List Item}
    (hmodule : (module :: around, items) ∈ c.moduleTree) :
    s.tables.isVisible d module = c.sees (module :: around) d := by
  rw [hs.tables.visibilities, c.visibilities_registered hwf settings] at hd
  exact hs.isVisible_of_chained hwf (c.chained_moduleTree hwf settings hmodule) hd

/-- **Visibility is monotone.** Once a well-formed crate has been resolved, whatever can be seen
from a module can be seen from all modules inside it, and from all nodes within it. The modules of
the tree can see what the tree says. A private declaration can be seen wherever it
could be if it were declared for the parent of its module, and that one wherever it could be if it
were declared for the crate or for everyone. -/
theorem visibility_monotone :
    ∃ r, c.resolve settings = .ok r ∧
      (∀ decl d, r.tables.visibilities.get? decl = some d →
        ∀ inner around items, (inner :: around, items) ∈ c.moduleTree →
          r.tables.isVisible d inner = c.sees (inner :: around) d ∧
          ∀ outer ∈ inner :: around, r.tables.isVisible d outer → r.tables.isVisible d inner) ∧
      (∀ d inner outer, r.tables.isWithin inner outer →
        r.tables.isVisible d outer → r.tables.isVisible d inner) ∧
      ∀ (d : DeclVisibility) (module : NodeId),
        (r.tables.isVisible { d with vis := .ownModule } module →
          r.tables.isVisible { d with vis := .parentModule } module) ∧
        (r.tables.isVisible { d with vis := .parentModule } module →
          r.tables.isVisible { d with vis := .ownCrate } module ∧
          r.tables.isVisible { d with vis := .everywhere } module) := by
  obtain ⟨s, r, h⟩ := c.exists_outcome hwf settings
  have hparents := h.secondPass.tables.parents
  have hchains : s.tables.HasChains := by
    unfold Tables.HasChains
    rw [hparents]
    exact c.hasChains hwf settings
  refine ⟨r, h.resolve, ?_⟩
  rw [h.tables]
  refine ⟨?_, ?_, ?_⟩
  · intro decl d hd inner around items hmodule
    refine ⟨c.isVisible_moduleTree hwf settings h.secondPass hd hmodule, ?_⟩
    intro outer houter hvisible
    have hchain := c.chained_moduleTree hwf settings hmodule
    rw [← hparents] at hchain
    exact Tables.isVisible_of_isWithin hchains ((Tables.isWithin_iff hchain).mpr houter) hvisible
  · intro d inner outer hinner hvisible
    exact Tables.isVisible_of_isWithin hchains hinner hvisible
  · intro d module
    exact ⟨Tables.isVisible_parentModule hchains, fun _ => ⟨rfl, rfl⟩⟩

omit hwf

/-- The struct that is declared for `a` in the module `b` inside it can be seen from `a`, thus from
`b` too, and not from the crate root. -/
theorem visibility_monotone_withHiddenStruct :
    withHiddenStruct.WellFormed ∧ ∃ r, withHiddenStruct.resolve {} = .ok r ∧
      r.tables.isVisible ⟨.parentModule, ⟨2⟩, ⟨10, 1⟩⟩ ⟨0⟩ = false ∧
      r.tables.isVisible ⟨.parentModule, ⟨2⟩, ⟨10, 1⟩⟩ ⟨1⟩ = true ∧
      r.tables.isVisible ⟨.parentModule, ⟨2⟩, ⟨10, 1⟩⟩ ⟨2⟩ = true := by
  have hwf : withHiddenStruct.WellFormed := by decide
  obtain ⟨r, hr, hmodules, -⟩ := visibility_monotone hwf {}
  have hd : r.tables.visibilities.get? ⟨3⟩ = some ⟨.parentModule, ⟨2⟩, ⟨10, 1⟩⟩ :=
    of_resolve hr (by decide +kernel)
  have hroot := (hmodules _ _ hd ⟨0⟩ [] _ List.mem_cons_self).1
  have ha := (hmodules _ _ hd ⟨1⟩ [⟨0⟩] _ (List.mem_cons_of_mem _ List.mem_cons_self)).1
  have hb := (hmodules _ _ hd ⟨2⟩ [⟨1⟩, ⟨0⟩] _
    (List.mem_cons_of_mem _ (List.mem_cons_of_mem _ List.mem_cons_self))).2
  have hseen : r.tables.isVisible ⟨.parentModule, ⟨2⟩, ⟨10, 1⟩⟩ ⟨1⟩ = true := ha.trans (by decide)
  exact ⟨hwf, r, hr, hroot.trans (by decide), hseen, hb ⟨1⟩ (by decide) hseen⟩

end Crate

end NameResolution
