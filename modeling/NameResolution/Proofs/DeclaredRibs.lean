import NameResolution.Proofs.FirstPass
import NameResolution.Proofs.StableRelations

/-!
# NameResolution.Proofs.DeclaredRibs

**The first pass opens the ribs of modules alone** (`Crate.ribs_registered`). Seeding opens
that of the prelude, and a rib is opened for a module when it is entered. So whatever else
has a rib in the end has been given one by the second pass.
-/

namespace NameResolution

open Resolution

/-- Every rib has been there before, or it belongs to one of the given nodes. -/
def Session.OpensOnly (ids : List NodeId) (s s' : Session) : Prop :=
  ∀ space id, ((s'.scope space).rib? id).isSome → ((s.scope space).rib? id).isSome ∨ id ∈ ids

namespace Session.OpensOnly

variable {s s₁ : Session} {ids : List NodeId}

theorem stable (ids : List NodeId) : Session.Stable (Session.OpensOnly ids) where
  refl _ _ _ h := Or.inl h
  trans h₁ h₂ space id h := (h₂ space id h).elim (h₁ space id) Or.inr
  reporting _ _ _ _ h := Or.inl h
  withPath _ _ _ _ _ h := Or.inl h
  withBinding s space owner b x id h := by
    rw [isSome_rib?_withBinding] at h
    exact Or.inl h

/-- Leaving a module takes no rib away, and entering it opens no rib but its own. -/
theorem inModule {module : NodeId} (hmodule : module ∈ ids)
    (h : (s.openModule module).OpensOnly ids s₁) : s.OpensOnly ids s₁.withoutModule := by
  intro space id hid
  rw [scope_withoutModule] at hid
  refine (h space id hid).elim (fun hopened => ?_) Or.inr
  rw [scope_openModule, Scope.rib?_push] at hopened
  by_cases hown : id = module
  · exact Or.inr (hown ▸ hmodule)
  · rw [if_neg hown, Option.or_none] at hopened
    exact Or.inl hopened

/-- Registering items opens the ribs of the modules among them. -/
theorem modules : ModuleRules (fun _ => True) (· ∈ ids) (@Keeps (Session.OpensOnly ids)) where
  toDeclarationRules :=
    ((stable ids).declarationParts (fun _ _ _ _ _ h => Or.inl h) fun _ _ _ _ _ _ h => Or.inl h).rules
  addNested _ _ := Session.Stable.updateTables fun _ _ _ h => Or.inl h
  inModule _ hmodule h := h.inModule (inModule hmodule)

end Session.OpensOnly

/-- After the first pass there are no ribs but those of the prelude and of the modules. -/
theorem Crate.ribs_registered {c : Crate} (hwf : c.WellFormed) (settings : Settings)
    {space : Namespace} {id : NodeId}
    (h : (((c.registered settings).scope space).rib? id).isSome) :
    id = (c.registered settings).builtins.prelude ∨ id ∈ c.node.id :: itemsModuleIds c.items := by
  obtain ⟨s, s₁, hs, hbuiltins, hroot, -, -, hitems, hrun, hfirst⟩ := c.exists_grown hwf settings
  obtain ⟨-, hlast⟩ := (c.runs_firstPass hwf settings).eq hrun
  rw [← hlast, Session.scope_withoutFrame, Session.scope_withoutModule] at h
  rw [← hlast, hfirst.builtins, ← hbuiltins]
  have hopens : s.enteringRoot.OpensOnly (itemsModuleIds c.items) s₁ :=
    hitems.keeps (Session.OpensOnly.modules.declareItems c.items _ (fun _ _ => trivial)
      fun _ hid => hid)
  rcases hopens space id h with hentered | hmodule
  · rw [Session.enteringRoot, Session.scope_openModule, Session.scope_openFrame, Scope.rib?_push,
      Scope.rib?_push] at hentered
    by_cases hid : id = s.root
    · exact Or.inr (List.mem_cons.mpr (Or.inl (hid.trans hroot)))
    · by_cases hprelude : id = s.builtins.prelude
      · exact Or.inl hprelude
      · rw [if_neg hid, if_neg hprelude, Option.or_none, Option.or_none] at hentered
        cases space with
        | name =>
            rw [Session.scope_name, hs.names] at hentered
            cases hentered
        | type => exact Or.inl (hs.onlyRib id hentered)
  · exact Or.inr (List.mem_cons_of_mem _ hmodule)

end NameResolution
