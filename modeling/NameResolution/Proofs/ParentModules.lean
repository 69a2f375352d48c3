import NameResolution.Proofs.FirstPass
import NameResolution.Proofs.Chains
import NameResolution.Proofs.StableRelations
import NameResolution.Proofs.Sites

/-!
# NameResolution.Proofs.ParentModules

**The table of parents agrees with the nesting of modules.** `Crate.nesting` lists the
modules inside a crate, each with the module around it. The first pass enters exactly
these parents for the modules of a crate, and nothing for the crate root
(`Crate.parents_registered`). It enters parents for other declarations as well, so the
table is followed for the modules alone.
-/

namespace NameResolution

open Resolution

mutual

/-- The modules that an item is or holds, each with the module around it, those further in first. -/
def Item.nesting (here : NodeId) : Item → List (NodeId × NodeId)
  | ⟨n, _, .module _ items⟩ => itemsNesting n.id items ++ [(n.id, here)]
  | _ => []

def itemsNesting (here : NodeId) : List Item → List (NodeId × NodeId)
  | [] => []
  | item :: rest => item.nesting here ++ itemsNesting here rest

end

/-- The modules inside a crate, each with the module around it. -/
def Crate.nesting (c : Crate) : List (NodeId × NodeId) := itemsNesting c.node.id c.items

/-- The module around a module. -/
def Crate.parent? (c : Crate) (module : NodeId) : Option NodeId := c.nesting.lookup module

theorem Item.nesting_flat {node : Node} {vis : Visibility} {kind : ItemKind}
    (hflat : ∀ name items, kind ≠ .module name items) (here : NodeId) :
    Item.nesting here ⟨node, vis, kind⟩ = [] := by
  cases kind with
  | module name items => exact absurd rfl (hflat name items)
  | _ => rfl

theorem itemsNesting_keys (here : NodeId) (items : List Item) :
    ((itemsNesting here items).map Prod.fst).Perm (itemsModuleIds items) := by
  induction items using items_induction generalizing here with
  | nil => exact List.Perm.refl []
  | module node vis name items rest ihInside ih =>
      simp only [itemsNesting, itemsModuleIds, Item.nesting, Item.moduleIds, List.map_append,
        List.map_cons, List.map_nil]
      exact ((List.perm_append_singleton _ _).trans ((ihInside node.id).cons node.id)).append
        (ih here)
  | flat node vis kind rest hflat ih =>
      rw [itemsNesting, itemsModuleIds, Item.nesting_flat hflat, Item.moduleIds_flat hflat]
      exact ih here

/-- The sites of an item that is no module are directly in the modules around it. -/
theorem Item.modules_sites {node : Node} {vis : Visibility} {kind : ItemKind}
    (hflat : ∀ name items, kind ≠ .module name items) (modules : List NodeId) :
    ∀ x ∈ Item.sites modules ⟨node, vis, kind⟩, x.modules = modules := by
  intro x hx
  cases kind with
  | module name items => exact absurd rfl (hflat name items)
  | _ =>
      obtain ⟨site, -, rfl⟩ := List.mem_map.mp hx
      rfl

/-- Whatever holds of the modules around some items, and is kept on the way into the modules among
them and inside them, holds of the modules around each of their sites. -/
theorem itemsSites_modules (around : List NodeId → Prop) (items : List Item) {here : NodeId}
    {outer : List NodeId} (hhere : around (here :: outer))
    (hstep : ∀ p ∈ itemsNesting here items, ∀ outer,
      around (p.2 :: outer) → around (p.1 :: p.2 :: outer)) :
    ∀ x ∈ itemsSites (here :: outer) items, around x.modules := by
  induction items using items_induction generalizing here outer with
  | nil =>
      intro x hx
      cases hx
  | module node vis name items rest ihInside ih =>
      intro x hx
      have hown : (node.id, here) ∈ Item.nesting here ⟨node, vis, .module name items⟩ :=
        List.mem_append_right _ (List.mem_singleton_self _)
      have hinside : around (node.id :: here :: outer) :=
        hstep (node.id, here) (List.mem_append_left _ hown) outer hhere
      rcases List.mem_append.mp hx with hx | hx
      · exact ihInside hinside
          (fun p hp => hstep p (List.mem_append_left _ (List.mem_append_left _ hp))) x hx
      · exact ih hhere (fun p hp => hstep p (List.mem_append_right _ hp)) x hx
  | flat node vis kind rest hflat ih =>
      intro x hx
      rcases List.mem_append.mp hx with hx | hx
      · rw [Item.modules_sites hflat _ x hx]
        exact hhere
      · exact ih hhere (fun p hp => hstep p (List.mem_append_right _ hp)) x hx

/-! ### What leaves the parents alone -/

/-- The entries of the table of parents for some nodes, newest first. -/
def Session.parentEntries (s : Session) (ids : List NodeId) : List (NodeId × NodeId) :=
  s.tables.parents.entries.filter fun e => decide (e.1 ∈ ids)

/-- The stack of modules is the same, and so are the parents of some nodes. -/
structure Session.SameParents (ids : List NodeId) (s s' : Session) : Prop where
  modules : s'.modules = s.modules
  entries : s'.parentEntries ids = s.parentEntries ids

namespace Session.SameParents

variable {ids : List NodeId} {s s₁ s₂ : Session}

/-- Whatever leaves the stack of modules and the whole table of parents alone. -/
theorem of_eq (hmodules : s₁.modules = s.modules)
    (hparents : s₁.tables.parents = s.tables.parents) : s.SameParents ids s₁ :=
  ⟨hmodules, by unfold Session.parentEntries; rw [hparents]⟩

theorem stable (ids : List NodeId) : Session.Stable (Session.SameParents ids) where
  refl _ := .of_eq rfl rfl
  trans h₁ h₂ := ⟨h₂.modules.trans h₁.modules, h₂.entries.trans h₁.entries⟩
  reporting _ _ := .of_eq rfl rfl
  withPath _ _ _ := .of_eq rfl rfl
  withBinding s space _ _ :=
    .of_eq (s.modules_withScope space _) (congrArg Tables.parents (s.tables_withScope space _))

theorem trans (h₁ : s.SameParents ids s₁) (h₂ : s₁.SameParents ids s₂) : s.SameParents ids s₂ :=
  (stable ids).trans h₁ h₂

end Session.SameParents

/-- Whatever becomes of an action, it leaves the stack of modules and the parents of some nodes as
they were. -/
def Resolution.KeepsParents (ids : List NodeId) {α : Type} (act : Resolution α) : Prop :=
  ∀ s : Session, s.SameParents ids (act.exec s).2

namespace Resolution.KeepsParents

variable {α : Type} {ids : List NodeId} {act : Resolution α}

/-- Declarations keep the parents of other nodes. -/
theorem parts : DeclarationParts (· ∉ ids) (@KeepsParents ids) :=
  (Session.SameParents.stable ids).declarationParts
    (fun _ _ hsame => .of_eq rfl hsame.parents)
    fun _ _ _ hid => ⟨rfl, List.filter_cons_of_neg (by simpa using hid)⟩

theorem rules : DeclarationRules (· ∉ ids) (@KeepsParents ids) := parts.rules

theorem forM {f : α → Resolution Unit} (l : List α) (h : ∀ a ∈ l, KeepsParents ids (f a)) :
    KeepsParents ids (l.forM f) := rules.forM l h

theorem updateTables {f : Tables → Tables} (h : ∀ t, (f t).parents = t.parents) :
    KeepsParents ids (Resolution.updateTables f) := fun s => .of_eq rfl (h s.tables)

end Resolution.KeepsParents

/-! ### The parents of modules -/

theorem Resolution.Runs.sameParents {act : Resolution α} {s s' : Session} {a : α}
    {ids : List NodeId} (h : Runs act s a s') (hkeeps : KeepsParents ids act) :
    s.SameParents ids s' :=
  h.keeps hkeeps

/-- The stack of modules is the same, and some nodes have been given parents one after the other. -/
structure Session.Places (ids : List NodeId) (pairs : List (NodeId × NodeId)) (s s' : Session) :
    Prop where
  modules : s'.modules = s.modules
  entries : s'.parentEntries ids = pairs.reverse ++ s.parentEntries ids

namespace Session.Places

variable {ids : List NodeId} {pairs₁ pairs₂ : List (NodeId × NodeId)} {s s₁ s₂ : Session}

theorem append (h₁ : s.Places ids pairs₁ s₁) (h₂ : s₁.Places ids pairs₂ s₂) :
    s.Places ids (pairs₁ ++ pairs₂) s₂ where
  modules := h₂.modules.trans h₁.modules
  entries := by rw [h₂.entries, h₁.entries, List.reverse_append, List.append_assoc]

theorem of_same (h : s.SameParents ids s₁) : s.Places ids [] s₁ := ⟨h.modules, h.entries⟩

/-- The module that is left has been the innermost one. -/
theorem inModule {module : NodeId} (h : (s.openModule module).Places ids pairs₁ s₁) :
    s.Places ids pairs₁ s₁.withoutModule where
  modules := by
    calc s₁.withoutModule.modules
        = ⟨s₁.modules.opened.tail⟩ := rfl
      _ = ⟨(s.openModule module).modules.opened.tail⟩ := by rw [h.modules]
  entries := h.entries

end Session.Places

/-- The node of a module gets its parent. -/
private theorem runs_setParent {ids : List NodeId} {s s' : Session} {id here : NodeId}
    (hid : id ∈ ids) (h : Runs (setParent id here) s () s') : s.Places ids [(id, here)] s' := by
  obtain ⟨-, rfl⟩ := h.eq (runs_updateTables _ s)
  exact ⟨rfl, List.filter_cons_of_pos (by simpa using hid)⟩

/-- An item is declared with all that it holds, and then its node gets its parent. -/
theorem Item.declare_inv {s s' : Session} {node : Node} {vis : Visibility} {kind : ItemKind}
    {place : Place} {here : NodeId} (hhere : s.modules.opened.head? = some here)
    (hrun : Runs (Item.declare place ⟨node, vis, kind⟩) s () s') :
    ∃ s₁, Runs (kind.declare node vis here place) s () s₁ ∧
      Runs (setParent node.id here) s₁ () s' := by
  obtain ⟨_, _, hcurrent, hbody⟩ := hrun.bind_inv
  obtain ⟨rfl, rfl⟩ := hcurrent.eq (runs_currentModule hhere)
  obtain ⟨_, s₁, hkind, hparent⟩ := hbody.bind_inv
  exact ⟨s₁, hkind, hparent⟩

/-- An item that is no module gets a parent itself, and so do its members. -/
private theorem Item.places_flat {ids : List NodeId} {s s' : Session} {node : Node}
    {vis : Visibility} {kind : ItemKind} {place : Place} {here : NodeId}
    (hflat : ∀ name items, kind ≠ .module name items) (hhere : s.modules.opened.head? = some here)
    (hentries : ∀ id ∈ node.id :: kind.memberIds, id ∉ ids)
    (hrun : Runs (Item.declare place ⟨node, vis, kind⟩) s () s') : s.Places ids [] s' := by
  obtain ⟨s₁, hkind, hparent⟩ := Item.declare_inv hhere hrun
  have hmembers : KeepsParents ids (kind.declare node vis here place) :=
    KeepsParents.rules.declareFlat hflat (fun id hid => hentries id (List.mem_cons_of_mem _ hid))
      _ _ _ _
  have hparents : KeepsParents ids (setParent node.id here) :=
    KeepsParents.rules.setParent node.id here (hentries node.id List.mem_cons_self)
  exact .of_same ((hkind.sameParents hmembers).trans (hparent.sameParents hparents))

/-- A module gets its parent after the modules inside it. -/
private theorem Item.places_module {ids : List NodeId} {s s' : Session} {node : Node}
    {vis : Visibility} {name : Ident} {items : List Item} {place : Place} {here : NodeId}
    (hhere : s.modules.opened.head? = some here) (hid : node.id ∈ ids)
    (hinner : ∀ (place : Place) (s₁ s₂ : Session), s₁.modules.opened.head? = some node.id →
      Runs (declareItems place items) s₁ () s₂ → s₁.Places ids (itemsNesting node.id items) s₂)
    (hrun : Runs (Item.declare place ⟨node, vis, .module name items⟩) s () s') :
    s.Places ids (Item.nesting here ⟨node, vis, .module name items⟩) s' := by
  obtain ⟨s₁, hkind, hparent⟩ := Item.declare_inv hhere hrun
  -- What comes before the items of the module has nothing to do with parents.
  obtain ⟨inner, s₂, hdeclare, hafter⟩ := hkind.bind_inv
  obtain ⟨_, s₃, hmark, hafter⟩ := hafter.bind_inv
  obtain ⟨_, s₄, hnested, hafter⟩ := hafter.bind_inv
  obtain ⟨s₅, hitems, rfl⟩ := hafter.inModule_inv
  have hbefore : s.SameParents ids s₄ :=
    ((hdeclare.sameParents (KeepsParents.rules.declare _ _ _ _ _ _)).trans
      (hmark.sameParents (KeepsParents.parts.markContainer _ _))).trans
      (hnested.sameParents (.updateTables fun _ => rfl))
  exact ((Session.Places.of_same hbefore).append (hinner _ _ _ rfl hitems).inModule).append
    (runs_setParent hid hparent)

/-- Registering items enters the parents of the modules among them and inside them. -/
theorem items_places (items : List Item) (place : Place) {ids : List NodeId} {here : NodeId}
    {s s' : Session} (hhere : s.modules.opened.head? = some here)
    (hmodules : itemsModuleIds items ⊆ ids) (hentries : ∀ id ∈ itemsEntryIds items, id ∉ ids)
    (hrun : Runs (declareItems place items) s () s') :
    s.Places ids (itemsNesting here items) s' := by
  induction items using items_induction generalizing place here s s' with
  | nil =>
      obtain ⟨-, rfl⟩ := hrun.eq (Runs.pure () s)
      exact .of_same ((Session.SameParents.stable ids).refl s)
  | module node vis name items rest ihInside ih =>
      obtain ⟨_, s₁, hitem, hrest⟩ := hrun.bind_inv
      obtain ⟨hitems, hrestIds⟩ := List.append_subset.mp hmodules
      have hid : node.id ∈ ids := hitems List.mem_cons_self
      have hown := Item.places_module hhere hid
        (fun place _ _ hhere hrun => ihInside place hhere
          (fun id hid => hitems (List.mem_cons_of_mem _ hid))
          (fun id hid => hentries id (List.mem_append_left _ hid)) hrun) hitem
      exact hown.append (ih place (by rw [hown.modules]; exact hhere) hrestIds
        (fun id hid => hentries id (List.mem_append_right _ hid)) hrest)
  | flat node vis kind rest hflat ih =>
      rw [itemsEntryIds, Item.entryIds_flat hflat] at hentries
      rw [itemsModuleIds, Item.moduleIds_flat hflat] at hmodules
      rw [itemsNesting, Item.nesting_flat hflat]
      obtain ⟨_, s₁, hitem, hrest⟩ := hrun.bind_inv
      have hown := Item.places_flat hflat hhere
        (fun id hid => hentries id (List.mem_append_left _ hid)) hitem
      exact hown.append (ih place (by rw [hown.modules]; exact hhere) hmodules
        (fun id hid => hentries id (List.mem_append_right _ hid)) hrest)

/-- The items of a crate are registered inside the crate root, before which no parents and no nested
modules are known. -/
theorem Crate.exists_items_run {c : Crate} (hwf : c.WellFormed) (settings : Settings) :
    ∃ place s s', s.tables.parents = .empty ∧ s.tables.nested = [] ∧
      s.modules.opened.head? = some c.node.id ∧ Runs (declareItems place c.items) s () s' ∧
      (c.registered settings).tables = s'.tables := by
  obtain ⟨_, _, hseed, hdeclare⟩ := (c.runs_firstPass hwf settings).bind_inv
  obtain ⟨s, hseeded, hs, -, hroot, -⟩ := seed_runs c settings hwf.root_lt
  obtain ⟨-, rfl⟩ := hseed.eq hseeded
  obtain ⟨s₁, hmodule, hclosed⟩ := hdeclare.get_bind_inv.get_bind_inv.inFrame_inv
  obtain ⟨s₂, hitems, rfl⟩ := hmodule.inModule_inv
  have hempty : s.tables.parents = .empty ∧ s.tables.nested = [] := by
    rw [hs.tables]
    exact ⟨rfl, rfl⟩
  exact ⟨_, (s.openFrame s.builtins.prelude).openModule s.root, s₂, hempty.1, hempty.2,
    congrArg some hroot, hitems, by rw [hclosed]; rfl⟩

/-- The first pass gives every module the one around it as its parent, and the crate root none. -/
theorem Crate.parentEntries_registered {c : Crate} (hwf : c.WellFormed) (settings : Settings) :
    (c.registered settings).parentEntries (c.node.id :: itemsModuleIds c.items) =
      c.nesting.reverse := by
  obtain ⟨place, s, s', hempty, -, hhere, hitems, htables⟩ := c.exists_items_run hwf settings
  have hentries : ∀ id ∈ itemsEntryIds c.items, id ∉ c.node.id :: itemsModuleIds c.items :=
    fun id hid hin => by
      -- No node is both a module and something else.
      obtain ⟨hout, hrest⟩ := List.nodup_cons.mp hwf.nodup_parts
      have hentry : id ∈ itemsEntryIds c.items ++ itemsBodyIds c.items :=
        List.mem_append_left _ hid
      rcases List.mem_cons.mp hin with rfl | hin
      · exact hout (List.mem_append_right _ hentry)
      · exact (List.nodup_append.mp hrest).2.2 id hin id hentry rfl
  have hplaces := (items_places c.items _ hhere (List.subset_cons_self _ _) hentries hitems).entries
  unfold Session.parentEntries at hplaces ⊢
  rw [htables, hplaces, hempty]
  exact List.append_nil _

/-! ### Which nodes are modules -/

theorem mem_itemsContainers_of_module (items : List Item) {id : NodeId}
    (hid : id ∈ itemsModuleIds items) : (id, .module) ∈ itemsContainers items := by
  induction items using items_induction with
  | nil => cases hid
  | module node vis name items rest ihInside ih =>
      rcases List.mem_append.mp hid with hid | hid
      · refine List.mem_append_left _ ?_
        rcases List.mem_cons.mp hid with rfl | hid
        · exact List.mem_cons_self
        · exact List.mem_cons_of_mem _ (ihInside hid)
      · exact List.mem_append_right _ (ih hid)
  | flat node vis kind rest hflat ih =>
      rw [itemsModuleIds, Item.moduleIds_flat hflat] at hid
      exact List.mem_append_right _ (ih hid)

/-- The first pass makes the modules of the tree known as such, and nothing else. -/
theorem Crate.FirstPass.isModule_iff {c : Crate} {settings : Settings} {s : Session}
    (h : c.FirstPass settings s) {id : NodeId} :
    s.tables.isModule id = true ↔ id ∈ c.node.id :: itemsModuleIds c.items := by
  refine ⟨h.mem_of_isModule, fun hid => ?_⟩
  rcases List.mem_cons.mp hid with rfl | hid
  · rw [← h.root]
    exact h.rootModule
  · obtain ⟨a, ha, rfl, hkind⟩ : ∃ a ∈ c.attempts settings, a.id = id ∧ a.kind = some .module :=
      exists_attempt_of_mem_itemsContainers c.items (id, .module)
        (mem_itemsContainers_of_module c.items hid)
    simp [Tables.isModule, h.containers a ha .module hkind]

/-! ### Looking up parents -/

/-- No module is nested in two modules. -/
theorem Crate.nodup_nesting {c : Crate} (hwf : c.WellFormed) :
    (c.nesting.map Prod.fst).Nodup := by
  obtain ⟨-, hrest⟩ := List.nodup_cons.mp hwf.nodup_parts
  exact (itemsNesting_keys c.node.id c.items).nodup_iff.mpr (List.nodup_append.mp hrest).1

/-- What the table of parents says of the modules of a crate. -/
theorem Crate.parents_registered {c : Crate} (hwf : c.WellFormed) (settings : Settings)
    {module : NodeId} (h : module ∈ c.node.id :: itemsModuleIds c.items) :
    (c.registered settings).tables.parents.get? module = c.parent? module := by
  have hentries := c.parentEntries_registered hwf settings
  unfold Session.parentEntries at hentries
  unfold Register.get? Crate.parent?
  rw [← lookup_filter (fun id => decide (id ∈ c.node.id :: itemsModuleIds c.items))
    (decide_eq_true h), hentries]
  exact (lookup_perm (List.reverse_perm _).symm (c.nodup_nesting hwf)).symm

/-- The crate root lies in no module. -/
theorem Crate.parents_root {c : Crate} (hwf : c.WellFormed) (settings : Settings) :
    (c.registered settings).tables.parents.get? c.node.id = none := by
  obtain ⟨hout, -⟩ := List.nodup_cons.mp hwf.nodup_parts
  rw [c.parents_registered hwf settings List.mem_cons_self]
  refine List.lookup_eq_none_iff.mpr fun p hp => ?_
  have hkey : p.1 ∈ itemsModuleIds c.items :=
    (itemsNesting_keys _ _).subset (List.mem_map_of_mem hp)
  have hne : c.node.id ≠ p.1 := fun heq => hout (List.mem_append_left _ (by rwa [heq]))
  simpa using hne

/-- Every other module lies in the one around it. -/
theorem Crate.parents_nesting {c : Crate} (hwf : c.WellFormed) (settings : Settings)
    {p : NodeId × NodeId} (hp : p ∈ c.nesting) :
    (c.registered settings).tables.parents.get? p.1 = some p.2 := by
  have hkey : p.1 ∈ itemsModuleIds c.items :=
    (itemsNesting_keys _ _).subset (List.mem_map_of_mem hp)
  rw [c.parents_registered hwf settings (List.mem_cons_of_mem _ hkey)]
  exact (lookup_iff_mem (c.nodup_nesting hwf)).mpr hp

end NameResolution
