import NameResolution.Proofs.HomeModules
import NameResolution.Proofs.Completion

/-!
# NameResolution.Proofs.ModuleTree

**What is recorded about modules is how they are nested in the source**
(`Crate.modules_recorded`). `Crate.moduleTree` has each module of a crate with the modules
around it and the items directly inside it. Two tables are compared with it:

* the list of nested modules, which the first pass adds to each time it enters a module, so
  that it has the modules of the tree in source order (`Crate.nested_registered`);
* the table of parents, in which every declaration has an entry. All parents are modules,
  and the modules around a module are a chain, so every node starts a chain
  (`Crate.exists_chain`).

Chains end, so the search for a module among those around a node ends as well, whichever
node it starts from.
-/

namespace NameResolution

open Resolution

/-! ### The tree of modules -/

/-- Whether an item is a module. -/
def Item.isModule : Item → Bool
  | ⟨_, _, .module _ _⟩ => true
  | _ => false

mutual

/-- The modules that an item is or holds: each with the modules around it, innermost first and
itself in front, and with the items directly inside it. -/
def Item.innerModules (around : List NodeId) : Item → List (List NodeId × List Item)
  | ⟨n, _, .module _ items⟩ => (n.id :: around, items) :: itemsInnerModules (n.id :: around) items
  | _ => []

def itemsInnerModules (around : List NodeId) : List Item → List (List NodeId × List Item)
  | [] => []
  | item :: rest => item.innerModules around ++ itemsInnerModules around rest

end

/-- All modules of a crate, each with the modules around it and the items directly inside it. -/
def Crate.moduleTree (c : Crate) : List (List NodeId × List Item) :=
  ([c.node.id], c.items) :: itemsInnerModules [c.node.id] c.items

mutual

/-- The modules that an item is or holds, each behind the module around it, in source order. -/
def Item.nestedModules (here : NodeId) : Item → List (NodeId × NodeId)
  | ⟨n, _, .module _ items⟩ => (here, n.id) :: itemsNestedModules n.id items
  | _ => []

def itemsNestedModules (here : NodeId) : List Item → List (NodeId × NodeId)
  | [] => []
  | item :: rest => item.nestedModules here ++ itemsNestedModules here rest

end

/-- The modules that are listed as directly inside another one. -/
def modulesIn (outer : NodeId) (pairs : List (NodeId × NodeId)) : List NodeId :=
  pairs.filterMap fun (p, m) => if p = outer then some m else none

theorem modulesIn_append (outer : NodeId) (l₁ l₂ : List (NodeId × NodeId)) :
    modulesIn outer (l₁ ++ l₂) = modulesIn outer l₁ ++ modulesIn outer l₂ :=
  List.filterMap_append

theorem modulesIn_cons_self (outer m : NodeId) (l : List (NodeId × NodeId)) :
    modulesIn outer ((outer, m) :: l) = m :: modulesIn outer l :=
  List.filterMap_cons_some (if_pos rfl)

theorem modulesIn_cons_of_ne {outer p : NodeId} (h : p ≠ outer) (m : NodeId)
    (l : List (NodeId × NodeId)) : modulesIn outer ((p, m) :: l) = modulesIn outer l :=
  List.filterMap_cons_none (if_neg h)

section Flat

variable {node : Node} {vis : Visibility} {kind : ItemKind}
  (hflat : ∀ name items, kind ≠ .module name items)

include hflat

theorem Item.innerModules_flat (around : List NodeId) :
    Item.innerModules around ⟨node, vis, kind⟩ = [] := by
  cases kind with
  | module name items => exact absurd rfl (hflat name items)
  | _ => rfl

theorem Item.nestedModules_flat (here : NodeId) :
    Item.nestedModules here ⟨node, vis, kind⟩ = [] := by
  cases kind with
  | module name items => exact absurd rfl (hflat name items)
  | _ => rfl

theorem Item.isModule_flat : Item.isModule ⟨node, vis, kind⟩ = false := by
  cases kind with
  | module name items => exact absurd rfl (hflat name items)
  | _ => rfl

end Flat

/-- Modules are only listed as inside the module around some items and inside those among them. -/
theorem itemsModulesIn_of_not_mem (items : List Item) {here outer : NodeId} (hne : here ≠ outer)
    (hout : outer ∉ itemsModuleIds items) :
    modulesIn outer (itemsNestedModules here items) = [] := by
  induction items using items_induction generalizing here with
  | nil => rfl
  | module node vis name items rest ihInside ih =>
      obtain ⟨hitem, hrest⟩ := not_or.mp (mt List.mem_append.mpr hout)
      obtain ⟨hown, hinner⟩ := not_or.mp (mt List.mem_cons.mpr hitem)
      rw [itemsNestedModules, modulesIn_append, Item.nestedModules, modulesIn_cons_of_ne hne,
        ihInside (Ne.symm hown) hinner, ih hne hrest, List.append_nil]
  | flat node vis kind rest hflat ih =>
      rw [itemsModuleIds, Item.moduleIds_flat hflat] at hout
      rw [itemsNestedModules, Item.nestedModules_flat hflat]
      exact ih hne hout

/-- Directly inside the module around items are those of them that are modules. -/
theorem itemsModulesIn_here (items : List Item) {here : NodeId} (hout : here ∉ itemsModuleIds items) :
    modulesIn here (itemsNestedModules here items) =
      (items.filter Item.isModule).map (·.node.id) := by
  induction items using items_induction with
  | nil => rfl
  | module node vis name items rest _ ih =>
      obtain ⟨hitem, hrest⟩ := not_or.mp (mt List.mem_append.mpr hout)
      obtain ⟨hown, hinner⟩ := not_or.mp (mt List.mem_cons.mpr hitem)
      rw [itemsNestedModules, modulesIn_append, ih hrest, List.filter_cons_of_pos rfl,
        Item.nestedModules, modulesIn_cons_self,
        itemsModulesIn_of_not_mem items (Ne.symm hown) hinner]
      rfl
  | flat node vis kind rest hflat ih =>
      rw [itemsModuleIds, Item.moduleIds_flat hflat] at hout
      rw [itemsNestedModules, Item.nestedModules_flat hflat,
        List.filter_cons_of_neg (by simp [Item.isModule_flat hflat])]
      exact ih hout

/-- Every module is in the tree. -/
theorem exists_itemsInnerModule (items : List Item) {around : List NodeId} {id : NodeId}
    (hid : id ∈ itemsModuleIds items) :
    ∃ outer inner, (id :: outer, inner) ∈ itemsInnerModules around items := by
  induction items using items_induction generalizing around with
  | nil => cases hid
  | module node vis name items rest ihInside ih =>
      rcases List.mem_append.mp hid with hid | hid
      · rcases List.mem_cons.mp hid with rfl | hid
        · exact ⟨around, items, List.mem_append_left _ List.mem_cons_self⟩
        · obtain ⟨outer, inner, h⟩ := ihInside hid
          exact ⟨outer, inner, List.mem_append_left _ (List.mem_cons_of_mem _ h)⟩
      · obtain ⟨outer, inner, h⟩ := ih hid
        exact ⟨outer, inner, List.mem_append_right _ h⟩
  | flat node vis kind rest hflat ih =>
      rw [itemsModuleIds, Item.moduleIds_flat hflat] at hid
      obtain ⟨outer, inner, h⟩ := ih hid
      exact ⟨outer, inner, List.mem_append_right _ h⟩

/-- What is in the tree is one of the modules. -/
theorem mem_itemsModuleIds_of_inner (items : List Item) {around outer : List NodeId} {id : NodeId}
    {inner : List Item} (h : (id :: outer, inner) ∈ itemsInnerModules around items) :
    id ∈ itemsModuleIds items := by
  induction items using items_induction generalizing around with
  | nil => cases h
  | module node vis name items rest ihInside ih =>
      rcases List.mem_append.mp h with h | h
      · refine List.mem_append_left _ ?_
        rcases List.mem_cons.mp h with heq | h
        · cases heq
          exact List.mem_cons_self
        · exact List.mem_cons_of_mem _ (ihInside h)
      · exact List.mem_append_right _ (ih h)
  | flat node vis kind rest hflat ih =>
      rw [itemsInnerModules, Item.innerModules_flat hflat] at h
      exact List.mem_append_right _ (ih h)

/-- Directly inside a module of the tree are those of its items that are modules. -/
theorem itemsModulesIn_inner (items : List Item) {here id : NodeId} {around outer : List NodeId}
    {inner : List Item} (hnodup : (here :: itemsModuleIds items).Nodup)
    (h : (id :: outer, inner) ∈ itemsInnerModules around items) :
    modulesIn id (itemsNestedModules here items) =
      (inner.filter Item.isModule).map (·.node.id) := by
  induction items using items_induction generalizing here around with
  | nil => cases h
  | module node vis name items rest ihInside ih =>
      obtain ⟨hhere, hboth⟩ := List.nodup_cons.mp hnodup
      obtain ⟨hitem, hrest, hapart⟩ := List.nodup_append.mp hboth
      have hne : here ≠ id := fun heq => hhere (heq ▸ mem_itemsModuleIds_of_inner _ h)
      rw [itemsNestedModules, modulesIn_append, Item.nestedModules, modulesIn_cons_of_ne hne]
      -- The part that does not hold the module says nothing of it.
      rcases List.mem_append.mp h with h | h
      · have hin : id ∈ node.id :: itemsModuleIds items := by
          rcases List.mem_cons.mp h with heq | h
          · cases heq
            exact List.mem_cons_self
          · exact List.mem_cons_of_mem _ (mem_itemsModuleIds_of_inner items h)
        rw [itemsModulesIn_of_not_mem rest hne fun hout => hapart id hin id hout rfl,
          List.append_nil]
        rcases List.mem_cons.mp h with heq | h
        · cases heq
          exact itemsModulesIn_here _ (List.nodup_cons.mp hitem).1
        · exact ihInside hitem h
      · have hin := mem_itemsModuleIds_of_inner rest h
        have hout : id ∉ node.id :: itemsModuleIds items := fun hout => hapart id hout id hin rfl
        obtain ⟨hself, hinner⟩ := not_or.mp (mt List.mem_cons.mpr hout)
        rw [itemsModulesIn_of_not_mem items (Ne.symm hself) hinner, List.nil_append]
        exact ih (List.nodup_cons.mpr ⟨fun hmem => hhere (List.mem_append_right _ hmem), hrest⟩) h
  | flat node vis kind rest hflat ih =>
      rw [itemsModuleIds, Item.moduleIds_flat hflat] at hnodup
      rw [itemsInnerModules, Item.innerModules_flat hflat] at h
      rw [itemsNestedModules, Item.nestedModules_flat hflat]
      exact ih hnodup h

/-! ### The list of nested modules -/

/-- Whatever becomes of an action, it does not add to the list of nested modules. -/
def Resolution.KeepsNested {α : Type} (act : Resolution α) : Prop :=
  ∀ s : Session, (act.exec s).2.tables.nested = s.tables.nested

namespace Resolution.KeepsNested

theorem stable : Session.Stable fun s s' => s'.tables.nested = s.tables.nested where
  refl _ := rfl
  trans h₁ h₂ := h₂.trans h₁
  reporting _ _ := rfl
  withPath _ _ _ := rfl
  withBinding s space _ _ := congrArg Tables.nested (s.tables_withScope space _)

/-- Only the modules themselves are added. -/
theorem parts : DeclarationParts (fun _ => True) (@KeepsNested) :=
  stable.declarationParts (fun _ _ hsame => hsame.nested) fun _ _ _ _ => rfl

theorem rules : DeclarationRules (fun _ => True) (@KeepsNested) := parts.rules

end Resolution.KeepsNested

theorem Resolution.Runs.keepsNested {α : Type} {act : Resolution α} {s s' : Session} {a : α}
    (h : Runs act s a s') (hkeeps : KeepsNested act) : s'.tables.nested = s.tables.nested :=
  h.keeps (R := fun s s' => s'.tables.nested = s.tables.nested) hkeeps

/-- A module is listed before those inside it. -/
private theorem Item.nests_module {node : Node} {vis : Visibility} {name : Ident}
    {items : List Item} {place : Place} {here : NodeId} {s s' : Session}
    (hhere : s.modules.opened.head? = some here)
    (hrun : Runs (Item.declare place ⟨node, vis, .module name items⟩) s () s')
    (hinner : ∀ (place : Place) (s s' : Session), s.modules.opened.head? = some node.id →
      Runs (declareItems place items) s () s' →
        s'.tables.nested = s.tables.nested ++ itemsNestedModules node.id items) :
    s'.tables.nested =
      s.tables.nested ++ Item.nestedModules here ⟨node, vis, .module name items⟩ := by
  obtain ⟨s₁, hkind, hparent⟩ := Item.declare_inv hhere hrun
  obtain ⟨inner, s₂, hdeclare, hafter⟩ := hkind.bind_inv
  obtain ⟨_, s₃, hmark, hafter⟩ := hafter.bind_inv
  obtain ⟨_, s₄, hnested, hafter⟩ := hafter.bind_inv
  obtain ⟨s₅, hitems, rfl⟩ := hafter.inModule_inv
  obtain ⟨-, rfl⟩ := hnested.eq (runs_updateTables _ s₃)
  calc s'.tables.nested
      = s₅.withoutModule.tables.nested :=
        hparent.keepsNested (KeepsNested.rules.setParent _ _ trivial)
    _ = (s₃.tables.nested ++ [(here, node.id)]) ++ itemsNestedModules node.id items :=
      hinner _ _ _ rfl hitems
    _ = s.tables.nested ++ (here, node.id) :: itemsNestedModules node.id items := by
      rw [hmark.keepsNested (KeepsNested.parts.markContainer _ _),
        hdeclare.keepsNested (KeepsNested.rules.declare _ _ _ _ _ _), List.append_assoc]
      rfl

/-- Registering items adds the modules among them and inside them to the list of nested modules. -/
theorem items_nest (items : List Item) (place : Place) {here : NodeId} {s s' : Session}
    (hhere : s.modules.opened.head? = some here) (hrun : Runs (declareItems place items) s () s') :
    s'.tables.nested = s.tables.nested ++ itemsNestedModules here items := by
  induction items using items_induction generalizing place here s s' with
  | nil =>
      obtain ⟨-, rfl⟩ := hrun.eq (Runs.pure () s)
      exact (List.append_nil _).symm
  | module node vis name items rest ihInside ih =>
      obtain ⟨_, s₁, hitem, hrest⟩ := hrun.bind_inv
      have hmodules : s₁.modules = s.modules :=
        KeepsParents.sameModules (Item.keepsParents _ place fun _ _ => List.not_mem_nil) hitem
      rw [ih place (hmodules ▸ hhere) hrest,
        Item.nests_module hhere hitem fun place _ _ => ihInside place, List.append_assoc]
      rfl
  | flat node vis kind rest hflat ih =>
      obtain ⟨_, s₁, hitem, hrest⟩ := hrun.bind_inv
      have hmodules : s₁.modules = s.modules :=
        KeepsParents.sameModules (Item.keepsParents _ place fun _ _ => List.not_mem_nil) hitem
      have hkept : s₁.tables.nested = s.tables.nested :=
        hitem.keepsNested (KeepsNested.rules.declareFlatItem hflat (fun _ _ => trivial) place)
      rw [ih place (hmodules ▸ hhere) hrest, hkept, itemsNestedModules,
        Item.nestedModules_flat hflat, List.nil_append]

/-- The first pass lists the modules of a crate in source order. -/
theorem Crate.nested_registered {c : Crate} (hwf : c.WellFormed) (settings : Settings) :
    (c.registered settings).tables.nested = itemsNestedModules c.node.id c.items := by
  obtain ⟨place, s, s', -, hempty, hhere, hitems, htables⟩ := c.exists_items_run hwf settings
  rw [htables, items_nest c.items place hhere hitems, hempty]
  rfl

/-! ### Chains -/

/-- Where the table of parents has the nesting of modules, the modules of the tree start chains. -/
theorem chained_itemsInnerModules {parent? : NodeId → Option NodeId} (items : List Item)
    {here : NodeId} {outer : List NodeId} (hhere : Chained parent? (here :: outer))
    (hparents : ∀ p ∈ itemsNesting here items, parent? p.1 = some p.2) :
    ∀ m ∈ itemsInnerModules (here :: outer) items, Chained parent? m.1 := by
  induction items using items_induction generalizing here outer with
  | nil =>
      intro m hm
      cases hm
  | module node vis name items rest ihInside ih =>
      intro m hm
      have hlisted : (node.id, here) ∈ Item.nesting here ⟨node, vis, .module name items⟩ :=
        List.mem_append_right _ (List.mem_singleton_self _)
      have hown : Chained parent? (node.id :: here :: outer) :=
        .step (hparents _ (List.mem_append_left _ hlisted)) hhere
      rcases List.mem_append.mp hm with hm | hm
      · rcases List.mem_cons.mp hm with rfl | hm
        · exact hown
        · exact ihInside hown
            (fun p hp => hparents p (List.mem_append_left _ (List.mem_append_left _ hp))) m hm
      · exact ih hhere (fun p hp => hparents p (List.mem_append_right _ hp)) m hm
  | flat node vis kind rest hflat ih =>
      intro m hm
      rw [itemsInnerModules, Item.innerModules_flat hflat] at hm
      exact ih hhere (fun p hp => hparents p (List.mem_append_right _ hp)) m hm

/-- The modules directly inside a module have it around them. -/
theorem itemsNesting_of_mem : ∀ (items : List Item) {here : NodeId} {item : Item}, item ∈ items →
    item.isModule = true → (item.node.id, here) ∈ itemsNesting here items
  | ⟨n, vis, kind⟩ :: rest, here, item, hitem, hmodule => by
      rcases List.mem_cons.mp hitem with rfl | hitem
      · cases kind <;> cases hmodule
        exact List.mem_append_left _ (List.mem_append_right _ (List.mem_singleton_self _))
      · exact List.mem_append_right _ (itemsNesting_of_mem rest hitem hmodule)

/-- What is nested in a module of the tree is nested in the whole. -/
theorem nesting_itemsInnerModules (items : List Item) {here : NodeId} {around outer : List NodeId}
    {id : NodeId} {inner : List Item} (h : (id :: outer, inner) ∈ itemsInnerModules around items) :
    itemsNesting id inner ⊆ itemsNesting here items := by
  induction items using items_induction generalizing here around with
  | nil => cases h
  | module node vis name items rest ihInside ih =>
      rcases List.mem_append.mp h with h | h
      · have hitem : itemsNesting id inner ⊆
            Item.nesting here ⟨node, vis, .module name items⟩ := by
          refine List.Subset.trans ?_ (List.subset_append_left _ _)
          rcases List.mem_cons.mp h with heq | h
          · cases heq
            exact List.Subset.refl _
          · exact ihInside h
        exact List.Subset.trans hitem (List.subset_append_left _ _)
      · exact List.Subset.trans (ih h) (List.subset_append_right _ _)
  | flat node vis kind rest hflat ih =>
      rw [itemsInnerModules, Item.innerModules_flat hflat] at h
      exact List.Subset.trans (ih h) (List.subset_append_right _ _)

namespace Crate

variable {c : Crate} (hwf : c.WellFormed) (settings : Settings)

include hwf

/-- The modules around a module of the tree are those that the table of parents leads to. -/
theorem chained_moduleTree {chain : List NodeId} {items : List Item}
    (h : (chain, items) ∈ c.moduleTree) :
    Chained (c.registered settings).tables.parents.get? chain := by
  have hroot : Chained (c.registered settings).tables.parents.get? [c.node.id] :=
    .root (c.parents_root hwf settings)
  rcases List.mem_cons.mp h with heq | h
  · cases heq
    exact hroot
  · exact chained_itemsInnerModules c.items hroot
      (fun _ hp => c.parents_nesting hwf settings hp) _ h

/-- Every node starts a chain, since its parent is a module if it has any. -/
theorem exists_chain (id : NodeId) :
    ∃ rest, Chained (c.registered settings).tables.parents.get? (id :: rest) := by
  cases hparent : (c.registered settings).tables.parents.get? id with
  | none => exact ⟨[], .root hparent⟩
  | some module =>
      have hpass := c.firstPass hwf settings
      have hmodule := hpass.isModule_iff.mp (hpass.parents id module hparent)
      obtain ⟨outer, items, htree⟩ : ∃ outer items, (module :: outer, items) ∈ c.moduleTree := by
        rcases List.mem_cons.mp hmodule with rfl | hmodule
        · exact ⟨[], c.items, List.mem_cons_self⟩
        · obtain ⟨outer, items, h⟩ := exists_itemsInnerModule c.items hmodule
          exact ⟨outer, items, List.mem_cons_of_mem _ h⟩
      exact ⟨module :: outer, .step hparent (c.chained_moduleTree hwf settings htree)⟩

/-- The modules listed as directly inside a module of the tree are those among its items. -/
theorem modulesIn_moduleTree {module : NodeId} {around : List NodeId} {items : List Item}
    (h : (module :: around, items) ∈ c.moduleTree) :
    modulesIn module (itemsNestedModules c.node.id c.items) =
      (items.filter Item.isModule).map (·.node.id) := by
  have hnodup : (c.node.id :: itemsModuleIds c.items).Nodup :=
    hwf.nodup_parts.sublist (List.Sublist.cons_cons _ (List.sublist_append_left _ _))
  rcases List.mem_cons.mp h with heq | h
  · cases heq
    exact itemsModulesIn_here c.items (List.nodup_cons.mp hnodup).1
  · exact itemsModulesIn_inner c.items hnodup h

/-- The parent of a module directly inside a module of the tree is that one. -/
theorem parents_moduleTree {module : NodeId} {around : List NodeId} {items : List Item}
    (h : (module :: around, items) ∈ c.moduleTree) {item : Item} (hitem : item ∈ items)
    (hmodule : item.isModule = true) :
    (c.registered settings).tables.parents.get? item.node.id = some module := by
  have hnested : itemsNesting module items ⊆ c.nesting := by
    rcases List.mem_cons.mp h with heq | h
    · cases heq
      exact List.Subset.refl _
    · exact nesting_itemsInnerModules c.items h
  exact c.parents_nesting hwf settings (hnested (itemsNesting_of_mem items hitem hmodule))

/-- **The registry of modules is the tree of modules.** Once a well-formed crate has been resolved,
the modules recorded as nested in a module are the modules among the items directly inside it, in
source order and including those that were refused as duplicates, and the parent of each of them is
the module. The crate root has no parent, and no node is the start of an endless chain of parents.
So the search for a node among the parents of another one comes to an end, whichever nodes they are,
with the answer that is used to decide on visibility; from a module it finds that module and the
modules around it. -/
theorem modules_recorded :
    ∃ s, Runs (c.run settings) (.start c settings) () s ∧ c.resolve settings = .ok s.finish ∧
      (∀ module around items, (module :: around, items) ∈ c.moduleTree →
        s.tables.nestedIn module = (items.filter Item.isModule).map (·.node.id) ∧
        (∀ item ∈ items, item.isModule = true →
          s.tables.parents.get? item.node.id = some module) ∧
        ∀ ancestor, s.tables.isWithin module ancestor = true ↔ ancestor ∈ module :: around) ∧
      s.tables.parents.get? c.node.id = none ∧
      WellFounded (fun outer inner => s.tables.parents.get? inner = some outer) ∧
      ∀ ancestor id result,
        s.tables.Climbs ancestor id result ↔ s.tables.isWithin id ancestor = result := by
  obtain ⟨s₂, s, hs, hrun, htables, -⟩ := c.exists_run hwf settings
  have hparents : s.tables.parents = (c.registered settings).tables.parents :=
    htables ▸ hs.tables.parents
  have hnested : s.tables.nested = itemsNestedModules c.node.id c.items := by
    rw [htables, hs.tables.nested, c.nested_registered hwf settings]
  refine ⟨s, hrun, resolve_of_runs hrun, fun module around items htree => ⟨?_, ?_, ?_⟩, ?_,
    ⟨fun id => ?_⟩, fun ancestor id result => ?_⟩
  · unfold Tables.nestedIn
    rw [hnested]
    exact c.modulesIn_moduleTree hwf htree
  · rw [hparents]
    exact fun item hitem hmodule => c.parents_moduleTree hwf settings htree hitem hmodule
  · have hchain := c.chained_moduleTree hwf settings htree
    rw [← hparents] at hchain
    intro ancestor
    rw [Tables.isWithin, Tables.enclosing_eq hchain, decide_eq_true_iff]
  · rw [hparents]
    exact c.parents_root hwf settings
  · obtain ⟨rest, hchain⟩ := c.exists_chain hwf settings id
    rw [hparents]
    exact hchain.acc id rfl
  · obtain ⟨rest, hchain⟩ := c.exists_chain hwf settings id
    rw [← hparents] at hchain
    rw [Tables.isWithin, Tables.enclosing_eq hchain]
    exact Tables.climbs_iff hchain id rfl result

omit hwf

/-- A module `a` with a module and a function, and another module `a`, which is refused, with a
module of its own. -/
def withTwinModules : Crate where
  node := ⟨⟨0⟩, ⟨0, 99⟩⟩
  items :=
    let module (id offset : Nat) (text : String) (items : List Item) : Item :=
      ⟨⟨⟨id⟩, ⟨offset, 1⟩⟩, .ownModule, .module ⟨text, ⟨offset + 4, 1⟩⟩ items⟩
    [module 1 0 "a" [module 2 8 "b" [],
        ⟨⟨⟨3⟩, ⟨20, 1⟩⟩, .ownModule, .function ⟨⟨"f", ⟨23, 1⟩⟩, .none, none, [], none, none⟩⟩],
      module 4 40 "a" [module 5 48 "d" []]]
  idBound := ⟨6⟩

/-- The module that was refused is there with its own module, which is not inside the first one. -/
theorem modules_recorded_withTwinModules :
    withTwinModules.WellFormed ∧
      ∃ s, Runs (withTwinModules.run {}) (.start withTwinModules {}) () s ∧
        s.tables.nestedIn ⟨0⟩ = [⟨1⟩, ⟨4⟩] ∧ s.tables.nestedIn ⟨4⟩ = [⟨5⟩] ∧
        s.tables.parents.get? ⟨5⟩ = some ⟨4⟩ ∧ s.tables.Climbs ⟨4⟩ ⟨5⟩ true ∧
        s.tables.Climbs ⟨1⟩ ⟨5⟩ false := by
  have hwf : withTwinModules.WellFormed := by decide
  obtain ⟨s, hrun, -, htree, -, -, hclimbs⟩ := modules_recorded hwf {}
  obtain ⟨hroot, -, -⟩ := htree ⟨0⟩ [] _ List.mem_cons_self
  obtain ⟨hrefused, hparents, -⟩ := htree ⟨4⟩ [⟨0⟩] _
    (List.mem_cons_of_mem _ (List.mem_cons_of_mem _ (List.mem_cons_of_mem _ List.mem_cons_self)))
  obtain ⟨-, -, hwithin⟩ := htree ⟨5⟩ [⟨4⟩, ⟨0⟩] _ (List.mem_cons_of_mem _
    (List.mem_cons_of_mem _ (List.mem_cons_of_mem _ (List.mem_cons_of_mem _ List.mem_cons_self))))
  refine ⟨hwf, s, hrun, hroot, hrefused, hparents _ List.mem_cons_self rfl,
    (hclimbs _ _ _).mpr ((hwithin _).mpr (by decide)), (hclimbs _ _ _).mpr ?_⟩
  exact Bool.eq_false_iff.mpr fun hin => absurd ((hwithin _).mp hin) (by decide)

end Crate

end NameResolution
