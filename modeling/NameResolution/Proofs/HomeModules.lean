import NameResolution.Proofs.ParentModules

/-!
# NameResolution.Proofs.HomeModules

**Every attempt leaves its node in the module it was made in.** Whether a name was bound or
refused, the node that attempted it gets the module around it as its parent
(`Crate.homed_registered`). The node of an implementation of a trait gets one as well, but
if its projection is refused, nothing else becomes of it or of its items: they stay unused
(`Crate.unused_registered`).

Both are said of the attempts that a part of the tree makes, and the first pass is followed
over the tree for each of them. What comes later works on other nodes (`Item.homes_rest`,
`Item.spares_rest`).
-/

namespace NameResolution

open Resolution

/-! ### Parents that stay -/

namespace Resolution.KeepsParents

variable {ids : List NodeId}

/-- Whatever enters parents leaves the stack of modules as it was. -/
theorem sameModules {α : Type} {act : Resolution α} (h : KeepsParents [] act) {s s' : Session}
    {a : α} (hrun : Runs act s a s') : s'.modules = s.modules := (hrun.sameParents h).modules

/-- The module that is left is the one that was entered. -/
theorem inModule {act : Resolution Unit} (module : NodeId) (h : KeepsParents ids act) :
    KeepsParents ids (Resolution.inModule module act) := by
  refine Keeps.inModule h fun {s s₁} hinside => ⟨?_, hinside.entries⟩
  calc s₁.withoutModule.modules
      = ⟨s₁.modules.opened.tail⟩ := rfl
    _ = ⟨(s.openModule module).modules.opened.tail⟩ := by rw [hinside.modules]

/-- Modules are entered and left like anything else. -/
theorem modules : ModuleRules (· ∉ ids) (fun _ => True) (@KeepsParents ids) where
  toDeclarationRules := rules
  addNested _ _ := updateTables fun _ => rfl
  inModule module _ h := h.inModule module

end Resolution.KeepsParents

/-- Registering items enters parents for the nodes that they declare and for no others. -/
theorem declareItems_keepsParents (items : List Item) {ids : List NodeId}
    (hids : ∀ id ∈ itemsDeclaredIds items, id ∉ ids) (place : Place) :
    KeepsParents ids (declareItems place items) :=
  KeepsParents.modules.declareItems items place hids fun _ _ => trivial

theorem Item.keepsParents (item : Item) (place : Place) {ids : List NodeId}
    (hids : ∀ id ∈ item.declaredIds, id ∉ ids) : KeepsParents ids (item.declare place) :=
  KeepsParents.modules.declareItem item place hids fun _ _ => trivial

open Resolution.KeepsParents (parts)

/-! ### Parents that are entered -/

theorem Session.SameParents.get?_eq {ids : List NodeId} {s s' : Session}
    (h : s.SameParents ids s') {id : NodeId} (hid : id ∈ ids) :
    s'.tables.parents.get? id = s.tables.parents.get? id := by
  have hentries := congrArg (List.lookup id) h.entries
  unfold Session.parentEntries at hentries
  rwa [lookup_filter (fun id => decide (id ∈ ids)) (decide_eq_true hid),
    lookup_filter (fun id => decide (id ∈ ids)) (decide_eq_true hid)] at hentries

/-- Everything that was attempted has the module of the attempt as its parent. -/
def Session.Homed (l : List Attempt) (s : Session) : Prop :=
  ∀ a ∈ l, s.tables.parents.get? a.id = some a.module

section Homed

variable {s s' s₁ : Session} {l l₁ l₂ : List Attempt} {here id : NodeId}

theorem Session.Homed.append (h₁ : s.Homed l₁) (h₂ : s.Homed l₂) : s.Homed (l₁ ++ l₂) :=
  fun a ha => (List.mem_append.mp ha).elim (h₁ a) (h₂ a)

/-- What is registered for other nodes leaves the parents alone. -/
theorem Session.Homed.keep {act : Resolution Unit} (h : s.Homed l) (hrun : Runs act s () s')
    (hkeeps : ∀ a ∈ l, KeepsParents [a.id] act) : s'.Homed l := fun a ha => by
  rw [(hrun.sameParents (hkeeps a ha)).get?_eq (List.mem_singleton_self a.id)]
  exact h a ha

/-- A member is declared and placed in the module around it. -/
private theorem runs_member {space : Namespace} {name : Ident} {place : Place} {vis : Visibility}
    {container : Option NodeId} (hhere : s.modules.opened.head? = some here)
    (hrun : Runs (do
      Functor.discard (NameResolution.declare space id name place vis container)
      placeInModule id) s () s') :
    s'.tables.parents.get? id = some here := by
  obtain ⟨_, s₁, hdeclare, hplace⟩ := hrun.bind_inv
  have hmodules : s₁.modules = s.modules :=
    KeepsParents.sameModules
      (KeepsParents.rules.discard (parts.declare space id name place vis container)) hdeclare
  obtain ⟨_, _, hcurrent, hparent⟩ := hplace.bind_inv
  obtain ⟨rfl, rfl⟩ := hcurrent.eq (runs_currentModule (hmodules ▸ hhere))
  obtain ⟨-, rfl⟩ := hparent.eq (runs_updateTables _ s₁)
  exact Register.get?_set_self _ _ _

private theorem runs_foreignItem {i : ForeignItem} {place : Place}
    (hhere : s.modules.opened.head? = some here) (hrun : Runs (i.declare place) s () s') :
    s'.tables.parents.get? i.node.id = some here := by
  obtain ⟨_, _, hcurrent, hbody⟩ := hrun.bind_inv
  obtain ⟨rfl, rfl⟩ := hcurrent.eq (runs_currentModule hhere)
  obtain ⟨_, s₁, -, hparent⟩ := hbody.bind_inv
  obtain ⟨-, rfl⟩ := hparent.eq (runs_updateTables _ s₁)
  exact Register.get?_set_self _ _ _

/-- Members are placed one after the other. -/
private theorem runs_members {α : Type} {f : α → Resolution Unit} (idOf : α → NodeId)
    (hplaces : ∀ x s s', s.modules.opened.head? = some here → Runs (f x) s () s' →
      s'.tables.parents.get? (idOf x) = some here)
    (hkeeps : ∀ x ids, idOf x ∉ ids → KeepsParents ids (f x)) (xs : List α)
    (hhere : s.modules.opened.head? = some here) (hnodup : (xs.map idOf).Nodup)
    (hrun : Runs (xs.forM f) s () s') :
    ∀ id ∈ xs.map idOf, s'.tables.parents.get? id = some here := by
  induction xs generalizing s with
  | nil =>
      intro id hid
      cases hid
  | cons x xs ih =>
      intro id hid
      obtain ⟨hx, hxs⟩ := List.nodup_cons.mp hnodup
      obtain ⟨_, s₁, hfirst, hrest⟩ := hrun.bind_inv
      have hmodules : s₁.modules = s.modules :=
        KeepsParents.sameModules (hkeeps x [] List.not_mem_nil) hfirst
      rcases List.mem_cons.mp hid with rfl | hid
      · -- The members after the first have other nodes.
        have hothers : KeepsParents [idOf x] (xs.forM f) := KeepsParents.forM xs fun y hy =>
          hkeeps y _ fun hin => hx (List.mem_map.mpr ⟨y, hy, List.mem_singleton.mp hin⟩)
        rw [(hrest.sameParents hothers).get?_eq (List.mem_singleton_self _)]
        exact hplaces x s s₁ hhere hfirst
      · exact ih (hmodules ▸ hhere) hxs hrest id hid

/-- Between the declaration of a container and its members, the stack of modules stays as it is. -/
private theorem container_inv {space : Namespace} {name : Ident} {place : Place} {vis : Visibility}
    {container : Option NodeId} {kind : ContainerKind} {next : Place → Resolution Unit}
    (hrun : Runs (do
      let inner ← NameResolution.declare space id name place vis container
      markContainer id kind
      next inner) s () s') :
    ∃ inner s₁, s₁.modules = s.modules ∧ Runs (next inner) s₁ () s' := by
  obtain ⟨inner, s₀, hdeclare, hrest⟩ := hrun.bind_inv
  obtain ⟨_, s₁, hmark, hnext⟩ := hrest.bind_inv
  have hdeclared : s₀.modules = s.modules :=
    KeepsParents.sameModules (parts.declare space id name place vis container) hdeclare
  have hmarked : s₁.modules = s₀.modules :=
    KeepsParents.sameModules (parts.markContainer id kind) hmark
  exact ⟨inner, s₁, hmarked.trans hdeclared, hnext⟩

end Homed

/-! ### What becomes of an implementation of a trait -/

section Implementations

variable {s s' : Session} {l : List Attempt} {here : NodeId}

/-- Either all that happens is a report, or the projection is new and the items are registered. -/
theorem TraitImpl.declare_inv (hin : s.Inside here) (hreg : s.Registered l) (i : TraitImpl)
    (node : Node) (vis : Visibility) (place : Place)
    (hrun : Runs (i.declare node place) s () s') :
    ((∀ a ∈ (ItemKind.traitImpl i).attempts node vis here place l,
        a.id = node.id ∧ a.module = here) ∧ ∃ e, s' = s.reporting e) ∨
      ∃ projection s₁, (place.projectionAttempt here node projection).earlier? l = none ∧
        (ItemKind.traitImpl i).attempts node vis here place l =
          place.projectionAttempt here node projection ::
            i.items.map (ImplItem.attempt here (place.extend projection)) ∧
        s₁.modules = s.modules ∧
        Runs (i.items.forM (ImplItem.declare (place.extend projection))) s₁ () s' := by
  rw [i.declare_eq here] at hrun
  simp only [ItemKind.attempts]
  cases hprojection : i.projection node.id with
  | error malformed =>
      rw [hprojection] at hrun
      obtain ⟨-, rfl⟩ := hrun.eq (runs_report _ s)
      exact Or.inl ⟨by simp, _, rfl⟩
  | ok projection =>
      rw [hprojection] at hrun
      obtain ⟨made, s₁, hbind, hrest⟩ := hrun.bind_inv
      have hheld := hreg.ribs .name here (place.projectionAttempt here node projection).key
        hin.notPrelude
      cases hearlier : (place.projectionAttempt here node projection).earlier? l with
      | some first =>
          have htaken := hheld.trans (congrArg (Option.map Attempt.binding) hearlier)
          obtain ⟨rfl, rfl⟩ :=
            hbind.eq (runs_makeBinding_refused (hin.frame .name) htaken redefinition)
          obtain ⟨-, rfl⟩ := hrest.eq (Runs.pure () _)
          refine Or.inl ⟨fun a ha => ?_, _, rfl⟩
          simp only [hearlier, List.mem_singleton] at ha
          rw [ha]
          exact ⟨rfl, rfl⟩
      | none =>
          have hvacant := hheld.trans (congrArg (Option.map Attempt.binding) hearlier)
          obtain ⟨rfl, rfl⟩ :=
            hbind.eq (runs_makeBinding_added (hin.frame .name) (Or.inr hvacant) redefinition)
          obtain ⟨_, s₂, hpath, hitems⟩ := hrest.bind_inv
          have hbound := KeepsParents.sameModules (parts.makeBinding _ _ _ _) hbind
          have hnamed := KeepsParents.sameModules (parts.setPath _ _) hpath
          exact Or.inr ⟨projection, s₂, hearlier, by simp only [hearlier]; rfl,
            hnamed.trans hbound, hitems⟩

end Implementations

/-! ### Entering a module -/

section Modules

variable {s s' : Session} {l : List Attempt} {here : NodeId}

/-- The items of a module are registered after the module itself, and inside it. -/
theorem declare_module_inv (hin : s.Inside here) (hreg : s.Registered l) {node : Node}
    {vis : Visibility} {name : Ident} {items : List Item} {place : Place}
    (hawaits : s.Awaits (node.id :: itemsDeclaredIds items))
    (hrun : Runs ((ItemKind.module name items).declare node vis here place) s () s') :
    ∃ s₁ s₂, s₁.Inside node.id ∧
      s₁.Registered
        (l ++ [place.attempt here .name node.id name vis (some here) (some .module)]) ∧
      s₁.Awaits (itemsDeclaredIds items) ∧
      Runs (declareItems (.ofModule (place.path ++ .single node.id name.name)) items) s₁ () s₂ ∧
      s' = s₂.withoutModule := by
  obtain ⟨inner, s₁, hdeclare, hrest⟩ := hrun.bind_inv
  obtain ⟨_, s₂, hmark, hrest⟩ := hrest.bind_inv
  obtain ⟨_, s₃, hnested, hinside⟩ := hrest.bind_inv
  -- The answer of the declaration is the place of the module.
  have hunused := hawaits.unused node.id List.mem_cons_self
  obtain ⟨_, hplace, -⟩ := declare_attempts .name name place vis (some here) (some .module) hin
    hreg.toBound hunused
  obtain ⟨rfl, -⟩ := hdeclare.eq hplace
  -- Marking it as a module completes the attempt.
  let attempt := place.attempt here .name node.id name vis (some here) (some .module)
  obtain ⟨s₂', hboth, hgrows, hreg₂⟩ : Registers [node.id] l [attempt] (do
      let _ ← NameResolution.declare .name node.id name place vis (some here)
      markContainer node.id .module) () s :=
    declare_container_registers hin hreg hawaits .name name place vis (some here) .module
      fun _ _ _ h => Registers.pure h
  obtain ⟨-, rfl⟩ := (hdeclare.bind (hmark.bind (Runs.pure () s₂))).eq hboth
  obtain ⟨s₃', hadd, hgrows', hreg₃⟩ := addNested_registers hreg₂ here node.id
  obtain ⟨-, rfl⟩ := hnested.eq hadd
  rw [List.append_nil] at hreg₃
  have hmodule : s₃'.tables.isModule node.id = true := by
    have hget :=
      hreg₃.containers _ (List.mem_append_right _ (List.mem_singleton_self _)) .module rfl
    change s₃'.tables.containers.get? node.id = some .module at hget
    simp [Tables.isModule, hget]
  have hne : node.id ≠ s₃'.builtins.prelude := fun heq => by
    rw [hgrows'.builtins, hgrows.builtins] at heq
    exact hawaits.notPrelude (heq ▸ List.mem_cons_self)
  have hawaits₂ : s₂'.Awaits (itemsDeclaredIds items) := Session.Awaits.right hawaits hgrows
  have hawaits₃ : s₃'.Awaits (itemsDeclaredIds items) := Session.Awaits.right hawaits₂ hgrows'
  have hin₃ := Session.Inside.openModule hmodule hne
  obtain ⟨s₄, hitems, hgrows₄, -⟩ := declareItems_registers items
    (.ofModule (place.path ++ .single node.id name.name)) hin₃ (hreg₃.openModule node.id)
    (hawaits₃.openModule node.id)
  have hin₄ := hin₃.grows hgrows₄
  obtain ⟨-, hleft⟩ := hinside.eq (hitems.inModule hin₄.frame hin₄.stack)
  exact ⟨_, s₄, hin₃, hreg₃.openModule node.id, hawaits₃.openModule node.id, hitems, hleft.symm⟩

end Modules

/-! ### The induction over the tree -/

section Homes

variable {s s' : Session} {l : List Attempt} {here : NodeId} {node : Node} {vis : Visibility}
  {place : Place}

/-- Either an item that is no module attempts nothing but its own name, or all its members are
placed. -/
private theorem ItemKind.declare_places {kind : ItemKind}
    (hflat : ∀ name items, kind ≠ .module name items) (hin : s.Inside here) (hreg : s.Registered l)
    (hnodup : kind.memberIds.Nodup) (hrun : Runs (kind.declare node vis here place) s () s') :
    (∀ a ∈ kind.attempts node vis here place l, a.id = node.id) ∨
      ∀ id ∈ kind.memberIds, s'.tables.parents.get? id = some here := by
  cases kind with
  | module name items => exact absurd rfl (hflat name items)
  | enum e =>
      obtain ⟨inner, s₁, hmodules, hvariants⟩ := container_inv hrun
      exact Or.inr (runs_members (fun v : Variant => v.node.id)
        (fun x s s' hhere h => runs_member hhere h)
        (fun x ids hid => KeepsParents.rules.declareMember hid _ _ _ _ _)
        e.variants (hmodules ▸ hin.stack) hnodup hvariants)
  | trait t =>
      obtain ⟨inner, s₁, hmodules, hitems⟩ := container_inv hrun
      exact Or.inr (runs_members (fun i : TraitItem => i.node.id)
        (fun x s s' hhere h => runs_member hhere h)
        (fun x ids hid => KeepsParents.rules.declareMember hid _ _ _ _ _)
        t.items (hmodules ▸ hin.stack) hnodup hitems)
  | inherentImpl i =>
      simp only [ItemKind.attempts]
      simp only [ItemKind.declare] at hrun
      unfold InherentImpl.declare at hrun
      cases hheader : i.selfTy.headerPath i.generics.isEmpty with
      | error malformed =>
          refine Or.inl fun a ha => ?_
          cases ha
      | ok selfTy =>
          rw [hheader] at hrun
          obtain ⟨_, s₁, hpath, hitems⟩ := hrun.bind_inv
          have hmodules := KeepsParents.sameModules (parts.setPath _ _) hpath
          exact Or.inr (runs_members (fun i : ImplItem => i.node.id)
            (fun x s s' hhere h => runs_member hhere h)
            (fun x ids hid => KeepsParents.rules.declareImplItem hid _)
            i.items (hmodules ▸ hin.stack) hnodup hitems)
  | traitImpl i =>
      rcases i.declare_inv hin hreg node vis place hrun with
        ⟨hown, -⟩ | ⟨projection, s₁, -, -, hmodules, hitems⟩
      · exact Or.inl fun a ha => (hown a ha).1
      · exact Or.inr (runs_members (fun i : ImplItem => i.node.id)
          (fun x s s' hhere h => runs_member hhere h)
          (fun x ids hid => KeepsParents.rules.declareImplItem hid _)
          i.items (hmodules ▸ hin.stack) hnodup hitems)
  | foreign b =>
      exact Or.inr (runs_members (fun i : ForeignItem => i.node.id)
        (fun x s s' hhere h => runs_foreignItem hhere h)
        (fun x ids hid => KeepsParents.rules.declareForeignItem hid _)
        b.items hin.stack hnodup hrun)
  | _ =>
      refine Or.inl fun a ha => ?_
      rw [List.mem_singleton.mp ha]
      rfl

/-- Whatever an item that is no module attempts is placed in the module around it. -/
private theorem Item.homes_flat {kind : ItemKind}
    (hflat : ∀ name items, kind ≠ .module name items) (hin : s.Inside here) (hreg : s.Registered l)
    (hnodup : (node.id :: kind.memberIds).Nodup)
    (hrun : Runs (Item.declare place ⟨node, vis, kind⟩) s () s') :
    s'.Homed (kind.attempts node vis here place l) := by
  obtain ⟨s₁, hkind, hparent⟩ := Item.declare_inv hin.stack hrun
  obtain ⟨-, rfl⟩ := hparent.eq (runs_updateTables _ s₁)
  intro a ha
  rw [(ItemKind.attempts_here hflat ha).1]
  change (s₁.tables.parents.set node.id here).get? a.id = some here
  -- The node itself comes last, after whatever it holds.
  by_cases hown : a.id = node.id
  · rw [hown, Register.get?_set_self]
  · rw [Register.get?_set_ne hown]
    have hmember : a.id ∈ kind.memberIds :=
      List.mem_of_ne_of_mem hown
        ((ItemKind.attempts_ids hflat).subset (List.mem_map_of_mem ha))
    rcases ItemKind.declare_places hflat hin hreg (List.nodup_cons.mp hnodup).2 hkind with
      hnone | hplaced
    · exact absurd (hnone a ha) hown
    · exact hplaced a.id hmember

/-- A module is placed in the one around it, after whatever it holds has been placed. -/
private theorem Item.homes_module {name : Ident} {items : List Item} (hin : s.Inside here)
    (hreg : s.Registered l) (hawaits : s.Awaits (node.id :: itemsDeclaredIds items))
    (hrun : Runs (Item.declare place ⟨node, vis, .module name items⟩) s () s')
    (hinner : ∀ (place : Place) (s s' : Session) (l : List Attempt), s.Inside node.id →
      s.Registered l → s.Awaits (itemsDeclaredIds items) → Runs (declareItems place items) s () s' →
      s'.Homed (itemsAttempts node.id place l items)) :
    s'.Homed ((ItemKind.module name items).attempts node vis here place l) := by
  obtain ⟨s₁, hkind, hparent⟩ := Item.declare_inv hin.stack hrun
  obtain ⟨-, rfl⟩ := hparent.eq (runs_updateTables _ s₁)
  obtain ⟨s₂, s₃, hin₂, hreg₂, hawaits₂, hitems, rfl⟩ := declare_module_inv hin hreg hawaits hkind
  intro a ha
  change (s₃.tables.parents.set node.id here).get? a.id = some a.module
  rcases List.mem_cons.mp ha with rfl | ha
  · exact Register.get?_set_self _ _ _
  · have hid : a.id ∈ itemsDeclaredIds items :=
      (itemsAttempts_ids items).subset (List.mem_map_of_mem ha)
    have hne : a.id ≠ node.id := fun heq => (List.nodup_cons.mp hawaits.nodup).1 (heq ▸ hid)
    rw [Register.get?_set_ne hne]
    exact hinner _ _ _ _ hin₂ hreg₂ hawaits₂ hitems a ha

/-- What an item has placed stays where it is, since the items behind it have other nodes. -/
private theorem Item.homes_rest {item : Item} {rest : List Item} {s₁ : Session}
    (hnodup : (itemsDeclaredIds (item :: rest)).Nodup)
    (hhomed : s₁.Homed (item.attempts here place l))
    (hrest : Runs (declareItems place rest) s₁ () s') : s'.Homed (item.attempts here place l) :=
  hhomed.keep hrest fun a ha => declareItems_keepsParents rest (fun id hid hin => by
    have hmem : a.id ∈ item.declaredIds := item.attempts_ids.subset (List.mem_map_of_mem ha)
    rw [List.mem_singleton.mp hin] at hid
    exact (List.nodup_append.mp hnodup).2.2 _ hmem _ hid rfl) place

end Homes

/-- Registering items places whatever they attempt. -/
theorem declareItems_homes (items : List Item) (place : Place) {s s' : Session} {l : List Attempt}
    {here : NodeId} (hin : s.Inside here) (hreg : s.Registered l)
    (hawaits : s.Awaits (itemsDeclaredIds items))
    (hrun : Runs (declareItems place items) s () s') :
    s'.Homed (itemsAttempts here place l items) := by
  induction items using items_induction generalizing place s s' l here with
  | nil =>
      intro a ha
      cases ha
  | module node vis name items rest ihInside ih =>
      obtain ⟨_, s₁, hitem, hrest⟩ := hrun.bind_inv
      have hone := Item.homes_module hin hreg hawaits.left hitem fun _ _ _ _ => ihInside _
      obtain ⟨hgrows, hreg₁⟩ :=
        (Item.declare_registers _ place hin hreg hawaits.left).of_runs hitem
      exact (Item.homes_rest hawaits.nodup hone hrest).append
        (ih place (hin.grows hgrows) hreg₁ (hawaits.right hgrows) hrest)
  | flat node vis kind rest hflat ih =>
      obtain ⟨_, s₁, hitem, hrest⟩ := hrun.bind_inv
      have hnodup := hawaits.left.nodup
      rw [Item.declaredIds_flat hflat] at hnodup
      have hone := Item.homes_flat hflat hin hreg hnodup hitem
      obtain ⟨hgrows, hreg₁⟩ :=
        (Item.declare_registers _ place hin hreg hawaits.left).of_runs hitem
      exact (Item.homes_rest hawaits.nodup hone hrest).append
        (ih place (hin.grows hgrows) hreg₁ (hawaits.right hgrows) hrest)

/-! ### Implementations that are passed over -/

mutual

/-- The implementations of traits that an item is or holds. -/
def Item.traitImpls : Item → List (Node × TraitImpl)
  | ⟨n, _, .traitImpl i⟩ => [(n, i)]
  | ⟨_, _, .module _ items⟩ => itemsTraitImpls items
  | _ => []

def itemsTraitImpls : List Item → List (Node × TraitImpl)
  | [] => []
  | item :: rest => item.traitImpls ++ itemsTraitImpls rest

end

/-- The nodes of an implementation of a trait and of its items. -/
def TraitImpl.ownIds (node : Node) (i : TraitImpl) : List NodeId :=
  node.id :: i.items.map (·.node.id)

/-- Only an implementation is one, as long as no module is gone into. -/
theorem Item.traitImpls_flat {node : Node} {vis : Visibility} {kind : ItemKind}
    (hflat : ∀ name items, kind ≠ .module name items) {t : Node × TraitImpl}
    (ht : t ∈ Item.traitImpls ⟨node, vis, kind⟩) : t.1 = node ∧ kind = .traitImpl t.2 := by
  cases kind with
  | module name items => exact absurd rfl (hflat name items)
  | traitImpl i =>
      rw [List.mem_singleton.mp ht]
      exact ⟨rfl, rfl⟩
  | _ => cases ht

theorem itemsOwnIds_subset (items : List Item) {t : Node × TraitImpl}
    (ht : t ∈ itemsTraitImpls items) : t.2.ownIds t.1 ⊆ itemsDeclaredIds items := by
  induction items using items_induction with
  | nil => cases ht
  | module node vis name items rest ihInside ih =>
      rcases List.mem_append.mp ht with ht | ht
      · exact fun id hid => List.mem_append_left _ (List.mem_cons_of_mem _ (ihInside ht hid))
      · exact fun id hid => List.mem_append_right _ (ih ht hid)
  | flat node vis kind rest hflat ih =>
      rcases List.mem_append.mp ht with ht | ht
      · obtain ⟨rfl, rfl⟩ := Item.traitImpls_flat hflat ht
        exact List.subset_append_left _ _
      · exact fun id hid => List.mem_append_right _ (ih ht hid)

section Spares

variable {s s' : Session} {l : List Attempt} {here : NodeId} {place : Place}

/-- An implementation whose projection is not accepted leaves its nodes unused. -/
private theorem Item.spares_impl {node : Node} {vis : Visibility} {i : TraitImpl}
    (hin : s.Inside here) (hreg : s.Registered l) (hawaits : s.Awaits (i.ownIds node))
    (hrun : Runs (Item.declare place ⟨node, vis, .traitImpl i⟩) s () s')
    (hrefused : ∀ a ∈ acceptedAfter l ((ItemKind.traitImpl i).attempts node vis here place l),
      a.id ≠ node.id) :
    ∀ id ∈ i.ownIds node, s'.Unused id := by
  intro id hid
  obtain ⟨s₁, hkind, hparent⟩ := Item.declare_inv hin.stack hrun
  obtain ⟨-, rfl⟩ := hparent.eq (runs_updateTables _ s₁)
  rcases i.declare_inv hin hreg node vis place hkind with
    ⟨-, e, rfl⟩ | ⟨projection, _, hearlier, hattempts, -, -⟩
  · exact (hawaits.unused id hid).congr (fun space => by simp) rfl rfl
  · -- The projection would be accepted.
    rw [hattempts, acceptedAfter, hearlier] at hrefused
    exact absurd rfl (hrefused _ List.mem_cons_self)

/-- What the items of a module leave unused stays so when the module is left. -/
private theorem Item.spares_module {node : Node} {vis : Visibility} {name : Ident}
    {items : List Item} {t : Node × TraitImpl} (hin : s.Inside here) (hreg : s.Registered l)
    (hawaits : s.Awaits (node.id :: itemsDeclaredIds items))
    (hrun : Runs (Item.declare place ⟨node, vis, .module name items⟩) s () s')
    (hrefused : ∀ a ∈ acceptedAfter l ((ItemKind.module name items).attempts node vis here place l),
      a.id ≠ t.1.id)
    (hinner : ∀ (place : Place) (s s' : Session) (l : List Attempt), s.Inside node.id →
      s.Registered l → s.Awaits (itemsDeclaredIds items) → Runs (declareItems place items) s () s' →
      (∀ a ∈ acceptedAfter l (itemsAttempts node.id place l items), a.id ≠ t.1.id) →
      ∀ id ∈ t.2.ownIds t.1, s'.Unused id) :
    ∀ id ∈ t.2.ownIds t.1, s'.Unused id := by
  intro id hid
  obtain ⟨s₁, hkind, hparent⟩ := Item.declare_inv hin.stack hrun
  obtain ⟨-, rfl⟩ := hparent.eq (runs_updateTables _ s₁)
  obtain ⟨s₂, s₃, hin₂, hreg₂, hawaits₂, hitems, rfl⟩ := declare_module_inv hin hreg hawaits hkind
  have hinside : s₃.Unused id := by
    refine hinner _ _ _ _ hin₂ hreg₂ hawaits₂ hitems (fun a ha => hrefused a ?_) id hid
    simp only [ItemKind.attempts, acceptedAfter]
    split
    · exact List.mem_cons_of_mem _ ha
    · exact ha
  exact hinside.congr (fun space => by simp) rfl rfl

/-- What comes after an item works on other nodes. -/
private theorem Item.spares_rest {item : Item} {rest : List Item} (hin : s.Inside here)
    (hreg : s.Registered l) (hawaits : s.Awaits (itemsDeclaredIds rest))
    (hnodup : (itemsDeclaredIds (item :: rest)).Nodup)
    (hrest : Runs (declareItems place rest) s () s') {id : NodeId} (hid : id ∈ item.declaredIds)
    (hunused : s.Unused id) : s'.Unused id := by
  obtain ⟨hgrows, -⟩ := (declareItems_registers rest place hin hreg hawaits).of_runs hrest
  exact hgrows.unused id (fun hout => (List.nodup_append.mp hnodup).2.2 id hid id hout rfl) hunused

end Spares

/-- The implementations whose projections are not accepted leave their nodes unused. -/
theorem declareItems_spares (items : List Item) {t : Node × TraitImpl}
    (ht : t ∈ itemsTraitImpls items) (place : Place) {s s' : Session} {l : List Attempt}
    {here : NodeId} (hin : s.Inside here) (hreg : s.Registered l)
    (hawaits : s.Awaits (itemsDeclaredIds items)) (hrun : Runs (declareItems place items) s () s')
    (hrefused : ∀ a ∈ acceptedAfter l (itemsAttempts here place l items), a.id ≠ t.1.id) :
    ∀ id ∈ t.2.ownIds t.1, s'.Unused id := by
  induction items using items_induction generalizing place s s' l here with
  | nil => cases ht
  | module node vis name items rest ihInside ih =>
      intro id hid
      obtain ⟨_, s₁, hitem, hrest⟩ := hrun.bind_inv
      obtain ⟨hgrows, hreg₁⟩ :=
        (Item.declare_registers _ place hin hreg hawaits.left).of_runs hitem
      simp only [itemsAttempts, acceptedAfter_append, List.mem_append] at hrefused
      rcases List.mem_append.mp ht with ht | ht
      · have hmem : id ∈ node.id :: itemsDeclaredIds items :=
          List.mem_cons_of_mem _ (itemsOwnIds_subset items ht hid)
        have hunused := Item.spares_module hin hreg hawaits.left hitem
          (fun a ha => hrefused a (Or.inl ha)) (fun place _ _ _ => ihInside ht place) id hid
        exact Item.spares_rest (hin.grows hgrows) hreg₁ (hawaits.right hgrows) hawaits.nodup hrest
          hmem hunused
      · exact ih ht place (hin.grows hgrows) hreg₁ (hawaits.right hgrows) hrest
          (fun a ha => hrefused a (Or.inr ha)) id hid
  | flat node vis kind rest hflat ih =>
      intro id hid
      obtain ⟨_, s₁, hitem, hrest⟩ := hrun.bind_inv
      obtain ⟨hgrows, hreg₁⟩ :=
        (Item.declare_registers _ place hin hreg hawaits.left).of_runs hitem
      simp only [itemsAttempts, acceptedAfter_append, List.mem_append] at hrefused
      rcases List.mem_append.mp ht with ht | ht
      · obtain ⟨rfl, rfl⟩ := Item.traitImpls_flat hflat ht
        have hunused := Item.spares_impl hin hreg hawaits.left hitem
          (fun a ha => hrefused a (Or.inl ha)) id hid
        exact Item.spares_rest (hin.grows hgrows) hreg₁ (hawaits.right hgrows) hawaits.nodup hrest
          hid hunused
      · exact ih ht place (hin.grows hgrows) hreg₁ (hawaits.right hgrows) hrest
          (fun a ha => hrefused a (Or.inr ha)) id hid

/-! ### Whole crates -/

/-- The implementations of traits in a crate. -/
def Crate.traitImpls (c : Crate) : List (Node × TraitImpl) := itemsTraitImpls c.items

/-- The first pass leaves every attempt in the module that it was made in. -/
theorem Crate.homed_registered {c : Crate} (hwf : c.WellFormed) (settings : Settings) :
    (c.registered settings).Homed (c.attempts settings) := by
  obtain ⟨s, s₁, hin, hreg, hawaits, hitems, hrun, -⟩ := c.exists_declared hwf settings
  obtain ⟨-, hregistered⟩ := (c.runs_firstPass hwf settings).eq hrun
  rw [← hregistered]
  have hhomed : s₁.Homed (c.attempts settings) :=
    declareItems_homes c.items _ hin hreg hawaits hitems
  exact hhomed

/-- The first pass leaves no trace of an implementation whose projection is not accepted. -/
theorem Crate.unused_registered {c : Crate} (hwf : c.WellFormed) (settings : Settings)
    {t : Node × TraitImpl} (ht : t ∈ c.traitImpls)
    (hrefused : ∀ a ∈ accepted (c.attempts settings), a.id ≠ t.1.id) {id : NodeId}
    (hid : id ∈ t.2.ownIds t.1) : (c.registered settings).Unused id := by
  obtain ⟨s, s₁, hin, hreg, hawaits, hitems, hrun, -⟩ := c.exists_declared hwf settings
  obtain ⟨-, hregistered⟩ := (c.runs_firstPass hwf settings).eq hrun
  rw [← hregistered]
  have hunused := declareItems_spares c.items ht _ hin hreg hawaits hitems hrefused id hid
  exact hunused.congr (fun space => by simp) rfl rfl

end NameResolution
