import NameResolution.Declaration
import NameResolution.Proofs.Execution

/-!
# NameResolution.Proofs.Growth

**A session only grows, and only where it is worked on.** `Session.Grows ids s s'` is
what every successful part of either pass keeps, `ids` being the identities of the tree
nodes that the part works on:

* the stacks are as they were, and so is everything that is fixed at the start;
* whatever has been found out stays: bindings, canonical paths, containers;
* a node outside `ids` that nothing is known about (`Session.Unused`) stays so, and
  nothing is bound in its rib.

The relation is reflexive and composes along `++` of the identities, which is how the
passes go over a tree whose identities are all different.
-/

namespace NameResolution

namespace Register

variable {α : Type}

@[simp] theorem get?_set_self (r : Register α) (id : NodeId) (a : α) :
    (r.set id a).get? id = some a := by
  rw [get?_set, if_pos rfl]

theorem get?_set_ne {r : Register α} {id key : NodeId} (h : key ≠ id) (a : α) :
    (r.set id a).get? key = r.get? key := by
  rw [get?_set, if_neg h]

/-- Nothing but some of the keys that had no entry can have gained one. -/
def Gains (keys : List NodeId) (r r' : Register α) : Prop :=
  ∀ key, r'.get? key = r.get? key ∨ key ∈ keys ∧ r.get? key = none

namespace Gains

variable {keys : List NodeId} {r r' : Register α} {key : NodeId}

theorem refl (keys : List NodeId) (r : Register α) : Gains keys r r := fun _ => Or.inl rfl

theorem set (hmem : key ∈ keys) (hnone : r.get? key = none) (a : α) :
    Gains keys r (r.set key a) := fun other => by
  by_cases hother : other = key
  · rw [hother]
    exact Or.inr ⟨hmem, hnone⟩
  · exact Or.inl (get?_set_ne hother a)

theorem keeps (h : Gains keys r r') {a : α} (hget : r.get? key = some a) :
    r'.get? key = some a := by
  rcases h key with hsame | ⟨-, hnone⟩
  · exact hsame.trans hget
  · rw [hnone] at hget
    cases hget

theorem absent (h : Gains keys r r') (hout : key ∉ keys) (hnone : r.get? key = none) :
    r'.get? key = none :=
  (h key).elim (fun hsame => hsame.trans hnone) fun hnew => absurd hnew.1 hout

end Gains

end Register

namespace Session

/-- Nothing is known about an identity: it was never bound, and has neither a canonical path nor
children. -/
structure Unused (s : Session) (id : NodeId) : Prop where
  undeclared : ∀ space, id ∉ (s.scope space).declared
  pathless : s.tables.paths.get? id = none
  childless : s.tables.containers.get? id = none

/-- Being unused depends on what has been declared, named and opened as a container alone. -/
theorem Unused.congr {s s' : Session} {id : NodeId} (h : s.Unused id)
    (hdeclared : ∀ space, (s'.scope space).declared = (s.scope space).declared)
    (hpaths : s'.tables.paths.get? id = s.tables.paths.get? id)
    (hcontainers : s'.tables.containers = s.tables.containers) : s'.Unused id where
  undeclared space := by rw [hdeclared]; exact h.undeclared space
  pathless := by rw [hpaths]; exact h.pathless
  childless := by rw [hcontainers]; exact h.childless

/-- A node outside `ids` that nothing is known about stays so. -/
def Spares (ids : List NodeId) (s s' : Session) : Prop :=
  ∀ id, id ∉ ids → s.Unused id → s'.Unused id

namespace Spares

variable {ids ids₁ ids₂ : List NodeId} {s s₁ s₂ : Session}

theorem append (h₁ : s.Spares ids₁ s₁) (h₂ : s₁.Spares ids₂ s₂) : s.Spares (ids₁ ++ ids₂) s₂ := by
  intro id hout hunused
  rw [List.mem_append, not_or] at hout
  exact h₂ id hout.2 (h₁ id hout.1 hunused)

/-- Opening a frame and closing it again makes nothing known. -/
theorem inFrame {owner : NodeId} (h : (s.openFrame owner).Spares ids s₁) :
    s.Spares ids s₁.withoutFrame := by
  intro id hout hunused
  have hinner : (s.openFrame owner).Unused id :=
    hunused.congr (fun space => by rw [scope_openFrame, Scope.declared_push]) rfl rfl
  exact (h id hout hinner).congr (fun space => by rw [scope_withoutFrame]) rfl rfl

/-- Neither does entering a module and leaving it. -/
theorem inModule {module : NodeId} (h : (s.openModule module).Spares ids s₁) :
    s.Spares ids s₁.withoutModule := by
  intro id hout hunused
  have hinner : (s.openModule module).Unused id :=
    hunused.congr (fun space => by rw [scope_openModule, Scope.declared_push]) rfl rfl
  exact (h id hout hinner).congr (fun space => by rw [scope_withoutModule]) rfl rfl

end Spares

/-- The rib of a node holds nothing. -/
def Vacant (s : Session) (owner : NodeId) : Prop :=
  ∀ space key, (s.scope space).bindingIn? owner key = none

/-- What a successful part of a pass that works on the nodes `ids` keeps. -/
structure Grows (ids : List NodeId) (s s' : Session) : Prop where
  builtins : s'.builtins = s.builtins
  root : s'.root = s.root
  rootPath : s'.rootPath = s.rootPath
  limit : s'.errors.limit = s.errors.limit
  opened : ∀ space, (s'.scope space).opened = (s.scope space).opened
  modules : s'.modules = s.modules
  ribs : ∀ space owner, ((s.scope space).rib? owner).isSome → ((s'.scope space).rib? owner).isSome
  /-- Only the innermost rib and those of the nodes worked on can gain a binding. -/
  bindings : ∀ space owner key, owner ∉ ids → (s.scope space).opened.head? ≠ some owner →
    (s'.scope space).bindingIn? owner key = (s.scope space).bindingIn? owner key
  declared : ∀ space id, id ∈ (s.scope space).declared → id ∈ (s'.scope space).declared
  paths : ∀ id path, s.tables.paths.get? id = some path → s'.tables.paths.get? id = some path
  containers : ∀ id kind, s.tables.containers.get? id = some kind →
    s'.tables.containers.get? id = some kind
  unused : s.Spares ids s'

namespace Grows

variable {ids ids₁ ids₂ : List NodeId} {s s₁ s₂ : Session}

theorem refl (ids : List NodeId) (s : Session) : Grows ids s s where
  builtins := rfl
  root := rfl
  rootPath := rfl
  limit := rfl
  opened _ := rfl
  modules := rfl
  ribs _ _ h := h
  bindings _ _ _ _ _ := rfl
  declared _ _ h := h
  paths _ _ h := h
  containers _ _ h := h
  unused _ _ h := h

theorem mono (h : Grows ids₁ s s₁) (hids : ids₁ ⊆ ids₂) : Grows ids₂ s s₁ :=
  { h with
    bindings := fun space owner key hout hhead =>
      h.bindings space owner key (fun hin => hout (hids hin)) hhead
    unused := fun id hout hunused => h.unused id (fun hin => hout (hids hin)) hunused }

/-- Two parts that work on the same nodes, one after the other. -/
theorem trans (h₁ : Grows ids s s₁) (h₂ : Grows ids s₁ s₂) : Grows ids s s₂ where
  builtins := h₂.builtins.trans h₁.builtins
  root := h₂.root.trans h₁.root
  rootPath := h₂.rootPath.trans h₁.rootPath
  limit := h₂.limit.trans h₁.limit
  opened space := (h₂.opened space).trans (h₁.opened space)
  modules := h₂.modules.trans h₁.modules
  ribs space owner h := h₂.ribs space owner (h₁.ribs space owner h)
  bindings space owner key hout hhead := by
    rw [h₂.bindings space owner key hout (by rwa [h₁.opened space]),
      h₁.bindings space owner key hout hhead]
  declared space id h := h₂.declared space id (h₁.declared space id h)
  paths id path h := h₂.paths id path (h₁.paths id path h)
  containers id kind h := h₂.containers id kind (h₁.containers id kind h)
  unused id hout h := h₂.unused id hout (h₁.unused id hout h)

theorem append (h₁ : Grows ids₁ s s₁) (h₂ : Grows ids₂ s₁ s₂) : Grows (ids₁ ++ ids₂) s s₂ :=
  (h₁.mono (List.subset_append_left _ _)).trans (h₂.mono (List.subset_append_right _ _))

/-- The rib of a node that is neither worked on nor open stays empty. -/
theorem vacant (h : Grows ids s s₁) {id : NodeId} (hout : id ∉ ids)
    (hclosed : ∀ space, (s.scope space).opened.head? ≠ some id) (hvacant : s.Vacant id) :
    s₁.Vacant id := fun space key => by
  rw [h.bindings space id key hout (hclosed space), hvacant space key]

theorem isModule (h : Grows ids s s₁) {id : NodeId} (hm : s.tables.isModule id = true) :
    s₁.tables.isModule id = true := by
  unfold Tables.isModule at *
  simp only [beq_iff_eq] at *
  exact h.containers id .module hm

/-! ### What each action keeps -/

/-- Whatever leaves the symbol tables and all that is fixed at the start alone. -/
theorem sameScopes (hscope : ∀ space, s₁.scope space = s.scope space)
    (hbuiltins : s₁.builtins = s.builtins) (hroot : s₁.root = s.root)
    (hrootPath : s₁.rootPath = s.rootPath) (hlimit : s₁.errors.limit = s.errors.limit)
    (hmodules : s₁.modules = s.modules) (hpaths : s.tables.paths.Gains ids s₁.tables.paths)
    (hcontainers : s.tables.containers.Gains ids s₁.tables.containers) : Grows ids s s₁ where
  builtins := hbuiltins
  root := hroot
  rootPath := hrootPath
  limit := hlimit
  opened space := by rw [hscope]
  modules := hmodules
  ribs space owner h := by rwa [hscope]
  bindings space owner key _ _ := by rw [hscope]
  declared space id h := by rwa [hscope]
  paths _ _ h := hpaths.keeps h
  containers _ _ h := hcontainers.keeps h
  unused id hout h := ⟨fun space => by rw [hscope]; exact h.undeclared space,
    hpaths.absent hout h.pathless, hcontainers.absent hout h.childless⟩

/-- Any change to the tables that only adds to paths and containers. -/
theorem withTables {t : Tables} (hpaths : s.tables.paths.Gains ids t.paths)
    (hcontainers : s.tables.containers.Gains ids t.containers) : Grows ids s (s.withTables t) :=
  sameScopes (scope_withTables s t) rfl rfl rfl rfl rfl hpaths hcontainers

theorem reporting (ids : List NodeId) (s : Session) (e : ResolveError) :
    Grows ids s (s.reporting e) :=
  sameScopes (scope_reporting s e) rfl rfl rfl rfl rfl (.refl ids _) (.refl ids _)

/-- Entering a canonical path where there was none. -/
theorem withPath {id : NodeId} (hmem : id ∈ ids) (hnone : s.tables.paths.get? id = none)
    (path : CanonicalPath) : Grows ids s (s.withPath id path) :=
  withTables (.set hmem hnone path) (.refl ids _)

/-- Entering the kind of a container where there was none. -/
theorem withContainer {id : NodeId} (hmem : id ∈ ids) (hnone : s.tables.containers.get? id = none)
    (kind : ContainerKind) :
    Grows ids s (s.withTables { s.tables with containers := s.tables.containers.set id kind }) :=
  withTables (.refl ids _) (.set hmem hnone kind)

/-- Making a binding in the innermost rib for something that is worked on, or that something is
known about already. -/
theorem withBinding {space : Namespace} {owner : NodeId} {b : Binding}
    (hopen : (s.scope space).opened.head? = some owner)
    (hrib : ((s.scope space).rib? owner).isSome) (hid : s.Unused b.id → b.id ∈ ids) :
    Grows ids s (s.withBinding space owner b) where
  builtins := by simp [Session.withBinding]
  root := by simp [Session.withBinding]
  rootPath := by simp [Session.withBinding]
  limit := by simp [Session.withBinding]
  opened x := s.opened_withBinding space owner b x
  modules := by simp [Session.withBinding]
  ribs x o h := by rwa [isSome_rib?_withBinding]
  bindings x o key _ hhead := by
    rw [Session.withBinding, scope_withScope]
    split
    · next hx =>
      subst hx
      -- The binding is made in the innermost rib, and `o` is not its owner.
      have hne : ¬ (o = owner ∧ b.path.SameText key) := fun h => hhead (h.1 ▸ hopen)
      rw [Scope.bindingIn?_bindIn hrib, if_neg hne]
    · rfl
  declared x id h := by
    rw [Session.withBinding, scope_withScope]
    split
    · next hx => rw [Scope.declared_bindIn, ← hx]; exact List.mem_cons_of_mem _ h
    · exact h
  paths id path h := by simpa [Session.withBinding] using h
  containers id kind h := by simpa [Session.withBinding] using h
  unused id hout h := by
    have hne : id ≠ b.id := fun heq => hout (heq ▸ hid (heq ▸ h))
    refine ⟨fun x => ?_, ?_, ?_⟩
    · rw [Session.withBinding, scope_withScope]
      split
      · rw [Scope.declared_bindIn, List.mem_cons, not_or]
        exact ⟨hne, h.undeclared space⟩
      · exact h.undeclared x
    · simpa [Session.withBinding] using h.pathless
    · simpa [Session.withBinding] using h.childless

/-- A part that runs in a frame of its own. -/
theorem inFrame {owner : NodeId} (h : Grows ids (s.openFrame owner) s₁) :
    Grows (owner :: ids) s s₁.withoutFrame where
  builtins := h.builtins
  root := h.root
  rootPath := h.rootPath
  limit := h.limit
  opened space := by
    simp only [scope_withoutFrame, h.opened space, scope_openFrame, Scope.opened_push,
      List.tail_cons]
  modules := h.modules
  ribs space x hx := by
    have hpush : (((s.scope space).push owner).rib? x).isSome :=
      Scope.isSome_rib?_push (Or.inr hx)
    rw [scope_withoutFrame]
    exact h.ribs space x (by rwa [scope_openFrame])
  bindings space x key hout _ := by
    -- Inside the frame, the rib of `owner` is the innermost one.
    have hne : x ≠ owner := fun heq => hout (heq ▸ List.mem_cons_self)
    have hkept := h.bindings space x key (fun hin => hout (List.mem_cons_of_mem _ hin))
      (by simpa using hne.symm)
    rw [scope_openFrame, Scope.bindingIn?_push] at hkept
    rw [scope_withoutFrame]
    exact hkept
  declared space id hid := by
    rw [scope_withoutFrame]
    exact h.declared space id (by rwa [scope_openFrame, Scope.declared_push])
  paths := h.paths
  containers := h.containers
  unused id hout hunused :=
    h.unused.inFrame id (fun hin => hout (List.mem_cons_of_mem _ hin)) hunused

/-- Entering a module opens its frame, so a part that runs inside the module grows the session as
one that runs in the frame. -/
theorem forgetModule {module : NodeId} (h : Grows ids (s.openModule module) s₁) :
    Grows ids (s.openFrame module) { s₁ with modules := s.modules } := by
  have hunused : ∀ id, id ∉ ids → (s.openFrame module).Unused id →
      Session.Unused { s₁ with modules := s.modules } id := fun id hout hid =>
    (h.unused id hout (hid.congr (fun space => by cases space <;> rfl) rfl rfl)).congr
      (fun space => by cases space <;> rfl) rfl rfl
  exact { h with modules := rfl, unused := hunused }

/-- A part that runs inside a module. -/
theorem inModule {module : NodeId} (h : Grows ids (s.openModule module) s₁) :
    Grows (module :: ids) s s₁.withoutModule := by
  have hframe := h.forgetModule.inFrame
  rwa [withoutFrame_eq_withoutModule h.modules] at hframe

end Grows

end Session

end NameResolution
