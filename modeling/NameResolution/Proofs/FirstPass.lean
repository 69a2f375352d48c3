import NameResolution.Proofs.Seed
import NameResolution.Proofs.DeclarationPass

/-!
# NameResolution.Proofs.FirstPass

**What is known of a well-formed crate once its declarations have been registered.** The
first pass succeeds, and the session it leaves behind (`Crate.registered`) is described
by `Crate.FirstPass`: the attempts of the crate have been made, the built-in types are
where seeding has put them, and the nodes that are left to the second pass are unused.

**Duplicate detection is exact** (`Crate.duplicates_exact`): with no limit on the errors
that are kept, those about duplicates are one for each attempt whose name was tried
before, and each module's rib maps the names attempted in it, and no others, to what was
attempted first.
-/

namespace NameResolution

open Resolution

/-! ### Identities of a well-formed crate -/

namespace Crate

variable {c : Crate}

theorem WellFormed.root_lt (h : c.WellFormed) : c.node.id.value < c.idBound.value :=
  h.2 c.node.id List.mem_cons_self

/-- The modules, the other declarations and everything else are different nodes, and none of them is
the crate root. -/
theorem WellFormed.nodup_parts (h : c.WellFormed) :
    (c.node.id ::
      (itemsModuleIds c.items ++ (itemsEntryIds c.items ++ itemsBodyIds c.items))).Nodup := by
  have hperm : List.Perm (itemsNodeIds c.items)
      (itemsModuleIds c.items ++ (itemsEntryIds c.items ++ itemsBodyIds c.items)) := by
    rw [← List.append_assoc]
    exact (itemsNodeIds_perm c.items).trans ((itemsDeclaredIds_perm c.items).append_right _)
  exact (hperm.cons c.node.id).nodup_iff.mp h.1

/-- The passes work on different nodes, and none of them is the crate root. -/
theorem WellFormed.nodup (h : c.WellFormed) :
    (c.node.id :: (itemsDeclaredIds c.items ++ itemsBodyIds c.items)).Nodup :=
  ((itemsNodeIds_perm c.items).cons c.node.id).nodup_iff.mp h.1

theorem WellFormed.lt_of_mem (h : c.WellFormed) {id : NodeId}
    (hid : id ∈ itemsDeclaredIds c.items ++ itemsBodyIds c.items) :
    id.value < c.idBound.value := by
  refine h.2 id (List.mem_cons_of_mem _ ?_)
  exact (itemsNodeIds_perm c.items).mem_iff.mpr hid

end Crate

/-- Every container is attempted as one, whether its name is taken or not. -/
theorem exists_attempt_of_mem_itemsContainers {here : NodeId} {place : Place}
    {before : List Attempt} (items : List Item) : ∀ p ∈ itemsContainers items,
      ∃ a ∈ itemsAttempts here place before items, a.id = p.1 ∧ a.kind = some p.2 := by
  induction items using items_induction generalizing here place before with
  | nil =>
      intro p hp
      cases hp
  | module node vis name items rest ihInside ih =>
      intro p hp
      rcases List.mem_append.mp hp with hp | hp
      · rcases List.mem_cons.mp hp with rfl | hp
        · exact ⟨_, List.mem_append_left _ List.mem_cons_self, rfl, rfl⟩
        · obtain ⟨a, ha, h⟩ := ihInside p hp
          exact ⟨a, List.mem_append_left _ (List.mem_cons_of_mem _ ha), h⟩
      · obtain ⟨a, ha, h⟩ := ih p hp
        exact ⟨a, List.mem_append_right _ ha, h⟩
  | flat node vis kind rest hflat ih =>
      intro p hp
      rcases List.mem_append.mp hp with hp | hp
      · cases kind with
        | module name items => exact absurd rfl (hflat name items)
        | enum e | trait t =>
            cases List.mem_singleton.mp hp
            exact ⟨_, List.mem_append_left _ List.mem_cons_self, rfl, rfl⟩
        | _ => cases hp
      · obtain ⟨a, ha, h⟩ := ih p hp
        exact ⟨a, List.mem_append_right _ ha, h⟩

/-! ### The session after the first pass -/

/-- What the first pass leaves behind. -/
structure Crate.FirstPass (c : Crate) (settings : Settings) (s : Session) : Prop
    extends s.Registered (c.attempts settings) where
  builtins : s.builtins = (Builtins.allocate (.startingAt c.idBound)).1
  root : s.root = c.node.id
  rootPath : s.rootPath = Session.rootPathFor c settings
  limit : s.errors.limit = settings.maxDiagnostics
  closed : ∀ space, (s.scope space).opened = []
  modules : s.modules = .empty
  prelude : ∀ space key, (s.scope space).bindingIn? s.builtins.prelude key =
    match space with
    | .name => none
    | .type => (findPrimitive? s.builtins.primitives key).map primitiveBinding
  /-- The built-in types keep the canonical paths that they are seeded with. -/
  builtinPaths : ∀ id ∈ s.builtins.types, ∃ path,
    (exec seed (.start c settings)).2.tables.paths.get? id = some path ∧
      s.tables.paths.get? id = some path
  rootNamed : s.tables.paths.get? s.root = some s.rootPath
  rootModule : s.tables.isModule s.root = true
  unused : ∀ id ∈ itemsBodyIds c.items, s.Unused id

namespace Session

/-- The session before the first item, the prelude and the crate root being open. -/
def enteringRoot (s : Session) : Session :=
  (s.openFrame s.builtins.prelude).openModule s.root

private theorem bindingIn?_enteringRoot (s : Session) (space : Namespace) (owner : NodeId)
    (key : CanonicalPath) : (s.enteringRoot.scope space).bindingIn? owner key =
      (s.scope space).bindingIn? owner key := by
  unfold enteringRoot
  rw [scope_openModule, scope_openFrame, Scope.bindingIn?_push, Scope.bindingIn?_push]

private theorem declared_enteringRoot (s : Session) (space : Namespace) :
    (s.enteringRoot.scope space).declared = (s.scope space).declared := by
  unfold enteringRoot
  rw [scope_openModule, scope_openFrame, Scope.declared_push, Scope.declared_push]

end Session

/-- What has been registered before the first item. -/
private theorem Session.Seeded.registered {s : Session} (h : s.Seeded) :
    s.enteringRoot.Registered [] where
  ribs space module key hne := by
    rw [bindingIn?_enteringRoot]
    cases space with
    | name => rw [scope_name, h.names]; rfl
    | type => exact (h.binds module key).trans (if_neg hne)
  declared space id := by
    rw [declared_enteringRoot]
    cases space with
    | name => rw [scope_name, h.names]; simp [Scope.empty, accepted, acceptedAfter]
    | type => rw [scope_type, h.declared]; simp [accepted, acceptedAfter]; rfl
  duplicates := by
    change s.errors.reported.filter _ = _
    rw [h.reported]
    rfl
  unchecked e he := by
    change e ∈ s.errors.reported at he
    rw [h.reported] at he
    cases he
  children := by
    change s.tables.childEntries = _
    rw [h.tables]
    rfl
  paths a ha := nomatch ha
  visibilities := by
    change s.tables.visibilities.entries = []
    rw [h.tables]
    rfl
  unresolved := by
    change s.tables.Unresolved
    rw [h.tables]
    exact ⟨rfl, rfl, rfl, rfl⟩
  containers a ha := nomatch ha
  contained id kind hget := by
    change s.tables.containers.get? id = some kind at hget
    rw [h.tables, Register.get?_set] at hget
    split at hget
    · next hid =>
      cases hget
      exact Or.inl ⟨hid, rfl⟩
    · cases hget
  parents id module hget := by
    change s.tables.parents.get? id = some module at hget
    rw [h.tables] at hget
    cases hget

/-- Only the crate root, the built-in types and the prelude are in use before the first item. -/
private theorem Session.Seeded.unused {s : Session} (h : s.Seeded) {id : NodeId}
    (hroot : id ≠ s.root) (htypes : id ∉ s.builtins.types) :
    s.enteringRoot.Unused id where
  undeclared space := by
    rw [declared_enteringRoot]
    cases space with
    | name => rw [scope_name, h.names]; exact List.not_mem_nil
    | type =>
        rw [scope_type, h.declared]
        exact fun hin => htypes (List.mem_append_left _ hin)
  pathless := h.pathless id hroot htypes
  childless := by
    change s.tables.containers.get? id = none
    rw [h.tables, Register.get?_set_ne hroot]
    rfl

/-- In a seeded session all nodes below the crate root are unused. -/
private theorem Session.Seeded.unusedNode {s : Session} {c : Crate} (h : s.Seeded)
    (hwf : c.WellFormed) (hbuiltins : s.builtins = (Builtins.allocate (.startingAt c.idBound)).1)
    (hroot : s.root = c.node.id) {id : NodeId}
    (hid : id ∈ itemsDeclaredIds c.items ++ itemsBodyIds c.items) : s.enteringRoot.Unused id := by
  refine h.unused (fun heq => (List.nodup_cons.mp hwf.nodup).1 ?_) ?_
  · rw [← hroot, ← heq]
    exact hid
  · rw [hbuiltins]
    exact (Builtins.apart_of_lt (hwf.lt_of_mem hid)).1

private theorem Session.Seeded.awaits {s : Session} {c : Crate} (h : s.Seeded)
    (hwf : c.WellFormed) (hbuiltins : s.builtins = (Builtins.allocate (.startingAt c.idBound)).1)
    (hroot : s.root = c.node.id) : s.enteringRoot.Awaits (itemsDeclaredIds c.items) where
  nodup := (List.nodup_append.mp (List.nodup_cons.mp hwf.nodup).2).1
  unused id hid := h.unusedNode hwf hbuiltins hroot (List.mem_append_left _ hid)
  notPrelude hin := by
    change s.builtins.prelude ∈ _ at hin
    rw [hbuiltins] at hin
    exact (Builtins.apart_of_lt (hwf.lt_of_mem (List.mem_append_left _ hin))).2 rfl

private theorem Session.root_ne_prelude {s : Session} {c : Crate} (hwf : c.WellFormed)
    (hbuiltins : s.builtins = (Builtins.allocate (.startingAt c.idBound)).1)
    (hroot : s.root = c.node.id) : s.root ≠ s.builtins.prelude := by
  rw [hroot, hbuiltins]
  exact (Builtins.apart_of_lt hwf.root_lt).2

private theorem Session.Seeded.isModule_root {s : Session} (h : s.Seeded) :
    s.tables.isModule s.root = true := by
  rw [h.tables]
  unfold Tables.isModule
  simp

/-- The items have been registered in a session that had been seeded. -/
private theorem Session.Seeded.firstPass {s s₁ : Session} {c : Crate} {settings : Settings}
    (hseed : Runs seed (.start c settings) () s) (hs : s.Seeded) (hwf : c.WellFormed)
    (hbuiltins : s.builtins = (Builtins.allocate (.startingAt c.idBound)).1)
    (hroot : s.root = c.node.id) (hrootPath : s.rootPath = Session.rootPathFor c settings)
    (hlimit : s.errors.limit = settings.maxDiagnostics)
    (hgrows : s.enteringRoot.Grows (itemsDeclaredIds c.items) s₁)
    (hreg : s₁.Registered (c.attempts settings)) :
    c.FirstPass settings s₁.withoutModule.withoutFrame := by
  have hout := hgrows.inModule.inFrame
  have hne := Session.root_ne_prelude hwf hbuiltins hroot
  refine ⟨hreg.withoutModule.withoutFrame, hout.builtins.trans hbuiltins, hout.root.trans hroot,
    hout.rootPath.trans hrootPath, hout.limit.trans hlimit, fun space => ?_,
    hout.modules.trans hs.modules, fun space key => ?_, fun id hid => ?_, ?_,
    hout.isModule (hout.root ▸ hs.isModule_root), fun id hid => ?_⟩
  · rw [hout.opened]
    cases space with
    | name => rw [Session.scope_name, hs.names]; rfl
    | type => exact hs.closed
  · -- The prelude is not the innermost frame while the items are registered.
    have hkept := hgrows.bindings space s.builtins.prelude key
      (hs.awaits hwf hbuiltins hroot).notPrelude
      (by unfold Session.enteringRoot; rw [Session.scope_openModule]; simpa using hne)
    rw [Session.bindingIn?_enteringRoot] at hkept
    rw [Session.scope_withoutFrame, Session.scope_withoutModule, hout.builtins]
    refine hkept.trans ?_
    cases space with
    | name => rw [Session.scope_name, hs.names]; rfl
    | type => exact (hs.binds _ key).trans (if_pos rfl)
  · rw [hout.builtins] at hid
    obtain ⟨path, hpath⟩ := hs.builtinPaths hid
    exact ⟨path, (congrArg Prod.snd hseed).symm ▸ hpath, hout.paths id path hpath⟩
  · rw [hout.root, hout.rootPath]
    exact hout.paths _ _ hs.rootPath
  · have hapart : id ∉ itemsDeclaredIds c.items := fun hin =>
      (List.nodup_append.mp (List.nodup_cons.mp hwf.nodup).2).2.2 id hin id hid rfl
    have hunused := hs.unusedNode hwf hbuiltins hroot (List.mem_append_right _ hid)
    exact (hgrows.unused id hapart hunused).congr
      (fun space => by rw [Session.scope_withoutFrame, Session.scope_withoutModule]) rfl rfl

/-- After the built-in types have been seeded, the items of a well-formed crate are registered
inside the crate root, which has an effect on the nodes that declare something alone. -/
theorem Crate.exists_grown {c : Crate} (hwf : c.WellFormed) (settings : Settings) :
    ∃ s s₁ : Session, s.Seeded ∧ s.builtins = (Builtins.allocate (.startingAt c.idBound)).1 ∧
      s.root = c.node.id ∧ s.enteringRoot.Inside c.node.id ∧
      s.enteringRoot.Grows (itemsDeclaredIds c.items) s₁ ∧
      Runs (declareItems (.ofModule (Session.rootPathFor c settings)) c.items) s.enteringRoot ()
        s₁ ∧
      Runs (do seed; c.declare) (.start c settings) () s₁.withoutModule.withoutFrame ∧
      c.FirstPass settings s₁.withoutModule.withoutFrame := by
  obtain ⟨s, hseed, hs, hbuiltins, hroot, hrootPath, hlimit⟩ := seed_runs c settings hwf.root_lt
  have hne := Session.root_ne_prelude hwf hbuiltins hroot
  have hin : s.enteringRoot.Inside s.root := Session.Inside.openModule hs.isModule_root hne
  have hawaits := hs.awaits hwf hbuiltins hroot
  obtain ⟨s₁, hrun, hgrows, hreg⟩ := declareItems_registers c.items (.ofModule s.rootPath) hin
    hs.registered hawaits
  have hin₁ := hin.grows hgrows
  have hframe : Runs (inFrame s.builtins.prelude (inModule s.root
      (declareItems (.ofModule s.rootPath) c.items))) s () s₁.withoutModule.withoutFrame :=
    (hrun.inModule hin₁.frame hin₁.stack).inFrame fun space => by
      rw [hgrows.inModule.opened, Session.scope_openFrame]
      rfl
  have hfirst : Runs (do seed; c.declare) (.start c settings) () s₁.withoutModule.withoutFrame :=
    hseed.bind (Runs.get_bind (Runs.get_bind hframe))
  rw [List.nil_append, hroot, hrootPath] at hreg
  rw [hrootPath] at hrun
  exact ⟨s, s₁, hs, hbuiltins, hroot, hroot ▸ hin, hgrows, hrun, hfirst,
    hs.firstPass hseed hwf hbuiltins hroot hrootPath hlimit hgrows hreg⟩

/-- After the built-in types have been seeded, the items of a well-formed crate are registered
inside the crate root. -/
theorem Crate.exists_declared {c : Crate} (hwf : c.WellFormed) (settings : Settings) :
    ∃ s s₁, s.Inside c.node.id ∧ s.Registered [] ∧ s.Awaits (itemsDeclaredIds c.items) ∧
      Runs (declareItems (.ofModule (Session.rootPathFor c settings)) c.items) s () s₁ ∧
      Runs (do seed; c.declare) (.start c settings) () s₁.withoutModule.withoutFrame ∧
      c.FirstPass settings s₁.withoutModule.withoutFrame := by
  obtain ⟨s, s₁, hs, hbuiltins, hroot, hin, -, hrun, hfirst, hpass⟩ := c.exists_grown hwf settings
  exact ⟨s.enteringRoot, s₁, hin, hs.registered, hs.awaits hwf hbuiltins hroot, hrun, hfirst, hpass⟩

/-- Registering the declarations of a well-formed crate succeeds. -/
theorem Crate.exists_firstPass {c : Crate} (hwf : c.WellFormed) (settings : Settings) :
    ∃ s, Runs (do seed; c.declare) (.start c settings) () s ∧ c.FirstPass settings s := by
  obtain ⟨_, _, -, -, -, -, hrun, hfirst⟩ := c.exists_declared hwf settings
  exact ⟨_, hrun, hfirst⟩

/-- The session once every declaration of a crate has been registered. -/
def Crate.registered (c : Crate) (settings : Settings) : Session :=
  (exec (do seed; c.declare) (.start c settings)).2

theorem Crate.runs_firstPass {c : Crate} (hwf : c.WellFormed) (settings : Settings) :
    Runs (do seed; c.declare) (.start c settings) () (c.registered settings) := by
  obtain ⟨s, hrun, -⟩ := c.exists_firstPass hwf settings
  unfold Crate.registered
  rw [hrun]
  exact hrun

theorem Crate.firstPass {c : Crate} (hwf : c.WellFormed) (settings : Settings) :
    c.FirstPass settings (c.registered settings) := by
  obtain ⟨s, hrun, h⟩ := c.exists_firstPass hwf settings
  unfold Crate.registered
  rw [hrun]
  exact h

/-- Nothing is known after the first pass of what is neither the crate root nor a built-in type nor
a node that declares something. -/
theorem Crate.unused_of_not_declared {c : Crate} (hwf : c.WellFormed) (settings : Settings)
    {id : NodeId} (hroot : id ≠ c.node.id)
    (hbuiltin : id ∉ (Builtins.allocate (.startingAt c.idBound)).1.types)
    (hdeclared : id ∉ itemsDeclaredIds c.items) : (c.registered settings).Unused id := by
  obtain ⟨s, s₁, hs, hbuiltins, hseed, -, hgrows, -, hfirst, -⟩ := c.exists_grown hwf settings
  obtain ⟨-, hregistered⟩ := (c.runs_firstPass hwf settings).eq hfirst
  rw [← hregistered]
  have hunused : s.enteringRoot.Unused id := hs.unused (hseed ▸ hroot) (hbuiltins ▸ hbuiltin)
  exact (hgrows.unused id hdeclared hunused).congr (fun space => by simp) rfl rfl

theorem Crate.FirstPass.ne_prelude {c : Crate} {settings : Settings} {s : Session}
    (h : c.FirstPass settings s) (hwf : c.WellFormed) {id : NodeId} (hid : id ∈ c.nodeIds) :
    id ≠ s.builtins.prelude := by
  rw [h.builtins]
  exact (Builtins.apart_of_lt (hwf.2 id hid)).2

/-- Nothing but the modules of the tree is known as a module. -/
theorem Crate.FirstPass.mem_of_isModule {c : Crate} {settings : Settings} {s : Session}
    (h : c.FirstPass settings s) {id : NodeId} (hmodule : s.tables.isModule id = true) :
    id ∈ c.node.id :: itemsModuleIds c.items := by
  have hget : s.tables.containers.get? id = some .module := by
    simpa [Tables.isModule] using hmodule
  rcases h.contained id .module hget with ⟨rfl, -⟩ | ⟨a, ha, rfl, hkind⟩
  · rw [h.root]
    exact List.mem_cons_self
  · exact List.mem_cons_of_mem _ (itemsAttempts_kind c.items a ha hkind)

/-- Where nothing was reported, every attempt was accepted. -/
theorem Crate.FirstPass.accepted_eq {c : Crate} {settings : Settings} {s : Session}
    (h : c.FirstPass settings s) (hclean : s.errors.reported = []) :
    accepted (c.attempts settings) = c.attempts settings := by
  refine accepted_eq_self (h.duplicates.symm.trans ?_)
  rw [hclean]
  rfl

/-- The modules are nodes of the tree. -/
theorem Crate.mem_nodeIds_of_module {c : Crate} {module : NodeId}
    (h : module ∈ c.node.id :: itemsModuleIds c.items) : module ∈ c.nodeIds := by
  rcases List.mem_cons.mp h with rfl | h
  · exact List.mem_cons_self
  · refine List.mem_cons_of_mem _ ((itemsNodeIds_perm c.items).mem_iff.mpr ?_)
    refine List.mem_append_left _ ((itemsDeclaredIds_perm c.items).mem_iff.mpr ?_)
    exact List.mem_append_left _ h

/-! ### Duplicates -/

/-- **Duplicate detection is exact.** In a well-formed crate, and with no limit on the errors that
are kept, the first pass succeeds. The duplicates it reports are, in order, one for each attempt
whose module, namespace and name were attempted before, naming the name, located at the attempt and
pointing back at the first attempt for it. And the rib of each module maps every name attempted in
it to the declaration that attempted it first, and binds nothing else. -/
theorem Crate.duplicates_exact {c : Crate} (hwf : c.WellFormed) {settings : Settings}
    (hlimit : settings.maxDiagnostics = 0) :
    (exec (do seed; c.declare) (.start c settings)).1 = .ok () ∧
      (c.registered settings).errors.kept.filter ResolveError.isDuplicate =
        duplicateReports (c.attempts settings) ∧
      ∀ module ∈ c.node.id :: itemsModuleIds c.items, ∀ space key,
        (((c.registered settings).scope space).bindingIn? module key).map Binding.id =
          (firstFor (c.attempts settings) module space key).map Attempt.id := by
  have hrun := c.runs_firstPass hwf settings
  have hpass := c.firstPass hwf settings
  refine ⟨congrArg Prod.fst hrun, ?_, fun module hmodule space key => ?_⟩
  · rw [Collector.kept_eq_reported (hpass.limit.trans hlimit), hpass.duplicates]
  · have hne : module ≠ (c.registered settings).builtins.prelude :=
      hpass.ne_prelude hwf (Crate.mem_nodeIds_of_module hmodule)
    rw [hpass.ribs space module key hne, Option.map_map]
    rfl

/-- Two functions of one name in the crate root, and a third one in a module between them. -/
def Crate.withRepeatedFunction : Crate where
  node := ⟨⟨0⟩, ⟨0, 60⟩⟩
  items :=
    let function (id offset : Nat) : Item :=
      ⟨⟨⟨id⟩, ⟨offset, 10⟩⟩, .ownModule,
        .function ⟨⟨"f", ⟨offset + 3, 1⟩⟩, .none, none, [], none, none⟩⟩
    [function 1 0, ⟨⟨⟨2⟩, ⟨20, 20⟩⟩, .ownModule, .module ⟨"m", ⟨24, 1⟩⟩ [function 3 28]⟩,
      function 4 50]
  idBound := ⟨5⟩

/-- Only the second function of the crate root is reported. -/
theorem Crate.duplicates_withRepeatedFunction :
    withRepeatedFunction.WellFormed ∧
      (withRepeatedFunction.registered {}).errors.kept.filter ResolveError.isDuplicate =
        [.duplicateDefinition "f" ⟨53, 1⟩ ⟨3, 1⟩] := by
  have hwf : withRepeatedFunction.WellFormed := by decide
  exact ⟨hwf, (duplicates_exact hwf rfl).2.1⟩

end NameResolution
