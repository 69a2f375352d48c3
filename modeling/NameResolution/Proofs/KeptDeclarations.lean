import NameResolution.Proofs.ParentModules
import NameResolution.Proofs.TreeRules
import NameResolution.Proofs.Lexical.LocalNames

/-!
# NameResolution.Proofs.KeptDeclarations

**The second pass leaves the declarations alone** (`Crate.declarations_kept`). It changes
none of the tables of containers, children, nested modules, parents and visibilities, it
binds nothing in the rib of a module, and it takes back no canonical path. What it adds are
the canonical paths of binders.

Every module has its two ribs when the second pass starts, since it was entered in the
first one and no rib ever disappears (`KeepsRibs`).
-/

namespace NameResolution

open Resolution

/-! ### Ribs never disappear -/

/-- Every rib of one session exists in another one. -/
def Session.RibsIn (s s' : Session) : Prop :=
  ∀ space owner, ((s.scope space).rib? owner).isSome → ((s'.scope space).rib? owner).isSome

namespace Session.RibsIn

variable {s s₁ s₂ : Session}

theorem refl (s : Session) : s.RibsIn s := fun _ _ h => h

theorem trans (h₁ : s.RibsIn s₁) (h₂ : s₁.RibsIn s₂) : s.RibsIn s₂ :=
  fun space owner h => h₂ space owner (h₁ space owner h)

/-- Opening a frame takes no rib away. -/
theorem openFrame (s : Session) (owner : NodeId) : s.RibsIn (s.openFrame owner) :=
  fun space o h => by
    rw [scope_openFrame]
    exact Scope.isSome_rib?_push (Or.inr h)

theorem withoutFrame (s : Session) : s.RibsIn s.withoutFrame := fun space owner h => by
  rw [scope_withoutFrame]
  exact h

theorem withoutModule (s : Session) : s.RibsIn s.withoutModule := withoutFrame s

theorem withBinding (s : Session) (space : Namespace) (owner : NodeId) (b : Binding) :
    s.RibsIn (s.withBinding space owner b) := fun x o h => by
  rwa [isSome_rib?_withBinding]

theorem stable : Session.Stable Session.RibsIn where
  refl := refl
  trans := trans
  reporting _ _ := fun _ _ h => h
  withPath _ _ _ := fun _ _ h => h
  withBinding := withBinding

end Session.RibsIn

/-- Whatever becomes of an action, no rib disappears. -/
def Resolution.KeepsRibs (act : Resolution α) : Prop := ∀ s : Session, s.RibsIn (act.exec s).2

/-- Nothing that is done to a session takes a rib away. -/
theorem Resolution.KeepsRibs.primitives : PrimitiveRules @KeepsRibs :=
  Session.RibsIn.stable.primitives (fun _ _ _ _ _ h => h)
    (fun h => ((Session.RibsIn.openFrame _ _).trans h).trans (.withoutFrame _))
    (fun h => ((Session.RibsIn.openFrame _ _).trans h).trans (.withoutModule _))

/-! ### Modules have ribs -/

/-- What runs keeps the ribs that there are. -/
theorem Resolution.Runs.ribsIn {act : Resolution α} {s s' : Session} {a : α}
    (h : Runs act s a s') (hact : KeepsRibs act) : s.RibsIn s' :=
  h.keeps hact

/-- A node has its rib in both namespaces. -/
def Session.HasRibs (s : Session) (owner : NodeId) : Prop :=
  ∀ space, ((s.scope space).rib? owner).isSome

theorem Session.RibsIn.hasRibs {s s' : Session} (h : s.RibsIn s') {owner : NodeId}
    (howner : s.HasRibs owner) : s'.HasRibs owner := fun space => h space owner (howner space)

theorem Session.hasRibs_openFrame (s : Session) (owner : NodeId) :
    (s.openFrame owner).HasRibs owner := fun space => by
  rw [scope_openFrame]
  exact Scope.isSome_rib?_push (Or.inl rfl)

/-- A module that has been entered has its ribs, and so does what had them inside it. -/
theorem Resolution.Runs.hasRibs_inModule {module : NodeId} {act : Resolution Unit} {s s' : Session}
    (h : Runs (Resolution.inModule module act) s () s') (hact : KeepsRibs act) :
    s'.HasRibs module ∧ ∃ s₁, Runs act (s.openModule module) () s₁ ∧ s₁.RibsIn s' := by
  obtain ⟨s₁, hrun, rfl⟩ := h.inModule_inv
  have hopen : (s.openModule module).HasRibs module := Session.hasRibs_openFrame s module
  exact ⟨(Session.RibsIn.withoutModule s₁).hasRibs ((hrun.ribsIn hact).hasRibs hopen),
    s₁, hrun, .withoutModule s₁⟩

open Resolution.KeepsRibs (primitives)

/-- Registering items leaves every module among them and inside them with its ribs. -/
theorem items_hasRibs (items : List Item) {place : Place} {s s' : Session}
    (hrun : Runs (declareItems place items) s () s') :
    ∀ module ∈ itemsModuleIds items, s'.HasRibs module := by
  induction items using items_induction generalizing place s s' with
  | nil =>
      intro module hmodule
      cases hmodule
  | module node vis name items rest ihInside ih =>
      intro module hmodule
      obtain ⟨_, s₁, hitem, hrest⟩ := hrun.bind_inv
      rcases List.mem_append.mp hmodule with hmodule | hmodule
      · refine (hrest.ribsIn (primitives.treeRules.declareItems place rest)).hasRibs ?_
        obtain ⟨here, _, -, hbody⟩ := hitem.bind_inv
        obtain ⟨_, s₂, hkind, hparent⟩ := hbody.bind_inv
        obtain ⟨inner, s₃, -, hafter⟩ := hkind.bind_inv
        obtain ⟨_, s₄, -, hafter⟩ := hafter.bind_inv
        obtain ⟨_, s₅, -, hafter⟩ := hafter.bind_inv
        obtain ⟨hribs, s₆, hitems, hout⟩ :=
          hafter.hasRibs_inModule (primitives.treeRules.declareItems _ items)
        -- Once the module has been left, only its parent is entered.
        refine (hparent.ribsIn (primitives.treeRules.setParent node.id here trivial)).hasRibs ?_
        rcases List.mem_cons.mp hmodule with rfl | hin
        · exact hribs
        · exact hout.hasRibs (ihInside hitems module hin)
      · exact ih hrest module hmodule
  | flat node vis kind rest hflat ih =>
      intro module hmodule
      obtain ⟨_, s₁, -, hrest⟩ := hrun.bind_inv
      rw [itemsModuleIds, Item.moduleIds_flat hflat] at hmodule
      exact ih hrest module hmodule

/-- After the first pass, the modules of the tree have their ribs. -/
theorem Crate.hasRibs_registered {c : Crate} (hwf : c.WellFormed) (settings : Settings)
    {module : NodeId} (h : module ∈ c.node.id :: itemsModuleIds c.items) :
    (c.registered settings).HasRibs module := by
  obtain ⟨s, s₁, hin, -, -, hitems, hrun, -⟩ := c.exists_declared hwf settings
  obtain ⟨-, hlast⟩ := hrun.eq (c.runs_firstPass hwf settings)
  have hout : s₁.RibsIn (c.registered settings) :=
    hlast ▸ (Session.RibsIn.withoutModule s₁).trans (.withoutFrame _)
  refine hout.hasRibs ?_
  rcases List.mem_cons.mp h with rfl | h
  · exact (hitems.ribsIn (primitives.treeRules.declareItems _ c.items)).hasRibs hin.rib
  · exact items_hasRibs c.items hitems module h

/-! ### The frame of the second pass -/

open Session (SameDeclarations)

/-- **The second pass leaves the declarations alone.** In a well-formed crate it succeeds, and the
tables of containers, children, nested modules, parents and visibilities are the same before and
after it. So are the two ribs of every module, and so is every canonical path that was there
before. A canonical path that is new is that of a generic parameter, a receiver or a name in a
pattern. -/
theorem Crate.declarations_kept {c : Crate} (hwf : c.WellFormed) (settings : Settings) :
    ∃ s, Runs c.resolveItems (c.registered settings) () s ∧
      SameDeclarations (c.registered settings).tables s.tables ∧
      (∀ module ∈ c.node.id :: itemsModuleIds c.items, ∀ space, ∃ rib,
        ((c.registered settings).scope space).rib? module = some rib ∧
          (s.scope space).rib? module = some rib) ∧
      (∀ id path, (c.registered settings).tables.paths.get? id = some path →
        s.tables.paths.get? id = some path) ∧
      ∀ id path, s.tables.paths.get? id = some path →
        (c.registered settings).tables.paths.get? id = none →
        ∃ b ∈ c.binders, b.id = id ∧ b.path = path := by
  have hpass := c.firstPass hwf settings
  obtain ⟨s, hrun, hs⟩ := (hpass.inPlace hwf).exists_secondPass
  obtain ⟨added, hbinders, hproceeds⟩ := c.exists_proceeds_of_runs hwf hrun
  refine ⟨s, hrun, hs.tables, fun module hmodule space => ?_, hs.paths,
    fun id path hpath hnone => ?_⟩
  · obtain ⟨rib, hrib⟩ :=
      Option.isSome_iff_exists.mp (c.hasRibs_registered hwf settings hmodule space)
    exact ⟨rib, hrib, hproceeds.introduced.ribs space module rib
      (hpass.isModule_iff.mpr hmodule) hrib⟩
  · rcases hproceeds.introduced.get?_paths hpath with ⟨b, hb, hsame⟩ | hbase
    · exact ⟨b, hbinders.subset hb, hsame⟩
    · rw [hnone] at hbase
      cases hbase

/-- A module with a generic function, whose parameter is of the generic type. -/
def Crate.withGenericFunction : Crate where
  node := ⟨⟨0⟩, ⟨0, 40⟩⟩
  items :=
    let node (id offset : Nat) : Node := ⟨⟨id⟩, ⟨offset, 1⟩⟩
    let name (text : String) (offset : Nat) : Ident := ⟨text, ⟨offset, 1⟩⟩
    let generics : Generics := ⟨[⟨node 3 15, name "T" 15, .type [] none⟩], none⟩
    let parameter : Param := ⟨node 4 18, .binding (node 5 18) (name "a" 18) false,
      .path (node 6 21) ⟨node 7 21, [⟨node 8 21, .ident "T", none⟩]⟩⟩
    [⟨node 1 0, .ownModule, .module (name "m" 4)
      [⟨node 2 8, .ownModule,
        .function ⟨name "f" 11, generics, none, [parameter], none, none⟩⟩]⟩]
  idBound := ⟨9⟩

/-- The function is all that the module has bound in the end, although two names have been given
canonical paths inside it. -/
theorem Crate.declarations_kept_withGenericFunction :
    withGenericFunction.WellFormed ∧
      ∃ s, Runs withGenericFunction.resolveItems (withGenericFunction.registered {}) () s ∧
        (∃ rib, (s.scope .name).rib? ⟨1⟩ = some rib ∧ rib.bindings.map Binding.id = [⟨2⟩]) ∧
        (∃ b ∈ withGenericFunction.binders, b.id = ⟨3⟩ ∧ b.path = .single ⟨3⟩ "T") ∧
        ∃ b ∈ withGenericFunction.binders, b.id = ⟨5⟩ ∧ b.path = .single ⟨5⟩ "a" := by
  have hwf : withGenericFunction.WellFormed := by decide
  obtain ⟨s, hrun, -, hribs, -, hnew⟩ := declarations_kept hwf {}
  have hs : s = (exec withGenericFunction.resolveItems (withGenericFunction.registered {})).2 :=
    congrArg Prod.snd hrun.symm
  obtain ⟨rib, hbefore, hafter⟩ := hribs ⟨1⟩ (by decide) .name
  refine ⟨hwf, s, hrun, ⟨rib, hafter, ?_⟩, ?_, ?_⟩
  · have hids : (((withGenericFunction.registered {}).scope .name).rib? ⟨1⟩).map
        (fun rib => rib.bindings.map Binding.id) = some [⟨2⟩] := by decide +kernel
    rw [hbefore] at hids
    exact Option.some.inj hids
  · exact hnew ⟨3⟩ (.single ⟨3⟩ "T") (hs ▸ by decide +kernel) (by decide +kernel)
  · exact hnew ⟨5⟩ (.single ⟨5⟩ "a") (hs ▸ by decide +kernel) (by decide +kernel)

end NameResolution
