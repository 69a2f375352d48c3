import NameResolution.Proofs.Lexical.MemberAgreement

/-!
# NameResolution.Proofs.Lexical.ItemAgreement

**Items are resolved as they are read.** An item sees the modules around it and no frame of
another item. A module is entered again with the rib that the first pass has filled, which
nothing has been added to since.

`Crate.resolveItems_agrees` puts the second pass together: it succeeds, and its tables and
errors are those that the findings of the reading make.
-/

namespace NameResolution

open Resolution

/-- What the first pass says about the items that are still to be resolved: their modules, enums
and traits are known as such, other nodes are no modules, and nothing is bound in their ribs. -/
structure Session.Prepared (base : Session) (containers : List (NodeId × ContainerKind))
    (entries bodies : List NodeId) : Prop where
  containers : ∀ p ∈ containers, base.tables.containers.get? p.1 = some p.2
  flat : ∀ id ∈ entries, base.tables.isModule id = false
  entries : ∀ id ∈ entries, base.Vacant id
  bodies : ∀ id ∈ bodies, base.Blank id

namespace Session.Prepared

variable {base : Session} {c₁ c₂ : List (NodeId × ContainerKind)} {e₁ e₂ b₁ b₂ : List NodeId}

/-- Some of the items may be left out, and they may come in another order. -/
theorem mono (h : base.Prepared c₂ e₂ b₂) (hc : c₁ ⊆ c₂) (he : e₁ ⊆ e₂) (hb : b₁ ⊆ b₂) :
    base.Prepared c₁ e₁ b₁ where
  containers p hp := h.containers p (hc hp)
  flat id hid := h.flat id (he hid)
  entries id hid := h.entries id (he hid)
  bodies id hid := h.bodies id (hb hid)

theorem left (h : base.Prepared (c₁ ++ c₂) (e₁ ++ e₂) (b₁ ++ b₂)) : base.Prepared c₁ e₁ b₁ :=
  h.mono (List.subset_append_left _ _) (List.subset_append_left _ _) (List.subset_append_left _ _)

theorem right (h : base.Prepared (c₁ ++ c₂) (e₁ ++ e₂) (b₁ ++ b₂)) : base.Prepared c₂ e₂ b₂ :=
  h.mono (List.subset_append_right _ _) (List.subset_append_right _ _)
    (List.subset_append_right _ _)

/-- The node of a module is one, and the items inside it are prepared as well. -/
theorem inside {node : Node} {vis : Visibility} {name : Ident} {items : List Item}
    (h : base.Prepared (Item.containers ⟨node, vis, .module name items⟩)
      (Item.entryIds ⟨node, vis, .module name items⟩)
      (Item.bodyIds ⟨node, vis, .module name items⟩)) :
    base.tables.isModule node.id = true ∧
      base.Prepared (itemsContainers items) (itemsEntryIds items) (itemsBodyIds items) := by
  refine ⟨?_, h.mono (List.subset_cons_self _ _) (List.Subset.refl _) (List.Subset.refl _)⟩
  simp [Tables.isModule, h.containers (node.id, .module) List.mem_cons_self]

end Session.Prepared

/-! ### Items with frames -/

section Kinds

variable {base s : Session} {env : Env} {owner : NodeId} {ids : List NodeId}

theorem agrees_implItems (hbase : base.Settled) (items : List ImplItem)
    (hentries : ∀ id ∈ items.map (·.node.id), base.Vacant id)
    (hbodies : ∀ id ∈ items.flatMap ImplItem.bodyIds, base.Blank id)
    (hwaits : Waits base env (items.flatMap ImplItem.nodeIds) s) :
    Agrees base env (items.flatMap ImplItem.nodeIds) s (items.forM ImplItem.resolve)
      (items.forM (ImplItem.read base env)) (fun _ => env)
      fun _ _ s' => s.Spares (items.flatMap ImplItem.bodyIds) s' :=
  agrees_members items (fun i hi _ h => i.agrees hbase (hentries _ (List.mem_map_of_mem hi))
    (fun id hid => hbodies id (List.mem_flatMap.mpr ⟨i, hi, hid⟩)) h) hwaits

theorem RecordDecl.agrees (hbase : base.Settled) (r : RecordDecl)
    (hvacant : base.Vacant owner) (hblank : ∀ id ∈ (ItemKind.struct r).bodyIds, base.Blank id)
    (hwaits : Waits base env (owner :: (ItemKind.struct r).nodeIds) s) :
    Agrees base env (owner :: (ItemKind.struct r).nodeIds) s (r.resolve owner)
      (r.read base env owner) (fun _ => env)
      fun _ _ s' => s.Spares (ItemKind.struct r).bodyIds s' := by
  have hready : Ready base _ (r.generics.nodeIds ++ r.fields.flatMap NamedField.nodeIds) _ :=
    (hwaits.enter hvacant (List.Subset.refl _)).ready hblank
  exact Agrees.inFrame_spares hwaits.stands hwaits.apart
    (Agrees.bind hready (r.generics.agrees hbase hready.left (List.cons_ne_nil _ _))
      fun _ _ _ hready => agrees_forM (fun f _ hf => f.agrees hbase hf) r.fields hready).spares

theorem TupleStructDecl.agrees (hbase : base.Settled) (t : TupleStructDecl)
    (hvacant : base.Vacant owner) (hblank : ∀ id ∈ (ItemKind.tupleStruct t).bodyIds, base.Blank id)
    (hwaits : Waits base env (owner :: (ItemKind.tupleStruct t).nodeIds) s) :
    Agrees base env (owner :: (ItemKind.tupleStruct t).nodeIds) s (t.resolve owner)
      (t.read base env owner) (fun _ => env)
      fun _ _ s' => s.Spares (ItemKind.tupleStruct t).bodyIds s' := by
  have hready : Ready base _ (t.generics.nodeIds ++ t.fields.flatMap TupleField.nodeIds) _ :=
    (hwaits.enter hvacant (List.Subset.refl _)).ready hblank
  exact Agrees.inFrame_spares hwaits.stands hwaits.apart
    (Agrees.bind hready (t.generics.agrees hbase hready.left (List.cons_ne_nil _ _))
      fun _ _ _ hready => agrees_forM (fun f _ hf => f.agrees hbase hf) t.fields hready).spares

theorem EnumDecl.agrees (hbase : base.Settled) (e : EnumDecl)
    (hvacant : base.Vacant owner) (hblank : ∀ id ∈ (ItemKind.enum e).bodyIds, base.Blank id)
    (hwaits : Waits base env (owner :: (ItemKind.enum e).nodeIds) s) :
    Agrees base env (owner :: (ItemKind.enum e).nodeIds) s (e.resolve owner)
      (e.read base env owner) (fun _ => env)
      fun _ _ s' => s.Spares (ItemKind.enum e).bodyIds s' := by
  have hinner : Waits base _ (e.generics.nodeIds ++ e.variants.flatMap Variant.nodeIds) _ :=
    hwaits.enter hvacant (List.Subset.refl _)
  have hgenerics := hinner.left.ready fun id hid => hblank id (List.mem_append_left _ hid)
  have hbodies : ∀ v ∈ e.variants, ∀ id ∈ v.bodyIds, base.Blank id := fun v hv id hid =>
    hblank id (List.mem_append_right _ (List.mem_flatMap.mpr ⟨v, hv, hid⟩))
  exact Agrees.inFrame_spares hwaits.stands hwaits.apart
    (Agrees.bind_spares hinner (e.generics.agrees hbase hgenerics (List.cons_ne_nil _ _))
      fun _ _ _ hwaits => agrees_members e.variants
        (fun v hv _ h => v.agrees hbase (hbodies v hv) h) hwaits)

theorem StaticDecl.agrees (hbase : base.Settled) (c : StaticDecl)
    (hready : Ready base env (ItemKind.static c).nodeIds s) :
    Agrees base env (ItemKind.static c).nodeIds s c.resolve (c.read base env) (fun _ => env)
      fun _ _ _ => True :=
  Agrees.bind hready (c.ty.agrees hbase hready.left).discard fun _ _ _ hready =>
    agrees_optional (fun e he => e.agrees hbase he) c.init hready

/-- An item belongs to its own construct. -/
theorem Waits.encloses_owner (h : Waits base env (owner :: ids) s) :
    (env.enter owner (owner :: ids)).Encloses [owner] :=
  (h.enclosed.enter owner (List.Subset.refl _)).mono
    (List.cons_subset_cons owner (List.nil_subset ids))

/-- The end of an implementation: its type, what `Self` stands for, and its items. -/
private theorem agrees_implBody (hbase : base.Settled) (selfTy : Ty) (items : List ImplItem)
    (hframes : env.frames ≠ []) (henclosed : env.Encloses [owner])
    (hselfTy : ∀ id ∈ selfTy.nodeIds, base.Blank id)
    (hentries : ∀ id ∈ items.map (·.node.id), base.Vacant id)
    (hbodies : ∀ id ∈ items.flatMap ImplItem.bodyIds, base.Blank id)
    (hwaits : Waits base env (selfTy.nodeIds ++ items.flatMap ImplItem.nodeIds) s) :
    Agrees base env (selfTy.nodeIds ++ items.flatMap ImplItem.nodeIds) s
      (do
        let selfTy' ← selfTy.resolve
        bindSelf owner selfTy'.decl selfTy.node.span
        items.forM ImplItem.resolve)
      (do
        let selfTy' ← selfTy.read base env
        let env ← env.readSelf owner selfTy'.decl selfTy.node.span
        items.forM (ImplItem.read base env))
      (fun _ => (env.readSelf owner (selfTy.read base env).value.decl selfTy.node.span).value)
      fun _ _ s' => s.Spares (selfTy.nodeIds ++ items.flatMap ImplItem.bodyIds) s' := by
  refine Agrees.bind_spares hwaits (selfTy.agrees hbase (hwaits.left.ready hselfTy))
    fun t s' hnames hwaits => ?_
  rw [hnames.1]
  have hwaits' : Waits base env ([] ++ items.flatMap ImplItem.nodeIds) s' := hwaits
  exact Agrees.bind_spares hwaits'
    (agrees_bindSelf hwaits.stands hframes henclosed hnames.2.2 selfTy.node.span)
    fun _ _ _ hwaits => agrees_implItems hbase items hentries hbodies hwaits

theorem InherentImpl.agrees (hbase : base.Settled) (i : InherentImpl)
    (hvacant : ∀ id ∈ owner :: (ItemKind.inherentImpl i).memberIds, base.Vacant id)
    (hblank : ∀ id ∈ (ItemKind.inherentImpl i).bodyIds, base.Blank id)
    (hwaits : Waits base env (owner :: (ItemKind.inherentImpl i).nodeIds) s) :
    Agrees base env (owner :: (ItemKind.inherentImpl i).nodeIds) s (i.resolve owner)
      (i.read base env owner) (fun _ => env)
      fun _ _ s' => s.Spares (ItemKind.inherentImpl i).bodyIds s' := by
  simp only [ItemKind.bodyIds, List.mem_append, or_imp, forall_and] at hblank
  obtain ⟨⟨hgenerics, hselfTy⟩, hbodies⟩ := hblank
  have hids : List.Sublist
      (i.generics.nodeIds ++ (i.selfTy.nodeIds ++ i.items.flatMap ImplItem.nodeIds))
      (ItemKind.inherentImpl i).nodeIds := by
    rw [← List.append_assoc]
    exact List.Sublist.refl _
  have hinner := (hwaits.enter (hvacant owner List.mem_cons_self) (List.Subset.refl _)).sublist hids
  simp only [ItemKind.bodyIds, List.append_assoc]
  exact Agrees.inFrame_spares hwaits.stands hwaits.apart
    (Agrees.mono
      (Agrees.bind_spares hinner
        (i.generics.agrees hbase (hinner.left.ready hgenerics) (List.cons_ne_nil _ _)).keepsExtents
        fun _ _ hgeneric hinner => agrees_implBody hbase i.selfTy i.items hgeneric.1
          (hwaits.encloses_owner.congr hgeneric.2) hselfTy
          (fun id hid => hvacant id (List.mem_cons_of_mem _ hid)) hbodies hinner)
      hids.subperm)

theorem TraitImpl.agrees (hbase : base.Settled) (i : TraitImpl)
    (hvacant : ∀ id ∈ owner :: (ItemKind.traitImpl i).memberIds, base.Vacant id)
    (hblank : ∀ id ∈ (ItemKind.traitImpl i).bodyIds, base.Blank id)
    (hwaits : Waits base env (owner :: (ItemKind.traitImpl i).nodeIds) s) :
    Agrees base env (owner :: (ItemKind.traitImpl i).nodeIds) s (i.resolve owner)
      (i.read base env owner) (fun _ => env)
      fun _ _ s' => s.Spares (ItemKind.traitImpl i).bodyIds s' := by
  simp only [ItemKind.bodyIds, List.mem_append, or_imp, forall_and] at hblank
  obtain ⟨⟨⟨hgenerics, htrait⟩, hselfTy⟩, hbodies⟩ := hblank
  have hids : List.Sublist
      (i.generics.nodeIds ++ (i.traitPath.nodeIds ++
        (i.selfTy.nodeIds ++ i.items.flatMap ImplItem.nodeIds)))
      (ItemKind.traitImpl i).nodeIds := by
    rw [← List.append_assoc, ← List.append_assoc]
    exact List.Sublist.refl _
  have hinner := (hwaits.enter (hvacant owner List.mem_cons_self) (List.Subset.refl _)).sublist hids
  simp only [ItemKind.bodyIds, List.append_assoc]
  exact Agrees.inFrame_spares hwaits.stands hwaits.apart
    (Agrees.mono
      (Agrees.bind_spares hinner
        (i.generics.agrees hbase (hinner.left.ready hgenerics) (List.cons_ne_nil _ _)).keepsExtents
        fun _ _ hgeneric hinner => Agrees.bind_spares hinner
          (i.traitPath.agrees hbase .type (hinner.left.ready htrait)).discard
        fun _ _ _ hinner => agrees_implBody hbase i.selfTy i.items hgeneric.1
          (hwaits.encloses_owner.congr hgeneric.2) hselfTy
          (fun id hid => hvacant id (List.mem_cons_of_mem _ hid)) hbodies hinner)
      hids.subperm)

theorem TraitDecl.agrees (hbase : base.Settled) (node : Node) (t : TraitDecl)
    (htrait : base.tables.containers.get? node.id = some .trait)
    (hvacant : ∀ id ∈ node.id :: (ItemKind.trait t).memberIds, base.Vacant id)
    (hblank : ∀ id ∈ (ItemKind.trait t).bodyIds, base.Blank id)
    (hwaits : Waits base env (node.id :: (ItemKind.trait t).nodeIds) s) :
    Agrees base env (node.id :: (ItemKind.trait t).nodeIds) s (t.resolve node)
      (t.read base env node) (fun _ => env)
      fun _ _ s' => s.Spares (ItemKind.trait t).bodyIds s' := by
  simp only [ItemKind.bodyIds, List.mem_append, or_imp, forall_and] at hblank
  obtain ⟨⟨hgenerics, hsupertraits⟩, hbodies⟩ := hblank
  have hids : List.Sublist
      (t.generics.nodeIds ++ ([] ++ (boundsNodeIds t.supertraits ++
        t.items.flatMap TraitItem.nodeIds)))
      (ItemKind.trait t).nodeIds := by
    rw [List.nil_append, ← List.append_assoc]
    exact List.Sublist.refl _
  have hinner :=
    (hwaits.enter (hvacant node.id List.mem_cons_self) (List.Subset.refl _)).sublist hids
  have htarget : ∀ m ∈ some (base.meaning node.id), base.Offers m := fun m hm => by
    cases hm
    exact hbase.offers_container htrait
  have hitem : ∀ {env : Env}, ∀ i ∈ t.items, ∀ s, Waits base env i.nodeIds s →
      Agrees base env i.nodeIds s i.resolve (i.read base env) (fun _ => env)
        fun _ _ s' => s.Spares i.bodyIds s' :=
    fun i hi _ h => i.agrees hbase
      (hvacant _ (List.mem_cons_of_mem _ (List.mem_map_of_mem hi)))
      (fun id hid => hbodies id (List.mem_flatMap.mpr ⟨i, hi, hid⟩)) h
  simp only [ItemKind.bodyIds, List.append_assoc]
  exact Agrees.inFrame_spares hwaits.stands hwaits.apart
    (Agrees.mono
      (Agrees.bind_spares hinner
        (t.generics.agrees hbase (hinner.left.ready hgenerics) (List.cons_ne_nil _ _)).keepsExtents
        fun _ _ hgeneric hinner => Agrees.bind_spares hinner
          (agrees_bindSelf hinner.stands hgeneric.1 (hwaits.encloses_owner.congr hgeneric.2)
            (fun m hm => hinner.stands.offers m (htarget m hm)) node.span)
        fun _ _ _ hinner => Agrees.bind_spares hinner
          (agrees_bounds hbase t.supertraits (hinner.left.ready hsupertraits))
        fun _ _ _ hinner => agrees_members t.items hitem hinner)
      hids.subperm)

end Kinds

/-! ### Modules -/

section Modules

variable {base s s' : Session} {module : NodeId} {modules ids : List NodeId}

/-- A module is entered with the rib that the first pass has filled. -/
theorem Waits.openModule (h : Waits base (.inside modules) (module :: ids) s)
    (hmodule : base.tables.isModule module = true) :
    Waits base (.inside (module :: modules)) ids (s.openModule module) where
  stands :=
    { builtins := h.stands.builtins
      root := h.stands.root
      tables := h.stands.tables
      modules := congrArg (module :: ·) h.stands.modules
      outermost := by
        have hlast := h.stands.outermost
        change modules.getLast? = some base.root at hlast
        change (module :: modules).getLast? = some base.root
        rw [List.getLast?_cons, hlast]
        rfl
      areModules := fun m hm => by
        rcases List.mem_cons.mp hm with rfl | hm
        · exact hmodule
        · exact h.stands.areModules m hm
      opened := fun space => by
        rw [Session.scope_openModule, Scope.opened_push, h.stands.opened]
        rfl
      nodup := List.nodup_cons.mpr ⟨h.apart module List.mem_cons_self, h.stands.nodup⟩
      ribs := fun space o ho => by
        rw [Session.scope_openModule]
        exact Scope.isSome_rib?_push ((List.mem_cons.mp ho).imp_right (h.stands.ribs space o))
      frames := fun _ hf => nomatch hf
      -- Opening the rib of a module again finds in it what the first pass has bound.
      members := fun o ho space key => by
        rw [Session.scope_openModule, Scope.bindingIn?_push]
        rcases List.mem_cons.mp ho with rfl | ho
        · exact h.kept o List.mem_cons_self space key
        · exact h.stands.members o ho space key
      locals := fun _ hf => nomatch hf
      introduced := fun _ hf => nomatch hf
      fresh := fun _ hf => nomatch hf
      own := fun _ hf => nomatch hf
      knows := fun m hm => (h.stands.knows m hm).congr rfl rfl
      offers := fun m hm => (h.stands.offers m hm).congr rfl rfl rfl rfl }
  nodup := (List.nodup_cons.mp h.nodup).2
  apart := apart_cons h.nodup h.apart
  enclosed _ hextent := nomatch hextent
  kept id hid space key := by
    rw [Session.scope_openModule, Scope.bindingIn?_push]
    exact h.kept id (List.mem_cons_of_mem _ hid) space key
  unused id hid hunused := (h.unused id (List.mem_cons_of_mem _ hid) hunused).congr
    (fun space => by rw [Session.scope_openModule, Scope.declared_push]) rfl rfl

/-- What is done inside a module, seen as done in its frame. -/
theorem Step.forgetModule {l : List Finding} (hstep : Step base ids l (s.openModule module) s') :
    Step base ids l (s.openFrame module) { s' with modules := s.modules } where
  grows := hstep.grows.forgetModule
  tables := hstep.tables
  ledger := hstep.ledger
  knows m hm := (hstep.knows m (hm.congr rfl rfl)).congr rfl rfl
  offers m hm := (hstep.offers m (hm.congr rfl rfl rfl rfl)).congr rfl rfl rfl rfl
  uses := hstep.uses
  traced := hstep.traced

/-- An action inside a module, which sees the modules around it as well. -/
theorem agrees_inModule {α β : Type} {act : Resolution α} {r : Reading β}
    {R R' : α → β → Session → Prop} (hwaits : Waits base (.inside modules) (module :: ids) s)
    (h : Agrees base (.inside (module :: modules)) ids (s.openModule module) act r
      (fun _ => .inside (module :: modules)) R)
    (hR : ∀ a s₁, Stands base (.inside (module :: modules)) s₁ → R a r.value s₁ →
      R' a r.value s₁.withoutModule) :
    Agrees base (.inside modules) (module :: ids) s (inModule module act) r
      (fun _ => .inside modules) R' := by
  obtain ⟨a, s₁, hrun, hRa, hinside, -, hstep⟩ := h
  have hopened : ∀ space, (s₁.scope space).opened.head? = some module := fun space => by
    rw [hstep.grows.opened, Session.scope_openModule]
    rfl
  have hmodules : s₁.modules.opened.head? = some module := by
    rw [hstep.grows.modules]
    rfl
  -- Apart from the stack of modules, leaving a module is closing its frame.
  have hstands := hwaits.stands.leave hwaits.apart hstep.forgetModule
  have hstep' := hstep.forgetModule.inFrame
  rw [Session.withoutFrame_eq_withoutModule hstep.grows.modules] at hstands hstep'
  exact ⟨a, s₁.withoutModule, hrun.inModule hopened hmodules, hR a s₁ hinside hRa, hstands, rfl,
    hstep'⟩

end Modules

/-- What resolving items leaves as it was. The nodes that are in no body are as unused as before,
and the modules among the items hold what the first pass has bound in them. -/
structure LeavesItems (base : Session) (modules used : List NodeId) (s s' : Session) : Prop where
  spares : s.Spares used s'
  ribs : ∀ module ∈ modules, ∀ space key,
    (s'.scope space).bindingIn? module key = (base.scope space).bindingIn? module key

/-- An item that is no module holds none. -/
theorem Agrees.noModules {base s : Session} {env : Env} {ids used : List NodeId}
    {act : Resolution Unit} {r : Reading Unit} {after : Unit → Env}
    (h : Agrees base env ids s act r after fun _ _ s' => s.Spares used s') :
    Agrees base env ids s act r after fun _ _ s' => LeavesItems base [] used s s' :=
  h.imp fun _ _ _ hspares => ⟨hspares, fun _ hmodule => nomatch hmodule⟩

namespace LeavesItems

variable {base s s₁ s₂ : Session}
  {modules modules₁ modules₂ ids₁ ids₂ used used₁ used₂ outer : List NodeId}

/-- The items of a module and, once it has been left, the module itself. -/
theorem inModule {module : NodeId} (h : LeavesItems base modules used (s.openModule module) s₁)
    (hstands : Stands base (.inside (module :: outer)) s₁) :
    LeavesItems base (module :: modules) used s s₁.withoutModule where
  spares := h.spares.inModule
  ribs m hm space key := by
    rw [Session.scope_withoutModule]
    change (s₁.scope space).bindingIn? m key = _
    rcases List.mem_cons.mp hm with rfl | hm
    · exact hstands.members m List.mem_cons_self space key
    · exact h.ribs m hm space key

/-- The items that come next are different nodes, so the ribs of the modules before them stay. -/
theorem append {l : List Finding} (h₁ : LeavesItems base modules₁ used₁ s s₁)
    (h₂ : LeavesItems base modules₂ used₂ s₁ s₂)
    (hwaits : Waits base (.inside outer) (ids₁ ++ ids₂) s)
    (hmodules : modules₁ ⊆ ids₁) (hstands : Stands base (.inside outer) s₁)
    (hstep : Step base ids₂ l s₁ s₂) :
    LeavesItems base (modules₁ ++ modules₂) (used₁ ++ used₂) s s₂ where
  spares := h₁.spares.append h₂.spares
  ribs m hm space key := by
    rcases List.mem_append.mp hm with hm | hm
    · have hmem := hmodules hm
      have hout : m ∉ ids₂ := fun hin => (List.nodup_append.mp hwaits.nodup).2.2 m hmem m hin rfl
      have hhead : (s₁.scope space).opened.head? ≠ some m := fun hhead => by
        rw [hstands.opened] at hhead
        exact hwaits.apart m (List.mem_append_left _ hmem) (List.mem_of_head? hhead)
      exact (hstep.grows.bindings space m key hout hhead).trans (h₁.ribs m hm space key)
    · exact h₂.ribs m hm space key

end LeavesItems

/-! ### The induction over the items -/

section Items

variable {base : Session}

mutual

theorem Item.agrees (hbase : base.Settled) : ∀ (item : Item) {modules : List NodeId} {s : Session},
    base.Prepared item.containers item.entryIds item.bodyIds →
    Waits base (.inside modules) item.nodeIds s →
    Agrees base (.inside modules) item.nodeIds s item.resolve (item.read base modules)
      (fun _ => .inside modules) fun _ _ s' => LeavesItems base item.moduleIds item.bodyIds s s'
  | ⟨node, _, .module _ items⟩, _, _, hprepared, hwaits => by
      obtain ⟨hmodule, hinner⟩ := hprepared.inside
      exact agrees_inModule hwaits (agrees_items hbase items hinner (hwaits.openModule hmodule))
        fun _ _ hstands hleaves => hleaves.inModule hstands
  | ⟨node, _, .typeAlias a⟩, _, _, hprepared, hwaits =>
      (a.agrees hbase (hprepared.entries node.id List.mem_cons_self) hprepared.bodies
        hwaits).noModules
  | ⟨node, _, .struct r⟩, _, _, hprepared, hwaits =>
      (r.agrees hbase (hprepared.entries node.id List.mem_cons_self) hprepared.bodies
        hwaits).noModules
  | ⟨node, _, .tupleStruct t⟩, _, _, hprepared, hwaits =>
      (t.agrees hbase (hprepared.entries node.id List.mem_cons_self) hprepared.bodies
        hwaits).noModules
  | ⟨node, _, .enum e⟩, _, _, hprepared, hwaits =>
      (e.agrees hbase (hprepared.entries node.id List.mem_cons_self) hprepared.bodies
        hwaits).noModules
  | ⟨node, _, .union r⟩, _, _, hprepared, hwaits =>
      (r.agrees hbase (hprepared.entries node.id List.mem_cons_self) hprepared.bodies
        hwaits).noModules
  | ⟨_, _, .static c⟩, _, _, hprepared, hwaits =>
      (c.agrees hbase (hwaits.tail.ready hprepared.bodies)).spares.skip.noModules
  | ⟨_, _, .const c⟩, _, _, hprepared, hwaits =>
      (c.agrees hbase (hwaits.tail.ready hprepared.bodies)).spares.skip.noModules
  | ⟨node, _, .function f⟩, _, _, hprepared, hwaits =>
      (f.agrees hbase (hprepared.entries node.id List.mem_cons_self) hprepared.bodies
        hwaits).noModules
  | ⟨_, _, .inherentImpl i⟩, _, _, hprepared, hwaits =>
      (i.agrees hbase hprepared.entries hprepared.bodies hwaits).noModules
  | ⟨_, _, .traitImpl i⟩, _, _, hprepared, hwaits =>
      (i.agrees hbase hprepared.entries hprepared.bodies hwaits).noModules
  | ⟨node, _, .trait t⟩, _, _, hprepared, hwaits =>
      (t.agrees hbase node (hprepared.containers (node.id, .trait) List.mem_cons_self)
        hprepared.entries hprepared.bodies hwaits).noModules
  | ⟨_, _, .foreign b⟩, _, _, hprepared, hwaits =>
      (agrees_members b.items
        (fun i hi _ h => i.agrees hbase
          (hprepared.entries _ (List.mem_cons_of_mem _ (List.mem_map_of_mem hi)))
          (fun id hid => hprepared.bodies id (List.mem_flatMap.mpr ⟨i, hi, hid⟩)) h)
        hwaits.tail).skip.noModules

theorem agrees_items (hbase : base.Settled) :
    ∀ (items : List Item) {modules : List NodeId} {s : Session},
    base.Prepared (itemsContainers items) (itemsEntryIds items) (itemsBodyIds items) →
    Waits base (.inside modules) (itemsNodeIds items) s →
    Agrees base (.inside modules) (itemsNodeIds items) s (resolveItems items)
      (readItems base modules items) (fun _ => .inside modules)
      fun _ _ s' => LeavesItems base (itemsModuleIds items) (itemsBodyIds items) s s'
  | [], _, _, _, hwaits =>
      Agrees.pure hwaits.stands rfl ⟨fun _ _ hunused => hunused, fun _ hmodule => nomatch hmodule⟩
  | item :: rest, _, _, hprepared, hwaits =>
      Agrees.bind_waits hwaits (item.agrees hbase hprepared.left hwaits.left)
        fun _ _ hitem hrest =>
          (agrees_items hbase rest hprepared.right hrest).imp fun _ _ hstep hleaves =>
            hitem.append hleaves hwaits item.moduleIds_subset hrest.stands hstep

end

end Items

end NameResolution
