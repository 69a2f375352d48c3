import NameResolution.Proofs.Lexical.BlockRibs
import NameResolution.Proofs.Lexical.ItemIntroductions
import NameResolution.Proofs.Lexical.Replay

/-!
# NameResolution.Proofs.Lexical.ItemRibs

**What is bound in the frames of items.** A function or a type alias introduces the names
of its generics and its parameters in a frame of its own. In an implementation or a trait
`Self` comes after the generics, and the members follow in frames of their own
(`Item.leaves`).

All but `Self` can be read off the tree. What `Self` is introduced for is what the type of
the implementation has been resolved to, so the induction over the items goes along with
that of agreement, and the tables in which it is looked up are any that have what has been
found out (`Tables.Records`).
-/

namespace NameResolution

open Resolution

/-! ### Parts in a row -/

section Rows

variable {α : Type} {fresh : NodeId → Prop} {top : NodeId} {shadow : Bool} {s : Session}
  {idsOf : α → List NodeId} {ownOf : α → List Introduction} {framesOf : α → List LocalFrame}
  {blocksOf : α → List Block} {f : α → Resolution Unit}

theorem fills_optional (h : ∀ a s, Fills top shadow s (idsOf a) [] (blocksOf a) (f a)) :
    ∀ o : Option α, Fills top shadow s (optionalIds idsOf o) [] (optionalBlocks blocksOf o)
      (resolveOptional f o)
  | none => .pure ()
  | some a => h a s

/-- Parts that each introduce some names. -/
theorem fills_forM (h : ∀ a s, Fills top shadow s (idsOf a) (ownOf a) (blocksOf a) (f a)) :
    ∀ (l : List α) {s : Session},
      Fills top shadow s (l.flatMap idsOf) (l.flatMap ownOf) (l.flatMap blocksOf) (l.forM f)
  | [], _ => .pure ()
  | a :: l, s => .bind (h a s) fun _ _ _ => fills_forM h l

/-- Parts that introduce nothing. -/
theorem fills_row (h : ∀ a s, Fills top shadow s (idsOf a) [] (blocksOf a) (f a)) :
    ∀ (l : List α) {s : Session},
      Fills top shadow s (l.flatMap idsOf) [] (l.flatMap blocksOf) (l.forM f)
  | [], _ => .pure ()
  | a :: l, s => .seq (h a s) fun _ _ => fills_row h l

/-- Members, which may have frames of their own. -/
theorem leaves_members :
    ∀ (l : List α) {s : Session}, (∀ a ∈ l, ∀ s,
      Leaves fresh top shadow s (idsOf a) [] (framesOf a) (blocksOf a) (f a)) →
      Leaves fresh top shadow s (l.flatMap idsOf) [] (l.flatMap framesOf) (l.flatMap blocksOf)
        (l.forM f)
  | [], _, _ => .pure ()
  | a :: l, s, h =>
      .bind_ordered (h a List.mem_cons_self s)
        (fun _ _ _ => leaves_members l fun a ha => h a (List.mem_cons_of_mem _ ha)) (Or.inr rfl)

end Rows

/-! ### Generics -/

section Parts

variable {top owner : NodeId} {fresh : NodeId → Prop} {shadow : Bool} {s : Session}

/-- A generic parameter introduces its name last. -/
theorem GenericParam.fills (p : GenericParam) :
    Fills top false s p.nodeIds p.introductions p.blocks p.resolve := by
  obtain ⟨node, name, kind⟩ := p
  cases kind with
  | type bounds default =>
      have hids : List.Perm (optionalIds Ty.nodeIds default ++ (boundsNodeIds bounds ++ [node.id]))
          (node.id :: (boundsNodeIds bounds ++ optionalIds Ty.nodeIds default)) := by
        rw [← List.append_assoc]
        exact (List.perm_append_comm.append_right _).trans (List.perm_append_singleton _ _)
      refine .mono ?_ hids.subperm
      exact .seq (fills_optional (fun ty _ => ty.fills.discard) default) fun _ _ =>
        .seq_own (fills_bounds bounds) fun _ _ =>
          .introduce (b := ⟨.typeParam, node.id, name.name⟩) rfl
  | const ty default =>
      have hids : List.Perm (ty.nodeIds ++ (optionalIds Expr.nodeIds default ++ [node.id]))
          (node.id :: (ty.nodeIds ++ optionalIds Expr.nodeIds default)) := by
        rw [← List.append_assoc]
        exact List.perm_append_singleton _ _
      refine .mono ?_ hids.subperm
      exact .seq ty.fills.discard fun _ _ =>
        .seq_own (fills_optional (fun e _ => e.fills) default) fun _ _ =>
          .introduce (b := ⟨.constParam, node.id, name.name⟩) rfl
  | lifetime => exact .pure ()

theorem WherePredicate.fills (p : WherePredicate) :
    Fills top shadow s p.nodeIds [] p.blocks p.resolve :=
  (Leaves.seq p.ty.fills.discard fun _ _ => fills_bounds p.bounds).skip

theorem Generics.fills (g : Generics) :
    Fills top false s g.nodeIds g.introductions g.blocks g.resolve :=
  .andThen (fills_forM (fun p _ => p.fills) g.params) fun _ _ =>
    fills_optional (fun w _ => fills_row (fun p _ => p.fills) w.predicates) g.whereClause

/-! ### Members -/

theorem ConstDecl.fills (c : ConstDecl) : Fills top shadow s c.nodeIds [] c.blocks c.resolve :=
  .seq c.ty.fills.discard fun _ _ => fills_optional (fun e _ => e.fills) c.init

theorem StaticDecl.fills (c : StaticDecl) :
    Fills top shadow s (ItemKind.static c).nodeIds [] c.blocks c.resolve :=
  .seq c.ty.fills.discard fun _ _ => fills_optional (fun e _ => e.fills) c.init

theorem NamedField.fills (f : NamedField) :
    Fills top shadow s f.nodeIds [] f.ty.blocks f.resolve := f.ty.fills.discard.skip

theorem TupleField.fills (f : TupleField) :
    Fills top shadow s f.nodeIds [] f.ty.blocks f.resolve := f.ty.fills.discard.skip

theorem fills_receiver : ∀ receiver : Option SelfParam,
    Fills top false s (optionalIds (fun r => [r.node.id]) receiver)
      (receiver.toList.map SelfParam.introduction) [] (resolveOptional SelfParam.bindName receiver)
  | none => .pure ()
  | some r => .introduce (b := ⟨.receiver, r.node.id, "self"⟩) rfl

/-- A parameter introduces the names of its pattern after its type. -/
theorem Param.fills (p : Param) :
    Fills top false s p.nodeIds p.pattern.introductions p.ty.blocks p.resolve :=
  ((Leaves.seq_own p.ty.fills.discard fun _ _ => p.pattern.fills).mono
    List.perm_append_comm.subperm).skip

theorem AliasDecl.leaves (a : AliasDecl) (hblank : ∀ id ∈ a.nodeIds, fresh id) :
    Leaves fresh top shadow s (owner :: a.nodeIds) [] [⟨owner, a.generics.introductions⟩] a.blocks
      (a.resolve owner) :=
  .inFrame (.of_fills (.andThen a.generics.fills fun _ _ => a.ty.fills.discard) hblank)

/-- The names of a function come before its return type and its body. -/
theorem FunctionDecl.leaves (f : FunctionDecl) (hblank : ∀ id ∈ f.nodeIds, fresh id) :
    Leaves fresh top shadow s (owner :: f.nodeIds) [] [⟨owner, f.introductions⟩] f.blocks
      (f.resolve owner) := by
  have hids : List.Perm (f.generics.nodeIds ++ (optionalIds (fun r => [r.node.id]) f.receiver ++
      (f.params.flatMap Param.nodeIds ++ (optionalIds Ty.nodeIds f.ret ++
        optionalIds Block.nodeIds f.body)))) f.nodeIds := by
    simp only [FunctionDecl.nodeIds, List.append_assoc]
    exact List.Perm.refl _
  refine .inFrame (.of_fills (.mono ?_ hids.subperm) hblank)
  refine .bind f.generics.fills fun _ _ _ => ?_
  refine Leaves.bind_own (fills_receiver f.receiver) fun _ _ => ?_
  refine .andThen (fills_forM (fun p _ => p.fills) f.params) fun _ _ => ?_
  exact .seq (fills_optional (fun ty _ => ty.fills.discard) f.ret) fun _ _ =>
    fills_optional (fun b _ => b.fills) f.body

theorem Variant.leaves (v : Variant) (hblank : ∀ id ∈ v.bodyIds, fresh id) :
    Leaves fresh top shadow s v.nodeIds [] [] v.blocks v.resolve := by
  suffices h : Fills top shadow s v.bodyIds [] v.blocks v.resolve from .skip (.of_fills h hblank)
  obtain ⟨node, name, kind⟩ := v
  cases kind with
  | unit => exact .pure ()
  | tuple fields => exact fills_row (fun f _ => f.fills) fields
  | record fields => exact fills_row (fun f _ => f.fills) fields
  | discriminant value => exact value.fills

theorem ImplItem.leaves (i : ImplItem) (hblank : ∀ id ∈ i.bodyIds, fresh id) :
    Leaves fresh top shadow s i.nodeIds [] i.frames i.blocks i.resolve := by
  obtain ⟨node, vis, kind⟩ := i
  cases kind with
  | function f => exact f.leaves hblank
  | const c => exact .skip (.of_fills c.fills hblank)
  | typeAlias a => exact a.leaves hblank

theorem TraitItem.leaves (i : TraitItem) (hblank : ∀ id ∈ i.bodyIds, fresh id) :
    Leaves fresh top shadow s i.nodeIds [] i.frames i.blocks i.resolve := by
  obtain ⟨node, kind⟩ := i
  cases kind with
  | function f => exact f.leaves hblank
  | const c => exact .skip (.of_fills c.fills hblank)
  | type t => exact .skip (.of_fills (fills_bounds t.bounds) hblank)

theorem ForeignItem.leaves (i : ForeignItem) (hblank : ∀ id ∈ i.bodyIds, fresh id) :
    Leaves fresh top shadow s i.nodeIds [] i.frames i.blocks i.resolve := by
  obtain ⟨node, vis, kind⟩ := i
  cases kind with
  | function f => exact f.leaves hblank
  | static name mutable ty => exact .skip (.of_fills ty.fills.discard hblank)

end Parts

/-! ### What `Self` is introduced for -/

/-- What a type names in the end is what it has been found to name. -/
theorem Ty.named?_read {base : Session} {t : Tables} {env : Env} : ∀ ty : Ty,
    t.Records (ty.read base env).findings →
      ty.named? t = (ty.read base env).value.decl.map Meaning.decl
  | .path _ p, h => by
      rw [Ty.read] at h ⊢
      rw [Reading.value_bind]
      refine h.left.path.trans ?_
      cases (p.read base env .type).value <;> rfl
  | .dynOne _ ⟨_, bound⟩, h => by
      rw [Ty.read, TraitBound.read] at h ⊢
      exact h.left.path
  | .tuple n [], h | .inferred n, h | .never n, h =>
      h.found _ (List.mem_singleton_self _) n.id _ rfl
  | .array _ elem size, h => by
      rw [Ty.read] at h ⊢
      exact elem.named?_read h.left
  | .slice _ inner, h | .reference _ _ inner, h | .pointer _ _ inner, h => by
      rw [Ty.read] at h ⊢
      exact inner.named?_read h.left
  | .qualified _ _, _ | .tuple _ (_ :: _), _ | .dyn _ _, _ => rfl
  | .fnPointer _ _ none, _ | .fnPointer _ _ (some _), _ => rfl

/-! ### Items -/

section Kinds

variable {base s : Session} {t : Tables} {env : Env} {top owner : NodeId} {shadow : Bool}

theorem RecordDecl.leaves (r : RecordDecl) {fresh : NodeId → Prop}
    (hblank : ∀ id ∈ (ItemKind.struct r).bodyIds, fresh id) :
    Leaves fresh top shadow s (owner :: (ItemKind.struct r).nodeIds) []
      [⟨owner, r.generics.introductions⟩] (ItemKind.struct r).blocks (r.resolve owner) :=
  .inFrame (.of_fills (.andThen r.generics.fills fun _ _ =>
    fills_row (fun f _ => f.fills) r.fields) hblank)

theorem TupleStructDecl.leaves (d : TupleStructDecl) {fresh : NodeId → Prop}
    (hblank : ∀ id ∈ (ItemKind.tupleStruct d).bodyIds, fresh id) :
    Leaves fresh top shadow s (owner :: (ItemKind.tupleStruct d).nodeIds) []
      [⟨owner, d.generics.introductions⟩] (ItemKind.tupleStruct d).blocks (d.resolve owner) :=
  .inFrame (.of_fills (.andThen d.generics.fills fun _ _ =>
    fills_row (fun f _ => f.fills) d.fields) hblank)

theorem EnumDecl.leaves (e : EnumDecl) {fresh : NodeId → Prop}
    (hblank : ∀ id ∈ (ItemKind.enum e).bodyIds, fresh id) :
    Leaves fresh top shadow s (owner :: (ItemKind.enum e).nodeIds) []
      [⟨owner, e.generics.introductions⟩] (ItemKind.enum e).blocks (e.resolve owner) := by
  have hbody : ∀ v ∈ e.variants, ∀ id ∈ v.bodyIds, fresh id := fun v hv id hid =>
    hblank id (List.mem_append_right _ (List.mem_flatMap.mpr ⟨v, hv, hid⟩))
  have hframes : e.variants.flatMap (fun _ => ([] : List LocalFrame)) = [] := by simp
  refine .inFrame (.andThen (.of_fills e.generics.fills fun id hid =>
    hblank id (List.mem_append_left _ hid)) fun _ _ => ?_)
  rw [← hframes]
  exact leaves_members e.variants fun v hv _ => v.leaves (hbody v hv)

theorem leaves_implItems (items : List ImplItem) {fresh : NodeId → Prop}
    (hbodies : ∀ id ∈ items.flatMap ImplItem.bodyIds, fresh id) :
    Leaves fresh top shadow s (items.flatMap ImplItem.nodeIds) [] (items.flatMap ImplItem.frames)
      (items.flatMap ImplItem.blocks) (items.forM ImplItem.resolve) :=
  leaves_members items fun i hi _ => i.leaves fun id hid =>
    hbodies id (List.mem_flatMap.mpr ⟨i, hi, hid⟩)

/-- The end of an implementation: its type, what `Self` stands for, and its items. -/
private theorem leaves_implBody (hbase : base.Settled) (selfTy : Ty) (items : List ImplItem)
    (hselfTy : ∀ id ∈ selfTy.nodeIds, base.Blank id)
    (hbodies : ∀ id ∈ items.flatMap ImplItem.bodyIds, base.Blank id)
    (hrecords : t.Records (selfTy.read base env).findings)
    (hwaits : Waits base env (selfTy.nodeIds ++ items.flatMap ImplItem.nodeIds) s) :
    Leaves base.Unused top false s (selfTy.nodeIds ++ items.flatMap ImplItem.nodeIds)
      (selfIntroductions owner (selfTy.named? t) selfTy.node.span) (items.flatMap ImplItem.frames)
      (selfTy.blocks ++ items.flatMap ImplItem.blocks)
      (do
        let selfTy' ← selfTy.resolve
        bindSelf owner selfTy'.decl selfTy.node.span
        items.forM ImplItem.resolve) := by
  have hself : Leaves base.Unused top false s selfTy.nodeIds [] [] selfTy.blocks selfTy.resolve :=
    .of_fills selfTy.fills fun id hid => (hselfTy id hid).unused
  refine hself.bind fun a s₁ hrun => ?_
  obtain ⟨⟨hdecl, -, hoffers⟩, -⟩ :=
    (selfTy.agrees hbase (hwaits.left.ready hselfTy)).of_runs hrun
  have htarget : ∀ decl ∈ a.decl, ¬ s₁.Unused decl := fun decl hin => by
    rw [hdecl] at hin
    obtain ⟨m, hm, rfl⟩ := Option.map_eq_some_iff.mp hin
    exact (hoffers m hm).not_unused
  rw [selfTy.named?_read hrecords, ← hdecl]
  exact (Leaves.bindSelf htarget).andThen fun _ _ =>
    leaves_implItems items fun id hid => (hbodies id hid).unused

/-- What the generics of a construct leave to be worked on inside of it. -/
private theorem waits_of_generics (hbase : base.Settled) (g : Generics) {extra ids : List NodeId}
    {s₁ : Session} (hvacant : base.Vacant owner) (hgenerics : ∀ id ∈ g.nodeIds, base.Blank id)
    (hsub : (g.nodeIds ++ ids).Sublist extra)
    (hwaits : Waits base env (owner :: extra) s)
    (hrun : Runs g.resolve (s.openFrame owner) () s₁) :
    Waits base (g.read base (env.enter owner (owner :: extra))).value ids s₁ := by
  have hinner := (hwaits.enter hvacant (List.Subset.refl _)).sublist hsub
  obtain ⟨-, hstands, hextents, hstep⟩ :=
    (g.agrees hbase (hinner.left.ready hgenerics) (List.cons_ne_nil _ _)).of_runs hrun
  exact hinner.right hstep hextents hstands

theorem InherentImpl.leaves (hbase : base.Settled) (i : InherentImpl) (hvacant : base.Vacant owner)
    (hblank : ∀ id ∈ (ItemKind.inherentImpl i).bodyIds, base.Blank id)
    (hrecords : t.Records (i.read base env owner).findings)
    (hwaits : Waits base env (owner :: (ItemKind.inherentImpl i).nodeIds) s) :
    Leaves base.Unused top false s (owner :: (ItemKind.inherentImpl i).nodeIds) []
      (⟨owner, i.generics.introductions
        ++ selfIntroductions owner (i.selfTy.named? t) i.selfTy.node.span⟩
        :: i.items.flatMap ImplItem.frames)
      (ItemKind.inherentImpl i).blocks (i.resolve owner) := by
  simp only [ItemKind.bodyIds, List.mem_append, or_imp, forall_and] at hblank
  obtain ⟨⟨hgenerics, hselfTy⟩, hbodies⟩ := hblank
  have hids : List.Sublist
      (i.generics.nodeIds ++ (i.selfTy.nodeIds ++ i.items.flatMap ImplItem.nodeIds))
      (ItemKind.inherentImpl i).nodeIds := by
    rw [← List.append_assoc]
    exact List.Sublist.refl _
  refine .inFrame (.mono ?_ hids.subperm)
  refine .bind (.of_fills i.generics.fills fun id hid => (hgenerics id hid).unused)
    fun _ s₁ hrun => ?_
  exact leaves_implBody hbase i.selfTy i.items hselfTy hbodies hrecords.right.left
    (waits_of_generics hbase i.generics hvacant hgenerics hids hwaits hrun)

theorem TraitImpl.leaves (hbase : base.Settled) (i : TraitImpl) (hvacant : base.Vacant owner)
    (hblank : ∀ id ∈ (ItemKind.traitImpl i).bodyIds, base.Blank id)
    (hrecords : t.Records (i.read base env owner).findings)
    (hwaits : Waits base env (owner :: (ItemKind.traitImpl i).nodeIds) s) :
    Leaves base.Unused top false s (owner :: (ItemKind.traitImpl i).nodeIds) []
      (⟨owner, i.generics.introductions
        ++ selfIntroductions owner (i.selfTy.named? t) i.selfTy.node.span⟩
        :: i.items.flatMap ImplItem.frames)
      (ItemKind.traitImpl i).blocks (i.resolve owner) := by
  simp only [ItemKind.bodyIds, List.mem_append, or_imp, forall_and] at hblank
  obtain ⟨⟨⟨hgenerics, htrait⟩, hselfTy⟩, hbodies⟩ := hblank
  have hids : List.Sublist
      (i.generics.nodeIds ++ (i.traitPath.nodeIds ++
        (i.selfTy.nodeIds ++ i.items.flatMap ImplItem.nodeIds)))
      (ItemKind.traitImpl i).nodeIds := by
    rw [← List.append_assoc, ← List.append_assoc]
    exact List.Sublist.refl _
  refine .inFrame (.mono ?_ hids.subperm)
  refine .bind (.of_fills i.generics.fills fun id hid => (hgenerics id hid).unused)
    fun _ s₁ hrun₁ => ?_
  have hinner := waits_of_generics hbase i.generics hvacant hgenerics hids hwaits hrun₁
  have htraitPath : Leaves base.Unused owner false s₁ i.traitPath.nodeIds [] [] i.traitPath.blocks
      (discard (i.traitPath.resolve .type)) :=
    .of_fills (i.traitPath.fills .type).discard fun id hid => (htrait id hid).unused
  refine htraitPath.bind fun _ s₂ hrun₂ => ?_
  obtain ⟨-, hstands, hextents, hstep⟩ :=
    (i.traitPath.agrees hbase .type (hinner.left.ready htrait)).discard.of_runs hrun₂
  exact leaves_implBody hbase i.selfTy i.items hselfTy hbodies hrecords.right.right.left
    (hinner.right hstep hextents hstands)

/-- In a trait `Self` stands for the trait. -/
theorem TraitDecl.leaves (hbase : base.Settled) (node : Node) (d : TraitDecl)
    (htrait : base.tables.containers.get? node.id = some .trait) (hvacant : base.Vacant node.id)
    (hblank : ∀ id ∈ (ItemKind.trait d).bodyIds, base.Blank id)
    (hwaits : Waits base env (node.id :: (ItemKind.trait d).nodeIds) s) :
    Leaves base.Unused top false s (node.id :: (ItemKind.trait d).nodeIds) []
      (⟨node.id, d.generics.introductions
        ++ selfIntroductions node.id (some node.id) node.span⟩ :: d.items.flatMap TraitItem.frames)
      (ItemKind.trait d).blocks (d.resolve node) := by
  simp only [ItemKind.bodyIds, List.mem_append, or_imp, forall_and] at hblank
  obtain ⟨⟨hgenerics, hsupertraits⟩, hbodies⟩ := hblank
  have hids : List.Sublist
      (d.generics.nodeIds ++ (boundsNodeIds d.supertraits ++ d.items.flatMap TraitItem.nodeIds))
      (ItemKind.trait d).nodeIds := by
    rw [← List.append_assoc]
    exact List.Sublist.refl _
  refine .inFrame (.mono ?_ hids.subperm)
  refine .bind (.of_fills d.generics.fills fun id hid => (hgenerics id hid).unused)
    fun _ s₁ hrun => ?_
  have hinner := waits_of_generics hbase d.generics hvacant hgenerics hids hwaits hrun
  have htarget : ∀ decl ∈ some node.id, ¬ s₁.Unused decl := fun decl hin => by
    rw [← Option.mem_some.mp hin]
    exact (hinner.stands.offers _ (hbase.offers_container htrait)).not_unused
  refine (Leaves.bindSelf htarget).andThen fun _ _ => ?_
  refine .seq (.of_fills (fills_bounds d.supertraits) fun id hid => (hsupertraits id hid).unused)
    fun _ _ => ?_
  exact leaves_members d.items fun i hi _ => i.leaves fun id hid =>
    (hbodies id (List.mem_flatMap.mpr ⟨i, hi, hid⟩)).unused

end Kinds

/-! ### The induction over the items -/

section Items

variable {base s : Session} {t : Tables} {env : Env} {ids : List NodeId}

/-- What waits to be worked on fits, as far as no rib of it holds anything. -/
theorem Waits.fits (h : Waits base env ids s) {top : NodeId} {outer : List NodeId}
    (howners : env.owners base = top :: outer) (hvacant : ∀ id ∈ ids, base.Vacant id) :
    s.Fits base.Unused top ids where
  innermost space := by
    rw [h.stands.opened, howners]
    rfl
  rib space := h.stands.ribs space top (howners ▸ List.mem_cons_self)
  nodup := h.nodup
  closed id hid space hopened := h.apart id hid (by rwa [h.stands.opened] at hopened)
  unused := h.unused
  vacant id hid space key := (h.kept id hid space key).trans (hvacant id hid space key)

/-- Nothing is bound in the ribs of an item that is no module. -/
theorem Session.Prepared.vacant {item : Item} (hflat : ∀ name items, item.kind ≠ .module name items)
    (h : base.Prepared item.containers item.entryIds item.bodyIds) :
    ∀ id ∈ item.nodeIds, base.Vacant id := by
  intro id hid
  have hentries : item.declaredIds = item.entryIds := by
    obtain ⟨node, vis, kind⟩ := item
    exact (Item.declaredIds_flat hflat).trans (Item.entryIds_flat hflat).symm
  rcases List.mem_append.mp (item.nodeIds_perm.mem_iff.mp hid) with hdeclared | hbody
  · exact h.entries id (hentries ▸ hdeclared)
  · exact (h.bodies id hbody).vacant

/-- What is left behind by an item that is no module. -/
theorem Item.leaves (hbase : base.Settled) (item : Item) {modules : List NodeId} {top : NodeId}
    (hflat : ∀ name items, item.kind ≠ .module name items)
    (hprepared : base.Prepared item.containers item.entryIds item.bodyIds)
    (hrecords : t.Records (item.read base modules).findings)
    (hwaits : Waits base (.inside modules) item.nodeIds s) :
    Leaves base.Unused top false s item.nodeIds [] (item.frames t) item.blocks item.resolve := by
  obtain ⟨hcontainers, -, hentries, hbodies⟩ := hprepared
  have hunused : ∀ id ∈ item.bodyIds, base.Unused id := fun id hid => (hbodies id hid).unused
  obtain ⟨node, vis, kind⟩ := item
  cases kind with
  | module name items => exact absurd rfl (hflat name items)
  | typeAlias a => exact a.leaves hunused
  | struct r => exact r.leaves hunused
  | tupleStruct d => exact d.leaves hunused
  | enum e => exact e.leaves hunused
  | union r => exact r.leaves hunused
  | static c => exact .skip (.of_fills c.fills hunused)
  | const c => exact .skip (.of_fills c.fills hunused)
  | function f => exact f.leaves hunused
  | inherentImpl i =>
      exact i.leaves hbase (hentries node.id List.mem_cons_self) hbodies hrecords hwaits
  | traitImpl i =>
      exact i.leaves hbase (hentries node.id List.mem_cons_self) hbodies hrecords hwaits
  | trait d =>
      exact d.leaves hbase node (hcontainers (node.id, .trait) List.mem_cons_self)
        (hentries node.id List.mem_cons_self) hbodies hwaits
  | foreign b =>
      exact .skip (leaves_members b.items fun i hi _ => i.leaves fun id hid =>
        hunused id (List.mem_flatMap.mpr ⟨i, hi, hid⟩))

mutual

/-- An item binds nothing in the rib of the module around it. -/
theorem Item.binds (hbase : base.Settled) : ∀ (item : Item) {here : NodeId} {outer : List NodeId}
    {s s' : Session}, base.Prepared item.containers item.entryIds item.bodyIds →
    t.Records (item.read base (here :: outer)).findings →
    Waits base (.inside (here :: outer)) item.nodeIds s → Runs item.resolve s () s' →
    ∃ opened : List Block, opened.Sublist item.blocks ∧
      s.Binds here false item.nodeIds [] (item.frames t) opened s'
  | ⟨node, vis, kind⟩, here, outer, s, s', hprepared, hrecords, hwaits, hrun => by
      cases kind with
      | module name items =>
          obtain ⟨hmodule, hinner⟩ := hprepared.inside
          obtain ⟨s₁, hrun₁, rfl⟩ := hrun.inModule_inv
          obtain ⟨opened, hsub, hbinds⟩ :=
            binds_items hbase items hinner hrecords (hwaits.openModule hmodule) hrun₁
          have htop : here ∉ node.id :: itemsNodeIds items := fun hin =>
            hwaits.apart here hin List.mem_cons_self
          refine ⟨opened, hsub, hbinds.inModule htop ?_⟩
          rwa [hwaits.stands.tables.isModule]
      | _ =>
          exact Item.leaves hbase _ (by simp) hprepared hrecords hwaits
            (hwaits.fits rfl (hprepared.vacant (by simp))) _ _ hrun

theorem binds_items (hbase : base.Settled) : ∀ (items : List Item) {here : NodeId}
    {outer : List NodeId} {s s' : Session},
    base.Prepared (itemsContainers items) (itemsEntryIds items) (itemsBodyIds items) →
    t.Records (readItems base (here :: outer) items).findings →
    Waits base (.inside (here :: outer)) (itemsNodeIds items) s → Runs (resolveItems items) s () s' →
    ∃ opened : List Block, opened.Sublist (itemsBlocks items) ∧
      s.Binds here false (itemsNodeIds items) [] (itemsFrames t items) opened s'
  | [], _, _, s, s', _, _, _, hrun => by
      obtain rfl := (hrun.eq (Runs.pure () s)).2
      exact ⟨[], List.nil_sublist _, .still (.refl _ s) (fun _ => rfl) rfl⟩
  | item :: rest, here, outer, s, s', hprepared, hrecords, hwaits, hrun => by
      obtain ⟨_, s₁, hrun₁, hrun₂⟩ := hrun.bind_inv
      obtain ⟨opened₁, hsub₁, hbinds₁⟩ :=
        item.binds hbase hprepared.left hrecords.left hwaits.left hrun₁
      obtain ⟨-, hstands, hextents, hstep⟩ :=
        (item.agrees hbase hprepared.left hwaits.left).of_runs hrun₁
      obtain ⟨opened₂, hsub₂, hbinds₂⟩ := binds_items hbase rest hprepared.right hrecords.right
        (hwaits.right hstep hextents hstands) hrun₂
      refine ⟨opened₁ ++ opened₂, hsub₁.append hsub₂, hbinds₁.append hbinds₂ ?_ ?_ (Or.inr rfl)⟩
      · exact fun id h₁ h₂ => (List.nodup_append.mp hwaits.nodup).2.2 id h₁ id h₂ rfl
      · intro id hid space hhead
        rw [hwaits.stands.opened] at hhead
        exact hwaits.apart id (List.mem_append_left _ hid) (List.mem_of_head? hhead)

end

end Items

end NameResolution
