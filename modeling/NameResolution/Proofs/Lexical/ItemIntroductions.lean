import NameResolution.Proofs.Lexical.ItemAgreement
import NameResolution.Proofs.Lexical.PathIntroductions

/-!
# NameResolution.Proofs.Lexical.ItemIntroductions

**What items introduce.** A generic parameter, a receiver and the names of a pattern are
introduced in the frame of the construct that they belong to, and `Self` introduces no node
at all. So an item introduces some of its binders, the same ones wherever the pass has got
to (`Item.introduces`), and a row of items introduces those of each of them
(`introduces_items`).
-/

namespace NameResolution

open Resolution

/-- A node that opens a frame: nothing is bound in its rib, which is not that of a module. -/
structure Session.OpensFrame (base : Session) (owner : NodeId) : Prop where
  vacant : base.Vacant owner
  flat : base.tables.isModule owner = false

theorem Session.Prepared.opensFrame {base : Session} {containers : List (NodeId × ContainerKind)}
    {entries bodies : List NodeId} (h : base.Prepared containers entries bodies) :
    ∀ id ∈ entries, base.OpensFrame id := fun id hid => ⟨h.entries id hid, h.flat id hid⟩

/-- The nodes inside a construct are as the first pass has left them, and its frame is open. -/
structure Within (base : Session) (env : Env) (owner : NodeId) (ids : List NodeId)
    (s : Session) : Prop where
  waits : Waits base env ids s
  frames : env.frames ≠ []
  encloses : env.Encloses [owner]
  innermost : base.LocalRib s

namespace Within

variable {base s s' : Session} {env env' : Env} {owner : NodeId} {ids ids₁ ids₂ : List NodeId}
  {l : List Finding}

theorem sublist (h : Within base env owner ids₂ s) (hids : List.Sublist ids₁ ids₂) :
    Within base env owner ids₁ s := ⟨h.waits.sublist hids, h.frames, h.encloses, h.innermost⟩

theorem left (h : Within base env owner (ids₁ ++ ids₂) s) : Within base env owner ids₁ s :=
  h.sublist (List.sublist_append_left _ _)

theorem right (h : Within base env owner (ids₁ ++ ids₂) s) (hstep : Step base ids₁ l s s')
    (hextents : env'.extents = env.extents) (hstands : Stands base env' s') :
    Within base env' owner ids₂ s' := by
  refine ⟨h.waits.right hstep hextents hstands, fun hnil => h.frames ?_,
    h.encloses.congr hextents, h.innermost.grows hstep.grows⟩
  simpa [Env.extents, hnil] using hextents.symm

theorem framed (h : Within base env owner ids s) (hblank : ∀ id ∈ ids, base.Blank id) :
    Framed base env ids s := ⟨h.waits.ready hblank, h.frames, h.innermost⟩

end Within

theorem Waits.within {base s : Session} {env : Env} {owner : NodeId} {ids : List NodeId}
    (h : Waits base env (owner :: ids) s) (howner : base.OpensFrame owner) :
    Within base (env.enter owner (owner :: ids)) owner ids (s.openFrame owner) where
  waits := h.enter howner.vacant (List.Subset.refl _)
  frames := List.cons_ne_nil _ _
  encloses := h.encloses_owner
  innermost := .openFrame s howner.flat

/-! ### Parts in a row -/

namespace Introduces

variable {base : Session} {env : Env} {owner : NodeId} {ids ids₁ ids₂ : List NodeId}
  {named named₁ named₂ : List Binder} {α β γ δ : Type} {act : Resolution α} {r : Reading β}
  {after : β → Env} {R : α → β → Session → Prop}

theorem framed (h : Introduces base (Ready base env ids) named act r) :
    Introduces base (Framed base env ids) named act r := h.under fun _ hs => hs.ready

theorem within (h : Introduces base (Waits base env ids) named act r) :
    Introduces base (Within base env owner ids) named act r := h.under fun _ hs => hs.waits

theorem seq_waits {act : Resolution Unit} {R : Unit → β → Session → Prop}
    {next : Unit → Resolution γ} {next' : β → Reading δ}
    (hagrees : ∀ s, Waits base env ids₁ s → Agrees base env ids₁ s act r after R)
    (h₁ : Introduces base (Waits base env ids₁) named₁ act r)
    (h₂ : Introduces base (Waits base (after r.value) ids₂) named₂ (next ()) (next' r.value)) :
    Introduces base (Waits base env (ids₁ ++ ids₂)) (named₁ ++ named₂) (act >>= next)
      (r >>= next') :=
  seq_agrees (fun s hs => hagrees s hs.left)
    (fun _ _ hs hstep hextents hstands => hs.right hstep hextents hstands)
    (h₁.under fun _ hs => hs.left) h₂

/-- Both parts are worked on inside the same construct. -/
theorem bind_within {next : α → Resolution γ} {next' : β → Reading δ} {a₀ : α}
    (hagrees : ∀ s, Within base env owner ids₁ s → Agrees base env ids₁ s act r after R)
    (hanswer : ∀ a s', R a r.value s' → a = a₀)
    (h₁ : Introduces base (Within base env owner ids₁) named₁ act r)
    (h₂ : Introduces base (fun s' => Within base (after r.value) owner ids₂ s' ∧ R a₀ r.value s')
      named₂ (next a₀) (next' r.value)) :
    Introduces base (Within base env owner (ids₁ ++ ids₂)) (named₁ ++ named₂) (act >>= next)
      (r >>= next') :=
  bind_agrees (fun s hs => hagrees s hs.left) (fun a _ s' hs hstep hextents hstands hR => by
    obtain rfl := hanswer a s' hR
    exact ⟨rfl, hs.right hstep hextents hstands, hR⟩) (h₁.under fun _ hs => hs.left) h₂

theorem seq_within {act : Resolution Unit} {R : Unit → β → Session → Prop}
    {next : Unit → Resolution γ} {next' : β → Reading δ}
    (hagrees : ∀ s, Within base env owner ids₁ s → Agrees base env ids₁ s act r after R)
    (h₁ : Introduces base (Within base env owner ids₁) named₁ act r)
    (h₂ : Introduces base (Within base (after r.value) owner ids₂) named₂ (next ())
      (next' r.value)) :
    Introduces base (Within base env owner (ids₁ ++ ids₂)) (named₁ ++ named₂) (act >>= next)
      (r >>= next') :=
  bind_within hagrees (fun _ _ _ => rfl) h₁ (h₂.under fun _ hs => hs.1)

end Introduces

section Rows

variable {base : Session} {env : Env} {α : Type} {idsOf : α → List NodeId}
  {bindersOf : α → List Binder}

/-- It does not matter what is known of the answer. -/
theorem Agrees.forget {β γ : Type} {s : Session} {ids : List NodeId} {act : Resolution β}
    {r : Reading γ} {after : γ → Env} {R : β → γ → Session → Prop}
    (h : Agrees base env ids s act r after R) :
    Agrees base env ids s act r after fun _ _ _ => True := h.imp fun _ _ _ _ => trivial

theorem introduces_optional {f : α → Resolution Unit} {g : α → Reading Unit}
    (h : ∀ a, Introduces base (Ready base env (idsOf a)) (bindersOf a) (f a) (g a)) :
    ∀ o : Option α, Introduces base (Ready base env (optionalIds idsOf o))
      (optionalBinders bindersOf o) (resolveOptional f o) (readOptional g o)
  | none => .pure _ _
  | some a => h a

/-- Parts that all see the same environment. -/
theorem introduces_forM {f : α → Resolution Unit} {g : α → Reading Unit}
    (hagrees : ∀ a s, Ready base env (idsOf a) s →
      Agrees base env (idsOf a) s (f a) (g a) (fun _ => env) fun _ _ _ => True)
    (h : ∀ a, Introduces base (Ready base env (idsOf a)) (bindersOf a) (f a) (g a)) :
    ∀ l : List α, Introduces base (Ready base env (l.flatMap idsOf)) (l.flatMap bindersOf)
      (l.forM f) (l.forM g)
  | [] => .pure _ _
  | a :: l => .seq_ready (hagrees a) (h a) (introduces_forM hagrees h l)

/-- Members, which all see the same environment. -/
theorem introduces_members {f : α → Resolution Unit} {g : α → Reading Unit}
    {usedBy : α → List NodeId} :
    ∀ l : List α, (∀ a ∈ l, ∀ s, Waits base env (idsOf a) s →
      Agrees base env (idsOf a) s (f a) (g a) (fun _ => env)
        fun _ _ s' => s.Spares (usedBy a) s') →
      (∀ a ∈ l, Introduces base (Waits base env (idsOf a)) (bindersOf a) (f a) (g a)) →
      Introduces base (Waits base env (l.flatMap idsOf)) (l.flatMap bindersOf) (l.forM f)
        (l.forM g)
  | [], _, _ => .pure _ _
  | a :: l, hagrees, h =>
      .seq_waits (fun s hs => (hagrees a List.mem_cons_self s hs).forget) (h a List.mem_cons_self)
        (introduces_members l (fun a ha => hagrees a (List.mem_cons_of_mem _ ha))
          fun a ha => h a (List.mem_cons_of_mem _ ha))

/-- Parts that each see the names introduced before. -/
theorem introduces_foldlM {f : α → Resolution Unit} {g : Env → α → Reading Env}
    (hagrees : ∀ a env s, Framed base env (idsOf a) s →
      Agrees base env (idsOf a) s (f a) (g env a) id HasFrame)
    (h : ∀ a env, Introduces base (Framed base env (idsOf a)) (bindersOf a) (f a) (g env a)) :
    ∀ (l : List α) {env : Env}, Introduces base (Framed base env (l.flatMap idsOf))
      (l.flatMap bindersOf) (l.forM f) (l.foldlM g env)
  | [], _ => .pure _ _
  | a :: l, env => .seq_framed (hagrees a env) (h a env) (introduces_foldlM hagrees h l)

end Rows

/-! ### Generics -/

section Parts

variable {base : Session} {env : Env} {owner : NodeId}

theorem GenericParam.introduces (hbase : base.Settled) (p : GenericParam) (env : Env) :
    Introduces base (Framed base env p.nodeIds) p.binders p.resolve (p.read base env) := by
  obtain ⟨node, name, kind⟩ := p
  -- The name is introduced last, although the node comes before its parts.
  cases kind with
  | type bounds default =>
      have hids : List.Perm (optionalIds Ty.nodeIds default ++ (boundsNodeIds bounds ++ [node.id]))
          (node.id :: (boundsNodeIds bounds ++ optionalIds Ty.nodeIds default)) := by
        rw [← List.append_assoc]
        exact (List.perm_append_comm.append_right _).trans (List.perm_append_singleton _ _)
      refine .under ?_ fun _ hs => hs.mono hids.subperm
      refine .seq_framed (fun _ hs => agrees_optional
        (fun ty hty => (ty.agrees hbase hty).discard) default hs.ready)
        (introduces_optional (fun ty => (ty.introduces hbase).discard) default).framed ?_
      refine .seq_framed (fun _ hs => agrees_bounds hbase bounds hs.ready)
        (introduces_bounds hbase bounds).framed ?_
      exact introduces_bindNew (b := ⟨.typeParam, node.id, name.name⟩)
  | const ty default =>
      have hids : List.Perm (ty.nodeIds ++ (optionalIds Expr.nodeIds default ++ [node.id]))
          (node.id :: (ty.nodeIds ++ optionalIds Expr.nodeIds default)) := by
        rw [← List.append_assoc]
        exact List.perm_append_singleton _ _
      refine .under ?_ fun _ hs => hs.mono hids.subperm
      refine .seq_framed (fun _ hs => (ty.agrees hbase hs.ready).discard)
        (ty.introduces hbase).discard.framed ?_
      refine .seq_framed (fun _ hs => agrees_optional
        (fun e he => e.agrees hbase he) default hs.ready)
        (introduces_optional (fun e => e.introduces hbase) default).framed ?_
      exact introduces_bindNew (b := ⟨.constParam, node.id, name.name⟩)
  | lifetime => exact .pure _ _

theorem WherePredicate.introduces (hbase : base.Settled) (p : WherePredicate) :
    Introduces base (Ready base env p.nodeIds) p.binders p.resolve (p.read base env) :=
  (Introduces.seq_ready (fun _ hs => (p.ty.agrees hbase hs).discard)
    (p.ty.introduces hbase).discard (introduces_bounds hbase p.bounds)).skip

theorem Generics.introduces (hbase : base.Settled) (g : Generics) :
    Introduces base (Framed base env g.nodeIds) g.binders g.resolve (g.read base env) :=
  .seq_framed (fun _ hs => agrees_foldlM (fun p _ _ hp hframes => p.agrees hbase hp hframes)
      g.params hs.ready hs.frames)
    (introduces_foldlM (fun p _ _ hs => p.agrees hbase hs.ready hs.frames)
      (fun p env => p.introduces hbase env) g.params)
    (introduces_optional (fun w => introduces_forM (fun p _ hp => p.agrees hbase hp)
      (fun p => p.introduces hbase) w.predicates) g.whereClause).mapRead.framed

/-! ### Members -/

theorem ConstDecl.introduces (hbase : base.Settled) (c : ConstDecl) :
    Introduces base (Ready base env c.nodeIds) c.binders c.resolve (c.read base env) :=
  .seq_ready (fun _ hs => (c.ty.agrees hbase hs).discard) (c.ty.introduces hbase).discard
    (introduces_optional (fun e => e.introduces hbase) c.init)

theorem AliasDecl.introduces (hbase : base.Settled) (a : AliasDecl) (howner : base.OpensFrame owner)
    (hblank : ∀ id ∈ a.nodeIds, base.Blank id) :
    Introduces base (Waits base env (owner :: a.nodeIds)) a.binders (a.resolve owner)
      (a.read base env owner) :=
  .inFrame (fun _ hs => (hs.within howner).framed hblank)
    (.seq_framed (fun _ hs => a.generics.agrees hbase hs.ready hs.frames)
      (a.generics.introduces hbase) (a.ty.introduces hbase).discard.framed)

theorem introduces_receiver : ∀ receiver : Option SelfParam,
    Introduces base (Framed base env (optionalIds (fun r => [r.node.id]) receiver))
      (optionalBinders SelfParam.binders receiver) (resolveOptional SelfParam.bindName receiver)
      (readReceiver env receiver)
  | none => .pure _ _
  | some r => introduces_bindNew (b := ⟨.receiver, r.node.id, "self"⟩)

theorem Param.introduces (hbase : base.Settled) (p : Param) (env : Env) :
    Introduces base (Framed base env p.nodeIds) p.binders p.resolve (p.read base env) :=
  (Introduces.seq_framed (fun _ hs => (p.ty.agrees hbase hs.ready).discard)
    (p.ty.introduces hbase).discard.framed (p.pattern.introduces false)).under fun _ hs =>
      hs.tail.mono List.perm_append_comm.subperm

theorem FunctionDecl.introduces (hbase : base.Settled) (f : FunctionDecl)
    (howner : base.OpensFrame owner) (hblank : ∀ id ∈ f.nodeIds, base.Blank id) :
    Introduces base (Waits base env (owner :: f.nodeIds)) f.binders (f.resolve owner)
      (f.read base env owner) := by
  have hids : List.Perm (f.generics.nodeIds ++ (optionalIds (fun r => [r.node.id]) f.receiver ++
      (f.params.flatMap Param.nodeIds ++ (optionalIds Ty.nodeIds f.ret ++
        optionalIds Block.nodeIds f.body)))) f.nodeIds := by
    simp only [FunctionDecl.nodeIds, List.append_assoc]
    exact List.Perm.refl _
  refine .inFrame (fun _ hs => ((hs.within howner).framed hblank).mono hids.subperm) ?_
  refine .seq_framed (fun _ hs => f.generics.agrees hbase hs.ready hs.frames)
    (f.generics.introduces hbase) ?_
  refine .seq_framed (fun _ hs => agrees_receiver f.receiver hs.ready hs.frames)
    (introduces_receiver f.receiver) ?_
  refine .seq_framed (fun _ hs => agrees_foldlM
      (fun p _ _ hp hframes => p.agrees hbase hp hframes) f.params hs.ready hs.frames)
    (introduces_foldlM (fun p _ _ hs => p.agrees hbase hs.ready hs.frames)
      (fun p env => p.introduces hbase env) f.params) ?_
  exact (Introduces.seq_ready
    (fun _ hs => agrees_optional (fun ty hty => (ty.agrees hbase hty).discard) f.ret hs)
    (introduces_optional (fun ty => (ty.introduces hbase).discard) f.ret)
    (introduces_optional (fun b => b.introduces hbase) f.body)).framed

theorem NamedField.introduces (hbase : base.Settled) (f : NamedField) :
    Introduces base (Ready base env f.nodeIds) f.binders f.resolve (f.read base env) :=
  (f.ty.introduces hbase).discard.skip

theorem TupleField.introduces (hbase : base.Settled) (f : TupleField) :
    Introduces base (Ready base env f.nodeIds) f.binders f.resolve (f.read base env) :=
  (f.ty.introduces hbase).discard.skip

theorem Variant.introduces (hbase : base.Settled) (v : Variant)
    (hblank : ∀ id ∈ v.bodyIds, base.Blank id) :
    Introduces base (Waits base env v.nodeIds) v.binders v.resolve (v.read base env) := by
  suffices h : Introduces base (Ready base env v.bodyIds) v.binders v.resolve (v.read base env) from
    h.under fun _ hs => hs.tail.ready hblank
  obtain ⟨node, name, kind⟩ := v
  cases kind with
  | unit => exact .pure _ _
  | tuple fields =>
      exact introduces_forM (fun f _ hf => f.agrees hbase hf) (fun f => f.introduces hbase) fields
  | record fields =>
      exact introduces_forM (fun f _ hf => f.agrees hbase hf) (fun f => f.introduces hbase) fields
  | discriminant value => exact value.introduces hbase

theorem ImplItem.introduces (hbase : base.Settled) (i : ImplItem)
    (howner : base.OpensFrame i.node.id) (hblank : ∀ id ∈ i.bodyIds, base.Blank id) :
    Introduces base (Waits base env i.nodeIds) i.binders i.resolve (i.read base env) := by
  obtain ⟨node, vis, kind⟩ := i
  cases kind with
  | function f => exact f.introduces hbase howner hblank
  | const c => exact (c.introduces hbase).under fun _ hs => hs.tail.ready hblank
  | typeAlias a => exact a.introduces hbase howner hblank

theorem TraitItem.introduces (hbase : base.Settled) (i : TraitItem)
    (howner : base.OpensFrame i.node.id) (hblank : ∀ id ∈ i.bodyIds, base.Blank id) :
    Introduces base (Waits base env i.nodeIds) i.binders i.resolve (i.read base env) := by
  obtain ⟨node, kind⟩ := i
  cases kind with
  | function f => exact f.introduces hbase howner hblank
  | const c => exact (c.introduces hbase).under fun _ hs => hs.tail.ready hblank
  | type t => exact (introduces_bounds hbase t.bounds).under fun _ hs => hs.tail.ready hblank

theorem ForeignItem.introduces (hbase : base.Settled) (i : ForeignItem)
    (howner : base.OpensFrame i.node.id) (hblank : ∀ id ∈ i.bodyIds, base.Blank id) :
    Introduces base (Waits base env i.nodeIds) i.binders i.resolve (i.read base env) := by
  obtain ⟨node, vis, kind⟩ := i
  cases kind with
  | function f => exact f.introduces hbase howner hblank
  | static name mutable ty =>
      exact (ty.introduces hbase).discard.under fun _ hs => hs.tail.ready hblank

/-! ### Items with frames -/

theorem RecordDecl.introduces (hbase : base.Settled) (r : RecordDecl)
    (howner : base.OpensFrame owner) (hblank : ∀ id ∈ (ItemKind.struct r).bodyIds, base.Blank id) :
    Introduces base (Waits base env (owner :: (ItemKind.struct r).nodeIds)) r.binders
      (r.resolve owner) (r.read base env owner) :=
  .inFrame (fun _ hs => (hs.within howner).framed hblank)
    (.seq_framed (fun _ hs => r.generics.agrees hbase hs.ready hs.frames)
      (r.generics.introduces hbase)
      (introduces_forM (fun f _ hf => f.agrees hbase hf) (fun f => f.introduces hbase)
        r.fields).framed)

theorem TupleStructDecl.introduces (hbase : base.Settled) (t : TupleStructDecl)
    (howner : base.OpensFrame owner)
    (hblank : ∀ id ∈ (ItemKind.tupleStruct t).bodyIds, base.Blank id) :
    Introduces base (Waits base env (owner :: (ItemKind.tupleStruct t).nodeIds)) t.binders
      (t.resolve owner) (t.read base env owner) :=
  .inFrame (fun _ hs => (hs.within howner).framed hblank)
    (.seq_framed (fun _ hs => t.generics.agrees hbase hs.ready hs.frames)
      (t.generics.introduces hbase)
      (introduces_forM (fun f _ hf => f.agrees hbase hf) (fun f => f.introduces hbase)
        t.fields).framed)

/-- The generics come first inside a construct. Its other nodes may be declared already. -/
theorem introduces_generics (hbase : base.Settled) (g : Generics) {ids : List NodeId}
    {named : List Binder} {γ δ : Type} {next : Unit → Resolution γ} {next' : Env → Reading δ}
    (hblank : ∀ id ∈ g.nodeIds, base.Blank id)
    (h : Introduces base (Within base (g.read base env).value owner ids) named (next ())
      (next' (g.read base env).value)) :
    Introduces base (Within base env owner (g.nodeIds ++ ids)) (g.binders ++ named)
      (g.resolve >>= next) (g.read base env >>= next') :=
  .seq_within (fun _ hs => g.agrees hbase (hs.framed hblank).ready hs.frames)
    ((g.introduces hbase).under fun _ hs => hs.framed hblank) h

theorem EnumDecl.introduces (hbase : base.Settled) (e : EnumDecl) (howner : base.OpensFrame owner)
    (hblank : ∀ id ∈ (ItemKind.enum e).bodyIds, base.Blank id) :
    Introduces base (Waits base env (owner :: (ItemKind.enum e).nodeIds)) e.binders
      (e.resolve owner) (e.read base env owner) := by
  have hbodies : ∀ v ∈ e.variants, ∀ id ∈ v.bodyIds, base.Blank id := fun v hv id hid =>
    hblank id (List.mem_append_right _ (List.mem_flatMap.mpr ⟨v, hv, hid⟩))
  refine .inFrame (fun _ hs => hs.within howner) (introduces_generics hbase e.generics
    (fun id hid => hblank id (List.mem_append_left _ hid)) ?_)
  exact (introduces_members e.variants
    (fun v hv _ hs => v.agrees hbase (hbodies v hv) hs)
    fun v hv => v.introduces hbase (hbodies v hv)).within

theorem StaticDecl.introduces (hbase : base.Settled) (c : StaticDecl) :
    Introduces base (Ready base env (ItemKind.static c).nodeIds) c.binders c.resolve
      (c.read base env) :=
  .seq_ready (fun _ hs => (c.ty.agrees hbase hs).discard) (c.ty.introduces hbase).discard
    (introduces_optional (fun e => e.introduces hbase) c.init)

theorem introduces_implItems (hbase : base.Settled) (items : List ImplItem)
    (hentries : ∀ id ∈ items.map (·.node.id), base.OpensFrame id)
    (hbodies : ∀ id ∈ items.flatMap ImplItem.bodyIds, base.Blank id) :
    Introduces base (Waits base env (items.flatMap ImplItem.nodeIds))
      (items.flatMap ImplItem.binders) (items.forM ImplItem.resolve)
      (items.forM (ImplItem.read base env)) := by
  have hbody : ∀ i ∈ items, ∀ id ∈ i.bodyIds, base.Blank id := fun i hi id hid =>
    hbodies id (List.mem_flatMap.mpr ⟨i, hi, hid⟩)
  exact introduces_members items
    (fun i hi _ hs => i.agrees hbase (hentries _ (List.mem_map_of_mem hi)).vacant (hbody i hi) hs)
    fun i hi => i.introduces hbase (hentries _ (List.mem_map_of_mem hi)) (hbody i hi)

/-- The end of an implementation: its type, what `Self` stands for, and its items. -/
private theorem introduces_implBody (hbase : base.Settled) (selfTy : Ty) (items : List ImplItem)
    (hselfTy : ∀ id ∈ selfTy.nodeIds, base.Blank id)
    (hentries : ∀ id ∈ items.map (·.node.id), base.OpensFrame id)
    (hbodies : ∀ id ∈ items.flatMap ImplItem.bodyIds, base.Blank id) :
    Introduces base (Within base env owner (selfTy.nodeIds ++ items.flatMap ImplItem.nodeIds))
      (selfTy.binders ++ items.flatMap ImplItem.binders)
      (do
        let selfTy' ← selfTy.resolve
        bindSelf owner selfTy'.decl selfTy.node.span
        items.forM ImplItem.resolve)
      (do
        let selfTy' ← selfTy.read base env
        let env ← env.readSelf owner selfTy'.decl selfTy.node.span
        items.forM (ImplItem.read base env)) := by
  refine .bind_within (fun _ hs => selfTy.agrees hbase (hs.framed hselfTy).ready)
    (fun _ _ hnames => hnames.eq) ((selfTy.introduces hbase).under fun _ hs =>
      (hs.framed hselfTy).ready) ?_
  -- What `Self` stands for is known from here on.
  refine .seq_agrees (fun s hs => agrees_bindSelf hs.1.waits.stands hs.1.frames hs.1.encloses
      hs.2.2.2 selfTy.node.span) (fun s s' hs hstep hextents hstands => ?_)
    (introduces_bindSelf fun s hs =>
      ⟨hs.1.waits.stands, hs.1.frames, hs.1.encloses, hs.1.innermost, hs.2.2.2⟩)
    (introduces_implItems hbase items hentries hbodies)
  exact Waits.right (hs.1.waits : Waits base env ([] ++ items.flatMap ImplItem.nodeIds) s) hstep
    hextents hstands

theorem InherentImpl.introduces (hbase : base.Settled) (i : InherentImpl)
    (hentries : ∀ id ∈ owner :: (ItemKind.inherentImpl i).memberIds, base.OpensFrame id)
    (hblank : ∀ id ∈ (ItemKind.inherentImpl i).bodyIds, base.Blank id) :
    Introduces base (Waits base env (owner :: (ItemKind.inherentImpl i).nodeIds)) i.binders
      (i.resolve owner) (i.read base env owner) := by
  simp only [ItemKind.bodyIds, List.mem_append, or_imp, forall_and] at hblank
  obtain ⟨⟨hgenerics, hselfTy⟩, hbodies⟩ := hblank
  have hids : List.Sublist
      (i.generics.nodeIds ++ (i.selfTy.nodeIds ++ i.items.flatMap ImplItem.nodeIds))
      (ItemKind.inherentImpl i).nodeIds := by
    rw [← List.append_assoc]
    exact List.Sublist.refl _
  refine .inFrame (fun _ hs => (hs.within (hentries owner List.mem_cons_self)).sublist hids) ?_
  refine introduces_generics hbase i.generics hgenerics ?_
  exact introduces_implBody hbase i.selfTy i.items hselfTy
    (fun id hid => hentries id (List.mem_cons_of_mem _ hid)) hbodies

theorem TraitImpl.introduces (hbase : base.Settled) (i : TraitImpl)
    (hentries : ∀ id ∈ owner :: (ItemKind.traitImpl i).memberIds, base.OpensFrame id)
    (hblank : ∀ id ∈ (ItemKind.traitImpl i).bodyIds, base.Blank id) :
    Introduces base (Waits base env (owner :: (ItemKind.traitImpl i).nodeIds)) i.binders
      (i.resolve owner) (i.read base env owner) := by
  simp only [ItemKind.bodyIds, List.mem_append, or_imp, forall_and] at hblank
  obtain ⟨⟨⟨hgenerics, htrait⟩, hselfTy⟩, hbodies⟩ := hblank
  have hids : List.Sublist
      (i.generics.nodeIds ++ (i.traitPath.nodeIds ++
        (i.selfTy.nodeIds ++ i.items.flatMap ImplItem.nodeIds)))
      (ItemKind.traitImpl i).nodeIds := by
    rw [← List.append_assoc, ← List.append_assoc]
    exact List.Sublist.refl _
  refine .inFrame (fun _ hs => (hs.within (hentries owner List.mem_cons_self)).sublist hids) ?_
  refine introduces_generics hbase i.generics hgenerics ?_
  refine .seq_within (fun _ hs => (i.traitPath.agrees hbase .type (hs.framed htrait).ready).discard)
    ((i.traitPath.introduces hbase .type).discard.under fun _ hs => (hs.framed htrait).ready) ?_
  exact introduces_implBody hbase i.selfTy i.items hselfTy
    (fun id hid => hentries id (List.mem_cons_of_mem _ hid)) hbodies

theorem TraitDecl.introduces (hbase : base.Settled) (node : Node) (t : TraitDecl)
    (htrait : base.tables.containers.get? node.id = some .trait)
    (hentries : ∀ id ∈ node.id :: (ItemKind.trait t).memberIds, base.OpensFrame id)
    (hblank : ∀ id ∈ (ItemKind.trait t).bodyIds, base.Blank id) :
    Introduces base (Waits base env (node.id :: (ItemKind.trait t).nodeIds)) t.binders
      (t.resolve node) (t.read base env node) := by
  simp only [ItemKind.bodyIds, List.mem_append, or_imp, forall_and] at hblank
  obtain ⟨⟨hgenerics, hsupertraits⟩, hbodies⟩ := hblank
  have hids : List.Sublist
      (t.generics.nodeIds ++ ([] ++ (boundsNodeIds t.supertraits ++
        t.items.flatMap TraitItem.nodeIds)))
      (ItemKind.trait t).nodeIds := by
    rw [List.nil_append, ← List.append_assoc]
    exact List.Sublist.refl _
  have htarget : ∀ s, ∀ env, Stands base env s → ∀ m ∈ some (base.meaning node.id), s.Offers m :=
    fun s env hstands m hm => by
      cases hm
      exact hstands.offers _ (hbase.offers_container htrait)
  have hentry : ∀ i ∈ t.items, base.OpensFrame i.node.id := fun i hi =>
    hentries _ (List.mem_cons_of_mem _ (List.mem_map_of_mem hi))
  have hbody : ∀ i ∈ t.items, ∀ id ∈ i.bodyIds, base.Blank id := fun i hi id hid =>
    hbodies id (List.mem_flatMap.mpr ⟨i, hi, hid⟩)
  refine .inFrame (fun _ hs => (hs.within (hentries node.id List.mem_cons_self)).sublist hids) ?_
  refine introduces_generics hbase t.generics hgenerics ?_
  change Introduces base _ ([] ++ (boundsBinders t.supertraits ++ _)) _ _
  refine .seq_within (fun s hs => agrees_bindSelf hs.waits.stands hs.frames
      hs.encloses (htarget s _ hs.waits.stands) node.span)
    (introduces_bindSelf fun s hs => ⟨hs.waits.stands, hs.frames, hs.encloses, hs.innermost,
      htarget s _ hs.waits.stands⟩) ?_
  refine .seq_within (fun _ hs => agrees_bounds hbase t.supertraits (hs.framed hsupertraits).ready)
    ((introduces_bounds hbase t.supertraits).under fun _ hs => (hs.framed hsupertraits).ready) ?_
  exact (introduces_members t.items
    (fun i hi _ hs => i.agrees hbase (hentry i hi).vacant (hbody i hi) hs)
    fun i hi => i.introduces hbase (hentry i hi) (hbody i hi)).within

end Parts

/-! ### The induction over the items -/

section Items

variable {base : Session}

/-- An item that is no module introduces some of its binders. -/
theorem Item.introduces (hbase : base.Settled) (item : Item) (modules : List NodeId)
    (hflat : ∀ name items, item.kind ≠ .module name items)
    (hprepared : base.Prepared item.containers item.entryIds item.bodyIds) :
    Introduces base (Waits base (.inside modules) item.nodeIds) item.binders item.resolve
      (item.read base modules) := by
  have hentries := hprepared.opensFrame
  obtain ⟨hcontainers, -, -, hbodies⟩ := hprepared
  obtain ⟨node, vis, kind⟩ := item
  cases kind with
  | module name items => exact absurd rfl (hflat name items)
  | typeAlias a => exact a.introduces hbase (hentries node.id List.mem_cons_self) hbodies
  | struct r => exact r.introduces hbase (hentries node.id List.mem_cons_self) hbodies
  | tupleStruct t => exact t.introduces hbase (hentries node.id List.mem_cons_self) hbodies
  | enum e => exact e.introduces hbase (hentries node.id List.mem_cons_self) hbodies
  | union r => exact r.introduces hbase (hentries node.id List.mem_cons_self) hbodies
  | static c => exact (c.introduces hbase).under fun _ hs => hs.tail.ready hbodies
  | const c => exact (c.introduces hbase).under fun _ hs => hs.tail.ready hbodies
  | function f => exact f.introduces hbase (hentries node.id List.mem_cons_self) hbodies
  | inherentImpl i => exact i.introduces hbase hentries hbodies
  | traitImpl i => exact i.introduces hbase hentries hbodies
  | trait t =>
      exact t.introduces hbase node (hcontainers (node.id, .trait) List.mem_cons_self) hentries
        hbodies
  | foreign b =>
      have hentry : ∀ i ∈ b.items, base.OpensFrame i.node.id := fun i hi =>
        hentries _ (List.mem_cons_of_mem _ (List.mem_map_of_mem hi))
      have hbody : ∀ i ∈ b.items, ∀ id ∈ i.bodyIds, base.Blank id := fun i hi id hid =>
        hbodies id (List.mem_flatMap.mpr ⟨i, hi, hid⟩)
      exact (introduces_members b.items
        (fun i hi _ hs => i.agrees hbase (hentry i hi).vacant (hbody i hi) hs)
        fun i hi => i.introduces hbase (hentry i hi) (hbody i hi)).under fun _ hs => hs.tail

/-- What each item that is no module introduces inside some modules. -/
def AddsEach (base : Session) (one : List NodeId → Item → List Binder) : Prop :=
  ∀ modules item, (∀ name items, item.kind ≠ .module name items) →
    base.Prepared item.containers item.entryIds item.bodyIds →
    (one modules item).Sublist item.binders ∧
      Adds base (Waits base (.inside modules) item.nodeIds) (one modules item) item.resolve
        (item.read base modules)

theorem exists_addsEach (hbase : base.Settled) : ∃ one, AddsEach base one := by
  have hone : ∀ (modules : List NodeId) (item : Item), ∃ added : List Binder,
      (∀ name items, item.kind ≠ .module name items) →
      base.Prepared item.containers item.entryIds item.bodyIds → added.Sublist item.binders ∧
        Adds base (Waits base (.inside modules) item.nodeIds) added item.resolve
          (item.read base modules) := fun modules item => by
    by_cases h : (∀ name items, item.kind ≠ .module name items) ∧
        base.Prepared item.containers item.entryIds item.bodyIds
    · obtain ⟨added, hadded⟩ := item.introduces hbase modules h.1 h.2
      exact ⟨added, fun _ _ => hadded⟩
    · exact ⟨[], fun hflat hprepared => absurd ⟨hflat, hprepared⟩ h⟩
  choose one hone using hone
  exact ⟨one, hone⟩

mutual

/-- What is introduced item by item is gathered from the modules. -/
theorem Item.adds (hbase : base.Settled) {one : List NodeId → Item → List Binder}
    (hone : AddsEach base one) : ∀ (item : Item) (modules : List NodeId),
    base.Prepared item.containers item.entryIds item.bodyIds →
    (item.gathered one modules).Sublist item.binders ∧
      Adds base (Waits base (.inside modules) item.nodeIds) (item.gathered one modules)
        item.resolve (item.read base modules)
  | ⟨node, vis, kind⟩, modules, hprepared => by
      cases kind with
      | module name items =>
          obtain ⟨hmodule, hinner⟩ := hprepared.inside
          obtain ⟨hsub, hadds⟩ := adds_items hbase hone items (node.id :: modules) hinner
          exact ⟨hsub, hadds.inModule fun _ hs => hs.openModule hmodule⟩
      | _ => exact hone _ _ (by simp) hprepared

theorem adds_items (hbase : base.Settled) {one : List NodeId → Item → List Binder}
    (hone : AddsEach base one) : ∀ (items : List Item) (modules : List NodeId),
    base.Prepared (itemsContainers items) (itemsEntryIds items) (itemsBodyIds items) →
    (itemsGathered one modules items).Sublist (itemsBinders items) ∧
      Adds base (Waits base (.inside modules) (itemsNodeIds items))
        (itemsGathered one modules items) (resolveItems items) (readItems base modules items)
  | [], _, _ => ⟨List.Sublist.refl [], .pure _ _⟩
  | item :: rest, modules, hprepared => by
      obtain ⟨hitem, haddsItem⟩ := item.adds hbase hone modules hprepared.left
      obtain ⟨hrest, haddsRest⟩ := adds_items hbase hone rest modules hprepared.right
      refine ⟨hitem.append hrest, Adds.bind (fun bs a s s' hs => haddsItem bs a s s' hs.left)
        (fun _ a s s' hs _ hrun => (?_ : a = () ∧ _)) haddsRest⟩
      obtain ⟨-, hstands, hextents, hstep⟩ :=
        (item.agrees hbase hprepared.left hs.left).of_runs hrun
      exact ⟨rfl, hs.right hstep hextents hstands⟩

end

end Items

end NameResolution
