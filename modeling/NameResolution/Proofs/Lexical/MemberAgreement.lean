import NameResolution.Proofs.Identities
import NameResolution.Proofs.Lexical.PathAgreement

/-!
# NameResolution.Proofs.Lexical.MemberAgreement

**Generics, functions and members are resolved as they are read.** An item or a member may
have been declared by the first pass, so its node is not unused. All that a frame needs is
that nothing has been bound in the rib of the node (`Waits`).
-/

namespace NameResolution

open Resolution

/-- Nothing is known about a node, and nothing is bound in its rib. -/
structure Session.Blank (s : Session) (id : NodeId) : Prop where
  unused : s.Unused id
  vacant : s.Vacant id

/-- The nodes are as the first pass has left them. -/
structure Waits (base : Session) (env : Env) (ids : List NodeId) (s : Session) : Prop where
  stands : Stands base env s
  nodup : ids.Nodup
  apart : ∀ id ∈ ids, id ∉ env.owners base
  enclosed : env.Encloses ids
  kept : ∀ id ∈ ids, ∀ space key,
    (s.scope space).bindingIn? id key = (base.scope space).bindingIn? id key
  unused : ∀ id ∈ ids, base.Unused id → s.Unused id

namespace Waits

variable {base s s' : Session} {env env' : Env} {id : NodeId} {ids ids₁ ids₂ : List NodeId}
  {l : List Finding}

/-- It does not matter in which order the nodes are listed. -/
theorem mono (h : Waits base env ids₂ s) (hids : List.Subperm ids₁ ids₂) :
    Waits base env ids₁ s where
  stands := h.stands
  nodup := by
    obtain ⟨l, hperm, hsub⟩ := hids
    exact hperm.nodup_iff.mp (h.nodup.sublist hsub)
  apart id hid := h.apart id (hids.subset hid)
  enclosed := h.enclosed.mono hids.subset
  kept id hid := h.kept id (hids.subset hid)
  unused id hid := h.unused id (hids.subset hid)

theorem sublist (h : Waits base env ids₂ s) (hids : List.Sublist ids₁ ids₂) :
    Waits base env ids₁ s := h.mono hids.subperm

theorem tail (h : Waits base env (id :: ids) s) : Waits base env ids s :=
  h.sublist (List.sublist_cons_self _ _)

theorem left (h : Waits base env (ids₁ ++ ids₂) s) : Waits base env ids₁ s :=
  h.sublist (List.sublist_append_left _ _)

/-- The nodes that another part has not worked on are as they were. -/
theorem right (h : Waits base env (ids₁ ++ ids₂) s) (hstep : Step base ids₁ l s s')
    (hextents : env'.extents = env.extents) (hstands : Stands base env' s') :
    Waits base env' ids₂ s' := by
  have houtside : ∀ id ∈ ids₂, id ∉ ids₁ := fun id hid hin =>
    (List.nodup_append.mp h.nodup).2.2 id hin id hid rfl
  have hapart : ∀ id ∈ ids₂, id ∉ env.owners base := fun id hid =>
    h.apart id (List.mem_append_right _ hid)
  refine ⟨hstands, (List.nodup_append.mp h.nodup).2.1, fun id hid => ?_,
    (h.enclosed.mono (List.subset_append_right _ _)).congr hextents,
    fun id hid space key => ?_, fun id hid hunused => ?_⟩
  · rw [h.stands.owners_eq hstep hstands]
    exact hapart id hid
  · -- A rib can gain a binding only if it is innermost or belongs to a node that is worked on.
    have hhead : (s.scope space).opened.head? ≠ some id := fun hhead => by
      rw [h.stands.opened] at hhead
      exact hapart id hid (List.mem_of_head? hhead)
    rw [hstep.grows.bindings space id key (houtside id hid) hhead]
    exact h.kept id (List.mem_append_right _ hid) space key
  · exact hstep.grows.unused id (houtside id hid)
      (h.unused id (List.mem_append_right _ hid) hunused)

/-- Nodes that nothing was known about are ready to be worked on. -/
theorem ready (h : Waits base env ids s) (hblank : ∀ id ∈ ids, base.Blank id) :
    Ready base env ids s where
  stands := h.stands
  nodup := h.nodup
  apart := h.apart
  enclosed := h.enclosed
  unused id hid := h.unused id hid (hblank id hid).unused
  vacant id hid space key := (h.kept id hid space key).trans ((hblank id hid).vacant space key)

/-- A node whose rib holds nothing opens its frame. -/
theorem enter {owner : NodeId} {extent : List NodeId} (h : Waits base env (owner :: ids) s)
    (hvacant : base.Vacant owner) (hextent : owner :: ids ⊆ extent) :
    Waits base (env.enter owner extent) ids (s.openFrame owner) where
  stands := h.stands.enter (h.apart owner List.mem_cons_self)
    (fun space key => (h.kept owner List.mem_cons_self space key).trans (hvacant space key)) extent
  nodup := (List.nodup_cons.mp h.nodup).2
  apart := apart_cons h.nodup h.apart
  enclosed := (h.enclosed.enter owner hextent).mono (List.subset_cons_self _ _)
  kept id hid space key := by
    rw [Session.scope_openFrame, Scope.bindingIn?_push]
    exact h.kept id (List.mem_cons_of_mem _ hid) space key
  unused id hid hunused := (h.unused id (List.mem_cons_of_mem _ hid) hunused).congr
    (fun space => by rw [Session.scope_openFrame, Scope.declared_push]) rfl rfl

end Waits

/-! ### Parts in a row -/

section Rows

variable {base : Session} {env : Env} {α β γ δ : Type} {idsOf : α → List NodeId}

/-- Two parts whose nodes are as the first pass has left them. -/
theorem Agrees.bind_waits {s : Session} {ids₁ ids₂ : List NodeId} {act : Resolution α}
    {r : Reading β} {after : β → Env} {R : α → β → Session → Prop} {next : α → Resolution γ}
    {next' : β → Reading δ} {after' : δ → Env} {R' : γ → δ → Session → Prop}
    (hwaits : Waits base env (ids₁ ++ ids₂) s) (h₁ : Agrees base env ids₁ s act r after R)
    (h₂ : ∀ a s', R a r.value s' → Waits base (after r.value) ids₂ s' →
      Agrees base (after r.value) ids₂ s' (next a) (next' r.value) after' R') :
    Agrees base env (ids₁ ++ ids₂) s (act >>= next) (r >>= next') after' R' :=
  h₁.seq fun a s' hR hstep hextents hstands =>
    h₂ a s' hR (hwaits.right hstep hextents hstands)

/-- The second part uses up some of its nodes at most, the first one all of its own. -/
theorem Agrees.bind_spares {s : Session} {ids₁ ids₂ used : List NodeId} {act : Resolution α}
    {r : Reading β} {after : β → Env} {R : α → β → Session → Prop} {next : α → Resolution γ}
    {next' : β → Reading δ} {after' : δ → Env}
    (hwaits : Waits base env (ids₁ ++ ids₂) s) (h₁ : Agrees base env ids₁ s act r after R)
    (h₂ : ∀ a s', R a r.value s' → Waits base (after r.value) ids₂ s' →
      Agrees base (after r.value) ids₂ s' (next a) (next' r.value) after'
        fun _ _ s'' => s'.Spares used s'') :
    Agrees base env (ids₁ ++ ids₂) s (act >>= next) (r >>= next') after'
      fun _ _ s'' => s.Spares (ids₁ ++ used) s'' :=
  h₁.seq fun a s' hR hstep hextents hstands =>
    (h₂ a s' hR (hwaits.right hstep hextents hstands)).imp fun _ _ _ hspares =>
      hstep.grows.unused.append hspares

theorem agrees_optional {f : α → Resolution Unit} {g : α → Reading Unit} {s : Session}
    (h : ∀ a, Ready base env (idsOf a) s →
      Agrees base env (idsOf a) s (f a) (g a) (fun _ => env) fun _ _ _ => True) :
    ∀ o : Option α, Ready base env (optionalIds idsOf o) s →
      Agrees base env (optionalIds idsOf o) s (resolveOptional f o) (readOptional g o)
        (fun _ => env) fun _ _ _ => True
  | none, hready => Agrees.pure hready.stands rfl trivial
  | some a, hready => h a hready

/-- Parts that all see the same environment. -/
theorem agrees_forM {f : α → Resolution Unit} {g : α → Reading Unit}
    (h : ∀ a s, Ready base env (idsOf a) s →
      Agrees base env (idsOf a) s (f a) (g a) (fun _ => env) fun _ _ _ => True) :
    ∀ (l : List α) {s : Session}, Ready base env (l.flatMap idsOf) s →
      Agrees base env (l.flatMap idsOf) s (l.forM f) (l.forM g) (fun _ => env) fun _ _ _ => True
  | [], _, hready => Agrees.pure hready.stands rfl trivial
  | a :: l, s, hready =>
      Agrees.bind hready (h a s hready.left) fun _ _ _ hready => agrees_forM h l hready

/-- Members, which all see the same environment. A member need not use up its own node. -/
theorem agrees_members {f : α → Resolution Unit} {g : α → Reading Unit}
    {usedBy : α → List NodeId} :
    ∀ (l : List α) {s : Session}, (∀ a ∈ l, ∀ s, Waits base env (idsOf a) s →
      Agrees base env (idsOf a) s (f a) (g a) (fun _ => env)
        fun _ _ s' => s.Spares (usedBy a) s') →
      Waits base env (l.flatMap idsOf) s →
      Agrees base env (l.flatMap idsOf) s (l.forM f) (l.forM g) (fun _ => env)
        fun _ _ s' => s.Spares (l.flatMap usedBy) s'
  | [], _, _, hwaits => Agrees.pure hwaits.stands rfl fun _ _ hunused => hunused
  | a :: l, s, h, hwaits =>
      Agrees.bind_waits hwaits (h a List.mem_cons_self s hwaits.left) fun _ _ ha hwaits =>
        (agrees_members l (fun a ha => h a (List.mem_cons_of_mem _ ha)) hwaits).imp
          fun _ _ _ hl => ha.append hl

/-- Parts that each see the names introduced before. -/
theorem agrees_foldlM {f : α → Resolution Unit} {g : Env → α → Reading Env}
    (h : ∀ a env s, Ready base env (idsOf a) s → env.frames ≠ [] →
      Agrees base env (idsOf a) s (f a) (g env a) id HasFrame) :
    ∀ (l : List α) {env : Env} {s : Session}, Ready base env (l.flatMap idsOf) s →
      env.frames ≠ [] → Agrees base env (l.flatMap idsOf) s (l.forM f) (l.foldlM g env) id HasFrame
  | [], _, _, hready, hframes => Agrees.pure hready.stands rfl hframes
  | a :: l, env, s, hready, hframes =>
      Agrees.bind hready (h a env s hready.left hframes) fun _ _ hframes hready =>
        agrees_foldlM h l hready hframes

end Rows

/-! ### Generics -/

section Parts

variable {base s : Session} {env : Env} {owner : NodeId}

theorem GenericParam.agrees (hbase : base.Settled) (p : GenericParam)
    (hready : Ready base env p.nodeIds s) (hframes : env.frames ≠ []) :
    Agrees base env p.nodeIds s p.resolve (p.read base env) id HasFrame := by
  obtain ⟨node, name, kind⟩ := p
  -- The name is introduced last, although the node comes before its parts.
  cases kind with
  | type bounds default =>
      have hids : List.Perm (optionalIds Ty.nodeIds default ++ (boundsNodeIds bounds ++ [node.id]))
          (node.id :: (boundsNodeIds bounds ++ optionalIds Ty.nodeIds default)) := by
        rw [← List.append_assoc]
        exact (List.perm_append_comm.append_right _).trans (List.perm_append_singleton _ _)
      have hready := hready.mono hids.subperm
      refine Agrees.mono ?_ hids.subperm
      exact Agrees.bind hready
        (agrees_optional (fun ty hty => (ty.agrees hbase hty).discard) default hready.left)
        fun _ _ _ hready => Agrees.bind hready (agrees_bounds hbase bounds hready.left)
          fun _ _ _ hready => (agrees_bindNew hready hframes GenericParam.redefinition).hasFrame
            hframes
  | const ty default =>
      have hids : List.Perm (ty.nodeIds ++ (optionalIds Expr.nodeIds default ++ [node.id]))
          (node.id :: (ty.nodeIds ++ optionalIds Expr.nodeIds default)) := by
        rw [← List.append_assoc]
        exact List.perm_append_singleton _ _
      have hready := hready.mono hids.subperm
      refine Agrees.mono ?_ hids.subperm
      exact Agrees.bind hready (ty.agrees hbase hready.left).discard
        fun _ _ _ hready => Agrees.bind hready
          (agrees_optional (fun e he => e.agrees hbase he) default hready.left)
          fun _ _ _ hready => (agrees_bindNew hready hframes GenericParam.redefinition).hasFrame
            hframes
  | lifetime => exact Agrees.pure hready.stands rfl hframes

theorem WherePredicate.agrees (hbase : base.Settled) (p : WherePredicate)
    (hready : Ready base env p.nodeIds s) :
    Agrees base env p.nodeIds s p.resolve (p.read base env) (fun _ => env) fun _ _ _ => True :=
  (Agrees.bind hready.tail (p.ty.agrees hbase hready.tail.left).discard fun _ _ _ hready =>
    agrees_bounds hbase p.bounds hready).skip

theorem Generics.agrees (hbase : base.Settled) (g : Generics)
    (hready : Ready base env g.nodeIds s) (hframes : env.frames ≠ []) :
    Agrees base env g.nodeIds s g.resolve (g.read base env) id HasFrame :=
  Agrees.bind hready
    (agrees_foldlM (fun p _ _ hp hframes => p.agrees hbase hp hframes) g.params hready.left hframes)
    fun _ _ hframes hready => (agrees_optional (fun w hw => agrees_forM
      (fun p _ hp => p.agrees hbase hp) w.predicates hw) g.whereClause hready).mapRead rfl
      fun _ _ _ => hframes

/-! ### Members -/

theorem ConstDecl.agrees (hbase : base.Settled) (c : ConstDecl)
    (hready : Ready base env c.nodeIds s) :
    Agrees base env c.nodeIds s c.resolve (c.read base env) (fun _ => env) fun _ _ _ => True :=
  Agrees.bind hready (c.ty.agrees hbase hready.left).discard fun _ _ _ hready =>
    agrees_optional (fun e he => e.agrees hbase he) c.init hready

theorem AliasDecl.agrees (hbase : base.Settled) (a : AliasDecl) (hvacant : base.Vacant owner)
    (hblank : ∀ id ∈ a.nodeIds, base.Blank id) (hwaits : Waits base env (owner :: a.nodeIds) s) :
    Agrees base env (owner :: a.nodeIds) s (a.resolve owner) (a.read base env owner)
      (fun _ => env) fun _ _ s' => s.Spares a.nodeIds s' := by
  have hready := (hwaits.enter hvacant (List.Subset.refl _)).ready hblank
  exact Agrees.inFrame_spares hwaits.stands hwaits.apart
    (Agrees.bind hready (a.generics.agrees hbase hready.left (List.cons_ne_nil _ _))
      fun _ _ _ hready => (a.ty.agrees hbase hready).discard).spares

theorem agrees_receiver (receiver : Option SelfParam)
    (hready : Ready base env (optionalIds (fun r => [r.node.id]) receiver) s)
    (hframes : env.frames ≠ []) :
    Agrees base env (optionalIds (fun r => [r.node.id]) receiver) s
      (resolveOptional SelfParam.bindName receiver) (readReceiver env receiver) id HasFrame := by
  cases receiver with
  | none => exact Agrees.pure hready.stands rfl hframes
  | some r => exact (agrees_bindNew hready hframes redefinition).hasFrame hframes

theorem Param.agrees (hbase : base.Settled) (p : Param) (hready : Ready base env p.nodeIds s)
    (hframes : env.frames ≠ []) :
    Agrees base env p.nodeIds s p.resolve (p.read base env) id HasFrame := by
  have hready : Ready base env (p.ty.nodeIds ++ p.pattern.nodeIds) s :=
    hready.tail.mono List.perm_append_comm.subperm
  refine Agrees.skip (Agrees.mono ?_ List.perm_append_comm.subperm)
  exact Agrees.bind hready (p.ty.agrees hbase hready.left).discard fun _ _ _ hready =>
    p.pattern.agrees false hready hframes

theorem FunctionDecl.agrees (hbase : base.Settled) (f : FunctionDecl) (hvacant : base.Vacant owner)
    (hblank : ∀ id ∈ f.nodeIds, base.Blank id) (hwaits : Waits base env (owner :: f.nodeIds) s) :
    Agrees base env (owner :: f.nodeIds) s (f.resolve owner) (f.read base env owner)
      (fun _ => env) fun _ _ s' => s.Spares f.nodeIds s' := by
  have hids : List.Perm (f.generics.nodeIds ++ (optionalIds (fun r => [r.node.id]) f.receiver ++
      (f.params.flatMap Param.nodeIds ++ (optionalIds Ty.nodeIds f.ret ++
        optionalIds Block.nodeIds f.body)))) f.nodeIds := by
    simp only [FunctionDecl.nodeIds, List.append_assoc]
    exact List.Perm.refl _
  have hready := ((hwaits.enter hvacant (List.Subset.refl _)).ready hblank).mono hids.subperm
  exact Agrees.inFrame_spares hwaits.stands hwaits.apart
    (Agrees.mono
      (Agrees.bind hready (f.generics.agrees hbase hready.left (List.cons_ne_nil _ _))
        fun _ _ hframes hready =>
          Agrees.bind hready (agrees_receiver f.receiver hready.left hframes)
        fun _ _ hframes hready => Agrees.bind hready (agrees_foldlM
          (fun p _ _ hp hframes => p.agrees hbase hp hframes) f.params hready.left hframes)
        fun _ _ _ hready => Agrees.bind hready
          (agrees_optional (fun ty hty => (ty.agrees hbase hty).discard) f.ret hready.left)
        fun _ _ _ hready => agrees_optional (fun b hb => b.agrees hbase hb) f.body hready)
      hids.subperm).spares

theorem NamedField.agrees (hbase : base.Settled) (f : NamedField)
    (hready : Ready base env f.nodeIds s) :
    Agrees base env f.nodeIds s f.resolve (f.read base env) (fun _ => env) fun _ _ _ => True :=
  (f.ty.agrees hbase hready.tail).discard.skip

theorem TupleField.agrees (hbase : base.Settled) (f : TupleField)
    (hready : Ready base env f.nodeIds s) :
    Agrees base env f.nodeIds s f.resolve (f.read base env) (fun _ => env) fun _ _ _ => True :=
  (f.ty.agrees hbase hready.tail).discard.skip

theorem Variant.agrees (hbase : base.Settled) (v : Variant)
    (hblank : ∀ id ∈ v.bodyIds, base.Blank id) (hwaits : Waits base env v.nodeIds s) :
    Agrees base env v.nodeIds s v.resolve (v.read base env) (fun _ => env)
      fun _ _ s' => s.Spares v.bodyIds s' := by
  have hready : Ready base env v.bodyIds s := hwaits.tail.ready hblank
  refine Agrees.skip ?_
  obtain ⟨node, name, kind⟩ := v
  cases kind with
  | unit => exact Agrees.pure hready.stands rfl fun _ _ hunused => hunused
  | tuple fields => exact (agrees_forM (fun f _ hf => f.agrees hbase hf) fields hready).spares
  | record fields => exact (agrees_forM (fun f _ hf => f.agrees hbase hf) fields hready).spares
  | discriminant value => exact (value.agrees hbase hready).spares

theorem ImplItem.agrees (hbase : base.Settled) (i : ImplItem) (hvacant : base.Vacant i.node.id)
    (hblank : ∀ id ∈ i.bodyIds, base.Blank id) (hwaits : Waits base env i.nodeIds s) :
    Agrees base env i.nodeIds s i.resolve (i.read base env) (fun _ => env)
      fun _ _ s' => s.Spares i.bodyIds s' := by
  obtain ⟨node, vis, kind⟩ := i
  cases kind with
  | function f => exact f.agrees hbase hvacant hblank hwaits
  | const c => exact (c.agrees hbase (hwaits.tail.ready hblank)).spares.skip
  | typeAlias a => exact a.agrees hbase hvacant hblank hwaits

theorem TraitItem.agrees (hbase : base.Settled) (i : TraitItem) (hvacant : base.Vacant i.node.id)
    (hblank : ∀ id ∈ i.bodyIds, base.Blank id) (hwaits : Waits base env i.nodeIds s) :
    Agrees base env i.nodeIds s i.resolve (i.read base env) (fun _ => env)
      fun _ _ s' => s.Spares i.bodyIds s' := by
  obtain ⟨node, kind⟩ := i
  cases kind with
  | function f => exact f.agrees hbase hvacant hblank hwaits
  | const c => exact (c.agrees hbase (hwaits.tail.ready hblank)).spares.skip
  | type t => exact (agrees_bounds hbase t.bounds (hwaits.tail.ready hblank)).spares.skip

theorem ForeignItem.agrees (hbase : base.Settled) (i : ForeignItem)
    (hvacant : base.Vacant i.node.id) (hblank : ∀ id ∈ i.bodyIds, base.Blank id)
    (hwaits : Waits base env i.nodeIds s) :
    Agrees base env i.nodeIds s i.resolve (i.read base env) (fun _ => env)
      fun _ _ s' => s.Spares i.bodyIds s' := by
  obtain ⟨node, vis, kind⟩ := i
  cases kind with
  | function f => exact f.agrees hbase hvacant hblank hwaits
  | static name mutable ty =>
      exact (ty.agrees hbase (hwaits.tail.ready hblank)).discard.spares.skip

end Parts

end NameResolution
