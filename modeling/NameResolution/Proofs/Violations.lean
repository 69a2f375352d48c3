import NameResolution.Proofs.SafeActions
import NameResolution.Proofs.Completion

/-!
# NameResolution.Proofs.Violations

**Which violations a crate can bring about** (`Crate.resolve_violation`). The identities of
a crate need not be distinct here, and those of the built-in types may be among them. Then
a declaration may be given two canonical paths, which ends the resolution; but nothing else
goes wrong than what comes from the identities.

What a path or a type is resolved to has a canonical path (`Path.safe`, `Ty.safe`): it was
declared or is a module, or else it is a built-in type. `Self` is bound to such a node, or
to a trait, which the first pass has given its path (`Item.declare_safe`).
-/

namespace NameResolution

open Resolution

/-! ### The first pass names the traits -/

mutual

/-- Registering an item is safe, and gives a canonical path to every trait that it is or holds. -/
theorem Item.declare_safe {named : NodeId → Prop} (place : Place) : ∀ item : Item,
    Safe named (item.declare place) fun _ s => ∀ id ∈ item.traitIds, s.IsNamed id
  | ⟨node, vis, kind⟩ => by
      cases kind with
      | module name items =>
          refine Safe.bind IsSafe.actions.currentModule fun here => ?_
          have hkind : Safe named ((ItemKind.module name items).declare node vis here place)
              fun _ s => ∀ id ∈ itemsTraitIds items, s.IsNamed id := by
            refine .declareContainer .name node.id name place vis (some here) .module ?_
            intro inner s hs _
            refine Safe.bind (IsSafe.actions.addNested here node.id) (fun _ => ?_) s hs
            intro s hs
            exact .inModule (declareItems_safe (.ofModule inner.path) items _
              (hs.openModule node.id)) fun _ _ h => h
          refine Safe.bind_known hkind fun _ s hs htraits => ?_
          exact (IsSafe.actions.setParent node.id here trivial s hs).weaken
            fun _ s' hcontinues _ id hid => hcontinues.named id (htraits id hid)
      | trait t =>
          refine Safe.bind IsSafe.actions.currentModule fun here => ?_
          have hkind : Safe named ((ItemKind.trait t).declare node vis here place)
              fun _ s => s.IsNamed node.id := by
            refine .declareContainer .type node.id t.name place vis (some here) .trait ?_
            intro inner s hs hid
            have hmembers : IsSafe named (t.items.forM (TraitItem.declare node.id vis inner)) :=
              IsSafe.actions.forM t.items fun i _ =>
                IsSafe.actions.declareMember trivial i.kind.declares.1 i.kind.declares.2 inner vis _
            exact (hmembers s hs).weaken fun _ s' hcontinues _ => hcontinues.named node.id hid
          refine Safe.bind_known hkind fun _ s hs hid => ?_
          refine (IsSafe.actions.setParent node.id here trivial s hs).weaken
            fun _ s' hcontinues _ x hx => ?_
          rw [List.mem_singleton.mp hx]
          exact hcontinues.named node.id hid
      | _ =>
          exact (IsSafe.actions.declareItem place _).weaken
            fun _ _ _ _ hid => absurd hid List.not_mem_nil

theorem declareItems_safe {named : NodeId → Prop} (place : Place) : ∀ items : List Item,
    Safe named (declareItems place items) fun _ s => ∀ id ∈ itemsTraitIds items, s.IsNamed id
  | [] => Safe.pure fun _ _ hid => absurd hid List.not_mem_nil
  | item :: rest => by
      refine Safe.bind_known (item.declare_safe place) fun _ s hs hitem => ?_
      refine (declareItems_safe place rest s hs).weaken fun _ s' hcontinues hrest id hid => ?_
      rcases List.mem_append.mp hid with hid | hid
      · exact hcontinues.named id (hitem id hid)
      · exact hrest id hid

end

/-! ### Paths, types, expressions and blocks -/

section Ends

variable {named : NodeId → Prop}

/-- The receiver is bound, so it has a canonical path. -/
theorem receiver?_safe (w : Walk) (segments : List PathSegment) :
    Safe named (receiver? w segments) fun answer s => s.NamesOnly answer := by
  unfold receiver?
  split
  · split
    · refine Safe.get_bind fun s hs => ?_
      split
      · exact .still (Runs.pure none s) hs.toCovered s.namesOnly_none
      · next seg _ _ _ receiver hfound =>
          obtain ⟨r, hr, b, hb, rfl⟩ := Scope.mem_of_lookup? hfound
          have hid : s.IsNamed b.id := (hs.bound .name r hr b hb).resolve_right List.not_mem_nil
          refine (SafeFrom.bindTo hs.toCovered seg .name b.id w.here).bind
            fun _ s₁ hcontinues hcovered _ => ?_
          refine .still (Runs.pure (some b.id) s₁) hcovered ?_
          rintro _ ⟨⟩
          exact hcontinues.named b.id hid
    · exact Safe.pure Session.namesOnly_none
  · exact Safe.pure Session.namesOnly_none

/-- What a whole path names has been declared in some namespace, so it has a canonical path. -/
theorem recordPath_safe (path decl : NodeId) :
    Safe named (recordPath path decl) fun _ s => s.IsNamed decl := by
  refine Safe.get_bind fun s hs => ?_
  split
  · exact Or.inr ⟨.unclassifiedDeclaration decl, s, rfl, trivial⟩
  · next space hspace =>
      exact (SafeFrom.setResolved hs.toCovered space path decl).weaken
        fun _ s' hcontinues _ => hcontinues.named decl (hs.toCovered.classify hspace)

theorem resolveBuiltin_safe (use : NodeId) {pick : Builtins → NodeId}
    (hpick : ∀ b : Builtins, pick b ∈ b.types) :
    Safe named (resolveBuiltin use pick) fun t s => s.NamesOnly t.decl := by
  refine Safe.get_bind fun s hs => ?_
  refine (SafeFrom.setResolved hs.toCovered .type use _).bind fun _ s₁ hcontinues hcovered _ => ?_
  refine .still (Runs.pure _ s₁) hcovered ?_
  rintro _ ⟨⟩
  exact hcontinues.named _ (hs.builtins _ (hpick s.builtins))

/-- The canonical path that is asked for is there. -/
theorem pathOf_safe {s : Session} {decl : NodeId} (hs : s.Sound named) (hdecl : s.IsNamed decl) :
    SafeFrom s (pathOf decl) fun _ _ => True := by
  obtain ⟨path, hpath⟩ := Option.isSome_iff_exists.mp hdecl
  refine .runs_bind (exec_get s) (.refl s) ?_
  rw [hpath]
  exact .still (Runs.pure path s) hs.toCovered trivial

theorem headPath_safe {s : Session} {t : ResolvedTy} (hs : s.Sound named)
    (ht : s.NamesOnly t.decl) : SafeFrom s t.headPath fun _ _ => True := by
  unfold ResolvedTy.headPath
  split
  · exact .still (Runs.pure _ s) hs.toCovered trivial
  · next decl _ hdecl =>
      rw [map_eq_pure_bind]
      exact (pathOf_safe hs (ht decl hdecl)).bind fun path s₁ _ hcovered _ =>
        .still (Runs.pure _ s₁) hcovered trivial
  · exact .still (Runs.pure _ s) hs.toCovered trivial

end Ends

mutual

/-- What a path is resolved to has a canonical path. -/
theorem Path.safe {named : NodeId → Prop} (prefer : Namespace) : ∀ p : Path,
    Safe named (p.resolve prefer) fun answer s => s.NamesOnly answer
  | ⟨node, segments⟩ => by
      refine Safe.bind IsSafe.actions.currentModule fun here => ?_
      refine Safe.bind IsSafe.actions.rootModule fun root => ?_
      refine Safe.bind_known (receiver?_safe _ segments) fun receiver s hs hreceiver => ?_
      cases receiver with
      | some receiver =>
          refine (SafeFrom.setResolved hs.toCovered .name node.id receiver).bind
            fun _ s₁ hcontinues hcovered _ => ?_
          refine .still (Runs.pure _ s₁) hcovered ?_
          rintro _ ⟨⟩
          exact hcontinues.named receiver (hreceiver receiver rfl)
      | none =>
          refine Safe.bind (walk_safe _ segments _) (fun reached => ?_) s hs
          cases reached with
          | none => exact Safe.pure Session.namesOnly_none
          | some decl =>
              refine Safe.bind_known (recordPath_safe node.id decl) fun _ s hs hdecl => ?_
              refine .still (Runs.pure _ s) hs.toCovered ?_
              rintro _ ⟨⟩
              exact hdecl

theorem walk_safe {named : NodeId → Prop} (w : Walk) :
    ∀ (segments : List PathSegment) (pos : Position), IsSafe named (walk w pos segments)
  | [], pos => Safe.pure fun _ => trivial
  | seg :: rest, pos => by
      refine Safe.bind (seg.follow_safe w pos rest.isEmpty) fun next => ?_
      cases next with
      | none => exact Safe.pure fun _ => trivial
      | some pos => exact walk_safe w rest pos

theorem PathSegment.follow_safe {named : NodeId → Prop} (w : Walk) (pos : Position)
    (isLast : Bool) : ∀ seg : PathSegment, IsSafe named (seg.follow w pos isLast)
  | ⟨_, _, none⟩ => IsSafe.actions.follow w pos isLast _ (by simp)
  | ⟨_, _, some args⟩ => IsSafe.actions.follow w pos isLast _ fun _ h => by
      cases h
      exact args.safe

theorem GenericArgs.safe {named : NodeId → Prop} : ∀ args : GenericArgs, IsSafe named args.resolve
  | ⟨types, _⟩ => tys_safe types

theorem tys_safe {named : NodeId → Prop} : ∀ ts : List Ty, IsSafe named (resolveTys ts)
  | [] => Safe.pure fun _ => trivial
  | t :: ts => IsSafe.actions.bind (IsSafe.actions.discard t.safe.any) fun _ => tys_safe ts

/-- What a type is resolved to has a canonical path. -/
theorem Ty.safe {named : NodeId → Prop} : ∀ t : Ty,
    Safe named t.resolve fun answer s => s.NamesOnly answer.decl
  | .path _ p => by
      refine Safe.bind_known (p.safe .type) fun answer s hs hanswer => ?_
      cases answer with
      | none => exact .still (Runs.pure _ s) hs.toCovered s.namesOnly_none
      | some decl =>
          refine .runs_bind (exec_get s) (.refl s) ?_
          exact .still (Runs.pure _ s) hs.toCovered hanswer
  | .qualified _ p => Safe.bind p.safe fun _ => Safe.pure Session.namesOnly_none
  | .tuple n [] => resolveBuiltin_safe n.id fun b => by simp [Builtins.types]
  | .tuple _ (t :: ts) => Safe.bind (tys_safe (t :: ts)) fun _ => Safe.pure Session.namesOnly_none
  | .array _ elem size => by
      refine Safe.bind_known elem.safe fun answer s hs hanswer => ?_
      refine (size.safe s hs).bind fun _ s₁ hcontinues hcovered _ => ?_
      exact .still (Runs.pure _ s₁) hcovered
        fun decl hdecl => hcontinues.named decl (hanswer decl hdecl)
  | .slice _ elem => Safe.bind_known elem.safe fun _ s hs hanswer =>
      .still (Runs.pure _ s) hs.toCovered hanswer
  | .reference _ _ inner => Safe.bind_known inner.safe fun _ s hs hanswer =>
      .still (Runs.pure _ s) hs.toCovered hanswer
  | .pointer _ _ inner => Safe.bind_known inner.safe fun _ s hs hanswer =>
      .still (Runs.pure _ s) hs.toCovered hanswer
  | .dynOne _ bound => Safe.bind_known bound.safe fun _ s hs hanswer =>
      .still (Runs.pure _ s) hs.toCovered hanswer
  | .dyn _ bounds => Safe.bind (bounds_safe bounds) fun _ => Safe.pure Session.namesOnly_none
  | .fnPointer _ params none =>
      Safe.bind (paramTys_safe params) fun _ => Safe.pure Session.namesOnly_none
  | .fnPointer _ params (some ret) =>
      Safe.bind (paramTys_safe params) fun _ =>
        Safe.bind (IsSafe.actions.discard ret.safe.any) fun _ => Safe.pure Session.namesOnly_none
  | .inferred n => resolveBuiltin_safe n.id fun b => by simp [Builtins.types]
  | .never n => resolveBuiltin_safe n.id fun b => by simp [Builtins.types]

theorem QualifiedPath.safe {named : NodeId → Prop} : ∀ p : QualifiedPath, IsSafe named p.resolve
  | ⟨_, qualifier, associated, rest⟩ => by
      refine Safe.bind qualifier.safe fun head => ?_
      cases head with
      | none => exact Safe.pure fun _ => trivial
      | some head =>
          refine Safe.bind (associated.append_safe head) fun path => ?_
          cases path with
          | none => exact Safe.pure fun _ => trivial
          | some path =>
              refine Safe.bind (appendSegments_safe rest path) fun path => ?_
              cases path with
              | none => exact Safe.pure fun _ => trivial
              | some path =>
                  refine IsSafe.actions.bind (fun s hs => ?_) fun _ => Safe.pure fun _ => trivial
                  exact .updateTables hs.toCovered rfl rfl

theorem Qualifier.safe {named : NodeId → Prop} : ∀ q : Qualifier, IsSafe named q.resolve
  | ⟨_, selfTy, asTrait⟩ => by
      unfold Qualifier.resolve
      refine Safe.bind_known selfTy.safe fun answer s hs hanswer => ?_
      refine (headPath_safe hs hanswer).bind fun selfPath s₁ hcontinues hcovered _ => ?_
      have hs₁ := hcontinues.sound hs hcovered
      cases selfPath with
      | none => exact .still (Runs.pure _ s₁) hcovered trivial
      | some selfPath =>
          cases asTrait with
          | none => exact .still (Runs.pure _ s₁) hcovered trivial
          | some traitPath =>
              refine Safe.bind_known (traitPath.safe .type) (fun decl s hs hdecl => ?_) s₁ hs₁
              cases decl with
              | none => exact .still (Runs.pure _ s) hs.toCovered trivial
              | some decl =>
                  exact (pathOf_safe hs (hdecl decl rfl)).bind fun _ s₂ _ hcovered _ =>
                    .still (Runs.pure _ s₂) hcovered trivial

theorem appendSegments_safe {named : NodeId → Prop} :
    ∀ (segments : List PathSegment) (path : CanonicalPath),
      IsSafe named (appendSegments path segments)
  | [], path => Safe.pure fun _ => trivial
  | seg :: rest, path => by
      refine Safe.bind (seg.append_safe path) fun path => ?_
      cases path with
      | none => exact Safe.pure fun _ => trivial
      | some path => exact appendSegments_safe rest path

theorem PathSegment.append_safe {named : NodeId → Prop} (path : CanonicalPath) :
    ∀ seg : PathSegment, IsSafe named (seg.append path)
  | ⟨_, _, none⟩ => IsSafe.actions.append path _ (by simp)
  | ⟨_, _, some args⟩ => IsSafe.actions.append path _ fun _ h => by
      cases h
      exact args.safe

theorem TraitBound.safe {named : NodeId → Prop} : ∀ b : TraitBound,
    Safe named b.resolve fun answer s => s.NamesOnly answer
  | ⟨_, path⟩ => path.safe .type

theorem Bound.safe {named : NodeId → Prop} : ∀ b : Bound,
    Safe named b.resolve fun answer s => s.NamesOnly answer
  | .trait bound => bound.safe
  | .lifetime _ => Safe.pure Session.namesOnly_none

theorem bounds_safe {named : NodeId → Prop} : ∀ bs : List Bound, IsSafe named (resolveBounds bs)
  | [] => Safe.pure fun _ => trivial
  | b :: bs => IsSafe.actions.bind (IsSafe.actions.discard b.safe.any) fun _ => bounds_safe bs

theorem paramTys_safe {named : NodeId → Prop} : ∀ ps : List FnPointerParam,
    IsSafe named (resolveParamTys ps)
  | [] => Safe.pure fun _ => trivial
  | ⟨_, _, ty⟩ :: ps =>
      IsSafe.actions.bind (IsSafe.actions.discard ty.safe.any) fun _ => paramTys_safe ps

theorem Expr.safe {named : NodeId → Prop} : ∀ e : Expr, IsSafe named e.resolve
  | .literal _ _ => Safe.pure fun _ => trivial
  | .path _ p => IsSafe.actions.discard (p.safe .name).any
  | .unary _ _ operand => operand.safe
  | .binary _ _ lhs rhs => IsSafe.actions.bind lhs.safe fun _ => rhs.safe
  | .call _ callee args => IsSafe.actions.bind callee.safe fun _ => exprs_safe args
  | .cast _ operand ty =>
      IsSafe.actions.bind operand.safe fun _ => IsSafe.actions.discard ty.safe.any
  | .tuple _ elems => exprs_safe elems
  | .group _ inner => inner.safe
  | .block _ body => body.safe

theorem exprs_safe {named : NodeId → Prop} : ∀ es : List Expr, IsSafe named (resolveExprs es)
  | [] => Safe.pure fun _ => trivial
  | e :: es => IsSafe.actions.bind e.safe fun _ => exprs_safe es

theorem Block.safe {named : NodeId → Prop} : ∀ b : Block, IsSafe named b.resolve
  | ⟨node, stmts, none⟩ =>
      IsSafe.actions.inFrame node.id <|
        IsSafe.actions.bind (stmts_safe stmts) fun _ => IsSafe.actions.pure ()
  | ⟨node, stmts, some tail⟩ =>
      IsSafe.actions.inFrame node.id <|
        IsSafe.actions.bind (stmts_safe stmts) fun _ => tail.safe

theorem stmts_safe {named : NodeId → Prop} : ∀ stmts : List Stmt,
    IsSafe named (resolveStmts stmts)
  | [] => Safe.pure fun _ => trivial
  | st :: rest => IsSafe.actions.bind st.safe fun _ => stmts_safe rest

theorem Stmt.safe {named : NodeId → Prop} : ∀ st : Stmt, IsSafe named st.resolve
  | .bind _ pattern none none => IsSafe.actions.pattern true pattern
  | .bind _ pattern (some ty) none =>
      IsSafe.actions.bind (IsSafe.actions.discard ty.safe.any) fun _ =>
        IsSafe.actions.pattern true pattern
  | .bind _ pattern none (some init) =>
      IsSafe.actions.bind init.safe fun _ => IsSafe.actions.pattern true pattern
  | .bind _ pattern (some ty) (some init) =>
      IsSafe.actions.bind (IsSafe.actions.discard ty.safe.any) fun _ =>
        IsSafe.actions.bind init.safe fun _ => IsSafe.actions.pattern true pattern
  | .expr _ value => value.safe
  | .empty _ => Safe.pure fun _ => trivial

end

/-- All that is done inside the items is safe where the traits have their canonical paths. -/
theorem Resolution.IsSafe.rules {named : NodeId → Prop} : PassRules named (@IsSafe named) where
  toSequenceRules := IsSafe.actions.toSequenceRules
  inFrame := IsSafe.actions.inFrame
  inModule := IsSafe.actions.inModule
  bindName := IsSafe.actions.bindName
  pattern := IsSafe.actions.pattern
  path prefer p := (p.safe prefer).any
  ty t := IsSafe.actions.discard t.safe.any
  expr := Expr.safe
  block := Block.safe
  selfType owner t h := Safe.bind_known t.safe fun answer s hs hanswer =>
    (SafeFrom.bindSelf (hs.opened .type) hs.toCovered hanswer owner t.node.span).bind
      fun _ s₁ hcontinues hcovered _ => h s₁ (hcontinues.sound hs hcovered)
  selfTrait owner locus howner := fun s hs =>
    .bindSelf (hs.opened .type) hs.toCovered (fun _ h => by cases h; exact hs.named owner howner)
      owner locus

/-! ### The built-in types -/

/-- Binding primitive types, while a rib is open in the type namespace. -/
theorem bindPrimitives_safe : ∀ (primitives : List (String × NodeId)) {s : Session},
    s.types.opened ≠ [] → s.Covered [] →
    SafeFrom s (primitives.forM fun (name, id) => bindPrimitive name id)
      fun _ s' => ∀ p ∈ primitives, s'.IsNamed p.2
  | [], s, _, hcovered => .still (Runs.pure () s) hcovered nofun
  | (name, id) :: rest, s, hopened, hcovered => by
      have hscope : (s.scope .type).opened ≠ [] := hopened
      obtain ⟨made, s₁, hrun, hcontinues₁, hdue, -⟩ :=
        exists_makeBinding hscope hcovered ⟨.single id name, id, ⟨0, 0⟩⟩ false redefinition
      have hprimitive : SafeFrom s (bindPrimitive name id) fun _ s' => s'.IsNamed id :=
        .runs_bind hrun.discard hcontinues₁ (.setPath hdue _)
      refine hprimitive.bind fun _ s₂ hcontinues₂ hcovered₂ hid => ?_
      have hopened₂ : s₂.types.opened ≠ [] := by
        rw [show s₂.types.opened = s.types.opened from hcontinues₂.sameStacks.opened .type]
        exact hopened
      refine (bindPrimitives_safe rest hopened₂ hcovered₂).weaken
        fun _ s₃ hcontinues₃ hrest p hp => ?_
      rcases List.mem_cons.mp hp with rfl | hp
      · exact hcontinues₃.named id hid
      · exact hrest p hp

/-- Binding the primitive types in the prelude, which is closed again. -/
theorem seedPrelude_safe {s : Session} (hcovered : s.Covered []) :
    SafeFrom s
      (between Session.openPrelude Session.closePrelude do
        s.builtins.primitives.forM fun (name, id) => bindPrimitive name id)
      fun _ s' => ∀ p ∈ s.builtins.primitives, s'.IsNamed p.2 := by
  have hopen : s.openPrelude.Covered [] := by
    refine hcovered.congr (fun space => ?_) (fun space r hr => ?_) rfl
    · cases space <;> rfl
    · cases space with
      | name => exact Or.inl hr
      | type => exact Scope.mem_ribs_push r hr
  refine SafeFrom.between (bindPrimitives_safe s.builtins.primitives (List.cons_ne_nil _ _) hopen)
    fun _ s₁ hcontinues hcovered₁ hnamed => ?_
  have htypes : s₁.types.opened = s.builtins.prelude :: s.types.opened :=
    hcontinues.sameStacks.opened .type
  have hpop : s₁.closePrelude =
      (.ok (), { s₁ with types := { s₁.types with opened := s.types.opened } }) := by
    have hprelude : s₁.builtins.prelude = s.builtins.prelude :=
      congrArg Builtins.prelude hcontinues.builtins
    unfold Session.closePrelude
    rw [hprelude, Scope.pop_cons htypes]
  refine ⟨_, hpop, ⟨⟨hcontinues.sameStacks.modules, fun space => ?_⟩, hcontinues.builtins,
    hcontinues.named⟩, ?_, hnamed⟩
  · cases space with
    | name => exact hcontinues.sameStacks.opened .name
    | type => rfl
  · refine hcovered₁.congr (fun space => ?_) (fun space r hr => ?_) rfl
    · cases space <;> rfl
    · cases space <;> exact Or.inl hr

/-- Before anything is seeded, nothing can be found. -/
theorem Session.covered_start (c : Crate) (settings : Settings) :
    (Session.start c settings).Covered [] where
  declared space id hid := by cases space <;> exact absurd hid List.not_mem_nil
  bound space r hr := by cases space <;> exact absurd hr List.not_mem_nil
  containers id hid := by cases hid

/-- Seeding gives canonical paths to the crate root and to the built-in types, if they do not share
their identities. -/
theorem seed_safe (c : Crate) (settings : Settings) :
    SafeFrom (.start c settings) seed fun _ s => ∀ id ∈ s.builtins.types, s.IsNamed id := by
  have hstart : (Session.start c settings).Covered [c.node.id] :=
    (Session.covered_start c settings).settle fun _ h => absurd h List.not_mem_nil
  have hroot := hstart.withContainer (Or.inr (List.mem_singleton_self c.node.id)) .module
  refine .runs_bind (exec_get _) (.refl _) ?_
  refine .runs_bind (runs_updateTables _ _) (.withTables rfl) ?_
  refine (SafeFrom.setPath hroot _).bind fun _ s₁ hcontinues₁ hcovered₁ _ => ?_
  have hbuiltins : s₁.builtins = (Session.start c settings).builtins := hcontinues₁.builtins
  have hprelude := seedPrelude_safe hcovered₁
  rw [hbuiltins] at hprelude
  refine hprelude.bind fun _ s₂ hcontinues₂ hcovered₂ hprimitives => ?_
  have hdue : ∀ {s : Session} {id : NodeId}, s.Covered [] → s.Covered [id] :=
    fun h => h.settle fun _ hid => absurd hid List.not_mem_nil
  refine (SafeFrom.setPath (hdue hcovered₂) _).bind fun _ s₃ hcontinues₃ hcovered₃ hunit => ?_
  refine (SafeFrom.setPath (hdue hcovered₃) _).bind fun _ s₄ hcontinues₄ hcovered₄ hnever => ?_
  refine (SafeFrom.setPath (hdue hcovered₄) _).weaken fun _ s₅ hcontinues₅ hinferred id hid => ?_
  have hsame : s₅.builtins = (Session.start c settings).builtins := by
    rw [hcontinues₅.builtins, hcontinues₄.builtins, hcontinues₃.builtins, hcontinues₂.builtins,
      hbuiltins]
  rw [hsame] at hid
  rcases List.mem_append.mp hid with hid | hid
  · obtain ⟨p, hp, rfl⟩ := List.mem_map.mp hid
    exact hcontinues₅.named _ (hcontinues₄.named _ (hcontinues₃.named _ (hprimitives p hp)))
  · simp only [List.mem_cons, List.not_mem_nil, or_false] at hid
    rcases hid with rfl | rfl | rfl
    · exact hcontinues₅.named _ (hcontinues₄.named _ hunit)
    · exact hcontinues₅.named _ hnever
    · exact hinferred

/-! ### The whole resolution -/

/-- Inside the crate root something is open in both namespaces. -/
theorem Resolution.SafeFrom.inCrate {named : NodeId → Prop} {act : Resolution Unit}
    {post : Unit → Session → Prop} {s : Session} (hcovered : s.Covered [])
    (hbuiltins : ∀ id ∈ s.builtins.types, s.IsNamed id) (hnamed : ∀ id, named id → s.IsNamed id)
    (h : Safe named act post)
    (hpost : ∀ a s₁, post a s₁ → post a s₁.withoutModule.withoutFrame) :
    SafeFrom s (Resolution.inCrate act) post := by
  have hinside : ((s.openFrame s.builtins.prelude).openModule s.root).Sound named := by
    refine ⟨(hcovered.openFrame _).openModule _, hbuiltins, hnamed, List.cons_ne_nil _ _, ?_⟩
    intro space
    rw [Session.scope_openModule, Scope.opened_push]
    exact List.cons_ne_nil _ _
  have hmodule : SafeFrom (s.openFrame s.builtins.prelude) (Resolution.inModule s.root act)
      fun a s₁ => post a s₁.withoutFrame := .inModule (h _ hinside) hpost
  exact .runs_bind (exec_get s) (.refl s) (.inFrame hmodule fun _ _ h => h)

theorem Resolution.SafeFrom.reports : ∀ (es : List ResolveError) {s : Session}, s.Covered [] →
    SafeFrom s (es.forM Resolution.report) fun _ _ => True
  | [], s, hcovered => .still (Runs.pure () s) hcovered trivial
  | e :: es, _, hcovered => (SafeFrom.report hcovered e).bind fun _ _ _ hcovered _ =>
      SafeFrom.reports es hcovered

/-- A resolution succeeds or ends with a violation that comes from the identities in the tree. -/
theorem Crate.run_safe (c : Crate) (settings : Settings) :
    SafeFrom (.start c settings) (c.run settings) fun _ _ => True := by
  refine (seed_safe c settings).bind fun _ s₁ hcontinues₁ hcovered₁ hbuiltins₁ => ?_
  -- The first pass starts with the built-in types, the second one with the traits as well.
  have hdeclare : SafeFrom s₁ c.declare fun _ s => ∀ id ∈ itemsTraitIds c.items, s.IsNamed id := by
    refine .runs_bind (exec_get s₁) (.refl s₁) ?_
    have hitems : Safe (fun _ => False) (declareItems (.ofModule s₁.rootPath) c.items)
        fun _ s => ∀ id ∈ itemsTraitIds c.items, s.IsNamed id := declareItems_safe _ c.items
    exact .inCrate hcovered₁ hbuiltins₁ (fun _ h => h.elim) hitems fun _ _ h => h
  refine hdeclare.bind fun _ s₂ hcontinues₂ hcovered₂ htraits => ?_
  have hbuiltins₂ : ∀ id ∈ s₂.builtins.types, s₂.IsNamed id := by
    intro id hid
    rw [hcontinues₂.builtins] at hid
    exact hcontinues₂.named id (hbuiltins₁ id hid)
  have hresolve : SafeFrom s₂ c.resolveItems fun _ _ => True := by
    have hitems : IsSafe (· ∈ itemsTraitIds c.items) (NameResolution.resolveItems c.items) :=
      IsSafe.rules.items c.items fun _ h => h
    exact .inCrate hcovered₂ hbuiltins₂ htraits hitems fun _ _ h => h
  refine hresolve.bind fun _ s₃ hcontinues₃ hcovered₃ _ => ?_
  have hclosed : s₃.modules = .empty :=
    ((hcontinues₁.trans hcontinues₂).trans hcontinues₃).sameStacks.modules
  by_cases hprivacy : settings.checkPrivacy = true
  · rw [if_pos hprivacy]
    have hreports : SafeFrom s₃ reportPrivateUses fun _ _ => True :=
      .runs_bind (exec_get s₃) (.refl s₃) (.reports _ hcovered₃)
    refine hreports.bind fun _ s₄ hcontinues₄ hcovered₄ _ => ?_
    exact .still (runs_expectNoModule (hcontinues₄.sameStacks.modules.trans hclosed))
      hcovered₄ trivial
  · rw [if_neg hprivacy]
    exact .still (runs_expectNoModule hclosed) hcovered₃ trivial

/-- A crate that cannot be resolved, whatever its tree looks like, has given two canonical paths to
one identity or has a path that leads to an identity in neither namespace. -/
theorem Crate.resolve_violation {c : Crate} {settings : Settings} {v : Violation}
    (h : c.resolve settings = .error v) :
    (∃ id existing new, v = .canonicalPathConflict id existing new) ∨
      ∃ id, v = .unclassifiedDeclaration id := by
  have hout : ((c.run settings).exec (.start c settings)).1 = .error v := by
    unfold Crate.resolve at h
    rcases hexec : (c.run settings).exec (.start c settings) with ⟨_ | _, s⟩ <;> rw [hexec] at h
    · cases h
      rfl
    · cases h
  rcases c.run_safe settings with ⟨_, s, hrun, -⟩ | ⟨v', s, herror, hv⟩
  · unfold Runs at hrun
    rw [hrun] at hout
    cases hout
  · rw [herror] at hout
    cases hout
    cases v with
    | canonicalPathConflict id existing new => exact Or.inl ⟨id, existing, new, rfl⟩
    | unclassifiedDeclaration id => exact Or.inr ⟨id, rfl⟩
    | _ => exact hv.elim

/-- Two functions that share their identity. -/
def Crate.withSharedIdentity : Crate where
  node := ⟨⟨0⟩, ⟨0, 30⟩⟩
  items :=
    let function (id offset : Nat) (name : String) : Item :=
      ⟨⟨⟨id⟩, ⟨offset, 10⟩⟩, .ownModule,
        .function ⟨⟨name, ⟨offset + 3, 1⟩⟩, .none, none, [], none, none⟩⟩
    [function 1 0 "f", function 1 12 "g"]
  idBound := ⟨2⟩

theorem Crate.resolve_violation_withSharedIdentity :
    withSharedIdentity.resolve {} = .error (.canonicalPathConflict ⟨1⟩ "f" "g") ∧
      ((∃ id existing new, Violation.canonicalPathConflict ⟨1⟩ "f" "g" =
          .canonicalPathConflict id existing new) ∨
        ∃ id, Violation.canonicalPathConflict ⟨1⟩ "f" "g" = .unclassifiedDeclaration id) := by
  have h : withSharedIdentity.resolve {} = .error (.canonicalPathConflict ⟨1⟩ "f" "g") := by
    decide +kernel
  exact ⟨h, resolve_violation h⟩

end NameResolution
