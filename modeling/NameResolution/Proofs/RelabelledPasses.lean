import NameResolution.Proofs.CoupledPasses
import NameResolution.Proofs.DeclarationPass
import NameResolution.Proofs.RelabelledActions

/-!
# NameResolution.Proofs.RelabelledPasses

**Both passes over a relabelled crate do what they do over the crate itself**
(`Relabelling.crate_declare`, `Relabelling.crate_resolveItems`), and so does seeding
(`Relabelling.seed`). There is one induction over the tree for each pass, with one case for
each form. Where a pass reads the written form of a tree (`Ty.headerPath_relabel`,
`CanonicalPath.specialise_relabel`), a relabelling does not show in it.
-/

namespace NameResolution

open Resolution

variable {ρ : Relabelling}

/-! ## Headers of implementations -/

/-- Reading the parts of a list one after the other commutes with what becomes of the parts, of
what is read and of what is wrong. -/
theorem List.mapM_mapError {α α' β β' ε ε' : Type} {f : α → Except ε β} {f' : α' → Except ε' β'}
    {g : α → α'} {k : β → β'} {e : ε → ε'} (h : ∀ a, f' (g a) = ((f a).map k).mapError e) :
    ∀ l : List α, (l.map g).mapM f' = ((l.mapM f).map (List.map k)).mapError e
  | [] => rfl
  | a :: l => by
      rw [List.map_cons, List.mapM_cons, List.mapM_cons, h, mapM_mapError h l]
      cases f a with
      | error err => rfl
      | ok b => cases l.mapM f <;> rfl

theorem Path.headerPath_relabel (withArgs : Bool) (p : Path) :
    (p.relabel ρ).headerPath withArgs =
      ((p.headerPath withArgs).map (CanonicalPath.relabel ρ)).mapError (PathSegment.relabel ρ) := by
  obtain ⟨node, segments⟩ := p
  unfold Path.headerPath
  simp only [Path.relabel, relabelSegments_eq_map]
  rw [List.mapM_mapError (k := Prod.map ρ.node id) (e := PathSegment.relabel ρ)
    (f := fun s : PathSegment => if s.ident = .malformed then .error s
      else .ok (s.node.id, s.canonicalText withArgs))]
  · cases segments.mapM fun s : PathSegment => if s.ident = .malformed then Except.error s
      else .ok (s.node.id, s.canonicalText withArgs) <;> rfl
  · intro s
    rw [PathSegment.ident_relabel, PathSegment.node_relabel, PathSegment.canonicalText_relabel]
    split <;> rfl

/-- A type that enters a canonical path as one segment in its written form. -/
theorem Ty.header_relabel (t : Ty) :
    (Except.ok (.single (t.relabel ρ).node.id (t.relabel ρ).text) :
        Except PathSegment CanonicalPath) =
      ((Except.ok (.single t.node.id t.text)).map (CanonicalPath.relabel ρ)).mapError
        (PathSegment.relabel ρ) := by
  rw [Ty.text_relabel, Ty.node_relabel]
  rfl

/-- What stands around the header of a type does not change. -/
theorem Ty.header_wrapped (id : NodeId) (wrap : String → String)
    (header : Except PathSegment CanonicalPath) :
    ((header.map (CanonicalPath.relabel ρ)).mapError (PathSegment.relabel ρ)).map
        (fun p => CanonicalPath.single (ρ.node id) (wrap p.text)) =
      ((header.map fun p => .single id (wrap p.text)).map (CanonicalPath.relabel ρ)).mapError
        (PathSegment.relabel ρ) := by
  cases header with
  | error malformed => rfl
  | ok p => simp only [Except.map, Except.mapError, CanonicalPath.text_relabel,
      CanonicalPath.relabel_single]

/-- The header of a type is read as before, and what is wrong with it is wrong at the same
segment. -/
theorem Ty.headerPath_relabel (withArgs : Bool) : ∀ t : Ty,
    (t.relabel ρ).headerPath withArgs =
      ((t.headerPath withArgs).map (CanonicalPath.relabel ρ)).mapError (PathSegment.relabel ρ)
  | .path _ p => p.headerPath_relabel withArgs
  | .reference n _ inner => by
      simp only [Ty.relabel, Ty.headerPath, inner.headerPath_relabel withArgs]
      exact Ty.header_wrapped n.id _ _
  | .pointer n _ inner => by
      simp only [Ty.relabel, Ty.headerPath, inner.headerPath_relabel withArgs]
      exact Ty.header_wrapped n.id _ _
  | .slice n elem => by
      simp only [Ty.relabel, Ty.headerPath, elem.headerPath_relabel withArgs]
      exact Ty.header_wrapped n.id (fun p => "[" ++ p ++ "]") _
  | .qualified n p => (Ty.qualified n p).header_relabel
  | .tuple n elems => (Ty.tuple n elems).header_relabel
  | .array n elem size => (Ty.array n elem size).header_relabel
  | .dynOne n bound => (Ty.dynOne n bound).header_relabel
  | .dyn n bounds => (Ty.dyn n bounds).header_relabel
  | .fnPointer n params none => (Ty.fnPointer n params none).header_relabel
  | .fnPointer n params (some ret) => (Ty.fnPointer n params (some ret)).header_relabel
  | .inferred _ => rfl
  | .never _ => rfl

theorem TraitImpl.projection_relabel (id : NodeId) (i : TraitImpl) :
    (i.relabel ρ).projection (ρ.node id) =
      ((i.projection id).map (CanonicalPath.relabel ρ)).mapError (PathSegment.relabel ρ) := by
  unfold TraitImpl.projection
  simp only [TraitImpl.relabel, Generics.isEmpty_relabel, Ty.headerPath_relabel,
    Path.headerPath_relabel]
  cases i.selfTy.headerPath i.generics.isEmpty with
  | error malformed => rfl
  | ok selfTy =>
      cases i.traitPath.headerPath i.generics.isEmpty with
      | error malformed => rfl
      | ok traitPath =>
          exact congrArg Except.ok (CanonicalPath.projection_relabel ρ id traitPath selfTy)

/-! ## The first pass -/

namespace Relabelling

section Declarations

variable (hρ : Function.Injective ρ.node)

include hρ

omit hρ in
theorem setParent (id module : NodeId) :
    SameAnswer ρ (setParent id module) (NameResolution.setParent (ρ.node id) (ρ.node module)) :=
  updateTables fun _ => rfl

omit hρ in
theorem placeInModule (id : NodeId) :
    SameAnswer ρ (placeInModule id) (NameResolution.placeInModule (ρ.node id)) :=
  currentModule.andThen fun here => setParent id here

omit hρ in
theorem markContainer (id : NodeId) (kind : ContainerKind) :
    SameAnswer ρ (markContainer id kind) (NameResolution.markContainer (ρ.node id) kind) :=
  updateTables fun _ => rfl

/-- A declaration has the image of its visibility, and nothing else depends on it. -/
theorem declare (space : Namespace) (id : NodeId) (name : Ident) (place : Place) (vis : Visibility)
    (container : Option NodeId) :
    Carried ρ (Place.relabel ρ) (declare space id name place vis container)
      (NameResolution.declare space (ρ.node id) name (place.relabel ρ) (ρ.vis vis)
        (container.map ρ.node)) := by
  unfold NameResolution.declare
  rw [← CanonicalPath.relabel_single, ← Place.relabel_extend]
  generalize place.extend (.single id name.name) = inner
  have hdescribe : Carried ρ (Place.relabel ρ)
      (do
        let here ← Resolution.currentModule
        Resolution.updateTables fun t =>
          { t with visibilities := t.visibilities.set id ⟨vis, here, name.span⟩ }
        Resolution.setPath id inner.path
        return inner)
      (do
        let here ← Resolution.currentModule
        Resolution.updateTables fun t =>
          { t with visibilities := t.visibilities.set (ρ.node id) ⟨ρ.vis vis, here, name.span⟩ }
        Resolution.setPath (ρ.node id) (inner.relabel ρ).path
        return inner.relabel ρ) := by
    refine currentModule.andThen fun here => ?_
    refine InStep.bind_eq (updateTables fun _ => rfl) fun _ => ?_
    exact (setPath hρ id inner.path).bind_eq fun _ => .pure rfl
  refine (bindNew hρ space ⟨inner.key, id, name.span⟩).bind_eq fun made => ?_
  cases made with
  | false => exact hdescribe
  | true =>
      cases container with
      | none => exact hdescribe
      | some parent =>
          refine InStep.bind_eq (updateTables fun t => ?_) fun _ => hdescribe
          exact t.addChild_relabel hρ parent ⟨name.name, id⟩

/-- A variant, a trait item or an implementation item. -/
theorem declareMember (space : Namespace) (id : NodeId) (name : Ident) (place : Place)
    (vis : Visibility) (container : Option NodeId) :
    SameAnswer ρ
      (do
        Functor.discard (NameResolution.declare space id name place vis container)
        NameResolution.placeInModule id)
      (do
        Functor.discard (NameResolution.declare space (ρ.node id) name (place.relabel ρ)
          (ρ.vis vis) (container.map ρ.node))
        NameResolution.placeInModule (ρ.node id)) :=
  (declare hρ space id name place vis container).discard.bind_eq fun _ => placeInModule id

theorem implItem_declare (place : Place) (i : ImplItem) :
    SameAnswer ρ (i.declare place) ((i.relabel ρ).declare (place.relabel ρ)) := by
  obtain ⟨node, vis, kind⟩ := i
  cases kind <;> exact declareMember hρ _ node.id _ place vis none

theorem traitItem_declare (owner : NodeId) (vis : Visibility) (place : Place) (i : TraitItem) :
    SameAnswer ρ (i.declare owner vis place)
      ((i.relabel ρ).declare (ρ.node owner) (ρ.vis vis) (place.relabel ρ)) := by
  obtain ⟨node, kind⟩ := i
  cases kind <;> exact declareMember hρ _ node.id _ place vis (some owner)

theorem foreignItem_declare (place : Place) (i : ForeignItem) :
    SameAnswer ρ (i.declare place) ((i.relabel ρ).declare (place.relabel ρ)) := by
  obtain ⟨node, vis, kind⟩ := i
  have hname : (kind.relabel ρ).name = kind.name := by cases kind <;> rfl
  unfold ForeignItem.declare
  simp only [ForeignItem.relabel, hname, Node.id_relabel]
  refine currentModule.andThen fun here => ?_
  exact (declare hρ .name node.id kind.name place vis (some here)).discard.bind_eq fun _ =>
    setParent node.id here

theorem inherentImpl_declare (id : NodeId) (place : Place) (i : InherentImpl) :
    SameAnswer ρ (i.declare id place) ((i.relabel ρ).declare (ρ.node id) (place.relabel ρ)) := by
  unfold InherentImpl.declare
  simp only [InherentImpl.relabel, Generics.isEmpty_relabel, Ty.headerPath_relabel]
  cases i.selfTy.headerPath i.generics.isEmpty with
  | error malformed =>
      simp only [Except.map, Except.mapError, unreadable_relabel]
      exact report _
  | ok selfTy =>
      simp only [Except.map, Except.mapError, ← Place.relabel_extend]
      exact (setPath hρ id _).bind_eq fun _ =>
        .forM_map fun item _ => implItem_declare hρ _ item

theorem traitImpl_declare (node : Node) (place : Place) (i : TraitImpl) :
    SameAnswer ρ (i.declare node place)
      ((i.relabel ρ).declare (node.relabel ρ) (place.relabel ρ)) := by
  rw [i.declare_eq node.id, (i.relabel ρ).declare_eq (ρ.node node.id)]
  simp only [Node.id_relabel, i.projection_relabel]
  cases i.projection node.id with
  | error malformed =>
      simp only [Except.map, Except.mapError, unreadable_relabel]
      exact report _
  | ok projection =>
      have hattempt : ((place.relabel ρ).projectionAttempt (ρ.node node.id) (node.relabel ρ)
          (projection.relabel ρ)).binding =
          (place.projectionAttempt node.id node projection).binding.relabel ρ := by
        simp only [Place.projectionAttempt, Attempt.binding, Binding.relabel,
          CanonicalPath.relabel_append]
        rfl
      simp only [Except.map, Except.mapError, hattempt]
      refine (bindNew hρ .name _).bind_eq fun made => ?_
      cases made with
      | false => exact .pure rfl
      | true =>
          simp only [if_true]
          have hpath := setPath hρ node.id (place.path ++ projection)
          rw [CanonicalPath.relabel_append] at hpath
          refine hpath.bind_eq fun _ => ?_
          rw [← Place.relabel_extend]
          exact .forM_map fun item _ => implItem_declare hρ _ item

theorem leaf (space : Namespace) (node : Node) (vis : Visibility) (here : NodeId) (place : Place)
    (name : Ident) :
    SameAnswer ρ (declareLeaf space node vis here place name)
      (declareLeaf space (node.relabel ρ) (ρ.vis vis) (ρ.node here) (place.relabel ρ) name) :=
  (declare hρ space node.id name place vis (some here)).discard

/-- A declaration that holds others, which are declared under its own place. -/
theorem container {next next' : Place → Resolution Unit} (space : Namespace) (id : NodeId)
    (name : Ident) (place : Place) (vis : Visibility) (here : NodeId) (kind : ContainerKind)
    (h : ∀ inner, SameAnswer ρ (next inner) (next' (inner.relabel ρ))) :
    SameAnswer ρ
      (NameResolution.declare space id name place vis (some here) >>= fun inner =>
        NameResolution.markContainer id kind >>= fun _ => next inner)
      (NameResolution.declare space (ρ.node id) name (place.relabel ρ) (ρ.vis vis)
          (some (ρ.node here)) >>= fun inner =>
        NameResolution.markContainer (ρ.node id) kind >>= fun _ => next' inner) :=
  (declare hρ space id name place vis (some here)).andThen fun inner =>
    (markContainer id kind).bind_eq fun _ => h inner

end Declarations

mutual

theorem item_declare (hρ : Function.Injective ρ.node) (place : Place) : ∀ item : Item,
    SameAnswer ρ (item.declare place) ((item.relabel ρ).declare (place.relabel ρ))
  | ⟨node, vis, kind⟩ =>
      currentModule.andThen fun here =>
        (kind_declare hρ node vis here place kind).bind_eq fun _ => setParent node.id here

theorem kind_declare (hρ : Function.Injective ρ.node) (node : Node) (vis : Visibility)
    (here : NodeId) (place : Place) : ∀ kind : ItemKind,
      SameAnswer ρ (kind.declare node vis here place)
        ((kind.relabel ρ).declare (node.relabel ρ) (ρ.vis vis) (ρ.node here) (place.relabel ρ))
  | .module name items =>
      container hρ .name node.id name place vis here .module fun inner =>
        InStep.bind_eq (updateTables fun t => by
          simp only [Tables.addNested, Tables.relabel, List.map_append, List.map_cons,
            List.map_nil, Prod.map_apply, Node.id_relabel]) fun _ =>
          inModule hρ node.id (items_declare hρ (.ofModule inner.path) items)
  | .enum e =>
      container hρ .type node.id e.name place vis here .enum fun inner =>
        .forM_map fun v _ => declareMember hρ .type v.node.id v.name inner vis (some node.id)
  | .trait t =>
      container hρ .type node.id t.name place vis here .trait fun inner =>
        .forM_map fun i _ => traitItem_declare hρ node.id vis inner i
  | .typeAlias a => leaf hρ .type node vis here place a.name
  | .struct s => leaf hρ .type node vis here place s.name
  | .tupleStruct s => leaf hρ .type node vis here place s.name
  | .union u => leaf hρ .type node vis here place u.name
  | .static s => leaf hρ .name node vis here place s.name
  | .const c => leaf hρ .name node vis here place c.name
  | .function f => leaf hρ .name node vis here place f.name
  | .inherentImpl i => inherentImpl_declare hρ node.id place i
  | .traitImpl i => traitImpl_declare hρ node place i
  | .foreign _ => .forM_map fun i _ => foreignItem_declare hρ place i

theorem items_declare (hρ : Function.Injective ρ.node) (place : Place) : ∀ items : List Item,
    SameAnswer ρ (declareItems place items) (declareItems (place.relabel ρ) (relabelItems ρ items))
  | [] => .pure rfl
  | item :: rest => (item_declare hρ place item).bind_eq fun _ => items_declare hρ place rest

end

/-- **The first pass over a relabelled crate does what it does over the crate.** -/
theorem crate_declare (hρ : Function.Injective ρ.node) (c : Crate) (bound : NodeId) :
    SameAnswer ρ c.declare (c.relabel ρ bound).declare :=
  .relabelled fun s => inCrate hρ (items_declare hρ (.ofModule s.rootPath) c.items)

end Relabelling

/-! ## The second pass -/

theorem ResolvedTy.wrapped_relabel (t : ResolvedTy) (id : NodeId) (wrap : String → String) :
    (t.wrapped id wrap).relabel ρ = (t.relabel ρ).wrapped (ρ.node id) wrap := by
  simp only [wrapped, relabel, Option.map_map, Function.comp_def, CanonicalPath.relabel_single,
    CanonicalPath.text_relabel]

theorem CanonicalPath.specialise_relabel (p : CanonicalPath) (last : Option PathSegment) :
    (p.relabel ρ).specialise (last.map (PathSegment.relabel ρ)) =
      (p.specialise last).relabel ρ := by
  cases last with
  | none => rfl
  | some seg =>
      simp only [Option.map_some, specialise, PathSegment.hasArgs_relabel, apply_ite (relabel ρ)]
      split
      · refine mapLast_relabel ρ (fun x => ?_) p
        simp only [Prod.map, id, PathSegment.node_relabel, Node.id_relabel,
          PathSegment.canonicalArgs_relabel]
      · rfl

namespace Relabelling

section Ends

variable (hρ : Function.Injective ρ.node)

include hρ

theorem resolveBuiltin (use : NodeId) {pick : Builtins → NodeId}
    (hpick : ∀ b : Builtins, pick (b.relabel ρ) = ρ.node (pick b)) :
    Carried ρ (ResolvedTy.relabel ρ) (resolveBuiltin use pick)
      (NameResolution.resolveBuiltin (ρ.node use) pick) := by
  refine .relabelled fun s => ?_
  have hbuiltin : pick (s.relabel ρ).builtins = ρ.node (pick s.builtins) := hpick s.builtins
  have hpath : (s.relabel ρ).tables.paths.get? (ρ.node (pick s.builtins)) =
      (s.tables.paths.get? (pick s.builtins)).map (CanonicalPath.relabel ρ) :=
    s.tables.get?_paths_relabel hρ _
  simp only [hbuiltin, hpath]
  exact (record .type use _).bind_eq fun _ => .pure rfl

theorem headPath (t : ResolvedTy) :
    Carried ρ (Option.map (CanonicalPath.relabel ρ)) t.headPath (t.relabel ρ).headPath := by
  obtain ⟨decl, path⟩ := t
  cases path with
  | some path => exact .pure rfl
  | none =>
      cases decl with
      | none => exact .pure rfl
      | some decl => exact (pathOf hρ decl).map fun _ _ h => congrArg some h

/-- A name that was bound gets its canonical path. -/
theorem bindName (space : Namespace) (b : Binding) (shadow : Bool)
    {complaint : Binding → Binding → ResolveError}
    (hcomplaint : ∀ b earlier : Binding,
      complaint (b.relabel ρ) (earlier.relabel ρ) = complaint b earlier) (path : CanonicalPath) :
    SameAnswer ρ
      (Resolution.makeBinding space b shadow complaint >>= fun made =>
        if made then Resolution.setPath b.id path else Pure.pure ())
      (Resolution.makeBinding space (b.relabel ρ) shadow complaint >>= fun made =>
        if made then Resolution.setPath (ρ.node b.id) (path.relabel ρ) else Pure.pure ()) := by
  refine (makeBinding hρ space b shadow hcomplaint).bind_eq fun made => ?_
  cases made with
  | true => exact setPath hρ b.id path
  | false => exact .pure rfl

omit hρ in
theorem redefinition_relabel (b earlier : Binding) :
    redefinition (b.relabel ρ) (earlier.relabel ρ) = redefinition b earlier := by
  simp only [redefinition, Binding.relabel, CanonicalPath.text_relabel]

end Ends

/-! ### Patterns -/

mutual

theorem pattern (hρ : Function.Injective ρ.node) (shadow : Bool) : ∀ p : Pattern,
    SameAnswer ρ (p.bindNames shadow) ((p.relabel ρ).bindNames shadow)
  | .binding node name _ =>
      bindName hρ .name ⟨.single node.id name.name, node.id, name.span⟩ shadow redefinition_relabel
        (.single node.id name.name)
  | .tuple _ elems => patterns hρ shadow elems
  | .wildcard _ => .pure rfl

theorem patterns (hρ : Function.Injective ρ.node) (shadow : Bool) : ∀ ps : List Pattern,
    SameAnswer ρ (bindPatterns shadow ps) (bindPatterns shadow (relabelPatterns ρ ps))
  | [] => .pure rfl
  | p :: ps => (pattern hρ shadow p).bind_eq fun _ => patterns hρ shadow ps

end

/-! ### Paths, types and expressions -/

mutual

theorem path (hρ : Function.Injective ρ.node) (prefer : Namespace) : ∀ p : Path,
    Carried ρ (Option.map ρ.node) (p.resolve prefer) ((p.relabel ρ).resolve prefer)
  | ⟨node, segments⟩ => by
      unfold Path.relabel Path.resolve
      simp only [length_relabelSegments]
      refine currentModule.andThen fun here => rootModule.andThen fun root => ?_
      refine (receiver? hρ ⟨here, root, prefer, segments.length == 1⟩ segments).andThen
        fun receiver => ?_
      cases receiver with
      | some receiver => exact (record .name node.id receiver).bind_eq fun _ => .pure rfl
      | none =>
          refine (walk hρ ⟨here, root, prefer, segments.length == 1⟩ segments ⟨here, none⟩).andThen
            fun reached => ?_
          cases reached with
          | none => exact .pure rfl
          | some decl => exact (recordPath hρ node.id decl).bind_eq fun _ => .pure rfl

theorem walk (hρ : Function.Injective ρ.node) (w : Walk) :
    ∀ (segments : List PathSegment) (pos : Position),
      Carried ρ (Option.map ρ.node) (walk w pos segments)
        (NameResolution.walk (w.relabel ρ) (pos.relabel ρ) (relabelSegments ρ segments))
  | [], _ => .pure rfl
  | seg :: rest, pos => by
      unfold relabelSegments NameResolution.walk
      rw [isEmpty_relabelSegments]
      refine (segment hρ w pos rest.isEmpty seg).andThen fun next => ?_
      cases next with
      | none => exact .pure rfl
      | some pos => exact walk hρ w rest pos

theorem segment (hρ : Function.Injective ρ.node) (w : Walk) (pos : Position) (isLast : Bool) :
    ∀ seg : PathSegment,
      Carried ρ (Option.map (Position.relabel ρ)) (seg.follow w pos isLast)
        ((seg.relabel ρ).follow (w.relabel ρ) (pos.relabel ρ) isLast)
  | ⟨_, .malformed, none⟩ => stopWith _ _
  | ⟨node, .malformed, some args⟩ => by
      have herror := unreadable_relabel (ρ := ρ) ⟨node, .malformed, some args⟩
      unfold PathSegment.relabel PathSegment.follow
      unfold PathSegment.relabel at herror
      simp only [herror]
      exact stopWith _ _
  | ⟨node, .crate, none⟩ =>
      unlessDeferred hρ pos (followFirst hρ w pos ⟨node, .crate, none⟩ w.root)
  | ⟨node, .crate, some args⟩ =>
      unlessDeferred hρ pos (followFirst hρ w pos ⟨node, .crate, some args⟩ w.root)
  | ⟨node, .selfModule, none⟩ =>
      unlessDeferred hρ pos (followFirst hρ w pos ⟨node, .selfModule, none⟩ w.here)
  | ⟨node, .selfModule, some args⟩ =>
      unlessDeferred hρ pos (followFirst hρ w pos ⟨node, .selfModule, some args⟩ w.here)
  | ⟨node, .super, none⟩ => unlessDeferred hρ pos (followSuper hρ w pos ⟨node, .super, none⟩)
  | ⟨node, .super, some args⟩ =>
      unlessDeferred hρ pos (followSuper hρ w pos ⟨node, .super, some args⟩)
  | ⟨node, .ident name, none⟩ =>
      unlessDeferred hρ pos (followName hρ w pos ⟨node, .ident name, none⟩ name isLast)
  | ⟨node, .ident name, some args⟩ =>
      unlessDeferred hρ pos <|
        (genericArgs hρ args).bind_eq fun _ =>
          followName hρ w pos ⟨node, .ident name, some args⟩ name isLast

theorem genericArgs (hρ : Function.Injective ρ.node) : ∀ args : GenericArgs,
    SameAnswer ρ args.resolve (args.relabel ρ).resolve
  | ⟨types, _⟩ => tys hρ types

theorem tys (hρ : Function.Injective ρ.node) : ∀ ts : List Ty,
    SameAnswer ρ (resolveTys ts) (resolveTys (relabelTys ρ ts))
  | [] => .pure rfl
  | t :: ts => (ty hρ t).discard.bind_eq fun _ => tys hρ ts

theorem ty (hρ : Function.Injective ρ.node) : ∀ t : Ty,
    Carried ρ (ResolvedTy.relabel ρ) t.resolve (t.relabel ρ).resolve
  | .path _ p => by
      refine (path hρ .type p).andThen fun decl => ?_
      cases decl with
      | none => exact .pure rfl
      | some decl =>
          refine .relabelled fun s => .pure ?_
          have hpath : (s.relabel ρ).tables.paths.get? (ρ.node decl) =
              (s.tables.paths.get? decl).map (CanonicalPath.relabel ρ) :=
            s.tables.get?_paths_relabel hρ decl
          rw [hpath, p.segments_relabel, List.getLast?_map]
          simp only [ResolvedTy.relabel, Option.map_some, Option.map_map, Function.comp_def,
            CanonicalPath.specialise_relabel]
  | .qualified _ p => (qualified hρ p).andThen fun path => .pure rfl
  | .tuple n [] => resolveBuiltin hρ n.id fun _ => rfl
  | .tuple _ (t :: ts) => (tys hρ (t :: ts)).bind_eq fun _ => .pure rfl
  | .array _ elem size =>
      (ty hρ elem).andThen fun elem => (expr hρ size).bind_eq fun _ => .pure rfl
  | .slice n elem => (ty hρ elem).andThen fun elem => .pure (elem.wrapped_relabel n.id _)
  | .reference n _ inner => (ty hρ inner).andThen fun inner => .pure (inner.wrapped_relabel n.id _)
  | .pointer n _ inner => (ty hρ inner).andThen fun inner => .pure (inner.wrapped_relabel n.id _)
  | .dynOne _ bound => (traitBound hρ bound).andThen fun decl => .pure rfl
  | .dyn _ bounds => (bounds_resolve hρ bounds).bind_eq fun _ => .pure rfl
  | .fnPointer _ params none => (paramTys hρ params).bind_eq fun _ => .pure rfl
  | .fnPointer _ params (some ret) =>
      (paramTys hρ params).bind_eq fun _ => (ty hρ ret).discard.bind_eq fun _ => .pure rfl
  | .inferred n => resolveBuiltin hρ n.id fun _ => rfl
  | .never n => resolveBuiltin hρ n.id fun _ => rfl

theorem qualified (hρ : Function.Injective ρ.node) : ∀ p : QualifiedPath,
    Carried ρ (Option.map (CanonicalPath.relabel ρ)) p.resolve (p.relabel ρ).resolve
  | ⟨node, head, associated, rest⟩ => by
      refine (qualifier hρ head).andThen fun head => ?_
      cases head with
      | none => exact .pure rfl
      | some head =>
          refine (appended hρ associated head).andThen fun path => ?_
          cases path with
          | none => exact .pure rfl
          | some path =>
              refine (appendSegments hρ rest path).andThen fun full => ?_
              cases full with
              | none => exact .pure rfl
              | some full => exact InStep.bind_eq (updateTables fun _ => rfl) fun _ => .pure rfl

theorem qualifier (hρ : Function.Injective ρ.node) : ∀ q : Qualifier,
    Carried ρ (Option.map (CanonicalPath.relabel ρ)) q.resolve (q.relabel ρ).resolve
  | ⟨node, selfTy, none⟩ => by
      refine (ty hρ selfTy).andThen fun t => (headPath hρ t).andThen fun selfPath => ?_
      cases selfPath <;> exact .pure rfl
  | ⟨node, selfTy, some traitPath⟩ => by
      refine (ty hρ selfTy).andThen fun t => (headPath hρ t).andThen fun selfPath => ?_
      cases selfPath with
      | none => exact .pure rfl
      | some selfPath =>
          refine (path hρ .type traitPath).andThen fun decl => ?_
          cases decl with
          | none => exact .pure rfl
          | some decl =>
              refine (pathOf hρ decl).andThen fun path => .pure ?_
              exact congrArg some (CanonicalPath.projection_relabel ρ node.id path selfPath).symm

theorem appendSegments (hρ : Function.Injective ρ.node) :
    ∀ (segments : List PathSegment) (path : CanonicalPath),
      Carried ρ (Option.map (CanonicalPath.relabel ρ)) (appendSegments path segments)
        (NameResolution.appendSegments (path.relabel ρ) (relabelSegments ρ segments))
  | [], _ => .pure rfl
  | seg :: rest, path => by
      refine (appended hρ seg path).andThen fun next => ?_
      cases next with
      | none => exact .pure rfl
      | some next => exact appendSegments hρ rest next

theorem appended (hρ : Function.Injective ρ.node) : ∀ (seg : PathSegment) (path : CanonicalPath),
    Carried ρ (Option.map (CanonicalPath.relabel ρ)) (seg.append path)
      ((seg.relabel ρ).append (path.relabel ρ))
  | ⟨node, ident, none⟩, path => by
      unfold PathSegment.relabel PathSegment.append
      by_cases hmalformed : ident = .malformed
      · simp only [hmalformed, if_true]
        exact stopWith _ _
      · simp only [hmalformed, if_false]
        exact .pure (congrArg some (CanonicalPath.relabel_append ρ path _))
  | ⟨node, ident, some args⟩, path => by
      have herror := unreadable_relabel (ρ := ρ) ⟨node, ident, some args⟩
      have htext := PathSegment.canonicalText_relabel ρ ⟨node, ident, some args⟩ true
      unfold PathSegment.relabel at herror htext
      unfold PathSegment.relabel PathSegment.append
      simp only [herror, htext]
      by_cases hmalformed : ident = .malformed
      · simp only [hmalformed, if_true]
        exact stopWith _ _
      · simp only [hmalformed, if_false]
        exact (genericArgs hρ args).bind_eq fun _ =>
          .pure (congrArg some (CanonicalPath.relabel_append ρ path _))

theorem traitBound (hρ : Function.Injective ρ.node) : ∀ b : TraitBound,
    Carried ρ (Option.map ρ.node) b.resolve (b.relabel ρ).resolve
  | ⟨_, p⟩ => path hρ .type p

theorem bound_resolve (hρ : Function.Injective ρ.node) : ∀ b : Bound,
    Carried ρ (Option.map ρ.node) b.resolve (b.relabel ρ).resolve
  | .trait bound => traitBound hρ bound
  | .lifetime _ => .pure rfl

theorem bounds_resolve (hρ : Function.Injective ρ.node) : ∀ bs : List Bound,
    SameAnswer ρ (resolveBounds bs) (resolveBounds (relabelBounds ρ bs))
  | [] => .pure rfl
  | b :: bs => (bound_resolve hρ b).discard.bind_eq fun _ => bounds_resolve hρ bs

theorem paramTys (hρ : Function.Injective ρ.node) : ∀ ps : List FnPointerParam,
    SameAnswer ρ (resolveParamTys ps) (resolveParamTys (relabelParamTys ρ ps))
  | [] => .pure rfl
  | ⟨_, _, t⟩ :: ps => (ty hρ t).discard.bind_eq fun _ => paramTys hρ ps

theorem expr (hρ : Function.Injective ρ.node) : ∀ e : Expr,
    SameAnswer ρ e.resolve (e.relabel ρ).resolve
  | .literal _ _ => .pure rfl
  | .path _ p => (path hρ .name p).discard
  | .unary _ _ operand => expr hρ operand
  | .binary _ _ lhs rhs => (expr hρ lhs).bind_eq fun _ => expr hρ rhs
  | .call _ callee args => (expr hρ callee).bind_eq fun _ => exprs hρ args
  | .cast _ operand t => (expr hρ operand).bind_eq fun _ => (ty hρ t).discard
  | .tuple _ elems => exprs hρ elems
  | .group _ inner => expr hρ inner
  | .block _ body => block hρ body

theorem exprs (hρ : Function.Injective ρ.node) : ∀ es : List Expr,
    SameAnswer ρ (resolveExprs es) (resolveExprs (relabelExprs ρ es))
  | [] => .pure rfl
  | e :: es => (expr hρ e).bind_eq fun _ => exprs hρ es

theorem block (hρ : Function.Injective ρ.node) : ∀ b : Block,
    SameAnswer ρ b.resolve (b.relabel ρ).resolve
  | ⟨node, stmts, none⟩ =>
      inFrame hρ node.id ((stmts_resolve hρ stmts).bind_eq fun _ => .pure rfl)
  | ⟨node, stmts, some tail⟩ =>
      inFrame hρ node.id ((stmts_resolve hρ stmts).bind_eq fun _ => expr hρ tail)

theorem stmts_resolve (hρ : Function.Injective ρ.node) : ∀ stmts : List Stmt,
    SameAnswer ρ (resolveStmts stmts) (resolveStmts (relabelStmts ρ stmts))
  | [] => .pure rfl
  | st :: rest => (stmt hρ st).bind_eq fun _ => stmts_resolve hρ rest

theorem stmt (hρ : Function.Injective ρ.node) : ∀ st : Stmt,
    SameAnswer ρ st.resolve (st.relabel ρ).resolve
  | .bind _ p none none => pattern hρ true p
  | .bind _ p (some t) none => (ty hρ t).discard.bind_eq fun _ => pattern hρ true p
  | .bind _ p none (some init) => (expr hρ init).bind_eq fun _ => pattern hρ true p
  | .bind _ p (some t) (some init) =>
      (ty hρ t).discard.bind_eq fun _ => (expr hρ init).bind_eq fun _ => pattern hρ true p
  | .expr _ value => expr hρ value
  | .empty _ => .pure rfl

end

/-! ### Items -/

section Members

variable (hρ : Function.Injective ρ.node)

include hρ

omit hρ in
theorem optional {α : Type} {f : α → Resolution Unit} {r : α → α}
    (h : ∀ a, SameAnswer ρ (f a) (f (r a))) (o : Option α) :
    SameAnswer ρ (resolveOptional f o) (resolveOptional f (o.map r)) := by
  cases o with
  | none => exact .pure rfl
  | some a => exact h a

theorem paramName (p : GenericParam) (space : Namespace) :
    SameAnswer ρ (p.bindName space) ((p.relabel ρ).bindName space) :=
  bindName hρ space ⟨.single p.node.id p.name.name, p.node.id, p.name.span⟩ false
    (fun b earlier => by
      simp only [GenericParam.redefinition, Binding.relabel, CanonicalPath.text_relabel])
    (.single p.node.id p.name.name)

theorem genericParam (p : GenericParam) : SameAnswer ρ p.resolve (p.relabel ρ).resolve := by
  obtain ⟨node, name, kind⟩ := p
  cases kind with
  | type bounds default =>
      refine (optional (r := Ty.relabel ρ) (fun t => (ty hρ t).discard) default).bind_eq fun _ => ?_
      exact (bounds_resolve hρ bounds).bind_eq fun _ =>
        paramName hρ ⟨node, name, .type bounds default⟩ .type
  | const t default =>
      refine (ty hρ t).discard.bind_eq fun _ => ?_
      exact (optional (expr hρ) default).bind_eq fun _ =>
        paramName hρ ⟨node, name, .const t default⟩ .name
  | lifetime => exact .pure rfl

theorem wherePredicate (p : WherePredicate) : SameAnswer ρ p.resolve (p.relabel ρ).resolve :=
  (ty hρ p.ty).discard.bind_eq fun _ => bounds_resolve hρ p.bounds

theorem generics (g : Generics) : SameAnswer ρ g.resolve (g.relabel ρ).resolve := by
  refine InStep.bind_eq (.forM_map fun p _ => genericParam hρ p) fun _ => ?_
  exact optional (r := WhereClause.relabel ρ)
    (fun _ => .forM_map fun p _ => wherePredicate hρ p) g.whereClause

theorem constDecl (c : ConstDecl) : SameAnswer ρ c.resolve (c.relabel ρ).resolve :=
  (ty hρ c.ty).discard.bind_eq fun _ => optional (expr hρ) c.init

theorem aliasDecl (owner : NodeId) (a : AliasDecl) :
    SameAnswer ρ (a.resolve owner) ((a.relabel ρ).resolve (ρ.node owner)) :=
  inFrame hρ owner ((generics hρ a.generics).bind_eq fun _ => (ty hρ a.ty).discard)

theorem selfParam (r : SelfParam) : SameAnswer ρ r.bindName (r.relabel ρ).bindName :=
  bindName hρ .name ⟨.single r.node.id "self", r.node.id, r.node.span⟩ false redefinition_relabel
    (.single r.node.id "self")

theorem param (p : Param) : SameAnswer ρ p.resolve (p.relabel ρ).resolve :=
  (ty hρ p.ty).discard.bind_eq fun _ => pattern hρ false p.pattern

theorem functionDecl (owner : NodeId) (f : FunctionDecl) :
    SameAnswer ρ (f.resolve owner) ((f.relabel ρ).resolve (ρ.node owner)) := by
  refine inFrame hρ owner ((generics hρ f.generics).bind_eq fun _ => ?_)
  refine (optional (selfParam hρ) f.receiver).bind_eq fun _ => ?_
  refine InStep.bind_eq (.forM_map fun p _ => param hρ p) fun _ => ?_
  refine (optional (r := Ty.relabel ρ) (fun t => (ty hρ t).discard) f.ret).bind_eq fun _ => ?_
  exact optional (block hρ) f.body

theorem namedField (f : NamedField) : SameAnswer ρ f.resolve (f.relabel ρ).resolve :=
  (ty hρ f.ty).discard

theorem tupleField (f : TupleField) : SameAnswer ρ f.resolve (f.relabel ρ).resolve :=
  (ty hρ f.ty).discard

theorem variantDecl (v : Variant) : SameAnswer ρ v.resolve (v.relabel ρ).resolve := by
  obtain ⟨node, name, kind⟩ := v
  cases kind with
  | unit => exact .pure rfl
  | tuple fields => exact .forM_map fun f _ => tupleField hρ f
  | record fields => exact .forM_map fun f _ => namedField hρ f
  | discriminant value => exact expr hρ value

theorem implItem (i : ImplItem) : SameAnswer ρ i.resolve (i.relabel ρ).resolve := by
  obtain ⟨node, vis, kind⟩ := i
  cases kind with
  | function f => exact functionDecl hρ node.id f
  | const c => exact constDecl hρ c
  | typeAlias a => exact aliasDecl hρ node.id a

theorem traitItem (i : TraitItem) : SameAnswer ρ i.resolve (i.relabel ρ).resolve := by
  obtain ⟨node, kind⟩ := i
  cases kind with
  | function f => exact functionDecl hρ node.id f
  | const c => exact constDecl hρ c
  | type t => exact bounds_resolve hρ t.bounds

theorem foreignItem (i : ForeignItem) : SameAnswer ρ i.resolve (i.relabel ρ).resolve := by
  obtain ⟨node, vis, kind⟩ := i
  cases kind with
  | function f => exact functionDecl hρ node.id f
  | static name mutable t => exact (ty hρ t).discard

theorem bindSelf (owner : NodeId) (target : Option NodeId) (locus : Span) :
    SameAnswer ρ (bindSelf owner target locus)
      (NameResolution.bindSelf (ρ.node owner) (target.map ρ.node) locus) := by
  cases target with
  | none => exact .pure rfl
  | some decl => exact (bindNew hρ .type ⟨.single owner "Self", decl, locus⟩).discard

/-- The items of an implementation follow its type, which `Self` stands for. -/
theorem implMembers (owner : NodeId) (selfTy : Ty) (items : List ImplItem) :
    SameAnswer ρ
      (do
        let t ← selfTy.resolve
        NameResolution.bindSelf owner t.decl selfTy.node.span
        items.forM ImplItem.resolve)
      (do
        let t ← (selfTy.relabel ρ).resolve
        NameResolution.bindSelf (ρ.node owner) t.decl (selfTy.relabel ρ).node.span
        (items.map (ImplItem.relabel ρ)).forM ImplItem.resolve) := by
  refine (ty hρ selfTy).andThen fun t => ?_
  rw [Ty.node_relabel, Node.span_relabel]
  exact (bindSelf hρ owner t.decl selfTy.node.span).bind_eq fun _ =>
    .forM_map fun i _ => implItem hρ i

theorem inherentImpl (owner : NodeId) (i : InherentImpl) :
    SameAnswer ρ (i.resolve owner) ((i.relabel ρ).resolve (ρ.node owner)) :=
  inFrame hρ owner ((generics hρ i.generics).bind_eq fun _ => implMembers hρ owner i.selfTy i.items)

theorem traitImpl (owner : NodeId) (i : TraitImpl) :
    SameAnswer ρ (i.resolve owner) ((i.relabel ρ).resolve (ρ.node owner)) := by
  refine inFrame hρ owner ((generics hρ i.generics).bind_eq fun _ => ?_)
  exact (path hρ .type i.traitPath).discard.bind_eq fun _ => implMembers hρ owner i.selfTy i.items

theorem traitDecl (node : Node) (t : TraitDecl) :
    SameAnswer ρ (t.resolve node) ((t.relabel ρ).resolve (node.relabel ρ)) := by
  refine inFrame hρ node.id ((generics hρ t.generics).bind_eq fun _ => ?_)
  refine (bindSelf hρ node.id (some node.id) node.span).bind_eq fun _ => ?_
  exact (bounds_resolve hρ t.supertraits).bind_eq fun _ => .forM_map fun i _ => traitItem hρ i

/-- An item that has generics and parts in a frame of its own. -/
theorem framed {α : Type} {f : α → Resolution Unit} {r : α → α}
    (h : ∀ a, SameAnswer ρ (f a) (f (r a))) (owner : NodeId) (g : Generics) (parts : List α) :
    SameAnswer ρ (Resolution.inFrame owner (do g.resolve; parts.forM f))
      (Resolution.inFrame (ρ.node owner) (do (g.relabel ρ).resolve; (parts.map r).forM f)) :=
  inFrame hρ owner ((generics hρ g).bind_eq fun _ => .forM_map fun a _ => h a)

end Members

mutual

theorem item (hρ : Function.Injective ρ.node) : ∀ item : Item,
    SameAnswer ρ item.resolve (item.relabel ρ).resolve
  | ⟨node, _, kind⟩ => itemKind hρ node kind

theorem itemKind (hρ : Function.Injective ρ.node) (node : Node) : ∀ kind : ItemKind,
    SameAnswer ρ (kind.resolve node) ((kind.relabel ρ).resolve (node.relabel ρ))
  | .module _ inner => inModule hρ node.id (items hρ inner)
  | .typeAlias a => aliasDecl hρ node.id a
  | .struct s => framed hρ (namedField hρ) node.id s.generics s.fields
  | .tupleStruct s => framed hρ (tupleField hρ) node.id s.generics s.fields
  | .enum e => framed hρ (variantDecl hρ) node.id e.generics e.variants
  | .union u => framed hρ (namedField hρ) node.id u.generics u.fields
  | .static s => (ty hρ s.ty).discard.bind_eq fun _ => optional (expr hρ) s.init
  | .const c => constDecl hρ c
  | .function f => functionDecl hρ node.id f
  | .inherentImpl i => inherentImpl hρ node.id i
  | .traitImpl i => traitImpl hρ node.id i
  | .trait t => traitDecl hρ node t
  | .foreign _ => .forM_map fun i _ => foreignItem hρ i

theorem items (hρ : Function.Injective ρ.node) : ∀ items : List Item,
    SameAnswer ρ (resolveItems items) (resolveItems (relabelItems ρ items))
  | [] => .pure rfl
  | head :: rest => (item hρ head).bind_eq fun _ => items hρ rest

end

/-- **The second pass over a relabelled crate does what it does over the crate.** -/
theorem crate_resolveItems (hρ : Function.Injective ρ.node) (c : Crate) (bound : NodeId) :
    SameAnswer ρ c.resolveItems (c.relabel ρ bound).resolveItems :=
  inCrate hρ (items hρ c.items)

/-! ## Seeding -/

/-- The built-in types are made known under their new identities. -/
theorem seed (hρ : Function.Injective ρ.node) : SameAnswer ρ seed NameResolution.seed := by
  rw [seed_eq]
  refine .relabelled fun s => (markContainer s.root .module).bind_eq fun _ => ?_
  refine (setPath hρ s.root s.rootPath).bind_eq fun _ => ?_
  have hprimitive (p : String × NodeId) :
      SameAnswer ρ (bindPrimitive p.1 p.2) (bindPrimitive p.1 (ρ.node p.2)) := by
    refine (bindNew hρ .type ⟨.single p.2 p.1, p.2, ⟨0, 0⟩⟩).discard.bind_eq fun _ => ?_
    exact setPath hρ p.2 (.single p.2 p.1)
  refine InStep.bind_eq (InStep.between (.forM_map fun p _ => hprimitive p) ?_ ?_) fun _ => ?_
  · rintro s _ rfl
    simp only [Session.IsRelabelled, Session.openPrelude, Session.relabel, Builtins.relabel,
      Scope.push_relabel hρ]
  · rintro s _ rfl
    simp only [Session.IsRelabelled, Session.closePrelude, Session.relabel, Scope.snd_pop,
      Scope.relabel, List.map_tail]
  · refine (setPath hρ _ (.single _ "()")).bind_eq fun _ => ?_
    exact (setPath hρ _ (.single _ "!")).bind_eq fun _ => setPath hρ _ (.single _ "_")

end Relabelling

end NameResolution
