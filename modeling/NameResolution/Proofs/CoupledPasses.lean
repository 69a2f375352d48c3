import NameResolution.Proofs.Lockstep

/-!
# NameResolution.Proofs.CoupledPasses

**Two passes over one crate stay together**, and so does seeding
(`Session.Coupling.seedBuiltins`). The two inductions over the tree are these:

* Registering the items keeps every relation that single declarations keep, also if all
  canonical paths of the second run have something in front of them
  (`Session.Registering.items`).
* Resolving what is inside the items keeps every coupling (`Session.Coupling.crate`). Paths
  and expressions have the same answers in both runs; the answers for types and qualified
  paths match as far as the two runs agree on canonical paths (`ResolvedTy.Matches`,
  `PathsMatch`). The items need no induction of their own, since what is done inside them
  follows from the rules for paths, types, expressions and blocks
  (`Session.Coupling.passRules`).
-/

namespace NameResolution

open Resolution

/-! ### The first pass -/

/-- The same place with `front` before its canonical path. -/
def Place.under (front : CanonicalPath) (place : Place) : Place := ⟨place.key, front ++ place.path⟩

theorem Place.extend_under (front : CanonicalPath) (place : Place) (inner : CanonicalPath) :
    (place.under front).extend inner = (place.extend inner).under front := by
  unfold Place.under Place.extend
  rw [CanonicalPath.append_assoc]

theorem Tables.Plain.markContainer (id : NodeId) (kind : ContainerKind) :
    Plain fun t => { t with containers := t.containers.set id kind } := fun _ _ _ _ => rfl

namespace Session.Registering

variable {front : CanonicalPath} {R : Session → Session → Prop}

section Declarations

variable (reg : Session.Registering front R)

include reg

theorem setPath (id : NodeId) (path : CanonicalPath) :
    InStep R Eq (Resolution.setPath id path) (Resolution.setPath id (front ++ path)) :=
  reg.toLockstep.setPath fun hs hnone => reg.withPath hs id path hnone

theorem setParent (id module : NodeId) : Steady R (setParent id module) :=
  reg.updateTables fun _ _ _ _ => rfl

theorem placeInModule (id : NodeId) : Steady R (placeInModule id) :=
  reg.currentModule.bind_eq fun here => reg.setParent id here

/-- The two runs declare the same name at the same place in the module, under canonical paths of
which one has `front` before it. -/
theorem declare (space : Namespace) (id : NodeId) (name : Ident) (place : Place) (vis : Visibility)
    (container : Option NodeId) :
    InStep R (fun inner inner' => inner' = inner.under front)
      (declare space id name place vis container)
      (NameResolution.declare space id name (place.under front) vis container) := by
  unfold NameResolution.declare
  rw [Place.extend_under]
  generalize place.extend (.single id name.name) = inner
  have hdescribe : InStep R (fun inner inner' => inner' = inner.under front)
      (do
        let here ← Resolution.currentModule
        Resolution.updateTables fun t =>
          { t with visibilities := t.visibilities.set id ⟨vis, here, name.span⟩ }
        Resolution.setPath id inner.path
        return inner)
      (do
        let here ← Resolution.currentModule
        Resolution.updateTables fun t =>
          { t with visibilities := t.visibilities.set id ⟨vis, here, name.span⟩ }
        Resolution.setPath id (inner.under front).path
        return inner.under front) := by
    refine reg.currentModule.bind_eq fun here => ?_
    refine InStep.bind_eq (.updateTables fun s s' hs => reg.setVisibility hs id _) fun _ => ?_
    exact (reg.setPath id inner.path).bind_eq fun _ => .pure rfl
  refine (reg.makeBinding space _ false redefinition).bind_eq fun made => ?_
  cases made with
  | false => exact hdescribe
  | true =>
      cases container with
      | none => exact hdescribe
      | some parent => exact (reg.updateTables (.addChild parent _)).bind_eq fun _ => hdescribe

/-- A variant, a trait item or an implementation item. -/
theorem declareMember (space : Namespace) (id : NodeId) (name : Ident) (place : Place)
    (vis : Visibility) (container : Option NodeId) :
    InStep R Eq
      (do
        Functor.discard (NameResolution.declare space id name place vis container)
        NameResolution.placeInModule id)
      (do
        Functor.discard (NameResolution.declare space id name (place.under front) vis container)
        NameResolution.placeInModule id) :=
  (reg.declare space id name place vis container).discard.bind_eq fun _ => reg.placeInModule id

theorem implItems (items : List ImplItem) (place : Place) :
    InStep R Eq (items.forM (ImplItem.declare place))
      (items.forM (ImplItem.declare (place.under front))) :=
  .forM fun i _ => reg.declareMember i.kind.declares.1 i.node.id i.kind.declares.2 place i.vis none

/-- The items of an implementation follow its header, which is read off the tree. -/
theorem inherentImpl (id : NodeId) (place : Place) (i : InherentImpl) :
    InStep R Eq (i.declare id place) (i.declare id (place.under front)) := by
  unfold InherentImpl.declare
  cases i.selfTy.headerPath i.generics.isEmpty with
  | error malformed => exact reg.report _
  | ok selfTy =>
      simp only [Place.extend_under]
      exact (reg.setPath id _).bind_eq fun _ => reg.implItems i.items _

theorem traitImpl (node : Node) (place : Place) (i : TraitImpl) :
    InStep R Eq (i.declare node place) (i.declare node (place.under front)) := by
  unfold TraitImpl.declare
  dsimp only
  split
  · exact reg.report _
  · next projection _ =>
    rw [Place.extend_under]
    refine (reg.makeBinding .name _ false redefinition).bind_eq fun made => ?_
    cases made with
    | false => exact .pure rfl
    | true => exact (reg.setPath node.id _).bind_eq fun _ => reg.implItems i.items _

theorem foreignItem (place : Place) (i : ForeignItem) :
    InStep R Eq (i.declare place) (i.declare (place.under front)) := by
  refine reg.currentModule.bind_eq fun here => ?_
  refine (reg.declare .name i.node.id i.kind.name place i.vis (some here)).discard.bind_eq
    fun _ => reg.setParent i.node.id here

theorem leaf (space : Namespace) (node : Node) (vis : Visibility) (here : NodeId) (place : Place)
    (name : Ident) :
    InStep R Eq (declareLeaf space node vis here place name)
      (declareLeaf space node vis here (place.under front) name) :=
  (reg.declare space node.id name place vis (some here)).discard

/-- A declaration that holds others, which are declared under its own place. -/
theorem container {next next' : Place → Resolution Unit} (space : Namespace) (id : NodeId)
    (name : Ident) (place : Place) (vis : Visibility) (here : NodeId) (kind : ContainerKind)
    (h : ∀ inner, InStep R Eq (next inner) (next' (inner.under front))) :
    InStep R Eq
      (NameResolution.declare space id name place vis (some here) >>= fun inner =>
        markContainer id kind >>= fun _ => next inner)
      (NameResolution.declare space id name (place.under front) vis (some here) >>= fun inner =>
        markContainer id kind >>= fun _ => next' inner) := by
  refine (reg.declare space id name place vis (some here)).bind fun inner inner' hinner => ?_
  subst hinner
  exact (reg.updateTables (.markContainer id kind)).bind_eq fun _ => h inner

end Declarations

mutual

theorem item (reg : Session.Registering front R) (place : Place) : ∀ item : Item,
    InStep R Eq (item.declare place) (item.declare (place.under front))
  | ⟨node, vis, kind⟩ =>
      reg.currentModule.bind_eq fun here =>
        (reg.kind node vis here place kind).bind_eq fun _ => reg.setParent node.id here

theorem kind (reg : Session.Registering front R) (node : Node) (vis : Visibility) (here : NodeId)
    (place : Place) : ∀ kind : ItemKind,
      InStep R Eq (kind.declare node vis here place)
        (kind.declare node vis here (place.under front))
  | .module name items =>
      reg.container .name node.id name place vis here .module fun inner =>
        (reg.updateTables fun _ _ _ _ => rfl).bind_eq fun _ =>
          reg.inModule node.id (reg.items (.ofModule inner.path) items)
  | .enum e =>
      reg.container .type node.id e.name place vis here .enum fun inner =>
        .forM fun v _ => reg.declareMember .type v.node.id v.name inner vis (some node.id)
  | .trait t =>
      reg.container .type node.id t.name place vis here .trait fun inner =>
        .forM fun i _ => reg.declareMember i.kind.declares.1 i.node.id i.kind.declares.2 inner vis
          (some node.id)
  | .typeAlias a => reg.leaf .type node vis here place a.name
  | .struct s => reg.leaf .type node vis here place s.name
  | .tupleStruct s => reg.leaf .type node vis here place s.name
  | .union u => reg.leaf .type node vis here place u.name
  | .static s => reg.leaf .name node vis here place s.name
  | .const c => reg.leaf .name node vis here place c.name
  | .function f => reg.leaf .name node vis here place f.name
  | .inherentImpl i => reg.inherentImpl node.id place i
  | .traitImpl i => reg.traitImpl node place i
  | .foreign _ => .forM fun i _ => reg.foreignItem place i

/-- **Two first passes over one list of items stay together**, whatever the second one puts before
its canonical paths. -/
theorem items (reg : Session.Registering front R) (place : Place) : ∀ items : List Item,
    InStep R Eq (declareItems place items) (declareItems (place.under front) items)
  | [] => .pure rfl
  | item :: rest => (reg.item place item).bind_eq fun _ => reg.items place rest

end

end Session.Registering

/-! ### Seeding -/

/-- What seeding does once the crate root has its canonical path. -/
def seedBuiltins (b : Builtins) : Resolution Unit := do
  between Session.openPrelude Session.closePrelude do
    b.primitives.forM fun (name, id) => bindPrimitive name id
  setPath b.unit (.single b.unit "()")
  setPath b.never (.single b.never "!")
  setPath b.inferred (.single b.inferred "_")

theorem seed_eq : seed = (do
    let s ← get
    markContainer s.root .module
    setPath s.root s.rootPath
    seedBuiltins s.builtins) := rfl

/-! ### The second pass -/

/-- What became of a type in two runs: it names the same declaration, and its paths match. -/
structure ResolvedTy.Matches (exact : Prop) (t t' : ResolvedTy) : Prop where
  decl : t.decl = t'.decl
  path : PathsMatch exact t.path t'.path

namespace ResolvedTy.Matches

variable {exact : Prop} {t t' : ResolvedTy}

theorem ofDecl (decl : Option NodeId) : Matches exact ⟨decl, .none⟩ ⟨decl, .none⟩ := ⟨rfl, .none⟩

theorem wrapped (h : t.Matches exact t') (id : NodeId) (wrap : String → String) :
    (t.wrapped id wrap).Matches exact (t'.wrapped id wrap) :=
  ⟨h.decl, h.path.map fun p => .single id (wrap p.text)⟩

end ResolvedTy.Matches

namespace Session.Coupling

variable {exact : Prop} {R : Session → Session → Prop}

section Ends

variable (coupling : Session.Coupling exact R)

include coupling

theorem resolveBuiltin (use : NodeId) (pick : Builtins → NodeId) :
    InStep R (ResolvedTy.Matches exact) (resolveBuiltin use pick)
      (NameResolution.resolveBuiltin use pick) := by
  refine .withSession fun s s' hs => ?_
  rw [(coupling.sameView hs).builtins]
  exact (coupling.record .type use _).bind_eq fun _ => .pure ⟨rfl, coupling.get?_paths hs _⟩

/-- A type that has no canonical path takes that of the declaration it names, which both runs name
alike. -/
theorem headPath {t t' : ResolvedTy} (h : t.Matches exact t') :
    InStep R (PathsMatch exact) t.headPath t'.headPath := by
  obtain ⟨decl, path⟩ := t
  obtain ⟨decl', path'⟩ := t'
  obtain rfl : decl = decl' := h.decl
  have hpath : PathsMatch exact path path' := h.path
  rcases hpath.cases with ⟨rfl, rfl⟩ | ⟨p, p', rfl, rfl, hsame⟩
  · cases decl with
    | none => exact .pure .none
    | some decl => exact (coupling.pathOf decl).map fun _ _ hp => .some hp
  · exact .pure (.some hsame)

/-- A name that was bound gets its canonical path in both runs. -/
theorem bindName (space : Namespace) (b : Binding) (shadow : Bool)
    (complaint : Binding → Binding → ResolveError) (path : CanonicalPath) :
    Steady R (makeBinding space b shadow complaint >>= fun made =>
      if made then Resolution.setPath b.id path else Pure.pure ()) := by
  refine (coupling.makeBinding space b shadow complaint).bind_eq fun made => ?_
  cases made with
  | true => exact coupling.setPath b.id path
  | false => exact .pure rfl

theorem setQualifiedPath (use : NodeId) {path path' : CanonicalPath} (h : exact → path = path') :
    InStep R Eq
      (updateTables fun t => { t with qualified := t.qualified.set use path })
      (updateTables fun t => { t with qualified := t.qualified.set use path' }) :=
  .updateTables fun _ _ hs => coupling.setQualified hs use path path' h

/-- Seeding the built-in types keeps a coupling that opening and closing the prelude keeps. -/
theorem seedBuiltins (hopen : ∀ s s', R s s' → R s.openPrelude s'.openPrelude)
    (hclose : ∀ s s', R s s' → R s.closePrelude.2 s'.closePrelude.2) (b : Builtins) :
    Steady R (seedBuiltins b) := by
  refine InStep.bind_eq (.between (.forM fun p _ => ?_) hopen hclose) fun _ => ?_
  · exact (coupling.makeBinding .type _ false redefinition).discard.bind_eq fun _ =>
      coupling.setPath p.2 (.single p.2 p.1)
  · refine (coupling.setPath _ _).bind_eq fun _ => ?_
    exact (coupling.setPath _ _).bind_eq fun _ => coupling.setPath _ _

end Ends

/-! ### Patterns -/

mutual

theorem pattern (coupling : Session.Coupling exact R) (shadow : Bool) : ∀ p : Pattern,
    Steady R (p.bindNames shadow)
  | .binding _ _ _ => coupling.bindName .name _ shadow redefinition _
  | .tuple _ elems => coupling.patterns shadow elems
  | .wildcard _ => .pure rfl

theorem patterns (coupling : Session.Coupling exact R) (shadow : Bool) : ∀ ps : List Pattern,
    Steady R (bindPatterns shadow ps)
  | [] => .pure rfl
  | p :: ps => (coupling.pattern shadow p).bind_eq fun _ => coupling.patterns shadow ps

end

/-! ### Paths, types and expressions -/

mutual

theorem path (coupling : Session.Coupling exact R) (prefer : Namespace) : ∀ p : Path,
    Steady R (p.resolve prefer)
  | ⟨node, segments⟩ => by
      refine coupling.currentModule.bind_eq fun here => coupling.rootModule.bind_eq fun root => ?_
      refine (coupling.receiver? _ segments).bind_eq fun receiver => ?_
      cases receiver with
      | some receiver => exact (coupling.record .name node.id _).bind_eq fun _ => .pure rfl
      | none =>
          refine (coupling.walk _ segments _).bind_eq fun reached => ?_
          cases reached with
          | none => exact .pure rfl
          | some decl => exact (coupling.recordPath node.id decl).bind_eq fun _ => .pure rfl

theorem walk (coupling : Session.Coupling exact R) (w : Walk) :
    ∀ (segments : List PathSegment) (pos : Position), Steady R (walk w pos segments)
  | [], _ => .pure rfl
  | seg :: rest, pos => by
      refine (coupling.segment w pos rest.isEmpty seg).bind_eq fun next => ?_
      cases next with
      | none => exact .pure rfl
      | some pos => exact coupling.walk w rest pos

theorem segment (coupling : Session.Coupling exact R) (w : Walk) (pos : Position)
    (isLast : Bool) : ∀ seg : PathSegment, Steady R (seg.follow w pos isLast)
  | ⟨_, .malformed, _⟩ => coupling.stopWith _
  | ⟨_, .crate, _⟩ => coupling.unlessDeferred pos (coupling.followFirst w pos _ w.root)
  | ⟨_, .selfModule, _⟩ => coupling.unlessDeferred pos (coupling.followFirst w pos _ w.here)
  | ⟨_, .super, _⟩ => coupling.unlessDeferred pos (coupling.followSuper w pos _)
  | ⟨_, .ident name, none⟩ =>
      coupling.unlessDeferred pos (coupling.followName w pos _ name isLast)
  | ⟨_, .ident name, some args⟩ =>
      coupling.unlessDeferred pos <|
        (coupling.args args).bind_eq fun _ => coupling.followName w pos _ name isLast

theorem args (coupling : Session.Coupling exact R) : ∀ args : GenericArgs, Steady R args.resolve
  | ⟨types, _⟩ => coupling.tys types

theorem tys (coupling : Session.Coupling exact R) : ∀ ts : List Ty, Steady R (resolveTys ts)
  | [] => .pure rfl
  | t :: ts => (coupling.ty t).discard.bind_eq fun _ => coupling.tys ts

theorem ty (coupling : Session.Coupling exact R) : ∀ t : Ty,
    InStep R (ResolvedTy.Matches exact) t.resolve t.resolve
  | .path _ p => by
      refine (coupling.path .type p).bind_eq fun decl => ?_
      cases decl with
      | none => exact .pure (.ofDecl none)
      | some decl =>
          refine .withSession fun s s' hs => .pure ⟨rfl, ?_⟩
          exact (coupling.get?_paths hs decl).map _
  | .qualified _ p => (coupling.qualified p).bind fun _ _ hpath => .pure ⟨rfl, hpath⟩
  | .tuple n [] => coupling.resolveBuiltin n.id Builtins.unit
  | .tuple _ (t :: ts) => (coupling.tys (t :: ts)).bind_eq fun _ => .pure (.ofDecl none)
  | .array _ elem size =>
      (coupling.ty elem).bind fun _ _ helem => (coupling.expr size).bind_eq fun _ =>
        .pure ⟨helem.decl, .none⟩
  | .slice _ elem => (coupling.ty elem).bind fun _ _ helem => .pure (helem.wrapped _ _)
  | .reference _ _ inner => (coupling.ty inner).bind fun _ _ hinner => .pure (hinner.wrapped _ _)
  | .pointer _ _ inner => (coupling.ty inner).bind fun _ _ hinner => .pure (hinner.wrapped _ _)
  | .dynOne _ bound => (coupling.traitBound bound).bind_eq fun decl => .pure (.ofDecl decl)
  | .dyn _ bounds => (coupling.bounds bounds).bind_eq fun _ => .pure (.ofDecl none)
  | .fnPointer _ params none => (coupling.paramTys params).bind_eq fun _ => .pure (.ofDecl none)
  | .fnPointer _ params (some ret) =>
      (coupling.paramTys params).bind_eq fun _ =>
        (coupling.ty ret).discard.bind_eq fun _ => .pure (.ofDecl none)
  | .inferred n => coupling.resolveBuiltin n.id Builtins.inferred
  | .never n => coupling.resolveBuiltin n.id Builtins.never

theorem qualified (coupling : Session.Coupling exact R) : ∀ p : QualifiedPath,
    InStep R (PathsMatch exact) p.resolve p.resolve
  | ⟨node, qualifier, associated, rest⟩ => by
      refine (coupling.qualifier qualifier).bind fun _ _ h => ?_
      rcases h.cases with ⟨rfl, rfl⟩ | ⟨head, head', rfl, rfl, hhead⟩
      · exact .pure .none
      refine (coupling.appended associated hhead).bind fun _ _ h => ?_
      rcases h.cases with ⟨rfl, rfl⟩ | ⟨path, path', rfl, rfl, hpath⟩
      · exact .pure .none
      refine (coupling.appendSegments rest hpath).bind fun _ _ h => ?_
      rcases h.cases with ⟨rfl, rfl⟩ | ⟨full, full', rfl, rfl, hfull⟩
      · exact .pure .none
      exact (coupling.setQualifiedPath node.id hfull).bind_eq fun _ => .pure (.some hfull)

theorem qualifier (coupling : Session.Coupling exact R) : ∀ q : Qualifier,
    InStep R (PathsMatch exact) q.resolve q.resolve
  | ⟨node, selfTy, asTrait⟩ => by
      unfold Qualifier.resolve
      refine (coupling.ty selfTy).bind fun t t' ht => ?_
      refine (coupling.headPath ht).bind fun _ _ h => ?_
      rcases h.cases with ⟨rfl, rfl⟩ | ⟨self, self', rfl, rfl, hself⟩
      · exact .pure .none
      cases asTrait with
      | none => exact .pure (.some hself)
      | some traitPath =>
          refine (coupling.path .type traitPath).bind_eq fun decl => ?_
          cases decl with
          | none => exact .pure .none
          | some decl =>
              refine (coupling.pathOf decl).bind fun p p' hp => .pure (.some fun hexact => ?_)
              rw [hp hexact, hself hexact]

theorem appendSegments (coupling : Session.Coupling exact R) :
    ∀ (segments : List PathSegment) {path path' : CanonicalPath}, (exact → path = path') →
      InStep R (PathsMatch exact) (appendSegments path segments) (appendSegments path' segments)
  | [], _, _, h => .pure (.some h)
  | seg :: rest, path, path', h => by
      refine (coupling.appended seg h).bind fun _ _ hsome => ?_
      rcases hsome.cases with ⟨rfl, rfl⟩ | ⟨next, next', rfl, rfl, hnext⟩
      · exact .pure .none
      · exact coupling.appendSegments rest hnext

theorem appended (coupling : Session.Coupling exact R) : ∀ (seg : PathSegment)
    {path path' : CanonicalPath}, (exact → path = path') →
      InStep R (PathsMatch exact) (seg.append path) (seg.append path')
  | ⟨node, ident, generics⟩, path, path', h => by
      unfold PathSegment.append
      have happended (q : CanonicalPath) :
          PathsMatch exact (some (path ++ q)) (some (path' ++ q)) :=
        .some fun hexact => by rw [h hexact]
      by_cases hmalformed : ident = .malformed
      · simp only [hmalformed, if_true]
        exact ((coupling.stopWith _).mono fun _ _ hsame => hsame ▸ .refl _)
      · simp only [hmalformed, if_false]
        cases generics with
        | none => exact InStep.bind_eq (.pure rfl) fun _ => .pure (happended _)
        | some args => exact (coupling.args args).bind_eq fun _ => .pure (happended _)

theorem traitBound (coupling : Session.Coupling exact R) : ∀ b : TraitBound, Steady R b.resolve
  | ⟨_, path⟩ => coupling.path .type path

theorem bound (coupling : Session.Coupling exact R) :
    ∀ b : NameResolution.Bound, Steady R b.resolve
  | .trait bound => coupling.traitBound bound
  | .lifetime _ => .pure rfl

theorem bounds (coupling : Session.Coupling exact R) : ∀ bs : List NameResolution.Bound,
    Steady R (resolveBounds bs)
  | [] => .pure rfl
  | b :: bs => (coupling.bound b).discard.bind_eq fun _ => coupling.bounds bs

theorem paramTys (coupling : Session.Coupling exact R) : ∀ ps : List FnPointerParam,
    Steady R (resolveParamTys ps)
  | [] => .pure rfl
  | ⟨_, _, ty⟩ :: ps => (coupling.ty ty).discard.bind_eq fun _ => coupling.paramTys ps

theorem expr (coupling : Session.Coupling exact R) : ∀ e : Expr, Steady R e.resolve
  | .literal _ _ => .pure rfl
  | .path _ p => (coupling.path .name p).discard
  | .unary _ _ operand => coupling.expr operand
  | .binary _ _ lhs rhs => (coupling.expr lhs).bind_eq fun _ => coupling.expr rhs
  | .call _ callee args => (coupling.expr callee).bind_eq fun _ => coupling.exprs args
  | .cast _ operand ty => (coupling.expr operand).bind_eq fun _ => (coupling.ty ty).discard
  | .tuple _ elems => coupling.exprs elems
  | .group _ inner => coupling.expr inner
  | .block _ body => coupling.block body

theorem exprs (coupling : Session.Coupling exact R) : ∀ es : List Expr,
    Steady R (resolveExprs es)
  | [] => .pure rfl
  | e :: es => (coupling.expr e).bind_eq fun _ => coupling.exprs es

theorem block (coupling : Session.Coupling exact R) : ∀ b : Block, Steady R b.resolve
  | ⟨node, stmts, none⟩ =>
      coupling.inFrame node.id ((coupling.stmts stmts).bind_eq fun _ => .pure rfl)
  | ⟨node, stmts, some tail⟩ =>
      coupling.inFrame node.id ((coupling.stmts stmts).bind_eq fun _ => coupling.expr tail)

theorem stmts (coupling : Session.Coupling exact R) : ∀ stmts : List Stmt,
    Steady R (resolveStmts stmts)
  | [] => .pure rfl
  | st :: rest => (coupling.stmt st).bind_eq fun _ => coupling.stmts rest

theorem stmt (coupling : Session.Coupling exact R) : ∀ st : Stmt, Steady R st.resolve
  | .bind _ pattern none none => coupling.pattern true pattern
  | .bind _ pattern (some ty) none =>
      (coupling.ty ty).discard.bind_eq fun _ => coupling.pattern true pattern
  | .bind _ pattern none (some init) =>
      (coupling.expr init).bind_eq fun _ => coupling.pattern true pattern
  | .bind _ pattern (some ty) (some init) =>
      (coupling.ty ty).discard.bind_eq fun _ =>
        (coupling.expr init).bind_eq fun _ => coupling.pattern true pattern
  | .expr _ value => coupling.expr value
  | .empty _ => .pure rfl

end

/-! ### Items -/

section Items

variable (coupling : Session.Coupling exact R)

include coupling

theorem bindSelf (owner : NodeId) (target : Option NodeId) (locus : Span) :
    Steady R (bindSelf owner target locus) := by
  cases target with
  | none => exact .pure rfl
  | some decl => exact (coupling.makeBinding .type _ false redefinition).discard

/-- What is done inside the items is done alike in both runs. -/
theorem passRules : PassRules (fun _ => True) fun {_} act => Steady R act where
  pure a := .pure rfl
  bind h hnext := InStep.bind_eq h hnext
  inFrame owner h := coupling.inFrame owner h
  inModule module h := coupling.inModule module h
  bindName := coupling.bindName
  pattern := coupling.pattern
  path := coupling.path
  ty t := (coupling.ty t).discard
  expr := coupling.expr
  block := coupling.block
  selfType owner t h := (coupling.ty t).bind fun self self' hself => by
    rw [hself.decl]
    exact (coupling.bindSelf owner self'.decl t.node.span).bind_eq fun _ => h
  selfTrait owner locus _ := coupling.bindSelf owner (some owner) locus

/-- **Two second passes over one crate stay coupled.** -/
theorem crate (c : Crate) : Steady R c.resolveItems :=
  coupling.inCrate (coupling.passRules.items c.items fun _ _ => trivial)

end Items

end Session.Coupling

end NameResolution
