import NameResolution.Proofs.StableRelations

/-!
# NameResolution.Proofs.TreeRules

**What holds of all that is done inside the items, whatever the paths and types name.** A
few actions are only ever taken in the second pass: an entry is made for a path, a type or
a qualified path, `Self` is bound, and a canonical path that has to be there is looked up.
`TreeRules P` says that a property `P` of actions holds of these as well. Then it holds of
resolving every path, type, expression and block, by the one induction over them
(`TreeRules.path` and its companions), and so it is a property of both passes
(`TreeRules.passRules`).

Most properties hold of the handful of actions that touch the session at all
(`PrimitiveRules`), and then of everything that is made of these
(`PrimitiveRules.treeRules`). To keep to a stable relation is such a property, if the
relation also allows for resolved nodes and for what is closed (`Session.Stable.primitives`).
A property that depends on what an answer is needs an induction of its own.
-/

namespace NameResolution

open Resolution

/-- A property of actions that holds of whatever is done in a tree. -/
structure TreeRules (P : ∀ {α : Type}, Resolution α → Prop) : Prop extends ActionRules @P where
  missing : ∀ {α : Type} (decl : NodeId), P (throw (.missingCanonicalPath decl) : Resolution α)
  setResolved : ∀ (space : Namespace) (use decl : NodeId),
    P (updateTables (·.setResolved space use decl))
  setQualified : ∀ (use : NodeId) (path : CanonicalPath),
    P (updateTables fun t => { t with qualified := t.qualified.set use path })
  bindSelf : ∀ (owner : NodeId) (target : Option NodeId) (locus : Span),
    P (bindSelf owner target locus)

namespace TreeRules

variable {P : ∀ {α : Type}, Resolution α → Prop}

/-! ### The ends of a path -/

section Ends

variable (rules : TreeRules @P)

include rules

theorem map {α β : Type} {act : Resolution α} (f : α → β) (h : P act) : P (f <$> act) := by
  rw [map_eq_pure_bind]
  exact rules.bind h fun a => rules.pure (f a)

theorem recordPath (path decl : NodeId) : P (recordPath path decl) := by
  refine rules.bind rules.get fun s => ?_
  split
  · exact rules.unclassified decl
  · exact rules.setResolved _ path decl

theorem resolveBuiltin (use : NodeId) (pick : Builtins → NodeId) : P (resolveBuiltin use pick) :=
  rules.bind rules.get fun _ => rules.bind (rules.setResolved .type use _) fun _ => rules.pure _

theorem pathOf (decl : NodeId) : P (pathOf decl) := by
  refine rules.bind rules.get fun s => ?_
  split
  · exact rules.pure _
  · exact rules.missing decl

theorem headPath (t : ResolvedTy) : P t.headPath := by
  unfold ResolvedTy.headPath
  split
  · exact rules.pure _
  · exact rules.map some (rules.pathOf _)
  · exact rules.pure _

end Ends

/-! ### The mutual recursion -/

mutual

theorem path (rules : TreeRules @P) (prefer : Namespace) : ∀ p : Path, P (p.resolve prefer)
  | ⟨node, segments⟩ => by
      refine rules.bind rules.currentModule fun here => rules.bind rules.rootModule fun root => ?_
      refine rules.bind (rules.receiver? _ segments) fun receiver => ?_
      cases receiver with
      | some receiver => exact rules.bind (rules.setResolved .name node.id _) fun _ => rules.pure _
      | none =>
          refine rules.bind (rules.walk _ segments _) fun reached => ?_
          cases reached with
          | none => exact rules.pure _
          | some decl => exact rules.bind (rules.recordPath node.id decl) fun _ => rules.pure _

theorem walk (rules : TreeRules @P) (w : Walk) : ∀ (segments : List PathSegment) (pos : Position),
    P (walk w pos segments)
  | [], pos => rules.pure pos.reached
  | seg :: rest, pos => by
      refine rules.bind (rules.segment w pos rest.isEmpty seg) fun next => ?_
      cases next with
      | none => exact rules.pure _
      | some pos => exact rules.walk w rest pos

theorem segment (rules : TreeRules @P) (w : Walk) (pos : Position) (isLast : Bool) :
    ∀ seg : PathSegment, P (seg.follow w pos isLast)
  | ⟨_, _, none⟩ => rules.follow w pos isLast _ (by simp)
  | ⟨_, _, some args⟩ => rules.follow w pos isLast _ fun _ h => by
      cases h
      exact rules.args args

theorem args (rules : TreeRules @P) : ∀ args : GenericArgs, P args.resolve
  | ⟨types, _⟩ => rules.tys types

theorem tys (rules : TreeRules @P) : ∀ ts : List Ty, P (resolveTys ts)
  | [] => rules.pure ()
  | t :: ts => rules.bind (rules.discard (rules.ty t)) fun _ => rules.tys ts

theorem ty (rules : TreeRules @P) : ∀ t : Ty, P t.resolve
  | .path _ p => by
      refine rules.bind (rules.path .type p) fun decl => ?_
      cases decl with
      | none => exact rules.pure _
      | some decl => exact rules.bind rules.get fun _ => rules.pure _
  | .qualified _ p => rules.bind (rules.qualified p) fun _ => rules.pure _
  | .tuple n [] => rules.resolveBuiltin n.id Builtins.unit
  | .tuple _ (t :: ts) => rules.bind (rules.tys (t :: ts)) fun _ => rules.pure _
  | .array _ elem size =>
      rules.bind (rules.ty elem) fun _ => rules.bind (rules.expr size) fun _ => rules.pure _
  | .slice _ elem => rules.bind (rules.ty elem) fun _ => rules.pure _
  | .reference _ _ inner => rules.bind (rules.ty inner) fun _ => rules.pure _
  | .pointer _ _ inner => rules.bind (rules.ty inner) fun _ => rules.pure _
  | .dynOne _ bound => rules.bind (rules.traitBound bound) fun _ => rules.pure _
  | .dyn _ bounds => rules.bind (rules.bounds bounds) fun _ => rules.pure _
  | .fnPointer _ params none => rules.bind (rules.paramTys params) fun _ => rules.pure _
  | .fnPointer _ params (some ret) =>
      rules.bind (rules.paramTys params) fun _ =>
        rules.bind (rules.discard (rules.ty ret)) fun _ => rules.pure _
  | .inferred n => rules.resolveBuiltin n.id Builtins.inferred
  | .never n => rules.resolveBuiltin n.id Builtins.never

theorem qualified (rules : TreeRules @P) : ∀ p : QualifiedPath, P p.resolve
  | ⟨node, qualifier, associated, rest⟩ => by
      refine rules.bind (rules.qualifier qualifier) fun head => ?_
      cases head with
      | none => exact rules.pure _
      | some head =>
          refine rules.bind (rules.appended head associated) fun path => ?_
          cases path with
          | none => exact rules.pure _
          | some path =>
              refine rules.bind (rules.appendSegments rest path) fun path => ?_
              cases path with
              | none => exact rules.pure _
              | some path =>
                  exact rules.bind (rules.setQualified node.id path) fun _ => rules.pure _

theorem qualifier (rules : TreeRules @P) : ∀ q : Qualifier, P q.resolve
  | ⟨_, selfTy, asTrait⟩ => by
      unfold Qualifier.resolve
      refine rules.bind (rules.ty selfTy) fun t => rules.bind (rules.headPath t) fun selfPath => ?_
      cases selfPath with
      | none => exact rules.pure _
      | some selfPath =>
          cases asTrait with
          | none => exact rules.pure _
          | some traitPath =>
              refine rules.bind (rules.path .type traitPath) fun decl => ?_
              cases decl with
              | none => exact rules.pure _
              | some decl => exact rules.bind (rules.pathOf decl) fun _ => rules.pure _

theorem appendSegments (rules : TreeRules @P) :
    ∀ (segments : List PathSegment) (path : CanonicalPath), P (appendSegments path segments)
  | [], path => rules.pure (some path)
  | seg :: rest, path => by
      refine rules.bind (rules.appended path seg) fun path => ?_
      cases path with
      | none => exact rules.pure _
      | some path => exact rules.appendSegments rest path

theorem appended (rules : TreeRules @P) (path : CanonicalPath) :
    ∀ seg : PathSegment, P (seg.append path)
  | ⟨_, _, none⟩ => rules.append path _ (by simp)
  | ⟨_, _, some args⟩ => rules.append path _ fun _ h => by
      cases h
      exact rules.args args

theorem traitBound (rules : TreeRules @P) : ∀ b : TraitBound, P b.resolve
  | ⟨_, path⟩ => rules.path .type path

theorem bound (rules : TreeRules @P) : ∀ b : Bound, P b.resolve
  | .trait bound => rules.traitBound bound
  | .lifetime _ => rules.pure _

theorem bounds (rules : TreeRules @P) : ∀ bs : List Bound, P (resolveBounds bs)
  | [] => rules.pure ()
  | b :: bs => rules.bind (rules.discard (rules.bound b)) fun _ => rules.bounds bs

theorem paramTys (rules : TreeRules @P) : ∀ ps : List FnPointerParam, P (resolveParamTys ps)
  | [] => rules.pure ()
  | ⟨_, _, ty⟩ :: ps => rules.bind (rules.discard (rules.ty ty)) fun _ => rules.paramTys ps

theorem expr (rules : TreeRules @P) : ∀ e : Expr, P e.resolve
  | .literal _ _ => rules.pure ()
  | .path _ p => rules.discard (rules.path .name p)
  | .unary _ _ operand => rules.expr operand
  | .binary _ _ lhs rhs => rules.bind (rules.expr lhs) fun _ => rules.expr rhs
  | .call _ callee args => rules.bind (rules.expr callee) fun _ => rules.exprs args
  | .cast _ operand ty => rules.bind (rules.expr operand) fun _ => rules.discard (rules.ty ty)
  | .tuple _ elems => rules.exprs elems
  | .group _ inner => rules.expr inner
  | .block _ body => rules.block body

theorem exprs (rules : TreeRules @P) : ∀ es : List Expr, P (resolveExprs es)
  | [] => rules.pure ()
  | e :: es => rules.bind (rules.expr e) fun _ => rules.exprs es

theorem block (rules : TreeRules @P) : ∀ b : Block, P b.resolve
  | ⟨node, stmts, none⟩ =>
      rules.inFrame node.id (rules.bind (rules.stmts stmts) fun _ => rules.pure ())
  | ⟨node, stmts, some tail⟩ =>
      rules.inFrame node.id (rules.bind (rules.stmts stmts) fun _ => rules.expr tail)

theorem stmts (rules : TreeRules @P) : ∀ stmts : List Stmt, P (resolveStmts stmts)
  | [] => rules.pure ()
  | s :: rest => rules.bind (rules.stmt s) fun _ => rules.stmts rest

theorem stmt (rules : TreeRules @P) : ∀ s : Stmt, P s.resolve
  | .bind _ pattern none none => rules.pattern true pattern
  | .bind _ pattern (some ty) none =>
      rules.bind (rules.discard (rules.ty ty)) fun _ => rules.pattern true pattern
  | .bind _ pattern none (some init) =>
      rules.bind (rules.expr init) fun _ => rules.pattern true pattern
  | .bind _ pattern (some ty) (some init) =>
      rules.bind (rules.discard (rules.ty ty)) fun _ => rules.bind (rules.expr init) fun _ =>
        rules.pattern true pattern
  | .expr _ value => rules.expr value
  | .empty _ => rules.pure ()

end

/-- Everything that is done inside the items, whichever nodes are bound as `Self`. -/
theorem passRules (rules : TreeRules @P) : PassRules (fun _ => True) @P where
  toSequenceRules := rules.toSequenceRules
  inFrame := rules.inFrame
  inModule := rules.inModule
  bindName := rules.bindName
  pattern := rules.pattern
  path := rules.path
  ty t := rules.discard (rules.ty t)
  expr := rules.expr
  block := rules.block
  selfType owner t h := rules.bind (rules.ty t) fun _ => rules.bind (rules.bindSelf owner _ _)
    fun _ => h
  selfTrait owner locus _ := rules.bindSelf owner (some owner) locus

section Crate

variable (rules : TreeRules @P)

include rules

theorem inCrate {act : Resolution Unit} (h : P act) : P (inCrate act) :=
  rules.bind rules.get fun s => rules.inFrame s.builtins.prelude (rules.inModule s.root h)

/-- Registering the items of a crate. -/
theorem declareCrate (c : Crate) : P c.declare :=
  rules.bind rules.get fun s =>
    rules.inCrate (rules.declareItems (.ofModule s.rootPath) c.items)

/-- Resolving the items of a crate. -/
theorem resolveCrate (c : Crate) : P c.resolveItems :=
  rules.inCrate (rules.passRules.items c.items fun _ _ => trivial)

end Crate

end TreeRules

/-! ### Primitive actions -/

/-- What the nodes of a tree were resolved to in a namespace. -/
def Tables.entered (t : Tables) : Namespace → Register NodeId
  | .name => t.names
  | .type => t.types

/-- What has been resolved stays: entries are only added in front. -/
def Tables.KeepsEntries (t t' : Tables) : Prop :=
  ∀ space, (t.entered space).entries <:+ (t'.entered space).entries

namespace Tables.KeepsEntries

variable {t t₁ t₂ : Tables}

theorem refl (t : Tables) : t.KeepsEntries t := fun _ => List.suffix_refl _

theorem trans (h₁ : t.KeepsEntries t₁) (h₂ : t₁.KeepsEntries t₂) : t.KeepsEntries t₂ :=
  fun space => (h₁ space).trans (h₂ space)

theorem setResolved (t : Tables) (space : Namespace) (use decl : NodeId) :
    t.KeepsEntries (t.setResolved space use decl) := by
  intro x
  cases space <;> cases x <;>
    first
    | exact List.suffix_cons _ _
    | exact List.suffix_refl _

theorem addChild (t : Tables) (parent : NodeId) (child : Child) :
    t.KeepsEntries (t.addChild parent child) := by
  unfold Tables.addChild
  split <;> exact refl t

end Tables.KeepsEntries

/-- A property of actions that goes along with sequencing and holds of the few actions that touch
the session. Tables are only changed in such a way that what has been resolved stays. -/
structure PrimitiveRules (P : ∀ {α : Type}, Resolution α → Prop) : Prop
    extends SequenceRules @P where
  throw : ∀ {α : Type} (v : Violation), P (throw v : Resolution α)
  get : P get
  ofExcept : ∀ {α : Type} (r : Except Violation α), P (Resolution.ofExcept r)
  report : ∀ e : ResolveError, P (report e)
  updateTables : ∀ f : Tables → Tables, (∀ t : Tables, t.KeepsEntries (f t)) → P (updateTables f)
  setPath : ∀ (id : NodeId) (path : CanonicalPath), P (setPath id path)
  makeBinding : ∀ (space : Namespace) (b : Binding) (shadow : Bool)
    (complaint : Binding → Binding → ResolveError), P (makeBinding space b shadow complaint)
  inFrame : ∀ {act : Resolution Unit} (owner : NodeId), P act → P (inFrame owner act)
  inModule : ∀ {act : Resolution Unit} (module : NodeId), P act → P (inModule module act)

namespace PrimitiveRules

variable {P : ∀ {α : Type}, Resolution α → Prop} (rules : PrimitiveRules @P)

include rules

theorem currentModule : P currentModule := rules.bind rules.get fun _ => rules.ofExcept _

theorem declarationParts : DeclarationParts (fun _ => True) @P where
  pure := rules.pure
  bind := rules.bind
  report := rules.report
  currentModule := rules.currentModule
  makeBinding := rules.makeBinding
  addChild parent child := rules.updateTables _ fun t => .addChild t parent child
  setVisibility _ _ := rules.updateTables _ fun t => .refl t
  setPath := rules.setPath
  markContainer _ _ := rules.updateTables _ fun t => .refl t
  setParent _ _ _ := rules.updateTables _ fun t => .refl t

theorem bindTo (seg : PathSegment) (space : Namespace) (decl here : NodeId) :
    P (seg.bindTo space decl here) := by
  unfold PathSegment.bindTo bindSegment
  refine rules.updateTables _ fun t => ?_
  have hset := Tables.KeepsEntries.setResolved t space seg.node.id decl
  dsimp only
  split
  · exact hset
  · exact hset.trans fun _ => List.suffix_refl _

theorem bindSelf (owner : NodeId) (target : Option NodeId) (locus : Span) :
    P (bindSelf owner target locus) := by
  cases target with
  | none => exact rules.pure ()
  | some decl =>
      exact rules.bind (rules.makeBinding .type _ false redefinition) fun _ => rules.pure ()

/-- Both passes are made of the primitive actions. -/
theorem treeRules : TreeRules @P where
  toDeclarationRules := rules.declarationParts.rules
  get := rules.get
  unclassified id := rules.throw (.unclassifiedDeclaration id)
  missing decl := rules.throw (.missingCanonicalPath decl)
  rootModule := rules.bind rules.get fun _ => rules.ofExcept _
  bindTo := rules.bindTo
  addNested _ _ := rules.updateTables _ fun t => .refl t
  inFrame := rules.inFrame
  inModule := rules.inModule
  setResolved space use decl := rules.updateTables _ fun t => .setResolved t space use decl
  setQualified _ _ := rules.updateTables _ fun t => .refl t
  bindSelf := rules.bindSelf

end PrimitiveRules

/-- All actions keep to a stable relation that allows for any tables in which what has been
resolved stays, and for the closing of a frame and of a module. -/
theorem Session.Stable.primitives {R : Session → Session → Prop} (stable : Session.Stable R)
    (htables : ∀ (s : Session) (t : Tables), s.tables.KeepsEntries t → R s (s.withTables t))
    (hframe : ∀ {s s₁ : Session} {owner : NodeId},
      R (s.openFrame owner) s₁ → R s s₁.withoutFrame)
    (hmodule : ∀ {s s₁ : Session} {module : NodeId},
      R (s.openModule module) s₁ → R s s₁.withoutModule) :
    PrimitiveRules (@Keeps R) where
  pure := stable.pure
  bind := stable.bind
  throw := stable.throw
  get := stable.get
  ofExcept := stable.ofExcept
  report := stable.report
  updateTables _ h := Session.Stable.updateTables fun s => htables s _ (h s.tables)
  setPath := stable.setPath
  makeBinding := stable.makeBinding
  inFrame _ h := h.inFrame hframe
  inModule _ h := h.inModule hmodule

end NameResolution
