import NameResolution.Resolve.Crate
import NameResolution.Proofs.Identities

/-!
# NameResolution.Proofs.PassRules

**What both passes keep to.** Registering and resolving the items of a crate is put
together from a few actions, and `PassRules P` says that a property `P` of actions holds of
each of them and goes along with sequencing. Then `P` holds of both passes over every item
(`ActionRules.declareItems`, `PassRules.items`), whatever the tree looks like. What is said
of declarations alone, and not of entering modules, needs fewer rules
(`DeclarationRules.declareFlat`), and most often they hold because they hold of each part
of a declaration (`DeclarationParts.rules`).

The paths, types, expressions and blocks inside the items are taken as they are: what holds
of them is a rule as well. So a property comes with its own induction over these, and needs
none over the items.
-/

namespace NameResolution

open Resolution

/-- Whether an error is about a name that is introduced again. -/
def ResolveError.isRedefinition : ResolveError → Bool
  | .duplicateDefinition _ _ _ | .genericParamRedefined _ _ _ => true
  | .superAtCrateScope _ | .cannotFindPath _ _ | .failedToResolvePath _ _ | .segmentHasError _ _
  | .privateItem _ _ _ => false

mutual

/-- The traits that an item is or holds. -/
def Item.traitIds : Item → List NodeId
  | ⟨n, _, .trait _⟩ => [n.id]
  | ⟨_, _, .module _ items⟩ => itemsTraitIds items
  | _ => []

def itemsTraitIds : List Item → List NodeId
  | [] => []
  | item :: rest => item.traitIds ++ itemsTraitIds rest

end

/-- A property of actions that goes along with sequencing. -/
structure SequenceRules (P : ∀ {α : Type}, Resolution α → Prop) : Prop where
  pure : ∀ {α : Type} (a : α), P (pure a)
  bind : ∀ {α β : Type} {act : Resolution α} {next : α → Resolution β},
    P act → (∀ a, P (next a)) → P (act >>= next)

/-- A property of actions that goes along with sequencing and holds of the actions that declarations
are made of. A node may be placed in a module where `placed` allows it. Two of the rules are about
actions that belong together: a node becomes a container once it has a canonical path, and a name
that was bound gets a canonical path. -/
structure DeclarationRules (placed : NodeId → Prop) (P : ∀ {α : Type}, Resolution α → Prop) :
    Prop extends SequenceRules @P where
  report : ∀ e : ResolveError, P (report e)
  currentModule : P currentModule
  setParent : ∀ id module : NodeId, placed id → P (setParent id module)
  setPath : ∀ (id : NodeId) (path : CanonicalPath), P (setPath id path)
  declare : ∀ (space : Namespace) (id : NodeId) (name : Ident) (place : Place) (vis : Visibility)
    (container : Option NodeId), P (declare space id name place vis container)
  declareContainer : ∀ {next : Place → Resolution Unit} (space : Namespace) (id : NodeId)
    (name : Ident) (place : Place) (vis : Visibility) (container : Option NodeId)
    (kind : ContainerKind), (∀ inner, P (next inner)) →
    P (NameResolution.declare space id name place vis container >>= fun inner =>
      markContainer id kind >>= fun _ => next inner)
  bindNamed : ∀ {next : Resolution Unit} (space : Namespace) (b : Binding) (shadow : Bool)
    (complaint : Binding → Binding → ResolveError) (path : CanonicalPath), P next →
    P (makeBinding space b shadow complaint >>= fun made =>
      if made then Resolution.setPath b.id path >>= fun _ => next else Pure.pure ())

/-- A property of actions that goes along with sequencing and holds of everything that a declaration
does by itself. -/
structure DeclarationParts (placed : NodeId → Prop) (P : ∀ {α : Type}, Resolution α → Prop) :
    Prop extends SequenceRules @P where
  report : ∀ e : ResolveError, P (report e)
  currentModule : P currentModule
  makeBinding : ∀ (space : Namespace) (b : Binding) (shadow : Bool)
    (complaint : Binding → Binding → ResolveError), P (makeBinding space b shadow complaint)
  addChild : ∀ (parent : NodeId) (child : Child), P (updateTables (·.addChild parent child))
  setVisibility : ∀ (id : NodeId) (v : DeclVisibility),
    P (updateTables fun t => { t with visibilities := t.visibilities.set id v })
  setPath : ∀ (id : NodeId) (path : CanonicalPath), P (setPath id path)
  markContainer : ∀ (id : NodeId) (kind : ContainerKind), P (markContainer id kind)
  setParent : ∀ id module : NodeId, placed id → P (setParent id module)

/-- A property of actions that goes along with sequencing and holds of the actions that the steps
along a path are made of. No step complains about a name that is introduced again. -/
structure StepRules (P : ∀ {α : Type}, Resolution α → Prop) : Prop extends SequenceRules @P where
  complain : ∀ e : ResolveError, e.isRedefinition = false → P (report e)
  get : P get
  unclassified : ∀ {α : Type} (id : NodeId), P (throw (.unclassifiedDeclaration id) : Resolution α)
  bindTo : ∀ (seg : PathSegment) (space : Namespace) (decl here : NodeId),
    P (seg.bindTo space decl here)

/-- A property of actions that goes along with sequencing and holds of registering items. A module
may be entered where `entered` allows it. -/
structure ModuleRules (placed entered : NodeId → Prop) (P : ∀ {α : Type}, Resolution α → Prop) :
    Prop extends DeclarationRules placed @P where
  addNested : ∀ here module : NodeId, P (updateTables (·.addNested here module))
  inModule : ∀ {act : Resolution Unit} (module : NodeId), entered module → P act →
    P (inModule module act)

/-- A property of actions that holds of everything else the passes are made of as well. -/
structure ActionRules (P : ∀ {α : Type}, Resolution α → Prop) : Prop
    extends DeclarationRules (fun _ => True) @P, StepRules @P where
  rootModule : P rootModule
  addNested : ∀ here module : NodeId, P (updateTables (·.addNested here module))
  inFrame : ∀ {act : Resolution Unit} (owner : NodeId), P act → P (inFrame owner act)
  inModule : ∀ {act : Resolution Unit} (module : NodeId), P act → P (inModule module act)
  complain := fun e _ => report e

/-- A property of actions that goes along with sequencing and holds of what is done inside the
items. `Self` is bound to what a type was resolved to, and without a type where `named` allows
it. -/
structure PassRules (named : NodeId → Prop) (P : ∀ {α : Type}, Resolution α → Prop) : Prop
    extends SequenceRules @P where
  inFrame : ∀ {act : Resolution Unit} (owner : NodeId), P act → P (inFrame owner act)
  inModule : ∀ {act : Resolution Unit} (module : NodeId), P act → P (inModule module act)
  bindName : ∀ (space : Namespace) (b : Binding) (shadow : Bool)
    (complaint : Binding → Binding → ResolveError) (path : CanonicalPath),
    P (makeBinding space b shadow complaint >>= fun made =>
      if made then Resolution.setPath b.id path else Pure.pure ())
  pattern : ∀ (shadow : Bool) (p : Pattern), P (p.bindNames shadow)
  path : ∀ (prefer : Namespace) (p : Path), P (p.resolve prefer)
  ty : ∀ t : Ty, P (Functor.discard t.resolve)
  expr : ∀ e : Expr, P e.resolve
  block : ∀ b : Block, P b.resolve
  selfType : ∀ {next : Resolution Unit} (owner : NodeId) (t : Ty), P next →
    P (t.resolve >>= fun self => bindSelf owner self.decl t.node.span >>= fun _ => next)
  selfTrait : ∀ (owner : NodeId) (locus : Span), named owner →
    P (bindSelf owner (some owner) locus)

/-! ### Sequences -/

namespace SequenceRules

variable {P : ∀ {α : Type}, Resolution α → Prop} (rules : SequenceRules @P) {α : Type}

include rules

theorem discard {act : Resolution α} (h : P act) : P (Functor.discard act) :=
  rules.bind h fun _ => rules.pure ()

theorem forM {f : α → Resolution Unit} (l : List α) (h : ∀ a ∈ l, P (f a)) : P (l.forM f) := by
  induction l with
  | nil => exact rules.pure ()
  | cons a l ih =>
      refine rules.bind (h a List.mem_cons_self) fun _ => ?_
      exact ih fun b hb => h b (List.mem_cons_of_mem _ hb)

theorem optional {f : α → Resolution Unit} (h : ∀ a, P (f a)) (o : Option α) :
    P (resolveOptional f o) := by
  cases o with
  | none => exact rules.pure ()
  | some a => exact h a

end SequenceRules

/-! ### Declarations -/

namespace DeclarationParts

variable {placed : NodeId → Prop} {P : ∀ {α : Type}, Resolution α → Prop}
  (parts : DeclarationParts placed @P)

include parts

theorem declare (space : Namespace) (id : NodeId) (name : Ident) (place : Place) (vis : Visibility)
    (container : Option NodeId) : P (declare space id name place vis container) := by
  have hdescribe : ∀ inner : Place, P (do
      let here ← Resolution.currentModule
      Resolution.updateTables fun t =>
        { t with visibilities := t.visibilities.set id ⟨vis, here, name.span⟩ }
      Resolution.setPath id inner.path
      return inner) := by
    intro inner
    refine parts.bind parts.currentModule fun here => parts.bind (parts.setVisibility id _) ?_
    exact fun _ => parts.bind (parts.setPath id inner.path) fun _ => parts.pure inner
  refine parts.bind (parts.makeBinding space _ false redefinition) fun made => ?_
  cases made with
  | false => exact hdescribe _
  | true =>
      cases container with
      | none => exact hdescribe _
      | some parent => exact parts.bind (parts.addChild parent _) fun _ => hdescribe _

/-- What holds of the parts holds of declarations. -/
theorem rules : DeclarationRules placed @P where
  pure := parts.pure
  bind := parts.bind
  report := parts.report
  currentModule := parts.currentModule
  setParent := parts.setParent
  setPath := parts.setPath
  declare := parts.declare
  declareContainer space id name place vis container kind h :=
    parts.bind (parts.declare space id name place vis container) fun inner =>
      parts.bind (parts.markContainer id kind) fun _ => h inner
  bindNamed space b shadow complaint path h := by
    refine parts.bind (parts.makeBinding space b shadow complaint) fun made => ?_
    cases made with
    | false => exact parts.pure ()
    | true => exact parts.bind (parts.setPath b.id path) fun _ => h

end DeclarationParts

namespace DeclarationRules

variable {placed : NodeId → Prop} {P : ∀ {α : Type}, Resolution α → Prop}
  (rules : DeclarationRules placed @P)

include rules

theorem placeInModule {id : NodeId} (h : placed id) : P (placeInModule id) :=
  rules.bind rules.currentModule fun here => rules.setParent id here h

/-- A variant, a trait item or an implementation item. -/
theorem declareMember {id : NodeId} (h : placed id) (space : Namespace) (name : Ident)
    (place : Place) (vis : Visibility) (container : Option NodeId) :
    P (do
      Functor.discard (NameResolution.declare space id name place vis container)
      NameResolution.placeInModule id) :=
  rules.bind (rules.discard (rules.declare space id name place vis container)) fun _ =>
    rules.placeInModule h

theorem declareImplItem {i : ImplItem} (h : placed i.node.id) (place : Place) :
    P (i.declare place) :=
  rules.declareMember h i.kind.declares.1 i.kind.declares.2 place i.vis none

theorem declareInherentImpl {i : InherentImpl} (h : ∀ x ∈ i.items, placed x.node.id) (id : NodeId)
    (place : Place) : P (i.declare id place) := by
  unfold InherentImpl.declare
  split
  · exact rules.report _
  · exact rules.bind (rules.setPath id _) fun _ =>
      rules.forM i.items fun x hx => rules.declareImplItem (h x hx) _

theorem declareTraitImpl {i : TraitImpl} (h : ∀ x ∈ i.items, placed x.node.id) (node : Node)
    (place : Place) : P (i.declare node place) := by
  unfold TraitImpl.declare
  dsimp only
  split
  · exact rules.report _
  · next projection _ =>
      exact rules.bindNamed .name ⟨(place.extend projection).key, node.id, node.span⟩ false
        redefinition _ (rules.forM i.items fun x hx => rules.declareImplItem (h x hx) _)

theorem declareForeignItem {i : ForeignItem} (h : placed i.node.id) (place : Place) :
    P (i.declare place) := by
  refine rules.bind rules.currentModule fun here => ?_
  refine rules.bind (rules.discard ?_) fun _ => rules.setParent i.node.id here h
  exact rules.declare .name i.node.id i.kind.name place i.vis (some here)

theorem declareLeaf (space : Namespace) (node : Node) (vis : Visibility) (here : NodeId)
    (place : Place) (name : Ident) : P (declareLeaf space node vis here place name) :=
  rules.discard (rules.declare space node.id name place vis (some here))

/-- What an item declares apart from nested modules. -/
theorem declareFlat {kind : ItemKind} (hflat : ∀ name items, kind ≠ .module name items)
    (h : ∀ id ∈ kind.memberIds, placed id) (node : Node) (vis : Visibility) (here : NodeId)
    (place : Place) : P (kind.declare node vis here place) := by
  cases kind with
  | module name items => exact absurd rfl (hflat name items)
  | enum e =>
      refine rules.declareContainer .type node.id e.name place vis (some here) .enum fun inner => ?_
      exact rules.forM e.variants fun v hv =>
        rules.declareMember (h _ (List.mem_map_of_mem hv)) .type v.name inner vis _
  | trait t =>
      refine rules.declareContainer .type node.id t.name place vis (some here) .trait
        fun inner => ?_
      exact rules.forM t.items fun i hi => rules.declareMember (h _ (List.mem_map_of_mem hi))
        i.kind.declares.1 i.kind.declares.2 inner vis _
  | inherentImpl i =>
      exact rules.declareInherentImpl (fun x hx => h _ (List.mem_map_of_mem hx)) node.id place
  | traitImpl i =>
      exact rules.declareTraitImpl (fun x hx => h _ (List.mem_map_of_mem hx)) node place
  | foreign b =>
      exact rules.forM b.items fun i hi =>
        rules.declareForeignItem (h _ (List.mem_map_of_mem hi)) place
  | _ => exact rules.declareLeaf _ node vis here place _

/-- An item that is no module. -/
theorem declareFlatItem {node : Node} {vis : Visibility} {kind : ItemKind}
    (hflat : ∀ name items, kind ≠ .module name items)
    (h : ∀ id ∈ node.id :: kind.memberIds, placed id) (place : Place) :
    P (Item.declare place ⟨node, vis, kind⟩) := by
  refine rules.bind rules.currentModule fun here => rules.bind ?_ fun _ =>
    rules.setParent node.id here (h node.id List.mem_cons_self)
  exact rules.declareFlat hflat (fun id hid => h id (List.mem_cons_of_mem _ hid)) node vis here place

end DeclarationRules

namespace ModuleRules

variable {placed entered : NodeId → Prop} {P : ∀ {α : Type}, Resolution α → Prop}

mutual

/-- Registering an item whose nodes may all be placed and whose modules may all be entered. -/
theorem declareItem (rules : ModuleRules placed entered @P) : ∀ (item : Item) (place : Place),
    (∀ id ∈ item.declaredIds, placed id) → (∀ id ∈ item.moduleIds, entered id) →
      P (item.declare place)
  | ⟨node, vis, kind⟩, place, hplaced, hentered => by
      cases kind with
      | module name items =>
          refine rules.bind rules.currentModule fun here => rules.bind ?_ fun _ =>
            rules.setParent node.id here (hplaced node.id List.mem_cons_self)
          refine rules.declareContainer .name node.id name place vis (some here) .module
            fun inner => ?_
          refine rules.bind (rules.addNested here node.id) fun _ => ?_
          exact rules.inModule node.id (hentered node.id List.mem_cons_self)
            (declareItems rules items _ (fun id hid => hplaced id (List.mem_cons_of_mem _ hid))
              fun id hid => hentered id (List.mem_cons_of_mem _ hid))
      | _ =>
          refine rules.declareFlatItem (by simp) ?_ place
          exact hplaced

theorem declareItems (rules : ModuleRules placed entered @P) : ∀ (items : List Item)
    (place : Place), (∀ id ∈ itemsDeclaredIds items, placed id) →
      (∀ id ∈ itemsModuleIds items, entered id) → P (NameResolution.declareItems place items)
  | [], _, _, _ => rules.pure ()
  | item :: rest, place, hplaced, hentered => by
      have hitem := declareItem rules item place
        (fun id hid => hplaced id (List.mem_append_left _ hid))
        fun id hid => hentered id (List.mem_append_left _ hid)
      exact rules.bind hitem fun _ => declareItems rules rest place
        (fun id hid => hplaced id (List.mem_append_right _ hid))
        fun id hid => hentered id (List.mem_append_right _ hid)

end

end ModuleRules

/-! ### Steps along a path -/

namespace StepRules

variable {P : ∀ {α : Type}, Resolution α → Prop} (rules : StepRules @P)

include rules

theorem stopWith {α : Type} {e : ResolveError} (he : e.isRedefinition = false) :
    P (NameResolution.stopWith e : Resolution (Option α)) :=
  rules.bind (rules.complain e he) fun _ => rules.pure none

theorem unlessDeferred (pos : Position) {step : Resolution (Option Position)} (h : P step) :
    P (unlessDeferred pos step) := by
  refine rules.bind rules.get fun s => ?_
  split
  · exact rules.pure none
  · exact h

theorem enterModule (w : Walk) (seg : PathSegment) (module : NodeId) :
    P (enterModule w seg module) :=
  rules.bind (rules.bindTo seg .name module w.here) fun _ => rules.pure _

theorem followFirst (w : Walk) (pos : Position) (seg : PathSegment) (module : NodeId) :
    P (followFirst w pos seg module) := by
  unfold NameResolution.followFirst
  split
  · exact rules.stopWith rfl
  · exact rules.enterModule w seg module

theorem followSuper (w : Walk) (pos : Position) (seg : PathSegment) :
    P (followSuper w pos seg) := by
  refine rules.bind rules.get fun s => ?_
  split
  · exact rules.stopWith rfl
  · split
    · split
      · exact rules.stopWith rfl
      · exact rules.enterModule w seg _
    · exact rules.stopWith rfl

theorem enterDeclaration (w : Walk) (pos : Position) (seg : PathSegment) (space : Namespace)
    (decl : NodeId) : P (enterDeclaration w pos seg space decl) :=
  rules.bind (rules.bindTo seg space decl w.here) fun _ =>
    rules.bind rules.get fun _ => rules.pure _

theorem followName (w : Walk) (pos : Position) (seg : PathSegment) (name : String)
    (isLast : Bool) : P (followName w pos seg name isLast) := by
  refine rules.bind rules.get fun s => ?_
  dsimp only
  split
  · split
    · exact rules.unclassified _
    · exact rules.enterDeclaration w pos seg _ _
  · split
    · exact rules.stopWith rfl
    · split
      · exact rules.stopWith rfl
      · exact rules.enterDeclaration w pos seg _ _

/-- A segment whose arguments, if it has any, keep the rules. -/
theorem follow (w : Walk) (pos : Position) (isLast : Bool) : ∀ seg : PathSegment,
    (∀ args, seg.generics = some args → P args.resolve) → P (seg.follow w pos isLast)
  | ⟨_, .malformed, _⟩, _ => rules.stopWith rfl
  | ⟨_, .crate, _⟩, _ => rules.unlessDeferred pos (rules.followFirst w pos _ w.root)
  | ⟨_, .selfModule, _⟩, _ => rules.unlessDeferred pos (rules.followFirst w pos _ w.here)
  | ⟨_, .super, _⟩, _ => rules.unlessDeferred pos (rules.followSuper w pos _)
  | ⟨_, .ident name, none⟩, _ => rules.unlessDeferred pos (rules.followName w pos _ name isLast)
  | ⟨_, .ident name, some args⟩, h =>
      rules.unlessDeferred pos <|
        rules.bind (h args rfl) fun _ => rules.followName w pos _ name isLast

/-- A segment that is appended as written. -/
theorem append (path : CanonicalPath) : ∀ seg : PathSegment,
    (∀ args, seg.generics = some args → P args.resolve) → P (seg.append path)
  | ⟨_, ident, none⟩, _ => by
      unfold PathSegment.append
      dsimp only
      split
      · exact rules.stopWith rfl
      · exact rules.bind (rules.pure ()) fun _ => rules.pure _
  | ⟨_, ident, some args⟩, h => by
      unfold PathSegment.append
      dsimp only
      split
      · exact rules.stopWith rfl
      · exact rules.bind (h args rfl) fun _ => rules.pure _

theorem receiver? (w : Walk) (segments : List PathSegment) : P (receiver? w segments) := by
  unfold NameResolution.receiver?
  split
  · split
    · refine rules.bind rules.get fun s => ?_
      split
      · exact rules.pure none
      · exact rules.bind (rules.bindTo _ _ _ _) fun _ => rules.pure _
    · exact rules.pure none
  · exact rules.pure none

end StepRules

namespace ActionRules

variable {P : ∀ {α : Type}, Resolution α → Prop}

section Parts

variable (rules : ActionRules @P)

include rules

/-- A name that was bound gets a canonical path, and that is all. -/
theorem bindName (space : Namespace) (b : Binding) (shadow : Bool)
    (complaint : Binding → Binding → ResolveError) (path : CanonicalPath) :
    P (makeBinding space b shadow complaint >>= fun made =>
      if made then Resolution.setPath b.id path else Pure.pure ()) := by
  have h := rules.bindNamed space b shadow complaint path (rules.pure ())
  simpa only [bind_pure_unit] using h

/-- Anything may be placed and entered. -/
theorem modules : ModuleRules (fun _ => True) (fun _ => True) @P where
  toDeclarationRules := rules.toDeclarationRules
  addNested := rules.addNested
  inModule module _ := rules.inModule module

/-! ### The first pass -/

/-- Registering an item. -/
theorem declareItem (place : Place) (item : Item) : P (item.declare place) :=
  rules.modules.declareItem item place (fun _ _ => trivial) fun _ _ => trivial

theorem declareItems (place : Place) (items : List Item) :
    P (NameResolution.declareItems place items) :=
  rules.modules.declareItems items place (fun _ _ => trivial) fun _ _ => trivial

end Parts

mutual

/-- Binding the names of a pattern. -/
theorem pattern (rules : ActionRules @P) (shadow : Bool) : ∀ p : Pattern,
    P (p.bindNames shadow)
  | .binding _ _ _ => rules.bindName .name _ shadow redefinition _
  | .tuple _ elems => patterns rules shadow elems
  | .wildcard _ => rules.pure ()

theorem patterns (rules : ActionRules @P) (shadow : Bool) : ∀ ps : List Pattern,
    P (bindPatterns shadow ps)
  | [] => rules.pure ()
  | p :: ps => rules.bind (pattern rules shadow p) fun _ => patterns rules shadow ps

end

end ActionRules

namespace PassRules

variable {named : NodeId → Prop} {P : ∀ {α : Type}, Resolution α → Prop}

section Items

variable (rules : PassRules named @P)

include rules

/-! ### The second pass -/

theorem bounds (bs : List Bound) : P (resolveBounds bs) := by
  induction bs with
  | nil => exact rules.pure ()
  | cons b bs ih =>
      refine rules.bind (rules.discard ?_) fun _ => ih
      rcases b with ⟨_, p⟩ | _
      · exact rules.path .type p
      · exact rules.pure none

theorem optionalTy (t : Option Ty) :
    P (resolveOptional (fun ty => Functor.discard ty.resolve) t) :=
  rules.optional rules.ty t

theorem optionalExpr (e : Option Expr) : P (resolveOptional Expr.resolve e) :=
  rules.optional rules.expr e

theorem genericParam (p : GenericParam) : P p.resolve := by
  unfold GenericParam.resolve
  split
  · next bounds default _ =>
      refine rules.bind (rules.optionalTy default) fun _ => ?_
      exact rules.bind (rules.bounds bounds) fun _ => rules.bindName .type _ _ _ _
  · next ty default _ =>
      refine rules.bind (rules.ty ty) fun _ => ?_
      exact rules.bind (rules.optionalExpr default) fun _ => rules.bindName .name _ _ _ _
  · exact rules.pure ()

theorem wherePredicate (p : WherePredicate) : P p.resolve :=
  rules.bind (rules.ty p.ty) fun _ => rules.bounds p.bounds

theorem generics (g : Generics) : P g.resolve := by
  refine rules.bind (rules.forM g.params fun p _ => rules.genericParam p) fun _ => ?_
  exact rules.optional
    (fun w : WhereClause => rules.forM w.predicates fun p _ => rules.wherePredicate p) _

theorem const (c : ConstDecl) : P c.resolve :=
  rules.bind (rules.ty c.ty) fun _ => rules.optionalExpr c.init

theorem static (s : StaticDecl) : P s.resolve :=
  rules.bind (rules.ty s.ty) fun _ => rules.optionalExpr s.init

theorem typeAlias (owner : NodeId) (a : AliasDecl) : P (a.resolve owner) :=
  rules.inFrame owner <|
    rules.bind (rules.generics a.generics) fun _ => rules.ty a.ty

theorem receiver (r : SelfParam) : P r.bindName :=
  rules.bindName .name _ false redefinition _

theorem param (p : Param) : P p.resolve :=
  rules.bind (rules.ty p.ty) fun _ => rules.pattern false p.pattern

/-- Resolving a function. -/
theorem function (owner : NodeId) (f : FunctionDecl) : P (f.resolve owner) := by
  refine rules.inFrame owner ?_
  refine rules.bind (rules.generics f.generics) fun _ => ?_
  refine rules.bind (rules.optional rules.receiver f.receiver) fun _ => ?_
  refine rules.bind (rules.forM f.params fun p _ => rules.param p) fun _ => ?_
  exact rules.bind (rules.optionalTy f.ret) fun _ => rules.optional rules.block f.body

theorem namedFields (fields : List NamedField) : P (fields.forM NamedField.resolve) :=
  rules.forM fields fun f _ => rules.ty f.ty

theorem tupleFields (fields : List TupleField) : P (fields.forM TupleField.resolve) :=
  rules.forM fields fun f _ => rules.ty f.ty

theorem variant (v : Variant) : P v.resolve := by
  unfold Variant.resolve
  split
  · exact rules.pure ()
  · exact rules.tupleFields _
  · exact rules.namedFields _
  · exact rules.expr _

theorem implItems (items : List ImplItem) : P (items.forM ImplItem.resolve) := by
  refine rules.forM items fun i _ => ?_
  unfold ImplItem.resolve
  split
  · exact rules.function i.node.id _
  · exact rules.const _
  · exact rules.typeAlias i.node.id _

theorem traitItem (i : TraitItem) : P i.resolve := by
  unfold TraitItem.resolve
  split
  · exact rules.function i.node.id _
  · exact rules.const _
  · exact rules.bounds _

theorem foreignItem (i : ForeignItem) : P i.resolve := by
  unfold ForeignItem.resolve
  split
  · exact rules.function i.node.id _
  · exact rules.ty _

theorem inherentImpl (owner : NodeId) (i : InherentImpl) : P (i.resolve owner) := by
  refine rules.inFrame owner ?_
  refine rules.bind (rules.generics i.generics) fun _ => ?_
  exact rules.selfType owner i.selfTy (rules.implItems i.items)

theorem traitImpl (owner : NodeId) (i : TraitImpl) : P (i.resolve owner) := by
  refine rules.inFrame owner ?_
  refine rules.bind (rules.generics i.generics) fun _ => ?_
  refine rules.bind (rules.discard (rules.path .type i.traitPath)) fun _ => ?_
  exact rules.selfType owner i.selfTy (rules.implItems i.items)

theorem trait (node : Node) (h : named node.id) (t : TraitDecl) : P (t.resolve node) := by
  refine rules.inFrame node.id ?_
  refine rules.bind (rules.generics t.generics) fun _ => ?_
  refine rules.bind (rules.selfTrait node.id node.span h) fun _ => ?_
  refine rules.bind (rules.bounds t.supertraits) fun _ => ?_
  exact rules.forM t.items fun i _ => rules.traitItem i

theorem record (owner : NodeId) (r : RecordDecl) : P (r.resolve owner) :=
  rules.inFrame owner <| rules.bind (rules.generics r.generics) fun _ => rules.namedFields r.fields

theorem tupleStruct (owner : NodeId) (s : TupleStructDecl) : P (s.resolve owner) :=
  rules.inFrame owner <| rules.bind (rules.generics s.generics) fun _ => rules.tupleFields s.fields

theorem enum (owner : NodeId) (e : EnumDecl) : P (e.resolve owner) :=
  rules.inFrame owner <| rules.bind (rules.generics e.generics) fun _ =>
    rules.forM e.variants fun v _ => rules.variant v

end Items

mutual

/-- Resolving an item whose traits may all be bound as `Self`. -/
theorem item (rules : PassRules named @P) : ∀ item : Item, (∀ id ∈ item.traitIds, named id) →
    P item.resolve
  | ⟨n, _, .module _ list⟩, h => rules.inModule n.id (items rules list h)
  | ⟨n, _, .trait t⟩, h => rules.trait n (h n.id List.mem_cons_self) t
  | ⟨n, _, .inherentImpl i⟩, _ => rules.inherentImpl n.id i
  | ⟨n, _, .traitImpl i⟩, _ => rules.traitImpl n.id i
  | ⟨_, _, .foreign b⟩, _ => rules.forM b.items fun i _ => rules.foreignItem i
  | ⟨n, _, .typeAlias a⟩, _ => rules.typeAlias n.id a
  | ⟨n, _, .struct s⟩, _ => rules.record n.id s
  | ⟨n, _, .tupleStruct s⟩, _ => rules.tupleStruct n.id s
  | ⟨n, _, .enum e⟩, _ => rules.enum n.id e
  | ⟨n, _, .union u⟩, _ => rules.record n.id u
  | ⟨_, _, .static s⟩, _ => rules.static s
  | ⟨_, _, .const c⟩, _ => rules.const c
  | ⟨n, _, .function f⟩, _ => rules.function n.id f

theorem items (rules : PassRules named @P) : ∀ items : List Item,
    (∀ id ∈ itemsTraitIds items, named id) → P (resolveItems items)
  | [], _ => rules.pure ()
  | first :: rest, h =>
      rules.bind (item rules first fun id hid => h id (List.mem_append_left _ hid)) fun _ =>
        items rules rest fun id hid => h id (List.mem_append_right _ hid)

end

end PassRules

end NameResolution
