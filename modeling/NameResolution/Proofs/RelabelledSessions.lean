import Mathlib.Data.Prod.Basic
import NameResolution.Proofs.Execution
import NameResolution.Proofs.RelabelledTrees
import NameResolution.Resolve.Crate

/-!
# NameResolution.Proofs.RelabelledSessions

**The state of a resolution under a relabelling.** Everything that holds identities is
carried along: canonical paths, symbol tables, the stack of modules, the tables and the
session as a whole. Errors hold no identities and stay as they are.

A relabelling that keeps all identities apart is not noticed by anyone who asks: a name is
found or not, a declaration is classified, a child is chosen and a chain of modules is
followed as before (`Session.findLexical?_relabel`, `Session.classify_relabel`,
`Session.pickChild?_relabel`, `Tables.enclosing_relabel`). Visibilities are never asked for
but by the privacy check.
-/

namespace NameResolution

variable (ρ : Relabelling)

/-! ## What holds identities -/

/-- A canonical path under a relabelling. -/
def CanonicalPath.relabel (p : CanonicalPath) : CanonicalPath :=
  ⟨p.segments.map (Prod.map ρ.node id)⟩

/-- A binding under a relabelling. -/
def Binding.relabel (b : Binding) : Binding := ⟨b.path.relabel ρ, ρ.node b.id, b.locus⟩

/-- A rib under a relabelling. -/
def Rib.relabel (r : Rib) : Rib := ⟨ρ.node r.owner, r.bindings.map (Binding.relabel ρ)⟩

/-- A symbol table under a relabelling. -/
def Scope.relabel (s : Scope) : Scope :=
  ⟨s.space, s.ribs.map (Rib.relabel ρ), s.opened.map ρ.node, s.declared.map ρ.node⟩

/-- What became of a binding under a relabelling. -/
def Insertion.relabel : Insertion → Insertion
  | .added scope => .added (scope.relabel ρ)
  | .duplicate earlier => .duplicate (earlier.relabel ρ)

/-- The open modules under a relabelling. -/
def ModuleStack.relabel (s : ModuleStack) : ModuleStack := ⟨s.opened.map ρ.node⟩

/-- A register under a relabelling, given what becomes of its entries. -/
def Register.relabel {α : Type} (f : α → α) (r : Register α) : Register α :=
  ⟨r.entries.map (Prod.map ρ.node f)⟩

/-- A child under a relabelling. -/
def Child.relabel (c : Child) : Child := ⟨c.name, ρ.node c.id⟩

/-- How far a declaration can be seen, under a relabelling. -/
def DeclVisibility.relabel (d : DeclVisibility) : DeclVisibility :=
  ⟨ρ.vis d.vis, ρ.node d.module, d.span⟩

/-- A use site under a relabelling. -/
def UseSite.relabel (u : UseSite) : UseSite :=
  ⟨ρ.node u.segment, ρ.node u.decl, ρ.node u.module, u.name, u.span⟩

/-- Tables under a relabelling. -/
def Tables.relabel (t : Tables) : Tables where
  paths := t.paths.relabel ρ (CanonicalPath.relabel ρ)
  parents := t.parents.relabel ρ ρ.node
  nested := t.nested.map (Prod.map ρ.node ρ.node)
  childEntries := t.childEntries.map (Prod.map ρ.node (Child.relabel ρ))
  containers := t.containers.relabel ρ id
  names := t.names.relabel ρ ρ.node
  types := t.types.relabel ρ ρ.node
  qualified := t.qualified.relabel ρ (CanonicalPath.relabel ρ)
  visibilities := t.visibilities.relabel ρ (DeclVisibility.relabel ρ)
  useSites := t.useSites.map (UseSite.relabel ρ)

/-- The identities of the built-in types under a relabelling. -/
def Builtins.relabel (b : Builtins) : Builtins where
  primitives := b.primitives.map (Prod.map id ρ.node)
  unit := ρ.node b.unit
  never := ρ.node b.never
  inferred := ρ.node b.inferred
  prelude := ρ.node b.prelude

/-- A session under a relabelling. -/
def Session.relabel (s : Session) : Session where
  builtins := s.builtins.relabel ρ
  root := ρ.node s.root
  rootPath := s.rootPath.relabel ρ
  names := s.names.relabel ρ
  types := s.types.relabel ρ
  modules := s.modules.relabel ρ
  tables := s.tables.relabel ρ
  errors := s.errors

/-- What has been found out about a crate, under a relabelling. -/
def ResolvedCrate.relabel (r : ResolvedCrate) : ResolvedCrate where
  root := ρ.node r.root
  tables := r.tables.relabel ρ
  builtins := r.builtins.relabel ρ
  errors := r.errors
  dropped := r.dropped

/-- The names of a point of the crate under a relabelling. -/
def Place.relabel (p : Place) : Place := ⟨p.key.relabel ρ, p.path.relabel ρ⟩

/-- What stays the same along a path, under a relabelling. -/
def Walk.relabel (w : Walk) : Walk := ⟨ρ.node w.here, ρ.node w.root, w.prefer, w.single⟩

/-- A position along a path under a relabelling. -/
def Position.relabel (pos : Position) : Position := ⟨ρ.node pos.scope, pos.reached.map ρ.node⟩

/-- What became of a type, under a relabelling. -/
def ResolvedTy.relabel (t : ResolvedTy) : ResolvedTy :=
  ⟨t.decl.map ρ.node, t.path.map (CanonicalPath.relabel ρ)⟩

/-! ## Canonical paths -/

namespace CanonicalPath

@[simp] theorem texts_relabel (p : CanonicalPath) : (p.relabel ρ).texts = p.texts := by
  simp [relabel, texts]

@[simp] theorem text_relabel (p : CanonicalPath) : (p.relabel ρ).text = p.text := by
  unfold text
  rw [texts_relabel]

@[simp] theorem relabel_empty : empty.relabel ρ = empty := rfl

@[simp] theorem relabel_single (id : NodeId) (text : String) :
    (single id text).relabel ρ = single (ρ.node id) text := rfl

@[simp] theorem relabel_append (p q : CanonicalPath) :
    (p ++ q).relabel ρ = p.relabel ρ ++ q.relabel ρ :=
  congrArg mk List.map_append

/-- A relabelled path is the same name as before. -/
theorem sameText_relabel (p q : CanonicalPath) :
    (p.relabel ρ).SameText (q.relabel ρ) ↔ p.SameText q := by
  unfold SameText
  rw [texts_relabel, texts_relabel]

theorem projection_relabel (id : NodeId) (traitPath selfType : CanonicalPath) :
    projection (ρ.node id) (traitPath.relabel ρ) (selfType.relabel ρ) =
      (projection id traitPath selfType).relabel ρ := by
  simp only [projection, text_relabel, relabel_single]

theorem mapLast_relabel {f f' : NodeId × String → NodeId × String}
    (h : ∀ x, f' (Prod.map ρ.node id x) = Prod.map ρ.node id (f x)) (p : CanonicalPath) :
    (p.relabel ρ).mapLast f' = (p.mapLast f).relabel ρ := by
  obtain ⟨segments⟩ := p
  unfold relabel mapLast
  simp only [List.getLast?_map]
  cases segments.getLast? with
  | none => rfl
  | some last =>
      simp only [Option.map_some, List.map_append, List.map_cons, List.map_nil, List.map_dropLast,
        h]

end CanonicalPath

@[simp] theorem Place.relabel_extend (p : Place) (inner : CanonicalPath) :
    (p.extend inner).relabel ρ = (p.relabel ρ).extend (inner.relabel ρ) := by
  simp only [relabel, extend, CanonicalPath.relabel_append]

@[simp] theorem Place.relabel_ofModule (path : CanonicalPath) :
    (ofModule path).relabel ρ = ofModule (path.relabel ρ) := rfl

/-! ## Symbol tables -/

theorem Rib.find?_relabel (r : Rib) (path : CanonicalPath) :
    (r.relabel ρ).find? (path.relabel ρ) = (r.find? path).map (Binding.relabel ρ) := by
  unfold find? relabel
  rw [List.find?_map]
  simp only [Function.comp_def, Binding.relabel, CanonicalPath.sameText_relabel]

theorem Rib.bind_relabel (r : Rib) (b : Binding) :
    (r.relabel ρ).bind (b.relabel ρ) = (r.bind b).relabel ρ := by
  have hfind : (r.relabel ρ).find? (b.relabel ρ).path = (r.find? b.path).map (Binding.relabel ρ) :=
    r.find?_relabel ρ b.path
  unfold bind
  rw [hfind]
  cases r.find? b.path with
  | none => simp only [Option.map_none, relabel, List.map_append, List.map_cons, List.map_nil]
  | some earlier =>
      simp only [Option.map_some, relabel, List.map_map, Rib.mk.injEq, true_and]
      refine List.map_congr_left fun old _ => ?_
      have hsame : (old.relabel ρ).path.SameText (b.relabel ρ).path ↔ old.path.SameText b.path :=
        CanonicalPath.sameText_relabel ρ old.path b.path
      simp only [Function.comp_apply, hsame, apply_ite (Binding.relabel ρ)]

section Injective

variable {ρ} (hρ : Function.Injective ρ.node)

include hρ

namespace Scope

theorem rib?_relabel (s : Scope) (owner : NodeId) :
    (s.relabel ρ).rib? (ρ.node owner) = (s.rib? owner).map (Rib.relabel ρ) := by
  unfold rib? relabel
  rw [List.find?_map]
  simp only [Function.comp_def, Rib.relabel, hρ.eq_iff]

theorem push_relabel (s : Scope) (owner : NodeId) :
    (s.relabel ρ).push (ρ.node owner) = (s.push owner).relabel ρ := by
  unfold push
  rw [rib?_relabel hρ, Option.isSome_map]
  by_cases h : (s.rib? owner).isSome
  · simp only [h, if_true, relabel, List.map_cons]
  · simp only [h, Bool.false_eq_true, if_false, relabel, List.map_cons, List.map_append,
      List.map_nil]
    rfl

theorem bindIn_relabel (s : Scope) (owner : NodeId) (b : Binding) :
    (s.relabel ρ).bindIn (ρ.node owner) (b.relabel ρ) = (s.bindIn owner b).relabel ρ := by
  have hrib (r : Rib) : (if (r.relabel ρ).owner = ρ.node owner then (r.relabel ρ).bind (b.relabel ρ)
      else r.relabel ρ) = (if r.owner = owner then r.bind b else r).relabel ρ := by
    rw [apply_ite (Rib.relabel ρ), Rib.bind_relabel]
    simp only [Rib.relabel, hρ.eq_iff]
  unfold bindIn
  simp only [relabel, List.map_map, List.map_cons, Scope.mk.injEq, true_and]
  exact ⟨List.map_congr_left fun r _ => hrib r, rfl⟩

theorem find?_rib?_relabel (s : Scope) (owner : NodeId) (path : CanonicalPath) :
    ((s.relabel ρ).rib? (ρ.node owner)).bind (Rib.find? · (path.relabel ρ)) =
      ((s.rib? owner).bind (Rib.find? · path)).map (Binding.relabel ρ) := by
  rw [rib?_relabel hρ]
  cases s.rib? owner with
  | none => rfl
  | some r => exact r.find?_relabel ρ path

/-- A name is bound or refused as before. -/
theorem insert_relabel (s : Scope) (b : Binding) (shadow : Bool) :
    (s.relabel ρ).insert (b.relabel ρ) shadow = (s.insert b shadow).map (Insertion.relabel ρ) := by
  unfold insert
  cases hopened : s.opened with
  | nil => simp only [relabel, hopened, List.map_nil]; rfl
  | cons owner outer =>
      have hstack : (s.relabel ρ).opened = ρ.node owner :: outer.map ρ.node := by
        simp only [relabel, hopened, List.map_cons]
      have hfound : ((s.relabel ρ).rib? (ρ.node owner)).bind (Rib.find? · (b.relabel ρ).path) =
          ((s.rib? owner).bind (Rib.find? · b.path)).map (Binding.relabel ρ) :=
        find?_rib?_relabel hρ s owner b.path
      simp only [hstack, hfound, bindIn_relabel hρ]
      cases (s.rib? owner).bind (Rib.find? · b.path) <;> cases shadow <;> rfl

theorem findBinding?_relabel (s : Scope) (path : CanonicalPath) :
    (s.relabel ρ).findBinding? (path.relabel ρ) =
      (s.findBinding? path).map (Binding.relabel ρ) := by
  unfold findBinding?
  have hopened : (s.relabel ρ).opened = s.opened.map ρ.node := rfl
  rw [hopened, List.findSome?_map, List.map_findSome?]
  exact congrArg (List.findSome? · s.opened)
    (funext fun owner => find?_rib?_relabel hρ s owner path)

/-- A name stands for what it stood for. -/
theorem lookup?_relabel (s : Scope) (path : CanonicalPath) :
    (s.relabel ρ).lookup? (path.relabel ρ) = (s.lookup? path).map ρ.node := by
  unfold lookup?
  rw [findBinding?_relabel hρ, Option.map_map, Option.map_map]
  rfl

theorem wasDeclared_relabel (s : Scope) (id : NodeId) :
    (s.relabel ρ).wasDeclared (ρ.node id) = s.wasDeclared id :=
  decide_eq_decide.mpr (List.mem_map_of_injective hρ)

end Scope

/-! ## Tables -/

theorem Register.get?_relabel {α : Type} (f : α → α) (r : Register α) (id : NodeId) :
    (r.relabel ρ f).get? (ρ.node id) = (r.get? id).map f := by
  obtain ⟨entries⟩ := r
  unfold get? relabel
  induction entries with
  | nil => rfl
  | cons entry entries ih =>
      obtain ⟨key, a⟩ := entry
      have hkey : (ρ.node id == ρ.node key) = (id == key) := by
        simp only [beq_eq_decide, hρ.eq_iff]
      rw [List.map_cons, Prod.map_apply, List.lookup_cons, List.lookup_cons, ih, hkey]
      cases id == key <;> rfl

namespace Tables

variable (t : Tables)

theorem get?_paths_relabel (id : NodeId) :
    (t.relabel ρ).paths.get? (ρ.node id) = (t.paths.get? id).map (CanonicalPath.relabel ρ) :=
  Register.get?_relabel hρ _ t.paths id

theorem get?_parents_relabel (id : NodeId) :
    (t.relabel ρ).parents.get? (ρ.node id) = (t.parents.get? id).map ρ.node :=
  Register.get?_relabel hρ _ t.parents id

theorem get?_containers_relabel (id : NodeId) :
    (t.relabel ρ).containers.get? (ρ.node id) = t.containers.get? id :=
  (Register.get?_relabel hρ _ t.containers id).trans (congrFun Option.map_id _)

theorem get?_visibilities_relabel (id : NodeId) :
    (t.relabel ρ).visibilities.get? (ρ.node id) =
      (t.visibilities.get? id).map (DeclVisibility.relabel ρ) :=
  Register.get?_relabel hρ _ t.visibilities id

theorem isModule_relabel (id : NodeId) : (t.relabel ρ).isModule (ρ.node id) = t.isModule id := by
  unfold isModule
  rw [get?_containers_relabel hρ]

theorem isContainer_relabel (id : NodeId) :
    (t.relabel ρ).isContainer (ρ.node id) = t.isContainer id := by
  unfold isContainer
  rw [get?_containers_relabel hρ]

theorem addChild_relabel (parent : NodeId) (child : Child) :
    (t.relabel ρ).addChild (ρ.node parent) (child.relabel ρ) =
      (t.addChild parent child).relabel ρ := by
  have hchild : Function.Injective (Child.relabel ρ) := by
    rintro ⟨name, id⟩ ⟨name', id'⟩ h
    obtain ⟨hname, hid⟩ := Child.mk.inj h
    exact congrArg₂ Child.mk hname (hρ hid)
  have hmem : (ρ.node parent, child.relabel ρ) ∈ (t.relabel ρ).childEntries ↔
      (parent, child) ∈ t.childEntries :=
    List.mem_map_of_injective (a := (parent, child)) (Function.Injective.prodMap hρ hchild)
  unfold addChild
  by_cases h : (parent, child) ∈ t.childEntries
  · rw [if_pos h, if_pos (hmem.mpr h)]
  · rw [if_neg h, if_neg (mt hmem.mp h)]
    simp only [relabel, List.map_append, List.map_cons, List.map_nil, Prod.map_apply]

theorem childrenNamed_relabel (parent : NodeId) (name : String) :
    (t.relabel ρ).childrenNamed (ρ.node parent) name =
      (t.childrenNamed parent name).map ρ.node := by
  have hof : (t.relabel ρ).childrenOf (ρ.node parent) =
      (t.childrenOf parent).map (Child.relabel ρ) := by
    unfold childrenOf
    simp only [relabel, List.filterMap_map, List.map_filterMap]
    refine List.filterMap_congr fun (p, c) _ => ?_
    by_cases h : p = parent
    · simp [h]
    · simp [h, hρ.ne h]
  unfold childrenNamed
  rw [hof, List.filterMap_map, List.map_filterMap]
  refine List.filterMap_congr fun child _ => ?_
  by_cases h : child.name = name
  · simp [Child.relabel, h]
  · simp [Child.relabel, h]

theorem enclosingUpTo_relabel : ∀ (n : Nat) (id : NodeId),
    (t.relabel ρ).enclosingUpTo n (ρ.node id) = (t.enclosingUpTo n id).map ρ.node
  | 0, _ => rfl
  | n + 1, id => by
      unfold enclosingUpTo
      rw [get?_parents_relabel hρ]
      cases t.parents.get? id with
      | none => rfl
      | some parent => simp only [Option.map_some, List.map_cons, enclosingUpTo_relabel n parent]

/-- The modules around a node are those that were around it. -/
theorem enclosing_relabel (id : NodeId) :
    (t.relabel ρ).enclosing (ρ.node id) = (t.enclosing id).map ρ.node := by
  have hlength : (t.relabel ρ).parents.entries.length = t.parents.entries.length :=
    List.length_map _
  unfold enclosing
  rw [hlength, enclosingUpTo_relabel hρ]

theorem isWithin_relabel (module ancestor : NodeId) :
    (t.relabel ρ).isWithin (ρ.node module) (ρ.node ancestor) = t.isWithin module ancestor := by
  unfold isWithin
  simp only [enclosing_relabel hρ, List.mem_map_of_injective hρ]

end Tables

/-! ## Sessions -/

namespace Session

variable (s : Session)

omit hρ in
theorem scope_relabel (space : Namespace) :
    (s.relabel ρ).scope space = (s.scope space).relabel ρ := by
  cases space <;> rfl

theorem classify_relabel (id : NodeId) : (s.relabel ρ).classify (ρ.node id) = s.classify id := by
  unfold classify relabel
  simp only [Scope.wasDeclared_relabel hρ, Tables.isModule_relabel hρ]

theorem findLexical?_relabel (prefer : Namespace) (key : CanonicalPath) :
    (s.relabel ρ).findLexical? prefer (key.relabel ρ) =
      (s.findLexical? prefer key).map (Prod.map id ρ.node) := by
  unfold findLexical?
  simp only [scope_relabel, Scope.lookup?_relabel hρ, Option.map_map, Option.map_or]
  rfl

theorem pickChild?_relabel (prefer : Namespace) (isLast : Bool) (candidates : List NodeId) :
    (s.relabel ρ).pickChild? prefer isLast (candidates.map ρ.node) =
      (s.pickChild? prefer isLast candidates).map ρ.node := by
  have hcontainer (id : NodeId) : (s.relabel ρ).tables.isContainer (ρ.node id) =
      s.tables.isContainer id := s.tables.isContainer_relabel hρ id
  unfold pickChild?
  simp only [List.find?_map, List.head?_map, Option.map_or, Function.comp_def,
    classify_relabel hρ, hcontainer]

theorem parentModule?_relabel (here module : NodeId) :
    (s.relabel ρ).parentModule? (ρ.node here) (ρ.node module) =
      (s.parentModule? here module).map ρ.node := by
  have hparents : (s.relabel ρ).tables.parents.get? (ρ.node module) =
      (s.tables.parents.get? module).map ρ.node := s.tables.get?_parents_relabel hρ module
  have hstack : (s.relabel ρ).modules.parent? = s.modules.parent?.map ρ.node := List.getElem?_map
  unfold parentModule?
  rw [hparents, hstack, apply_ite (Option.map ρ.node)]
  simp only [hρ.eq_iff]

theorem isDeferred_relabel (pos : Position) :
    (s.relabel ρ).isDeferred (pos.relabel ρ) = s.isDeferred pos := by
  obtain ⟨scope, reached⟩ := pos
  cases reached with
  | none => rfl
  | some decl => exact congrArg not (s.tables.isContainer_relabel hρ decl)

theorem advance_relabel (pos : Position) (decl : NodeId) :
    (s.relabel ρ).advance (pos.relabel ρ) (ρ.node decl) = (s.advance pos decl).relabel ρ := by
  have hcontainer : (s.relabel ρ).tables.isContainer (ρ.node decl) = s.tables.isContainer decl :=
    s.tables.isContainer_relabel hρ decl
  unfold advance
  simp only [Position.relabel, hcontainer, apply_ite ρ.node, Option.map_some]

end Session

end Injective

end NameResolution
