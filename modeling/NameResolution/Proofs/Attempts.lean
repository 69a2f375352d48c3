import Mathlib.Data.List.Induction
import NameResolution.Resolve.Crate
import NameResolution.Proofs.SymbolTable
import NameResolution.Proofs.Identities

/-!
# NameResolution.Proofs.Attempts

**What the first pass tries to declare, read off the tree.** An `Attempt` is one try to
bind a name in the rib of a module. `Crate.attempts` lists them in source order, a node
before its members. Which of them succeed depends on the list alone:

* the *first* attempt for a name in a rib (`firstFor`) is the one that binds it;
* every later one is refused and reported against the first (`duplicateReports`).

One thing does depend on what came before: the items of a trait implementation are only
tried if the projection `<Type as Trait>` of the implementation was accepted. That is why
the attempts of a part of the tree are given after those in front of it.

An item that is no module attempts its own name, its members, or a header, and each of them
in one way only (`ItemKind.OwnAttempt`). What is claimed of all attempts is proved for these
ways and carried over the tree by `items_induction`.
-/

namespace NameResolution

/-- One try of the first pass to bind a name. -/
structure Attempt where
  /-- The module whose rib is to hold the name. -/
  module : NodeId
  space : Namespace
  /-- The name, relative to the module. -/
  key : CanonicalPath
  id : NodeId
  span : Span
  /-- The last segment of the name as it stands in the text. -/
  name : String
  /-- The name from the crate root. -/
  path : CanonicalPath
  /-- The module, enum or trait that a path has to go through to name the declaration, if a path
  can name it at all. -/
  container : Option NodeId
  /-- What kind of container the declaration is itself, if it is one. -/
  kind : Option ContainerKind
  /-- A projection has none. -/
  vis : Option Visibility
  deriving DecidableEq, Repr

namespace Attempt

/-- The binding that the attempt is to make. -/
def binding (a : Attempt) : Binding := ⟨a.key, a.id, a.span⟩

/-- The entry for a successful attempt in the table of children. -/
def child? (a : Attempt) : Option (NodeId × Child) := a.container.map fun c => (c, ⟨a.name, a.id⟩)

/-- How far the declaration can be seen, and from where on. -/
def visibility? (a : Attempt) : Option DeclVisibility := a.vis.map (⟨·, a.module, a.span⟩)

/-- The entry for an attempt in the table of visibilities, whether it is successful or not. -/
def seen? (a : Attempt) : Option (NodeId × DeclVisibility) := a.visibility?.map (a.id, ·)

/-- The place of what is nested in the declaration within the same module. -/
def inner (a : Attempt) : Place := ⟨a.key, a.path⟩

/-- Whether this is an attempt to bind a given name in the rib of a given module. Names are
compared by the texts of their segments. -/
def isFor (a : Attempt) (module : NodeId) (space : Namespace) (key : CanonicalPath) : Bool :=
  decide (a.module = module ∧ a.space = space ∧ a.key.SameText key)

end Attempt

/-- The first attempt for a name in the rib of a module. -/
def firstFor (l : List Attempt) (module : NodeId) (space : Namespace) (key : CanonicalPath) :
    Option Attempt :=
  l.find? (·.isFor module space key)

/-- The attempt that has taken the name of a later one. -/
def Attempt.earlier? (a : Attempt) (before : List Attempt) : Option Attempt :=
  firstFor before a.module a.space a.key

/-- The attempts that find their name not taken, given the ones before them. -/
def acceptedAfter (before : List Attempt) : List Attempt → List Attempt
  | [] => []
  | a :: rest =>
    match a.earlier? before with
    | none => a :: acceptedAfter (before ++ [a]) rest
    | some _ => acceptedAfter (before ++ [a]) rest

/-- The reports about attempts that find their name taken, given the ones before them. -/
def reportsAfter (before : List Attempt) : List Attempt → List ResolveError
  | [] => []
  | a :: rest =>
    match a.earlier? before with
    | none => reportsAfter (before ++ [a]) rest
    | some first =>
      .duplicateDefinition a.key.text a.span first.span :: reportsAfter (before ++ [a]) rest

/-- The attempts that succeed. -/
def accepted (l : List Attempt) : List Attempt := acceptedAfter [] l

/-- For each attempt whose name was tried before, in order, a report that names the name, is
located at the attempt and points back at the first one. -/
def duplicateReports (l : List Attempt) : List ResolveError := reportsAfter [] l

/-! ### The attempts of a tree -/

/-- The attempt to declare a name at a place. -/
def Place.attempt (place : Place) (here : NodeId) (space : Namespace) (id : NodeId) (name : Ident)
    (vis : Visibility) (container : Option NodeId) (kind : Option ContainerKind) : Attempt where
  module := here
  space := space
  key := place.key ++ .single id name.name
  id := id
  span := name.span
  name := name.name
  path := place.path ++ .single id name.name
  container := container
  kind := kind
  vis := some vis

/-- A variant is a child of its enum. -/
def Variant.attempt (here owner : NodeId) (vis : Visibility) (place : Place) (v : Variant) :
    Attempt :=
  place.attempt here .type v.node.id v.name vis (some owner) none

/-- An implementation item is a child of nothing. -/
def ImplItem.attempt (here : NodeId) (place : Place) (i : ImplItem) : Attempt :=
  place.attempt here i.kind.declares.1 i.node.id i.kind.declares.2 i.vis none none

/-- A trait item is a child of its trait. -/
def TraitItem.attempt (here owner : NodeId) (vis : Visibility) (place : Place) (i : TraitItem) :
    Attempt :=
  place.attempt here i.kind.declares.1 i.node.id i.kind.declares.2 vis (some owner) none

/-- An extern item is a child of the module around its block. -/
def ForeignItem.attempt (here : NodeId) (place : Place) (i : ForeignItem) : Attempt :=
  place.attempt here .name i.node.id i.kind.name i.vis (some here) none

/-- The projection under which the items of a trait implementation are registered. -/
def TraitImpl.projection (id : NodeId) (i : TraitImpl) : Except PathSegment CanonicalPath := do
  let selfTy ← i.selfTy.headerPath i.generics.isEmpty
  let traitPath ← i.traitPath.headerPath i.generics.isEmpty
  return .projection id traitPath selfTy

/-- The attempt to bind the projection of a trait implementation. -/
def Place.projectionAttempt (place : Place) (here : NodeId) (node : Node)
    (projection : CanonicalPath) : Attempt where
  module := here
  space := .name
  key := place.key ++ projection
  id := node.id
  span := node.span
  name := projection.text
  path := place.path ++ projection
  container := none
  kind := none
  vis := none

mutual

/-- What an item and everything nested in it tries to declare. -/
def Item.attempts (here : NodeId) (place : Place) (before : List Attempt) : Item → List Attempt
  | ⟨node, vis, kind⟩ => kind.attempts node vis here place before

/-- What an item of a kind tries to declare. -/
def ItemKind.attempts (node : Node) (vis : Visibility) (here : NodeId) (place : Place)
    (before : List Attempt) : ItemKind → List Attempt
  | .module name items =>
    let a := place.attempt here .name node.id name vis (some here) (some .module)
    a :: itemsAttempts node.id (.ofModule a.path) (before ++ [a]) items
  | .enum e =>
    let a := place.attempt here .type node.id e.name vis (some here) (some .enum)
    a :: e.variants.map (Variant.attempt here node.id vis a.inner)
  | .trait t =>
    let a := place.attempt here .type node.id t.name vis (some here) (some .trait)
    a :: t.items.map (TraitItem.attempt here node.id vis a.inner)
  | .typeAlias a => [place.attempt here .type node.id a.name vis (some here) none]
  | .struct s => [place.attempt here .type node.id s.name vis (some here) none]
  | .tupleStruct s => [place.attempt here .type node.id s.name vis (some here) none]
  | .union u => [place.attempt here .type node.id u.name vis (some here) none]
  | .static s => [place.attempt here .name node.id s.name vis (some here) none]
  | .const c => [place.attempt here .name node.id c.name vis (some here) none]
  | .function f => [place.attempt here .name node.id f.name vis (some here) none]
  | .inherentImpl i =>
    match i.selfTy.headerPath i.generics.isEmpty with
    | .error _ => []
    | .ok selfTy => i.items.map (ImplItem.attempt here (place.extend selfTy))
  | .traitImpl i =>
    match i.projection node.id with
    | .error _ => []
    | .ok projection =>
      let a := place.projectionAttempt here node projection
      match a.earlier? before with
      | some _ => [a]
      | none => a :: i.items.map (ImplItem.attempt here a.inner)
  | .foreign b => b.items.map (ForeignItem.attempt here place)

/-- What items try to declare one after the other. -/
def itemsAttempts (here : NodeId) (place : Place) (before : List Attempt) :
    List Item → List Attempt
  | [] => []
  | item :: rest =>
    let l := item.attempts here place before
    l ++ itemsAttempts here place (before ++ l) rest

end

/-- Everything that a crate tries to declare, in source order. -/
def Crate.attempts (c : Crate) (settings : Settings) : List Attempt :=
  itemsAttempts c.node.id (.ofModule (Session.rootPathFor c settings)) [] c.items

/-! ### One more attempt -/

namespace Attempt

theorem isFor_iff {a : Attempt} {module : NodeId} {space : Namespace} {key : CanonicalPath} :
    a.isFor module space key = true ↔ a.module = module ∧ a.space = space ∧ a.key.SameText key :=
  decide_eq_true_iff

theorem isFor_self (a : Attempt) : a.isFor a.module a.space a.key = true :=
  isFor_iff.mpr ⟨rfl, rfl, CanonicalPath.sameText_refl _⟩

end Attempt

theorem acceptedAfter_append (before l₁ l₂ : List Attempt) :
    acceptedAfter before (l₁ ++ l₂) =
      acceptedAfter before l₁ ++ acceptedAfter (before ++ l₁) l₂ := by
  induction l₁ generalizing before with
  | nil => simp [acceptedAfter]
  | cons a rest ih =>
      simp only [List.cons_append, acceptedAfter, ih, List.append_assoc, List.nil_append]
      split <;> rfl

theorem reportsAfter_append (before l₁ l₂ : List Attempt) :
    reportsAfter before (l₁ ++ l₂) = reportsAfter before l₁ ++ reportsAfter (before ++ l₁) l₂ := by
  induction l₁ generalizing before with
  | nil => simp [reportsAfter]
  | cons a rest ih =>
      simp only [List.cons_append, reportsAfter, ih, List.append_assoc, List.nil_append]
      split <;> rfl

/-- One more attempt is accepted unless its name is taken. -/
theorem accepted_snoc (l : List Attempt) (a : Attempt) :
    accepted (l ++ [a]) =
      match a.earlier? l with
      | none => accepted l ++ [a]
      | some _ => accepted l := by
  unfold accepted
  rw [acceptedAfter_append, List.nil_append]
  simp only [acceptedAfter]
  split <;> simp

/-- One more attempt is reported if its name is taken. -/
theorem duplicateReports_snoc (l : List Attempt) (a : Attempt) :
    duplicateReports (l ++ [a]) =
      match a.earlier? l with
      | none => duplicateReports l
      | some first =>
        duplicateReports l ++ [.duplicateDefinition a.key.text a.span first.span] := by
  unfold duplicateReports
  rw [reportsAfter_append, List.nil_append]
  simp only [reportsAfter]
  split <;> simp

/-- Where nothing is reported, everything is accepted. -/
theorem accepted_eq_self {l : List Attempt} (h : duplicateReports l = []) : accepted l = l := by
  induction l using List.reverseRecOn with
  | nil => rfl
  | append_singleton l a ih =>
      rw [duplicateReports_snoc] at h
      rw [accepted_snoc]
      cases hearlier : a.earlier? l with
      | none =>
          rw [hearlier] at h
          simp only [ih h]
      | some first =>
          rw [hearlier] at h
          exact absurd h (by simp)

/-- One more attempt is the first one for its own name unless that was taken. -/
theorem firstFor_snoc (l : List Attempt) (a : Attempt) (module : NodeId) (space : Namespace)
    (key : CanonicalPath) :
    firstFor (l ++ [a]) module space key =
      (firstFor l module space key).or (if a.isFor module space key then some a else none) := by
  unfold firstFor
  rw [List.find?_append, List.find?_singleton]

theorem firstFor_congr (l : List Attempt) (module : NodeId) (space : Namespace)
    {p q : CanonicalPath} (h : p.SameText q) :
    firstFor l module space p = firstFor l module space q := by
  unfold firstFor Attempt.isFor
  have hsame : ∀ a : Attempt, a.key.SameText p ↔ a.key.SameText q := fun a =>
    ⟨fun ha => ha.trans h, fun ha => ha.trans h.symm⟩
  simp only [hsame]

theorem isFor_of_firstFor {l : List Attempt} {module : NodeId} {space : Namespace}
    {key : CanonicalPath} {a : Attempt} (h : firstFor l module space key = some a) :
    a.module = module ∧ a.space = space ∧ a.key.SameText key := by
  have hfor : a.isFor module space key = true := by
    unfold firstFor at h
    simpa using List.find?_some h
  exact Attempt.isFor_iff.mp hfor

theorem mem_of_firstFor {l : List Attempt} {module : NodeId} {space : Namespace}
    {key : CanonicalPath} {a : Attempt} (h : firstFor l module space key = some a) : a ∈ l :=
  List.mem_of_find?_eq_some h

theorem acceptedAfter_sublist (before l : List Attempt) :
    List.Sublist (acceptedAfter before l) l := by
  induction l generalizing before with
  | nil => exact .slnil
  | cons a rest ih =>
      unfold acceptedAfter
      split
      · exact (ih _).cons_cons a
      · exact (ih _).cons a

/-- What is accepted is in source order. -/
theorem accepted_sublist (l : List Attempt) : List.Sublist (accepted l) l :=
  acceptedAfter_sublist [] l

theorem mem_of_mem_accepted {l : List Attempt} {a : Attempt} (h : a ∈ accepted l) : a ∈ l :=
  (accepted_sublist l).subset h

/-- The first attempt for a name is accepted. -/
theorem mem_accepted_of_firstFor {l : List Attempt} {module : NodeId} {space : Namespace}
    {key : CanonicalPath} {a : Attempt} (h : firstFor l module space key = some a) :
    a ∈ accepted l := by
  induction l using List.reverseRecOn with
  | nil => simp [firstFor] at h
  | append_singleton l b ih =>
      rw [firstFor_snoc] at h
      rw [accepted_snoc]
      cases hfirst : firstFor l module space key with
      | some c =>
          -- The last attempt comes too late for the name, whatever becomes of it.
          rw [hfirst, Option.some_or] at h
          have hmem := ih (hfirst.trans h)
          split
          · exact List.mem_append_left _ hmem
          · exact hmem
      | none =>
          rw [hfirst, Option.none_or] at h
          by_cases hfor : b.isFor module space key = true
          · rw [if_pos hfor] at h
            obtain ⟨hm, hs, hk⟩ := Attempt.isFor_iff.mp hfor
            have hearlier : b.earlier? l = none := by
              unfold Attempt.earlier?
              rw [hm, hs, firstFor_congr l module space hk, hfirst]
            rw [hearlier]
            cases h
            simp
          · rw [if_neg hfor] at h
            cases h

/-- An attempt that is accepted is the first one for its name. -/
theorem firstFor_of_mem_accepted {l : List Attempt} {a : Attempt} (h : a ∈ accepted l) :
    firstFor l a.module a.space a.key = some a := by
  induction l using List.reverseRecOn with
  | nil => simp [accepted, acceptedAfter] at h
  | append_singleton l b ih =>
      rw [accepted_snoc] at h
      rw [firstFor_snoc]
      cases hearlier : b.earlier? l with
      | none =>
          rw [hearlier] at h
          rcases List.mem_append.mp h with h | h
          · rw [ih h, Option.some_or]
          · cases List.mem_singleton.mp h
            unfold Attempt.earlier? at hearlier
            rw [hearlier, Option.none_or, if_pos a.isFor_self]
      | some first =>
          rw [hearlier] at h
          rw [ih h, Option.some_or]

/-- No name is accepted twice in one rib. -/
theorem eq_of_mem_accepted {l : List Attempt} {a b : Attempt} (ha : a ∈ accepted l)
    (hb : b ∈ accepted l) (hmodule : a.module = b.module) (hspace : a.space = b.space)
    (hkey : a.key.SameText b.key) : a = b := by
  have hfirst := firstFor_of_mem_accepted ha
  rw [hmodule, hspace, firstFor_congr _ _ _ hkey, firstFor_of_mem_accepted hb] at hfirst
  exact (Option.some.inj hfirst).symm

/-! ### What an item attempts itself -/

/-- The names that an item declares, apart from those of the items in a module. -/
def ItemKind.names : ItemKind → List Ident
  | .module name _ => [name]
  | .enum e => e.name :: e.variants.map (·.name)
  | .trait t => t.name :: t.items.map (·.kind.declares.2)
  | .typeAlias a => [a.name]
  | .struct s => [s.name]
  | .tupleStruct s => [s.name]
  | .union u => [u.name]
  | .static s => [s.name]
  | .const c => [c.name]
  | .function f => [f.name]
  | .inherentImpl i => i.items.map (·.kind.declares.2)
  | .traitImpl i => i.items.map (·.kind.declares.2)
  | .foreign b => b.items.map (·.kind.name)

/-- The items of an implementation, of a trait or not. -/
def ItemKind.implItems? : ItemKind → Option (List ImplItem)
  | .inherentImpl i => some i.items
  | .traitImpl i => some i.items
  | _ => none

section Own

variable (kind : ItemKind) (node : Node) (vis : Visibility) (here : NodeId) (place : Place)
  (l : List Attempt)

/-- How an item that is no module comes to make an attempt, where `l` are all that it makes. -/
inductive ItemKind.OwnAttempt : Attempt → Prop
  /-- An item that holds no names, or something in an extern block. -/
  | leaf (space : Namespace) (id : NodeId) (name : Ident) (itemVis : Visibility)
      (hname : name ∈ kind.names) (himpl : kind.implItems? = none) :
      OwnAttempt (place.attempt here space id name itemVis (some here) none)
  /-- An enum or a trait. -/
  | container (name : Ident) (k : ContainerKind) (hname : name ∈ kind.names)
      (hkind : k = .enum ∨ k = .trait) (himpl : kind.implItems? = none) :
      OwnAttempt (place.attempt here .type node.id name vis (some here) (some k))
  /-- A variant of an enum or an item of a trait. -/
  | member (owner : Ident) (k : ContainerKind) (space : Namespace) (id : NodeId) (name : Ident)
      (hname : name ∈ kind.names) (hkind : k = .enum ∨ k = .trait) (himpl : kind.implItems? = none)
      (howner : place.attempt here .type node.id owner vis (some here) (some k) ∈ l) :
      OwnAttempt ((place.attempt here .type node.id owner vis (some here) (some k)).inner.attempt
        here space id name vis (some node.id) none)
  /-- An item of an implementation. -/
  | implItem {items : List ImplItem} (i : ImplItem) (inner : CanonicalPath)
      (hname : i.kind.declares.2 ∈ kind.names) (hitems : kind.implItems? = some items)
      (hmem : i ∈ items) : OwnAttempt (i.attempt here (place.extend inner))
  /-- The header of an implementation of a trait. -/
  | header (i : TraitImpl) (projection : CanonicalPath) (hkind : kind = .traitImpl i)
      (hprojection : i.projection node.id = .ok projection) :
      OwnAttempt (place.projectionAttempt here node projection)

end Own

section Origin

variable {here : NodeId} {place : Place} {before : List Attempt} {node : Node} {vis : Visibility}
  {kind : ItemKind} (hflat : ∀ name items, kind ≠ .module name items)

include hflat

/-- Whatever an item that is no module attempts, it attempts itself. -/
theorem ItemKind.attempts_own : ∀ a ∈ kind.attempts node vis here place before,
    kind.OwnAttempt node vis here place (kind.attempts node vis here place before) a := by
  intro a ha
  cases kind with
  | module name items => exact absurd rfl (hflat name items)
  | enum e =>
      rcases List.mem_cons.mp ha with rfl | hvariant
      · exact .container e.name .enum List.mem_cons_self (Or.inl rfl) rfl
      · obtain ⟨v, hv, rfl⟩ := List.mem_map.mp hvariant
        exact .member e.name .enum .type v.node.id v.name
          (List.mem_cons_of_mem _ (List.mem_map_of_mem hv)) (Or.inl rfl) rfl List.mem_cons_self
  | trait t =>
      rcases List.mem_cons.mp ha with rfl | hitem
      · exact .container t.name .trait List.mem_cons_self (Or.inr rfl) rfl
      · obtain ⟨i, hi, rfl⟩ := List.mem_map.mp hitem
        exact .member t.name .trait _ i.node.id _
          (List.mem_cons_of_mem _ (List.mem_map_of_mem hi)) (Or.inr rfl) rfl List.mem_cons_self
  | inherentImpl i =>
      simp only [ItemKind.attempts] at ha
      split at ha
      · cases ha
      · obtain ⟨x, hx, rfl⟩ := List.mem_map.mp ha
        exact .implItem x _ (List.mem_map_of_mem hx) rfl hx
  | traitImpl i =>
      simp only [ItemKind.attempts] at ha
      split at ha
      · cases ha
      · next projection hprojection =>
        split at ha
        · cases List.mem_singleton.mp ha
          exact .header i projection rfl hprojection
        · rcases List.mem_cons.mp ha with rfl | hitem
          · exact .header i projection rfl hprojection
          · obtain ⟨x, hx, rfl⟩ := List.mem_map.mp hitem
            exact .implItem x projection (List.mem_map_of_mem hx) rfl hx
  | foreign b =>
      obtain ⟨i, hi, rfl⟩ := List.mem_map.mp ha
      exact .leaf _ _ _ _ (List.mem_map_of_mem hi) rfl
  | _ =>
      cases List.mem_singleton.mp ha
      exact .leaf _ _ _ _ List.mem_cons_self rfl

/-- It is attempted in the module around the item, and declares no module. -/
theorem ItemKind.attempts_here {a : Attempt} (ha : a ∈ kind.attempts node vis here place before) :
    a.module = here ∧ a.kind ≠ some .module := by
  have hown := ItemKind.attempts_own hflat a ha
  cases hown with
  | container name k hname hkind himpl =>
      refine ⟨rfl, fun hmodule => ?_⟩
      cases hmodule
      exact hkind.elim nofun nofun
  | _ => exact ⟨rfl, nofun⟩

/-- Each node makes at most one attempt, and in source order. -/
theorem ItemKind.attempts_ids :
    List.Sublist ((kind.attempts node vis here place before).map Attempt.id)
      (node.id :: kind.memberIds) := by
  cases kind with
  | module name items => exact absurd rfl (hflat name items)
  | enum e | trait t =>
      simp only [ItemKind.attempts, List.map_cons, List.map_map]
      exact List.Sublist.refl _
  | inherentImpl i =>
      simp only [ItemKind.attempts]
      split
      · exact List.nil_sublist _
      · rw [List.map_map]
        exact List.sublist_cons_self _ _
  | traitImpl i =>
      simp only [ItemKind.attempts]
      split
      · exact List.nil_sublist _
      · split
        · exact (List.nil_sublist _).cons_cons _
        · rw [List.map_cons, List.map_map]
          exact List.Sublist.refl _
  | foreign b =>
      simp only [ItemKind.attempts, List.map_map]
      exact List.sublist_cons_self _ _
  | _ => exact List.Sublist.refl _

end Origin

/-! ### Where attempts come from -/

/-- Every attempt of items is made in the module around them or in one nested in it. -/
theorem itemsAttempts_module {here : NodeId} {place : Place} {before : List Attempt}
    (items : List Item) : ∀ a ∈ itemsAttempts here place before items,
      a.module = here ∨ a.module ∈ itemsModuleIds items := by
  induction items using items_induction generalizing here place before with
  | nil =>
      intro a ha
      cases ha
  | module node vis name items rest ihInside ih =>
      intro a ha
      simp only [itemsModuleIds, Item.moduleIds, List.mem_append, List.mem_cons]
      rcases List.mem_append.mp ha with ha | ha
      · rcases List.mem_cons.mp ha with rfl | ha
        · exact Or.inl rfl
        · exact Or.inr (Or.inl (ihInside a ha))
      · exact (ih a ha).imp_right Or.inr
  | flat node vis kind rest hflat ih =>
      intro a ha
      rw [itemsModuleIds, Item.moduleIds_flat hflat]
      rcases List.mem_append.mp ha with ha | ha
      · exact Or.inl (ItemKind.attempts_here hflat ha).1
      · exact ih a ha

/-- What is declared as a module is one. -/
theorem itemsAttempts_kind {here : NodeId} {place : Place} {before : List Attempt}
    (items : List Item) : ∀ a ∈ itemsAttempts here place before items,
      a.kind = some .module → a.id ∈ itemsModuleIds items := by
  induction items using items_induction generalizing here place before with
  | nil =>
      intro a ha
      cases ha
  | module node vis name items rest ihInside ih =>
      intro a ha hkind
      rcases List.mem_append.mp ha with ha | ha
      · refine List.mem_append_left _ ?_
        rcases List.mem_cons.mp ha with rfl | ha
        · exact List.mem_cons_self
        · exact List.mem_cons_of_mem _ (ihInside a ha hkind)
      · exact List.mem_append_right _ (ih a ha hkind)
  | flat node vis kind rest hflat ih =>
      intro a ha hkind
      rcases List.mem_append.mp ha with ha | ha
      · exact absurd hkind (ItemKind.attempts_here hflat ha).2
      · exact List.mem_append_right _ (ih a ha hkind)

/-- Every node attempts at most one declaration, and in source order. -/
theorem itemsAttempts_ids {here : NodeId} {place : Place} {before : List Attempt}
    (items : List Item) :
    List.Sublist ((itemsAttempts here place before items).map Attempt.id)
      (itemsDeclaredIds items) := by
  induction items using items_induction generalizing here place before with
  | nil => exact List.Sublist.refl _
  | module node vis name items rest ihInside ih =>
      simp only [itemsAttempts, itemsDeclaredIds, List.map_append]
      exact (ihInside.cons_cons node.id).append ih
  | flat node vis kind rest hflat ih =>
      simp only [itemsAttempts, itemsDeclaredIds, List.map_append, Item.declaredIds_flat hflat]
      exact (ItemKind.attempts_ids hflat).append ih

theorem Item.attempts_ids {here : NodeId} {place : Place} {before : List Attempt} (item : Item) :
    List.Sublist ((item.attempts here place before).map Attempt.id) item.declaredIds := by
  have hone : List.Sublist ((itemsAttempts here place before [item]).map Attempt.id)
      (itemsDeclaredIds [item]) := itemsAttempts_ids [item]
  simpa [itemsAttempts, itemsDeclaredIds] using hone

end NameResolution
