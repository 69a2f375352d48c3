import NameResolution.Proofs.Attempts
import NameResolution.Proofs.Growth

/-!
# NameResolution.Proofs.Registration

**The first pass makes exactly the attempts of the tree.** `Session.Registered l` says
what a session holds once the attempts `l` have been made:

* `Session.Bound`: the rib of each module maps a name to the first attempt for it, the
  duplicates reported are those of the list, and what was accepted is declared, has its
  canonical path and is a child of its container;
* `Session.Contained`: the containers are the crate root and what was attempted as one,
  and everything is declared in a module.

`Registers` composes along the attempts and along the identities worked on, and the pass
is followed by induction over the tree (`Item.declare_registers`). The part of a tree
needs its identities to be unused when it is reached (`Session.Awaits`).
-/

namespace NameResolution

open Resolution

/-- Whether an error is about a name that is declared twice. -/
def ResolveError.isDuplicate : ResolveError → Bool
  | .duplicateDefinition _ _ _ => true
  | _ => false

/-- Whether an error is about the use of a name or about a generic parameter. The first pass looks
at declarations only. -/
def ResolveError.isInner : ResolveError → Bool
  | .superAtCrateScope _ | .cannotFindPath _ _ | .failedToResolvePath _ _
  | .privateItem _ _ _ | .genericParamRedefined _ _ _ => true
  | _ => false

/-- Nothing has been resolved yet. -/
def Tables.Unresolved (t : Tables) : Prop :=
  t.names = .empty ∧ t.types = .empty ∧ t.qualified = .empty ∧ t.useSites = []

namespace Session

/-- A module is the innermost one that is open, and its frame is the innermost one. -/
structure Inside (s : Session) (here : NodeId) : Prop where
  frame : ∀ space, (s.scope space).opened.head? = some here
  rib : ∀ space, ((s.scope space).rib? here).isSome
  stack : s.modules.opened.head? = some here
  isModule : s.tables.isModule here = true
  notPrelude : here ≠ s.builtins.prelude

/-- The nodes are still to be worked on. -/
structure Awaits (s : Session) (ids : List NodeId) : Prop where
  nodup : ids.Nodup
  unused : ∀ id ∈ ids, s.Unused id
  notPrelude : s.builtins.prelude ∉ ids

/-- What the attempts `l` have bound, reported and named. -/
structure Bound (l : List Attempt) (s : Session) : Prop where
  ribs : ∀ space module key, module ≠ s.builtins.prelude →
    (s.scope space).bindingIn? module key = (firstFor l module space key).map Attempt.binding
  declared : ∀ space id, id ∈ (s.scope space).declared ↔
    (∃ a ∈ accepted l, a.space = space ∧ a.id = id) ∨
      space = .type ∧ id ∈ s.builtins.primitives.map Prod.snd
  duplicates : s.errors.reported.filter ResolveError.isDuplicate = duplicateReports l
  unchecked : ∀ e ∈ s.errors.reported, e.isInner = false
  children : s.tables.childEntries = (accepted l).filterMap Attempt.child?
  paths : ∀ a ∈ l, a.vis.isSome ∨ a ∈ accepted l → s.tables.paths.get? a.id = some a.path
  visibilities : s.tables.visibilities.entries = (l.filterMap Attempt.seen?).reverse
  unresolved : s.tables.Unresolved

/-- What the attempts `l` have made containers, and that everything is declared in a module. -/
structure Contained (l : List Attempt) (s : Session) : Prop where
  containers : ∀ a ∈ l, ∀ kind, a.kind = some kind → s.tables.containers.get? a.id = some kind
  contained : ∀ id kind, s.tables.containers.get? id = some kind →
    id = s.root ∧ kind = .module ∨ ∃ a ∈ l, a.id = id ∧ a.kind = some kind
  parents : ∀ id module, s.tables.parents.get? id = some module → s.tables.isModule module = true

/-- What the attempts `l` leave behind. -/
structure Registered (l : List Attempt) (s : Session) : Prop extends Bound l s, Contained l s

variable {s s' : Session} {ids ids₁ ids₂ : List NodeId} {l : List Attempt}

theorem Inside.grows {here : NodeId} (h : s.Inside here) (hg : Grows ids s s') :
    s'.Inside here where
  frame space := by rw [hg.opened]; exact h.frame space
  rib space := hg.ribs space here (h.rib space)
  stack := by rw [hg.modules]; exact h.stack
  isModule := hg.isModule h.isModule
  notPrelude := by rw [hg.builtins]; exact h.notPrelude

theorem Awaits.left (h : s.Awaits (ids₁ ++ ids₂)) : s.Awaits ids₁ where
  nodup := (List.nodup_append.mp h.nodup).1
  unused id hid := h.unused id (List.mem_append_left _ hid)
  notPrelude hin := h.notPrelude (List.mem_append_left _ hin)

/-- The nodes that another part has not worked on are still to be worked on. -/
theorem Awaits.right (h : s.Awaits (ids₁ ++ ids₂)) (hg : Grows ids₁ s s') : s'.Awaits ids₂ where
  nodup := (List.nodup_append.mp h.nodup).2.1
  unused id hid := by
    have hout : id ∉ ids₁ := fun hin => (List.nodup_append.mp h.nodup).2.2 id hin id hid rfl
    exact hg.unused id hout (h.unused id (List.mem_append_right _ hid))
  notPrelude hin := h.notPrelude (List.mem_append_right _ (hg.builtins ▸ hin))

/-! ### One more attempt -/

/-- An attempt gets its visibility, whatever becomes of it. -/
theorem Bound.visibilities_snoc (h : s.Bound l) (a : Attempt) :
    a.seen?.toList ++ s.tables.visibilities.entries =
      ((l ++ [a]).filterMap Attempt.seen?).reverse := by
  rw [h.visibilities, List.filterMap_append, List.reverse_append]
  cases ha : a.seen? <;> simp [ha]

/-- An attempt for a name that is not taken. -/
theorem Bound.accept {a : Attempt} (h : s.Bound l) (hin : s.Inside a.module)
    (hnew : a.earlier? l = none)
    (hscope : ∀ space, s'.scope space = (s.withBinding a.space a.module a.binding).scope space)
    (hbuiltins : s'.builtins = s.builtins) (herrors : s'.errors = s.errors)
    (hchildren : s'.tables.childEntries = s.tables.childEntries ++ a.child?.toList)
    (hpath : s'.tables.paths.get? a.id = some a.path)
    (hpaths : ∀ id path, s.tables.paths.get? id = some path → s'.tables.paths.get? id = some path)
    (hseen : s'.tables.visibilities.entries = a.seen?.toList ++ s.tables.visibilities.entries)
    (hunresolved : s'.tables.Unresolved) : s'.Bound (l ++ [a]) where
  ribs space module key hne := by
    rw [hbuiltins] at hne
    rw [hscope, bindingIn?_withBinding (hin.rib _), firstFor_snoc]
    -- The rib has changed for the name of the attempt only, which it did not hold.
    by_cases hfor : a.isFor module space key = true
    · obtain ⟨rfl, rfl, hkey⟩ := Attempt.isFor_iff.mp hfor
      unfold Attempt.earlier? at hnew
      rw [firstFor_congr l _ _ hkey] at hnew
      rw [if_pos ⟨rfl, rfl, hkey⟩, hnew, Option.none_or, if_pos hfor]
      rfl
    · have hnot : ¬ (space = a.space ∧ module = a.module ∧ a.binding.path.SameText key) :=
        fun ⟨hs, hm, hk⟩ => hfor (Attempt.isFor_iff.mpr ⟨hm.symm, hs.symm, hk⟩)
      rw [if_neg hnot, if_neg hfor, Option.or_none, h.ribs _ _ _ hne]
  declared space id := by
    rw [hscope, hbuiltins, accepted_snoc, hnew, declared_withBinding]
    simp only [List.mem_append, List.mem_singleton]
    by_cases hspace : space = a.space
    · rw [if_pos hspace, List.mem_cons, h.declared]
      constructor
      · rintro (rfl | ⟨b, hb, hs, hid⟩ | hprim)
        · exact Or.inl ⟨a, Or.inr rfl, hspace.symm, rfl⟩
        · exact Or.inl ⟨b, Or.inl hb, hs, hid⟩
        · exact Or.inr hprim
      · rintro (⟨b, hb | rfl, hs, hid⟩ | hprim)
        · exact Or.inr (Or.inl ⟨b, hb, hs, hid⟩)
        · exact Or.inl hid.symm
        · exact Or.inr (Or.inr hprim)
    · rw [if_neg hspace, h.declared]
      constructor
      · rintro (⟨b, hb, hs, hid⟩ | hprim)
        · exact Or.inl ⟨b, Or.inl hb, hs, hid⟩
        · exact Or.inr hprim
      · rintro (⟨b, hb | rfl, hs, hid⟩ | hprim)
        · exact Or.inl ⟨b, hb, hs, hid⟩
        · exact absurd hs.symm hspace
        · exact Or.inr hprim
  duplicates := by rw [herrors, duplicateReports_snoc, hnew]; exact h.duplicates
  unchecked := by rw [herrors]; exact h.unchecked
  children := by
    rw [hchildren, accepted_snoc, hnew, List.filterMap_append, h.children]
    cases ha : a.child? <;> simp [ha]
  paths b hb hnamed := by
    rw [accepted_snoc, hnew] at hnamed
    rcases List.mem_append.mp hb with hb | hb
    · by_cases hid : b = a
      · rw [hid]; exact hpath
      · refine hpaths _ _ (h.paths b hb (hnamed.imp_right fun hacc => ?_))
        exact (List.mem_append.mp hacc).resolve_right fun hs => hid (List.mem_singleton.mp hs)
    · rw [List.mem_singleton.mp hb]; exact hpath
  visibilities := hseen.trans (h.visibilities_snoc a)
  unresolved := hunresolved

/-- An attempt for a name that is taken. -/
theorem Bound.refuse {a first : Attempt} (h : s.Bound l) (htaken : a.earlier? l = some first)
    (hscope : ∀ space, s'.scope space = s.scope space) (hbuiltins : s'.builtins = s.builtins)
    (herrors : s'.errors = s.errors.push (.duplicateDefinition a.key.text a.span first.span))
    (hchildren : s'.tables.childEntries = s.tables.childEntries)
    (hpath : a.vis.isSome → s'.tables.paths.get? a.id = some a.path)
    (hpaths : ∀ id path, s.tables.paths.get? id = some path → s'.tables.paths.get? id = some path)
    (hseen : s'.tables.visibilities.entries = a.seen?.toList ++ s.tables.visibilities.entries)
    (hunresolved : s'.tables.Unresolved) : s'.Bound (l ++ [a]) where
  ribs space module key hne := by
    rw [hbuiltins] at hne
    rw [hscope, h.ribs _ _ _ hne, firstFor_snoc]
    -- The rib has not changed, and for the name of the attempt it holds the first one still.
    by_cases hfor : a.isFor module space key = true
    · obtain ⟨rfl, rfl, hkey⟩ := Attempt.isFor_iff.mp hfor
      unfold Attempt.earlier? at htaken
      rw [firstFor_congr l _ _ hkey] at htaken
      rw [htaken, Option.some_or]
    · rw [if_neg hfor, Option.or_none]
  declared space id := by rw [hscope, hbuiltins, accepted_snoc, htaken]; exact h.declared space id
  duplicates := by
    rw [herrors, duplicateReports_snoc, htaken, Collector.reported_push, List.filter_append,
      h.duplicates]
    rfl
  unchecked e he := by
    rw [herrors, Collector.reported_push] at he
    rcases List.mem_append.mp he with he | he
    · exact h.unchecked e he
    · rw [List.mem_singleton.mp he]
      rfl
  children := by rw [hchildren, accepted_snoc, htaken]; exact h.children
  paths b hb hnamed := by
    rw [accepted_snoc, htaken] at hnamed
    rcases List.mem_append.mp hb with hb | hb
    · exact hpaths _ _ (h.paths b hb hnamed)
    · have heq := List.mem_singleton.mp hb
      subst heq
      -- An attempt that was accepted before and is refused now has its path already.
      rcases hnamed with hvis | hacc
      · exact hpath hvis
      · exact hpaths _ _ (h.paths b (mem_of_mem_accepted hacc) (Or.inr hacc))
  visibilities := hseen.trans (h.visibilities_snoc a)
  unresolved := hunresolved

/-- Whatever leaves bindings, duplicates and children alone and adds paths at most. -/
theorem Bound.congr (h : s.Bound l) (hbuiltins : s'.builtins = s.builtins)
    (hribs : ∀ space module key,
      (s'.scope space).bindingIn? module key = (s.scope space).bindingIn? module key)
    (hdeclared : ∀ space, (s'.scope space).declared = (s.scope space).declared)
    (hreports : s'.errors.reported.filter ResolveError.isDuplicate =
      s.errors.reported.filter ResolveError.isDuplicate)
    (hunchecked : ∀ e ∈ s'.errors.reported, e.isInner = false ∨ e ∈ s.errors.reported)
    (hchildren : s'.tables.childEntries = s.tables.childEntries)
    (hpaths : ∀ id path, s.tables.paths.get? id = some path → s'.tables.paths.get? id = some path)
    (hseen : s'.tables.visibilities = s.tables.visibilities)
    (hunresolved : s'.tables.Unresolved) : s'.Bound l where
  ribs space module key hne := by rw [hribs]; exact h.ribs space module key (hbuiltins ▸ hne)
  declared space id := by rw [hdeclared, hbuiltins]; exact h.declared space id
  duplicates := hreports.trans h.duplicates
  unchecked e he := (hunchecked e he).elim id (h.unchecked e)
  children := hchildren.trans h.children
  paths a ha hnamed := hpaths _ _ (h.paths a ha hnamed)
  visibilities := by rw [hseen]; exact h.visibilities
  unresolved := hunresolved

/-- A child that has not been declared is in no table. -/
theorem Bound.childFresh (h : s.Bound l) {id : NodeId} (hunused : s.Unused id) (parent : NodeId)
    (name : String) : (parent, (⟨name, id⟩ : Child)) ∉ s.tables.childEntries := by
  intro hmem
  rw [h.children] at hmem
  obtain ⟨a, ha, hchild⟩ := List.mem_filterMap.mp hmem
  obtain ⟨c, -, hc⟩ := Option.map_eq_some_iff.mp hchild
  have hid : a.id = id := by
    injection hc with _ hc
    injection hc
  exact hunused.undeclared a.space ((h.declared a.space id).mpr (Or.inl ⟨a, ha, rfl, hid⟩))

/-- An attempt at something that is no container. -/
theorem Contained.leaf {a : Attempt} (h : s.Contained l) (hkind : a.kind = none)
    (hroot : s'.root = s.root) (hcontainers : s'.tables.containers = s.tables.containers)
    (hparents : s'.tables.parents = s.tables.parents) : s'.Contained (l ++ [a]) where
  containers b hb kind hk := by
    rw [hcontainers]
    rcases List.mem_append.mp hb with hb | hb
    · exact h.containers b hb kind hk
    · rw [List.mem_singleton.mp hb, hkind] at hk
      cases hk
  contained id kind hget := by
    rw [hcontainers] at hget
    rw [hroot]
    refine (h.contained id kind hget).imp_right ?_
    rintro ⟨b, hb, hid, hk⟩
    exact ⟨b, List.mem_append_left _ hb, hid, hk⟩
  parents id module hget := by
    unfold Tables.isModule
    rw [hparents] at hget
    rw [hcontainers]
    exact h.parents id module hget

/-- An attempt at a container. -/
theorem Contained.container {a : Attempt} {kind : ContainerKind} (h : s.Contained l)
    (hkind : a.kind = some kind) (hfresh : s.tables.containers.get? a.id = none)
    (hroot : s'.root = s.root)
    (hcontainers : s'.tables.containers = s.tables.containers.set a.id kind)
    (hparents : s'.tables.parents = s.tables.parents) : s'.Contained (l ++ [a]) where
  containers b hb k hk := by
    rw [hcontainers]
    rcases List.mem_append.mp hb with hb | hb
    · have hget := h.containers b hb k hk
      have hne : b.id ≠ a.id := fun heq => by rw [heq, hfresh] at hget; cases hget
      rw [Register.get?_set_ne hne, hget]
    · have heq := List.mem_singleton.mp hb
      subst heq
      rw [Register.get?_set_self, ← hk, hkind]
  contained id k hget := by
    rw [hcontainers, Register.get?_set] at hget
    rw [hroot]
    by_cases hid : id = a.id
    · rw [if_pos hid] at hget
      refine Or.inr ⟨a, List.mem_append_right _ (List.mem_singleton_self a), hid.symm, ?_⟩
      rw [hkind, hget]
    · rw [if_neg hid] at hget
      refine (h.contained id k hget).imp_right ?_
      rintro ⟨b, hb, hb'⟩
      exact ⟨b, List.mem_append_left _ hb, hb'⟩
  parents id module hget := by
    rw [hparents] at hget
    have hm := h.parents id module hget
    unfold Tables.isModule at hm ⊢
    have hne : module ≠ a.id := fun heq => by rw [heq, hfresh] at hm; cases hm
    rw [hcontainers, Register.get?_set_ne hne]
    exact hm

end Session

/-! ### Declaring one name -/

section Declare

variable {s : Session} {l : List Attempt} {here id : NodeId}

/-- Entering a child that is in no table yet. -/
private theorem addChild_eq {t : Tables} {child : Child} {parent : NodeId}
    (hfresh : (parent, child) ∉ t.childEntries) :
    t.addChild parent child = { t with childEntries := t.childEntries ++ [(parent, child)] } := by
  unfold Tables.addChild
  rw [if_neg hfresh]

/-- The session in which a declaration has a visibility. -/
private def seenFrom (s : Session) (here : NodeId) (vis : Visibility) (a : Attempt) : Session :=
  s.withTables { s.tables with
    visibilities := s.tables.visibilities.set a.id ⟨vis, here, a.span⟩ }

/-- The end of a declaration, which is the same whether it was bound or refused. -/
private theorem runs_describe {a : Attempt} (hhere : s.modules.opened.head? = some here)
    (hpathless : s.tables.paths.get? a.id = none) (vis : Visibility) (inner : Place) :
    Runs
      (do
        let here ← currentModule
        updateTables fun t => { t with visibilities := t.visibilities.set a.id ⟨vis, here, a.span⟩ }
        setPath a.id a.path
        return inner)
      s inner ((seenFrom s here vis a).withPath a.id a.path) := by
  have hpath : (seenFrom s here vis a).tables.paths.get? a.id = none := hpathless
  exact Runs.bind (runs_currentModule hhere) (Runs.bind (runs_updateTables _ _)
    (Runs.bind (runs_setPath hpath a.path) (Runs.pure _ _)))

private theorem grows_describe {a : Attempt} (hpathless : s.tables.paths.get? a.id = none)
    (here : NodeId) (vis : Visibility) :
    s.Grows [a.id] ((seenFrom s here vis a).withPath a.id a.path) := by
  have hpath : (seenFrom s here vis a).tables.paths.get? a.id = none := hpathless
  have hseen : s.Grows [a.id] (seenFrom s here vis a) :=
    Session.Grows.withTables (.refl _ _) (.refl _ _)
  exact hseen.trans (Session.Grows.withPath (List.mem_singleton_self _) hpath a.path)

/-- One more attempt has been made, which has changed no container and no parent. -/
structure Session.Attempted (s : Session) (l : List Attempt) (a : Attempt) (s' : Session) :
    Prop where
  grows : s.Grows [a.id] s'
  bound : s'.Bound (l ++ [a])
  containers : s'.tables.containers = s.tables.containers
  parents : s'.tables.parents = s.tables.parents

variable (space : Namespace) (name : Ident) (place : Place) (vis : Visibility)
  (container : Option NodeId) (kind : Option ContainerKind)

/-- Declaring a name that is not taken. -/
private theorem declare_accepted (hin : s.Inside here) (h : s.Bound l) (hunused : s.Unused id)
    (hnew : (place.attempt here space id name vis container kind).earlier? l = none) :
    ∃ s', Runs (declare space id name place vis container) s
        (place.attempt here space id name vis container kind).inner s' ∧
      s.Attempted l (place.attempt here space id name vis container kind) s' := by
  let a := place.attempt here space id name vis container kind
  have hvacant : (s.scope space).bindingIn? here a.key = none := by
    rw [h.ribs space here a.key hin.notPrelude]
    exact Option.map_eq_none_iff.mpr hnew
  -- First the name is bound, then the child is entered, and then the rest is written down.
  let s₁ := s.withBinding space here a.binding
  let s₂ := s₁.withTables { s.tables with
    childEntries := s.tables.childEntries ++ a.child?.toList }
  have htables : s₁.tables = s.tables := Session.tables_withScope _ _ _
  have hmodules : s₂.modules = s.modules := Session.modules_withScope _ _ _
  have hbind : Runs (bindNew space a.binding) s true s₁ :=
    runs_makeBinding_added (hin.frame space) (Or.inr hvacant) redefinition
  have hpathless : s₂.tables.paths.get? a.id = none := hunused.pathless
  have hdescribe := runs_describe (hmodules ▸ hin.stack) hpathless vis a.inner
  have hgrows₁ : s.Grows [a.id] s₁ :=
    Session.Grows.withBinding (hin.frame space) (hin.rib space)
      fun _ => List.mem_singleton_self id
  have hgrows₂ : s₁.Grows [a.id] s₂ :=
    Session.Grows.withTables (by rw [htables]; exact .refl _ _) (by rw [htables]; exact .refl _ _)
  have hgrows := (hgrows₁.trans hgrows₂).trans (grows_describe hpathless here vis)
  refine ⟨(seenFrom s₂ here vis a).withPath a.id a.path, hbind.bind ?_, hgrows, ?_, rfl, rfl⟩
  · cases container with
    | none =>
        -- No child is entered, so there is no step between the binding and the rest.
        have hs₂ : s₂ = s₁ := by
          change s₁.withTables
            { s.tables with childEntries := s.tables.childEntries ++ [] } = s₁
          rw [List.append_nil, ← htables]
          rfl
        rw [hs₂] at hdescribe ⊢
        exact hdescribe
    | some parent =>
        have hchild := runs_updateTables (·.addChild parent ⟨name.name, id⟩) s₁
        rw [htables, addChild_eq (h.childFresh hunused parent name.name)] at hchild
        exact Runs.bind hchild hdescribe
  · refine h.accept hin hnew (fun x => ?_) ?_ ?_ rfl ?_ hgrows.paths rfl h.unresolved
    · simp only [seenFrom, Session.withPath, Session.scope_withTables, s₂]
      rfl
    · exact Session.builtins_withScope _ _ _
    · exact Session.errors_withScope _ _ _
    · exact Register.get?_set_self _ _ _

/-- Declaring a name that is taken. The declaration gets its visibility and its path all the
same. -/
private theorem declare_refused (hin : s.Inside here) (h : s.Bound l) (hunused : s.Unused id)
    {first : Attempt}
    (htaken : (place.attempt here space id name vis container kind).earlier? l = some first) :
    ∃ s', Runs (declare space id name place vis container) s
        (place.attempt here space id name vis container kind).inner s' ∧
      s.Attempted l (place.attempt here space id name vis container kind) s' := by
  let a := place.attempt here space id name vis container kind
  have hheld : (s.scope space).bindingIn? here a.key = some first.binding := by
    rw [h.ribs space here a.key hin.notPrelude]
    exact congrArg (Option.map Attempt.binding) htaken
  have htext : first.key.text = a.key.text := (isFor_of_firstFor htaken).2.2.text_eq
  let s₁ := s.reporting (redefinition a.binding first.binding)
  have hbind : Runs (bindNew space a.binding) s false s₁ :=
    runs_makeBinding_refused (hin.frame space) hheld redefinition
  have hpathless : s₁.tables.paths.get? a.id = none := hunused.pathless
  have hdescribe := runs_describe (s := s₁) hin.stack hpathless vis a.inner
  have hgrows := (Session.Grows.reporting [a.id] s (redefinition a.binding first.binding)).trans
    (grows_describe hpathless here vis)
  refine ⟨(seenFrom s₁ here vis a).withPath a.id a.path, hbind.bind hdescribe, hgrows, ?_, rfl,
    rfl⟩
  refine h.refuse htaken (fun x => ?_) rfl ?_ rfl ?_ hgrows.paths rfl h.unresolved
  · simp only [seenFrom, Session.withPath, Session.scope_withTables, s₁, Session.scope_reporting]
  · change s.errors.push (.duplicateDefinition first.key.text a.span first.span) = _
    rw [htext]
  · intro _
    exact Register.get?_set_self _ _ _

/-- Declaring a name is one attempt. -/
theorem declare_attempts (hin : s.Inside here) (h : s.Bound l) (hunused : s.Unused id) :
    ∃ s', Runs (declare space id name place vis container) s
        (place.attempt here space id name vis container kind).inner s' ∧
      s.Attempted l (place.attempt here space id name vis container kind) s' := by
  cases hearlier : (place.attempt here space id name vis container kind).earlier? l with
  | none => exact declare_accepted space name place vis container kind hin h hunused hearlier
  | some first => exact declare_refused space name place vis container kind hin h hunused hearlier

end Declare

end NameResolution
