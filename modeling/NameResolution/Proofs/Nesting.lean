import Mathlib.Data.List.Nodup
import NameResolution.Proofs.Attempts

/-!
# NameResolution.Proofs.Nesting

**Where attempts stand.** Whatever a path can name is attempted inside a module, under its
bare name (`Attempt.Origin.item`), or is a member of an enum or a trait that is attempted
there itself (`Attempt.Origin.member`). The items of an implementation can only be named
in other ways (`Attempt.Origin.unnamed`).

A canonical path is the one of the container with one more segment, so it can be followed
container by container (`Leads`), and it says which names have to be followed
(`Nested.texts_of_leads`).
-/

namespace NameResolution

/-- The namespace of a container. -/
def ContainerKind.space : ContainerKind → Namespace
  | .module => .name
  | .enum | .trait => .type

/-- A module, with the canonical path of what is directly inside it. The outermost one is not
attempted itself. -/
def Hosts (l : List Attempt) (root : NodeId) (rootPath : CanonicalPath) (module : NodeId)
    (path : CanonicalPath) : Prop :=
  module = root ∧ path = rootPath ∨
    ∃ m ∈ l, m.kind = some .module ∧ m.id = module ∧ m.path = path

/-- Where an attempt stands among the attempts `l` of the items of a module. -/
inductive Attempt.Origin (l : List Attempt) (root : NodeId) (rootPath : CanonicalPath) :
    Attempt → Prop
  /-- An item, or something in an extern block. -/
  | item {module : NodeId} {path : CanonicalPath} (space : Namespace) (id : NodeId) (name : Ident)
      (vis : Visibility) (kind : Option ContainerKind) (hhosts : Hosts l root rootPath module path)
      (hkind : ∀ k ∈ kind, k.space = space) :
      Origin l root rootPath
        ((Place.ofModule path).attempt module space id name vis (some module) kind)
  /-- A variant of an enum or an item of a trait. -/
  | member {outer : Attempt} (space : Namespace) (id : NodeId) (name : Ident) (vis : Visibility)
      (hmem : outer ∈ l) (hvis : outer.vis = some vis)
      (hkind : outer.kind = some .enum ∨ outer.kind = some .trait) :
      Origin l root rootPath
        (outer.inner.attempt outer.module space id name vis (some outer.id) none)
  /-- A projection or an implementation item. -/
  | unnamed {a : Attempt} (hcontainer : a.container = none) (hkind : a.kind = none) :
      Origin l root rootPath a

section Origin

variable {l l' : List Attempt} {root module : NodeId} {rootPath path : CanonicalPath} {a : Attempt}

theorem Hosts.mono (h : Hosts l root rootPath module path) (hl : l ⊆ l') :
    Hosts l' root rootPath module path :=
  h.imp_right fun ⟨m, hm, hkind⟩ => ⟨m, hl hm, hkind⟩

theorem Attempt.Origin.mono (h : a.Origin l root rootPath) (hl : l ⊆ l') :
    a.Origin l' root rootPath := by
  cases h with
  | item space id name vis kind hhosts hkind =>
      exact .item space id name vis kind (hhosts.mono hl) hkind
  | member space id name vis hmem hvis hkind => exact .member space id name vis (hl hmem) hvis hkind
  | unnamed hcontainer hkind => exact .unnamed hcontainer hkind

/-- Seen from the module around it, a nested module is attempted like everything in it. -/
theorem Attempt.Origin.nest {m : Attempt} (h : a.Origin l m.id m.path)
    (hkind : m.kind = some .module) (hm : m ∈ l') (hl : l ⊆ l') : a.Origin l' root rootPath := by
  cases h with
  | item space id name vis kind hhosts hspace =>
      refine .item space id name vis kind ?_ hspace
      rcases hhosts with ⟨rfl, rfl⟩ | ⟨m', hm', h⟩
      · exact Or.inr ⟨m, hm, hkind, rfl, rfl⟩
      · exact Or.inr ⟨m', hl hm', h⟩
  | member space id name vis hmem hvis hkind => exact .member space id name vis (hl hmem) hvis hkind
  | unnamed hcontainer hkind => exact .unnamed hcontainer hkind

/-- Directly inside a module. -/
theorem Attempt.Origin.direct (space : Namespace) (id : NodeId) (name : Ident) (vis : Visibility)
    (kind : Option ContainerKind) (hkind : ∀ k ∈ kind, k.space = space) :
    ((Place.ofModule path).attempt module space id name vis (some module) kind).Origin l module
      path :=
  .item space id name vis kind (Or.inl ⟨rfl, rfl⟩) hkind

theorem Attempt.Origin.leaf (space : Namespace) (id : NodeId) (name : Ident) (vis : Visibility) :
    ((Place.ofModule path).attempt module space id name vis (some module) none).Origin l module
      path :=
  .direct space id name vis none fun _ h => nomatch h

end Origin

/-- What an item that is no module attempts directly inside a module stands there. -/
theorem ItemKind.attempts_origin {node : Node} {vis : Visibility} {kind : ItemKind} {here : NodeId}
    {path : CanonicalPath} {before : List Attempt}
    (hflat : ∀ name items, kind ≠ .module name items) :
    ∀ a ∈ kind.attempts node vis here (.ofModule path) before,
      a.Origin (kind.attempts node vis here (.ofModule path) before) here path := by
  intro a ha
  have hown := ItemKind.attempts_own hflat a ha
  cases hown with
  | leaf space id name itemVis hname himpl => exact .leaf space id name itemVis
  | container name k hname hkind himpl =>
      refine .direct .type node.id name vis (some k) fun k' hk => ?_
      cases hk
      rcases hkind with rfl | rfl <;> rfl
  | member owner k space id name hname hkind himpl howner =>
      exact .member space id name vis howner rfl
        (hkind.imp (congrArg some) (congrArg some))
  | implItem i inner hname hitems hmem => exact .unnamed rfl rfl
  | header i projection hkind hprojection => exact .unnamed rfl rfl

/-- Every attempt of items that are directly inside a module stands there or further in. -/
theorem itemsAttempts_origin (items : List Item) {here : NodeId} {path : CanonicalPath}
    {before : List Attempt} : ∀ a ∈ itemsAttempts here (.ofModule path) before items,
      a.Origin (itemsAttempts here (.ofModule path) before items) here path := by
  induction items using items_induction generalizing here path before with
  | nil =>
      intro a ha
      cases ha
  | module node vis name items rest ihInside ih =>
      intro a ha
      simp only [itemsAttempts, Item.attempts, ItemKind.attempts] at ha ⊢
      rcases List.mem_append.mp ha with ha | ha
      · refine Attempt.Origin.mono ?_ (List.subset_append_left _ _)
        rcases List.mem_cons.mp ha with rfl | ha
        · exact .direct .name node.id name vis (some .module) fun k hk => by cases hk; rfl
        · exact (ihInside a ha).nest rfl List.mem_cons_self (List.subset_cons_self _ _)
      · exact (ih a ha).mono (List.subset_append_right _ _)
  | flat node vis kind rest hflat ih =>
      intro a ha
      simp only [itemsAttempts, Item.attempts] at ha ⊢
      rcases List.mem_append.mp ha with ha | ha
      · exact (ItemKind.attempts_origin hflat a ha).mono (List.subset_append_left _ _)
      · exact (ih a ha).mono (List.subset_append_right _ _)

/-! ### Attempts with identities of their own -/

/-- The attempts of a module whose nodes are all different. -/
structure Nested (l : List Attempt) (root : NodeId) (rootPath : CanonicalPath) : Prop where
  origin : ∀ a ∈ l, a.Origin l root rootPath
  nodup : (root :: l.map Attempt.id).Nodup

theorem Attempt.Origin.vis_of_kind {l : List Attempt} {root : NodeId} {rootPath : CanonicalPath}
    {a : Attempt} (h : a.Origin l root rootPath) {kind : ContainerKind}
    (hkind : a.kind = some kind) : a.vis.isSome := by
  cases h with
  | item space id name vis kind hhosts hspace => rfl
  | member space id name vis hmem hvis houter => rfl
  | unnamed hcontainer hnone =>
      rw [hnone] at hkind
      cases hkind

/-- Only a projection has no visibility. -/
theorem Attempt.Origin.vis_of_container {l : List Attempt} {root : NodeId}
    {rootPath : CanonicalPath} {a : Attempt} (h : a.Origin l root rootPath)
    (hcontainer : a.container.isSome) : a.vis.isSome := by
  cases h with
  | item space id name vis kind hhosts hspace => rfl
  | member space id name vis hmem hvis houter => rfl
  | unnamed hnone hkind =>
      rw [hnone] at hcontainer
      cases hcontainer

namespace Nested

variable {l : List Attempt} {root : NodeId} {rootPath : CanonicalPath} {a b : Attempt}
  (h : Nested l root rootPath)

include h

theorem eq_of_id (ha : a ∈ l) (hb : b ∈ l) (hid : a.id = b.id) : a = b :=
  List.inj_on_of_nodup_map (List.nodup_cons.mp h.nodup).2 ha hb hid

theorem id_ne_root (ha : a ∈ l) : a.id ≠ root := fun heq =>
  (List.nodup_cons.mp h.nodup).1 (heq ▸ List.mem_map_of_mem ha)

/-- Only the outermost module and those attempted as modules have items directly inside them. -/
theorem hosts_module {module : NodeId} {path : CanonicalPath}
    (hhosts : Hosts l root rootPath module path) (ha : a ∈ l) (hid : a.id = module) :
    a.kind = some .module := by
  rcases hhosts with ⟨rfl, -⟩ | ⟨m, hm, hkind, hmid, -⟩
  · exact absurd hid (h.id_ne_root ha)
  · rw [h.eq_of_id ha hm (hid.trans hmid.symm)]
    exact hkind

/-- A container is attempted in a module, under its bare name and in its own namespace. -/
theorem container_of_kind (ha : a ∈ l) {kind : ContainerKind} (hkind : a.kind = some kind) :
    a.container = some a.module ∧ a.key.texts = [a.name] ∧ kind.space = a.space := by
  have horigin := h.origin a ha
  cases horigin with
  | item space id name vis kind hhosts hspace => exact ⟨rfl, rfl, hspace _ hkind⟩
  | member space id name vis hmem hvis houter => cases hkind
  | unnamed hcontainer hnone =>
      rw [hnone] at hkind
      cases hkind

/-- Two members of one container that have the same name in the same namespace are attempted under
the same name in the same module. -/
theorem sameKey (ha : a ∈ l) (hb : b ∈ l) {c : NodeId} (hac : a.container = some c)
    (hbc : b.container = some c) (hname : a.name = b.name) :
    a.module = b.module ∧ a.key.SameText b.key := by
  have ha' := h.origin a ha
  have hb' := h.origin b hb
  cases ha' with
  | item space id name vis kind hhosts hspace =>
      cases hac
      cases hb' with
      | item space' id' name' vis' kind' hhosts' hspace' =>
          cases hbc
          exact ⟨rfl, congrArg (fun t => [t]) hname⟩
      | @member outer space' id' name' vis' hmem hvis houter =>
          -- No node is both a module and an enum or a trait.
          have hmodule := h.hosts_module hhosts hmem (Option.some.inj hbc)
          rw [hmodule] at houter
          rcases houter with houter | houter <;> cases houter
      | unnamed hcontainer hnone =>
          rw [hcontainer] at hbc
          cases hbc
  | @member outer space id name vis hmem hvis houter =>
      cases hac
      cases hb' with
      | item space' id' name' vis' kind' hhosts' hspace' =>
          cases hbc
          have hmodule := h.hosts_module hhosts' hmem rfl
          rw [hmodule] at houter
          rcases houter with houter | houter <;> cases houter
      | @member outer' space' id' name' vis' hmem' hvis' houter' =>
          have heq := h.eq_of_id hmem' hmem (Option.some.inj hbc)
          subst heq
          refine ⟨rfl, ?_⟩
          have hname : name.name = name'.name := hname
          simp [CanonicalPath.SameText, Place.attempt, Attempt.inner, hname]
      | unnamed hcontainer hnone =>
          rw [hcontainer] at hbc
          cases hbc
  | unnamed hcontainer hnone =>
      rw [hcontainer] at hac
      cases hac

/-- A variant or a trait item can be seen as far as its enum or trait can. -/
theorem sameVis (ha : a ∈ l) (hb : b ∈ l) (hcontainer : a.container = some b.id)
    (hkind : b.kind ≠ some .module) : a.vis = b.vis ∧ a.module = b.module := by
  have horigin := h.origin a ha
  cases horigin with
  | item space id name vis kind hhosts hspace =>
      exact absurd (h.hosts_module hhosts hb (Option.some.inj hcontainer).symm) hkind
  | @member outer space id name vis hmem hvis houter =>
      rw [h.eq_of_id hb hmem (Option.some.inj hcontainer).symm]
      exact ⟨hvis.symm, rfl⟩
  | unnamed hnone _ =>
      rw [hnone] at hcontainer
      cases hcontainer

/-- The canonical path of a member is that of its container with one more segment. -/
theorem texts_of_container (ha : a ∈ l) {container : NodeId} (hac : a.container = some container) :
    container = root ∧ a.path.texts = rootPath.texts ++ [a.name] ∨
      ∃ b ∈ l, b.kind.isSome ∧ b.id = container ∧ a.path.texts = b.path.texts ++ [a.name] := by
  have horigin := h.origin a ha
  cases horigin with
  | @item module path space id name vis kind hhosts hspace =>
      cases hac
      have htexts : (path ++ CanonicalPath.single id name.name).texts = path.texts ++ [name.name] :=
        CanonicalPath.texts_append _ _
      rcases hhosts with ⟨rfl, rfl⟩ | ⟨m, hm, hkind, rfl, rfl⟩
      · exact Or.inl ⟨rfl, htexts⟩
      · exact Or.inr ⟨m, hm, hkind ▸ rfl, rfl, htexts⟩
  | @member outer space id name vis hmem hvis houter =>
      cases hac
      have hkind : outer.kind.isSome := by
        rcases houter with houter | houter <;> rw [houter] <;> rfl
      exact Or.inr ⟨outer, hmem, hkind, rfl, CanonicalPath.texts_append _ _⟩
  | unnamed hcontainer hnone =>
      rw [hcontainer] at hac
      cases hac

end Nested

/-! ### Following names -/

/-- Names that lead from the outermost module to a declaration, each naming a member of the
container before it. -/
inductive Leads (l : List Attempt) (root : NodeId) : List String → NodeId → Prop
  | root : Leads l root [] root
  | step {names : List String} {container : NodeId} {a : Attempt} (h : Leads l root names container)
      (ha : a ∈ l) (hcontainer : a.container = some container) :
      Leads l root (names ++ [a.name]) a.id

theorem Leads.eq_root {l : List Attempt} {root id : NodeId} {names : List String}
    (h : Leads l root names id) (hnames : names = []) : id = root := by
  cases h with
  | root => rfl
  | step h ha hcontainer => exact absurd hnames (List.append_ne_nil_of_right_ne_nil _ (by simp))

namespace Nested

variable {l : List Attempt} {root id : NodeId} {rootPath : CanonicalPath} {a : Attempt}
  {names : List String} (h : Nested l root rootPath)

include h

/-- The names that lead to a declaration are those of its canonical path. -/
theorem texts_of_leads (hleads : Leads l root names id) :
    id = root ∧ names = [] ∨
      ∃ a ∈ l, a.id = id ∧ a.container.isSome ∧ a.path.texts = rootPath.texts ++ names := by
  induction hleads with
  | root => exact Or.inl ⟨rfl, rfl⟩
  | @step names container a hleads ha hcontainer ih =>
      -- Either both sides say that the container is the root, or both that it was attempted.
      refine Or.inr ⟨a, ha, rfl, hcontainer ▸ rfl, ?_⟩
      rcases h.texts_of_container ha hcontainer with ⟨rfl, htexts⟩ | ⟨b, hb, -, rfl, htexts⟩
      · rcases ih with ⟨-, rfl⟩ | ⟨b, hb, hid, -, -⟩
        · exact htexts
        · exact absurd hid (h.id_ne_root hb)
      · rcases ih with ⟨hid, -⟩ | ⟨b', hb', hid, -, htexts'⟩
        · exact absurd hid (h.id_ne_root hb)
        · rw [htexts, ← h.eq_of_id hb' hb hid, htexts', List.append_assoc]

/-- Names lead to everything that has a container. The containers around a declaration have ever
shorter canonical paths, so this comes to an end. -/
theorem exists_leads {a : Attempt} (ha : a ∈ l) {container : NodeId}
    (hcontainer : a.container = some container) : ∃ names, Leads l root names a.id := by
  rcases h.texts_of_container ha hcontainer with ⟨rfl, -⟩ | ⟨b, hb, hkind, rfl, htexts⟩
  · exact ⟨_, .step .root ha hcontainer⟩
  · obtain ⟨kind, hkind⟩ := Option.isSome_iff_exists.mp hkind
    obtain ⟨names, hnames⟩ := exists_leads hb (h.container_of_kind hb hkind).1
    exact ⟨_, .step hnames ha hcontainer⟩
termination_by a.path.texts.length
decreasing_by
  rw [htexts, List.length_append]
  exact Nat.lt_succ_self _

end Nested

/-- Every attempt of a well-formed crate stands in the crate root or further in. -/
theorem Crate.nested {c : Crate} (hwf : c.WellFormed) (settings : Settings) :
    Nested (c.attempts settings) c.node.id (Session.rootPathFor c settings) where
  origin := itemsAttempts_origin c.items
  nodup := by
    have hnodup := ((itemsNodeIds_perm c.items).cons c.node.id).nodup_iff.mp hwf.1
    refine hnodup.sublist (List.Sublist.cons_cons _ ?_)
    exact (itemsAttempts_ids c.items).trans (List.sublist_append_left _ _)

end NameResolution
