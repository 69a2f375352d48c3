import NameResolution.Proofs.RibPaths
import NameResolution.Proofs.Lexical.Parts

/-!
# NameResolution.Proofs.ChildTables

**The tables of children mirror the ribs** (`Crate.children_mirror_ribs`). A path goes on
from a module, an enum or a trait by its table of children, while a name that stands alone
is looked up in the ribs. Both are filled by the attempts that are accepted:

* what has a container is entered among the children of it, under the last segment of the
  key that it is bound to (`Nested.module_of_key`, `Nested.key_of_member`);
* implementations and their items are bound as well, but they have no container
  (`Crate.container_eq_none_iff`).

No key is accepted twice in one rib, so no container has two children of one name in one
namespace. A node keeps its namespace in the second pass, whatever `Self` is bound to.
-/

namespace NameResolution

open Resolution

/-! ### Implementations and their items -/

mutual

/-- The implementations that an item is or holds, and their items. -/
def Item.implIds : Item → List NodeId
  | ⟨n, _, .inherentImpl i⟩ => n.id :: i.items.map (·.node.id)
  | ⟨n, _, .traitImpl i⟩ => n.id :: i.items.map (·.node.id)
  | ⟨_, _, .module _ items⟩ => itemsImplIds items
  | _ => []

def itemsImplIds : List Item → List NodeId
  | [] => []
  | item :: rest => item.implIds ++ itemsImplIds rest

end

/-- The implementations in a crate, of traits or not, and their items. -/
def Crate.implIds (c : Crate) : List NodeId := itemsImplIds c.items

section Flat

variable {node : Node} {vis : Visibility} {kind : ItemKind}
  (hflat : ∀ name items, kind ≠ .module name items)

include hflat

/-- Apart from what a module holds, only implementations count. -/
theorem Item.mem_implIds_flat {id : NodeId} : id ∈ Item.implIds ⟨node, vis, kind⟩ ↔
    ∃ items, kind.implItems? = some items ∧ id ∈ node.id :: items.map (·.node.id) := by
  cases kind with
  | module name items => exact absurd rfl (hflat name items)
  | inherentImpl i | traitImpl i => simp [Item.implIds, ItemKind.implItems?]
  | _ => simp [Item.implIds, ItemKind.implItems?]

theorem Item.implIds_flat_subset :
    Item.implIds ⟨node, vis, kind⟩ ⊆ node.id :: kind.memberIds := by
  cases kind with
  | module name items => exact absurd rfl (hflat name items)
  | inherentImpl i | traitImpl i => exact List.Subset.refl _
  | _ => exact List.nil_subset _

/-- Implementations and their items have no container, and whatever else is attempted has one. -/
theorem ItemKind.container_eq_none_iff {here : NodeId} {place : Place} {before : List Attempt} :
    ∀ a ∈ kind.attempts node vis here place before,
      a.container = none ↔ a.id ∈ Item.implIds ⟨node, vis, kind⟩ := by
  intro a ha
  rw [Item.mem_implIds_flat hflat]
  have hown := ItemKind.attempts_own hflat a ha
  cases hown with
  | implItem i inner hname hitems hmem =>
      exact iff_of_true rfl ⟨_, hitems, List.mem_cons_of_mem _ (List.mem_map_of_mem hmem)⟩
  | header i projection hkind hprojection =>
      subst hkind
      exact iff_of_true rfl ⟨_, rfl, List.mem_cons_self⟩
  | leaf _ _ _ _ _ himpl | container _ _ _ _ himpl | member _ _ _ _ _ _ _ himpl _ =>
      refine iff_of_false (Option.some_ne_none _) fun ⟨items, hitems, _⟩ => ?_
      rw [himpl] at hitems
      cases hitems

end Flat

theorem itemsImplIds_subset (items : List Item) : itemsImplIds items ⊆ itemsDeclaredIds items := by
  induction items using items_induction with
  | nil => exact List.Subset.refl _
  | module node vis name items rest ihInside ih =>
      refine List.append_subset.mpr ⟨?_, List.Subset.trans ih (List.subset_append_right _ _)⟩
      refine List.Subset.trans ?_ (List.subset_append_left _ _)
      exact List.Subset.trans ihInside (List.subset_cons_self _ _)
  | flat node vis kind rest hflat ih =>
      refine List.append_subset.mpr ⟨?_, List.Subset.trans ih (List.subset_append_right _ _)⟩
      rw [itemsDeclaredIds, Item.declaredIds_flat hflat]
      exact List.Subset.trans (Item.implIds_flat_subset hflat) (List.subset_append_left _ _)

theorem Item.implIds_subset (item : Item) : item.implIds ⊆ item.declaredIds := by
  simpa [itemsImplIds, itemsDeclaredIds] using itemsImplIds_subset [item]

mutual

theorem Item.container_eq_none_iff : ∀ (item : Item) {here : NodeId} {place : Place}
    {before : List Attempt}, item.declaredIds.Nodup →
      ∀ a ∈ item.attempts here place before, a.container = none ↔ a.id ∈ item.implIds
  | ⟨node, vis, kind⟩, here, place, before, hnodup, a, ha => by
      cases kind with
      | module name items =>
          obtain ⟨hown, hitems⟩ := List.nodup_cons.mp hnodup
          rcases List.mem_cons.mp ha with rfl | ha
          · exact iff_of_false nofun fun hid => hown (itemsImplIds_subset items hid)
          · exact itemsContainer_eq_none_iff items hitems a ha
      | _ =>
          have hattempts : a ∈ ItemKind.attempts node vis here place before _ := ha
          exact ItemKind.container_eq_none_iff (by simp) a hattempts

theorem itemsContainer_eq_none_iff : ∀ (items : List Item) {here : NodeId} {place : Place}
    {before : List Attempt}, (itemsDeclaredIds items).Nodup →
      ∀ a ∈ itemsAttempts here place before items, a.container = none ↔ a.id ∈ itemsImplIds items
  | item :: rest, here, place, before, hnodup, a, ha => by
      obtain ⟨hitem, hrest, hapart⟩ := List.nodup_append.mp hnodup
      rw [itemsImplIds, List.mem_append]
      -- An attempt of one part is in no implementation of the other.
      rcases List.mem_append.mp ha with ha | ha
      · have hid : a.id ∈ item.declaredIds := item.attempts_ids.subset (List.mem_map_of_mem ha)
        rw [item.container_eq_none_iff hitem a ha]
        exact (or_iff_left fun hin => hapart _ hid _ (itemsImplIds_subset rest hin) rfl).symm
      · have hid : a.id ∈ itemsDeclaredIds rest :=
          (itemsAttempts_ids rest).subset (List.mem_map_of_mem ha)
        rw [itemsContainer_eq_none_iff rest hrest a ha]
        exact (or_iff_right fun hin => hapart _ (item.implIds_subset hin) _ hid rfl).symm

end

theorem Crate.container_eq_none_iff {c : Crate} (hwf : c.WellFormed) (settings : Settings)
    {a : Attempt} (ha : a ∈ c.attempts settings) : a.container = none ↔ a.id ∈ c.implIds :=
  itemsContainer_eq_none_iff c.items
    (List.nodup_append.mp (List.nodup_cons.mp hwf.nodup).2).1 a ha

/-! ### The keys of what has a container -/

namespace Nested

variable {l : List Attempt} {root : NodeId} {rootPath : CanonicalPath} {a b : Attempt}
  (h : Nested l root rootPath)

include h

/-- What is bound to a single name is contained in the module around it, if in anything. -/
theorem module_of_key (ha : a ∈ l) {name : String} (hkey : a.key.texts = [name])
    (hcontainer : a.container ≠ none) : a.container = some a.module ∧ a.name = name := by
  have horigin := h.origin a ha
  cases horigin with
  | item space id ident vis kind hhosts hspace => exact ⟨rfl, List.head_eq_of_cons_eq hkey⟩
  | @member outer space id ident vis hmem hvis houter =>
      -- The key of a member has a segment for its enum or trait.
      obtain ⟨kind, hkind⟩ : ∃ kind, outer.kind = some kind := by
        rcases houter with houter | houter <;> exact ⟨_, houter⟩
      have htexts := (h.container_of_kind hmem hkind).2.1
      simp [Place.attempt, Attempt.inner, htexts] at hkey
  | unnamed hnone hkind => exact absurd hnone hcontainer

/-- What a module contains is bound to its bare name in it. -/
theorem key_of_module (ha : a ∈ l) {module : NodeId} {path : CanonicalPath}
    (hhosts : Hosts l root rootPath module path) (hcontainer : a.container = some module) :
    a.module = module ∧ a.key.texts = [a.name] := by
  have horigin := h.origin a ha
  cases horigin with
  | item space id ident vis kind hhosts' hspace => exact ⟨Option.some.inj hcontainer, rfl⟩
  | member space id ident vis hmem hvis houter =>
      have hmodule := h.hosts_module hhosts hmem (Option.some.inj hcontainer)
      rw [hmodule] at houter
      rcases houter with houter | houter <;> cases houter
  | unnamed hnone hkind =>
      rw [hnone] at hcontainer
      cases hcontainer

/-- A variant or a trait item is bound where its enum or trait is, to the two names together. -/
theorem key_of_member (ha : a ∈ l) (hb : b ∈ l) {kind : ContainerKind}
    (hkind : b.kind = some kind) (hmodule : kind ≠ .module) (hcontainer : a.container = some b.id) :
    a.module = b.module ∧ a.key.texts = [b.name, a.name] := by
  have horigin := h.origin a ha
  cases horigin with
  | item space id ident vis kind' hhosts hspace =>
      have hmod := h.hosts_module hhosts hb (Option.some.inj hcontainer).symm
      exact absurd (Option.some.inj (hkind.symm.trans hmod)) hmodule
  | @member outer space id ident vis hmem hvis houter =>
      rw [h.eq_of_id hb hmem (Option.some.inj hcontainer).symm] at hkind ⊢
      refine ⟨rfl, ?_⟩
      simp [Place.attempt, Attempt.inner, (h.container_of_kind hmem hkind).2.1]
  | unnamed hnone hkind' =>
      rw [hnone] at hcontainer
      cases hcontainer

end Nested

/-! ### Items in their modules -/

/-- The name of an enum or a trait, which stands in front of the names of its members. -/
def ItemKind.memberPrefix? : ItemKind → Option Ident
  | .enum e => some e.name
  | .trait t => some t.name
  | _ => none

mutual

/-- What an item inside of another one attempts is attempted in the innermost of the modules around
it, and stands in one piece among all that is attempted. -/
theorem Item.attempts_of_placed : ∀ (outermost : Item) {here : NodeId} {outer : List NodeId}
    {path : CanonicalPath} {before : List Attempt} {modules : List NodeId} {item : Item},
    (modules, item) ∈ outermost.placed (here :: outer) →
      ∃ module path' before' after, modules.head? = some module ∧
        before ++ outermost.attempts here (.ofModule path) before =
          before' ++ item.attempts module (.ofModule path') before' ++ after
  | ⟨node, vis, kind⟩, here, outer, path, before, modules, item, hplaced => by
      rcases List.mem_cons.mp hplaced with heq | hplaced
      · cases heq
        exact ⟨here, path, before, [], rfl, (List.append_nil _).symm⟩
      · cases kind with
        | module name items =>
            obtain ⟨module, path', before', after, hmodule, heq⟩ :=
              itemsAttempts_of_placed items hplaced
            refine ⟨module, path', before', after, hmodule, ?_⟩
            simp only [Item.attempts, ItemKind.attempts]
            rw [List.append_cons]
            exact heq
        | _ => cases hplaced

theorem itemsAttempts_of_placed : ∀ (items : List Item) {here : NodeId} {outer : List NodeId}
    {path : CanonicalPath} {before : List Attempt} {modules : List NodeId} {item : Item},
    (modules, item) ∈ itemsPlaced (here :: outer) items →
      ∃ module path' before' after, modules.head? = some module ∧
        before ++ itemsAttempts here (.ofModule path) before items =
          before' ++ item.attempts module (.ofModule path') before' ++ after
  | first :: rest, here, _, path, before, _, _, hplaced => by
      simp only [itemsAttempts]
      rw [← List.append_assoc]
      rcases List.mem_append.mp hplaced with hplaced | hplaced
      · obtain ⟨module, path', before', after, hmodule, heq⟩ := first.attempts_of_placed hplaced
        refine ⟨module, path', before', after ++ itemsAttempts here (.ofModule path)
          (before ++ first.attempts here (.ofModule path) before) rest, hmodule, ?_⟩
        rw [heq, List.append_assoc _ after]
      · exact itemsAttempts_of_placed rest hplaced

end

/-- What an item of a crate attempts stands in one piece among all that is attempted. -/
theorem Crate.attempts_of_placed {c : Crate} (settings : Settings) {module : NodeId}
    {outer : List NodeId} {item : Item} (hplaced : (module :: outer, item) ∈ c.placedItems) :
    ∃ path before after, c.attempts settings =
      before ++ item.attempts module (.ofModule path) before ++ after := by
  obtain ⟨module', path, before, after, hmodule, heq⟩ :
      ∃ module' path before after, (module :: outer).head? = some module' ∧
        [] ++ c.attempts settings =
          before ++ item.attempts module' (.ofModule path) before ++ after :=
    itemsAttempts_of_placed c.items hplaced
  cases hmodule
  exact ⟨path, before, after, heq⟩

/-- Enums and traits are attempted in the innermost of the modules around them. -/
theorem Crate.exists_attempt_of_member {c : Crate} (settings : Settings) {module : NodeId}
    {outer : List NodeId} {item : Item} {name : Ident}
    (hplaced : (module :: outer, item) ∈ c.placedItems)
    (hname : item.kind.memberPrefix? = some name) :
    ∃ a ∈ c.attempts settings, a.id = item.node.id ∧ a.name = name.name ∧ a.module = module ∧
      ∃ kind, a.kind = some kind ∧ kind ≠ .module := by
  obtain ⟨path, before, after, heq⟩ := c.attempts_of_placed settings hplaced
  obtain ⟨node, vis, kind⟩ := item
  rw [heq]
  cases kind <;> cases hname
  all_goals
    exact ⟨_, List.mem_append_left _ (List.mem_append_right _ List.mem_cons_self), rfl, rfl, rfl, _,
      rfl, nofun⟩

/-! ### The crate -/

namespace Crate

variable {c : Crate} {settings : Settings} {s : Session}

namespace SecondPass

variable (hwf : c.WellFormed) (hs : c.SecondPass (c.registered settings) s)

include hwf hs

/-- What the rib of a module holds in the end is what was accepted in it. -/
theorem bindingIn?_eq_some_iff {module : NodeId}
    (hmodule : module ∈ c.node.id :: itemsModuleIds c.items) {space : Namespace}
    {key : CanonicalPath} {b : Binding} :
    (s.scope space).bindingIn? module key = some b ↔
      ∃ a ∈ accepted (c.attempts settings),
        (a.module = module ∧ a.space = space ∧ a.key.SameText key) ∧ a.binding = b := by
  have hbase := c.firstPass hwf settings
  rw [hs.ribs module hmodule,
    hbase.ribs space module key (hbase.ne_prelude hwf (mem_nodeIds_of_module hmodule)),
    Option.map_eq_some_iff]
  constructor
  · rintro ⟨a, ha, rfl⟩
    exact ⟨a, mem_accepted_of_firstFor ha, isFor_of_firstFor ha, rfl⟩
  · rintro ⟨a, ha, ⟨rfl, rfl, hkey⟩, rfl⟩
    exact ⟨a, (firstFor_congr _ _ _ hkey).symm.trans (firstFor_of_mem_accepted ha), rfl⟩

/-- The children of a container are what was accepted in it. -/
theorem mem_childrenOf {container : NodeId} {child : Child} :
    child ∈ s.tables.childrenOf container ↔
      ∃ a ∈ accepted (c.attempts settings), a.container = some container ∧
        ⟨a.name, a.id⟩ = child := by
  rw [hs.tables.childrenOf, (c.firstPass hwf settings).childrenOf_eq, List.mem_filterMap]
  simp only [Option.ite_none_right_eq_some, Option.some.injEq]

/-- A declaration stays in the namespace in which it was accepted. -/
theorem classify_accepted {a : Attempt} (ha : a ∈ accepted (c.attempts settings)) :
    s.classify a.id = some a.space := by
  have hbase := c.firstPass hwf settings
  have hknown := hs.knows _ (hbase.knows_accepted hwf ha)
  rw [hbase.meaning_accepted hwf ha] at hknown
  exact hknown.classified

/-- No container has two children that have both the name and the namespace in common. -/
theorem nodup_children (container : NodeId) :
    ((s.tables.childrenOf container).map fun child => (child.name, s.classify child.id)).Nodup := by
  have hnested := c.nested hwf settings
  have hids : (accepted (c.attempts settings)).Pairwise fun a b => a.id ≠ b.id :=
    List.pairwise_map.mp ((List.nodup_cons.mp hnested.nodup).2.sublist ((accepted_sublist _).map _))
  have hnodup : (s.tables.childrenOf container).Nodup := by
    rw [hs.tables.childrenOf, (c.firstPass hwf settings).childrenOf_eq]
    refine hids.filterMap _ fun a b hne x hx y hy heq => hne ?_
    simp only [Option.ite_none_right_eq_some, Option.some.injEq] at hx hy
    rw [← hx.2, ← hy.2] at heq
    exact congrArg Child.id heq
  refine hnodup.map_on fun x hx y hy heq => ?_
  obtain ⟨a, ha, hac, rfl⟩ := (hs.mem_childrenOf hwf).mp hx
  obtain ⟨b, hb, hbc, rfl⟩ := (hs.mem_childrenOf hwf).mp hy
  obtain ⟨hname, hspace⟩ := Prod.mk.inj heq
  rw [hs.classify_accepted hwf ha, hs.classify_accepted hwf hb] at hspace
  obtain ⟨hmodule, hkey⟩ :=
    hnested.sameKey (mem_of_mem_accepted ha) (mem_of_mem_accepted hb) hac hbc hname
  rw [eq_of_mem_accepted ha hb hmodule (Option.some.inj hspace) hkey]

end SecondPass

/-- Once a well-formed crate has been resolved, the children of a module are what its two ribs bind
a single name to, except for implementations and their items. The children of an enum or a trait are
bound in the rib of the module around it, with the name of the enum or trait in front. A binding in
the rib of a namespace belongs to that namespace, and no container has two children that have the
same name and belong to the same namespace. All of this includes containers that were refused as
duplicates. -/
theorem children_mirror_ribs (hwf : c.WellFormed) (settings : Settings) :
    ∃ s, Runs (c.run settings) (.start c settings) () s ∧ c.resolve settings = .ok s.finish ∧
      (∀ module ∈ c.node.id :: itemsModuleIds c.items, ∀ name id,
        ⟨name, id⟩ ∈ s.tables.childrenOf module ↔
          (∃ space b, (s.scope space).bindingIn? module (.single id name) = some b ∧ b.id = id) ∧
            id ∉ c.implIds) ∧
      (∀ module around item owner, (module :: around, item) ∈ c.placedItems →
        item.kind.memberPrefix? = some owner → ∀ child ∈ s.tables.childrenOf item.node.id,
          ∃ space b, (s.scope space).bindingIn? module
            (.single item.node.id owner.name ++ .single child.id child.name) = some b ∧
              b.id = child.id) ∧
      (∀ module ∈ c.node.id :: itemsModuleIds c.items, ∀ space key b,
        (s.scope space).bindingIn? module key = some b → s.classify b.id = some space) ∧
      ∀ container, ((s.tables.childrenOf container).map fun child =>
        (child.name, s.classify child.id)).Nodup := by
  have hnested := c.nested hwf settings
  obtain ⟨s₂, s, hs, hrun, htables, hscopes, -⟩ := c.exists_run hwf settings
  have hclassify : ∀ id, s.classify id = s₂.classify id := fun id => by
    unfold Session.classify
    rw [htables, ← Session.scope_name, ← Session.scope_type, hscopes, hscopes]
    rfl
  refine ⟨s, hrun, resolve_of_runs hrun, fun module hmodule name id => ?_,
    fun module around item owner hplaced howner child hchild => ?_,
    fun module hmodule space key b hb => ?_, fun container => ?_⟩
  · obtain ⟨path, hhosts⟩ := c.exists_hosts settings hmodule
    rw [htables, hs.mem_childrenOf hwf]
    simp only [hscopes, hs.bindingIn?_eq_some_iff hwf hmodule]
    constructor
    · rintro ⟨a, ha, hcontainer, heq⟩
      cases heq
      have hmem := mem_of_mem_accepted ha
      obtain ⟨hin, hkey⟩ := hnested.key_of_module hmem hhosts hcontainer
      refine ⟨⟨a.space, a.binding, ⟨a, ha, ⟨hin, rfl, hkey⟩, rfl⟩, rfl⟩, fun himpl => ?_⟩
      rw [(c.container_eq_none_iff hwf settings hmem).mpr himpl] at hcontainer
      cases hcontainer
    · rintro ⟨⟨space, -, ⟨a, ha, ⟨rfl, -, hkey⟩, rfl⟩, rfl⟩, himpl⟩
      have hmem := mem_of_mem_accepted ha
      obtain ⟨hcontainer, rfl⟩ := hnested.module_of_key hmem hkey fun hnone =>
        himpl ((c.container_eq_none_iff hwf settings hmem).mp hnone)
      exact ⟨a, ha, hcontainer, rfl⟩
  · obtain ⟨b, hb, hid, hname, rfl, kind, hkind, hmodule⟩ :=
      c.exists_attempt_of_member settings hplaced howner
    rw [htables, hs.mem_childrenOf hwf] at hchild
    obtain ⟨a, ha, hcontainer, rfl⟩ := hchild
    obtain ⟨hsame, hkey⟩ :=
      hnested.key_of_member (mem_of_mem_accepted ha) hb hkind hmodule (hid ▸ hcontainer)
    have hplace : b.module ∈ c.node.id :: itemsModuleIds c.items :=
      List.mem_cons.mpr (itemsAttempts_module c.items b hb)
    refine ⟨a.space, a.binding, ?_, rfl⟩
    rw [hscopes, hs.bindingIn?_eq_some_iff hwf hplace]
    exact ⟨a, ha, ⟨hsame, rfl, hkey.trans (hname ▸ rfl)⟩, rfl⟩
  · rw [hscopes] at hb
    obtain ⟨a, ha, ⟨-, rfl, -⟩, rfl⟩ := (hs.bindingIn?_eq_some_iff hwf hmodule).mp hb
    rw [hclassify]
    exact hs.classify_accepted hwf ha
  · rw [htables]
    simp only [hclassify]
    exact hs.nodup_children hwf container

/-- Two enums `E`, the second of which is refused. The first one has a variant `A` and an
implementation with a function `A`, the second one the variants `A` and `B`. -/
def withTwinEnums : Crate where
  node := ⟨⟨0⟩, ⟨0, 99⟩⟩
  items :=
    let node (id offset : Nat) : Node := ⟨⟨id⟩, ⟨offset, 1⟩⟩
    let name (text : String) (offset : Nat) : Ident := ⟨text, ⟨offset, 1⟩⟩
    let variant (id offset : Nat) (text : String) : Variant :=
      ⟨node id offset, name text offset, .unit⟩
    [⟨node 1 0, .ownModule, .enum ⟨name "E" 5, .none, [variant 2 9 "A"]⟩⟩,
      ⟨node 3 20, .ownModule, .enum ⟨name "E" 25, .none, [variant 4 29 "A", variant 5 32 "B"]⟩⟩,
      ⟨node 6 40, .ownModule, .inherentImpl ⟨.none,
        .path (node 7 45) ⟨node 8 45, [⟨node 9 45, .ident "E", none⟩]⟩,
        [⟨node 10 49, .ownModule, .function ⟨name "A" 52, .none, none, [], none, none⟩⟩]⟩⟩]
  idBound := ⟨11⟩

/-- The variant `B` is a child of the enum that was refused, and it is bound under the name of the
enum all the same. -/
theorem children_mirror_ribs_withTwinEnums :
    withTwinEnums.WellFormed ∧ ∃ s, Runs (withTwinEnums.run {}) (.start withTwinEnums {}) () s ∧
      ⟨"E", ⟨1⟩⟩ ∈ s.tables.childrenOf ⟨0⟩ ∧ s.tables.childrenOf ⟨3⟩ = [⟨"B", ⟨5⟩⟩] ∧
      ∃ space b, (s.scope space).bindingIn? ⟨0⟩ (.single ⟨3⟩ "E" ++ .single ⟨5⟩ "B") = some b ∧
        b.id = ⟨5⟩ := by
  have hwf : withTwinEnums.WellFormed := by decide
  obtain ⟨s, hrun, -, hmodules, hmembers, -, -⟩ := children_mirror_ribs hwf {}
  have hs : (exec (withTwinEnums.run {}) (.start withTwinEnums {})).2 = s := congrArg Prod.snd hrun
  have hrib : (((exec (withTwinEnums.run {}) (.start withTwinEnums {})).2.scope .type).bindingIn?
      ⟨0⟩ (.single ⟨1⟩ "E")).map Binding.id = some ⟨1⟩ := by decide +kernel
  have hchildren : (exec (withTwinEnums.run {})
      (.start withTwinEnums {})).2.tables.childrenOf ⟨3⟩ = [⟨"B", ⟨5⟩⟩] := by decide +kernel
  rw [hs] at hrib hchildren
  obtain ⟨b, hb, hid⟩ := Option.map_eq_some_iff.mp hrib
  refine ⟨hwf, s, hrun, (hmodules ⟨0⟩ (by decide) "E" ⟨1⟩).mpr ⟨⟨.type, b, hb, hid⟩, by decide⟩,
    hchildren, ?_⟩
  exact hmembers ⟨0⟩ [] _ _ (List.mem_cons_of_mem _ List.mem_cons_self) rfl ⟨"B", ⟨5⟩⟩
    (hchildren ▸ List.mem_cons_self)

end Crate

end NameResolution
