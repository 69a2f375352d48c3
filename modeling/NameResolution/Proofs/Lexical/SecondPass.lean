import NameResolution.Proofs.FirstPass
import NameResolution.Proofs.Nesting
import NameResolution.Proofs.Lexical.ItemAgreement

/-!
# NameResolution.Proofs.Lexical.SecondPass

**The second pass of a well-formed crate.** What the first pass leaves behind is all that
the second pass relies on (`Crate.FirstPass.settled`, `Crate.FirstPass.prepared`), so it
succeeds and does what reading the crate says (`Crate.SecondPass`).
-/

namespace NameResolution

open Resolution

theorem Session.knows_meaning {s : Session} {id : NodeId} (hclass : (s.classify id).isSome)
    (hpath : (s.tables.paths.get? id).isSome) : s.Knows (s.meaning id) := by
  obtain ⟨space, hspace⟩ := Option.isSome_iff_exists.mp hclass
  obtain ⟨path, hpath⟩ := Option.isSome_iff_exists.mp hpath
  exact ⟨by simp [meaning, hspace], by simp [meaning, hpath]⟩

namespace Crate.FirstPass

variable {c : Crate} {settings : Settings} {s : Session} (hwf : c.WellFormed)
  (h : c.FirstPass settings s)

/-! ### What the second pass relies on -/

section Relied

include hwf h

/-- A declaration belongs to the namespace in which it was attempted. -/
theorem classify_accepted {a : Attempt} (ha : a ∈ accepted (c.attempts settings)) :
    s.classify a.id = some a.space := by
  have hnested := c.nested hwf settings
  have hmem := mem_of_mem_accepted ha
  -- Whatever would make it a name is said of the attempt with its identity, which is `a`.
  have hdeclared : a.id ∈ (s.scope .name).declared → a.space = .name := fun hin => by
    rcases (h.declared .name a.id).mp hin with ⟨b, hb, hspace, hid⟩ | ⟨hspace, -⟩
    · rw [hnested.eq_of_id hmem (mem_of_mem_accepted hb) hid.symm]
      exact hspace
    · cases hspace
  have hmodule : s.tables.isModule a.id = true → a.space = .name := fun hm => by
    have hget : s.tables.containers.get? a.id = some .module := by simpa [Tables.isModule] using hm
    rcases h.contained a.id .module hget with ⟨hroot, -⟩ | ⟨b, hb, hid, hkind⟩
    · exact absurd (hroot.trans h.root) (hnested.id_ne_root hmem)
    · rw [hnested.eq_of_id hmem hb hid.symm]
      exact (hnested.container_of_kind hb hkind).2.2.symm
  have hown : a.id ∈ (s.scope a.space).declared :=
    (h.declared a.space a.id).mpr (Or.inl ⟨a, ha, rfl, rfl⟩)
  unfold Session.classify
  cases hspace : a.space with
  | name =>
      rw [hspace] at hown
      have hnames : s.names.wasDeclared a.id = true := decide_eq_true hown
      rw [hnames]
      rfl
  | type =>
      rw [hspace] at hown hdeclared hmodule
      have hnames : s.names.wasDeclared a.id = false :=
        decide_eq_false fun hin => by cases hdeclared hin
      have hno : s.tables.isModule a.id = false :=
        Bool.eq_false_iff.mpr fun hm => by cases hmodule hm
      have htypes : s.types.wasDeclared a.id = true := decide_eq_true hown
      rw [hnames, hno, htypes]
      rfl

/-- What an accepted attempt has declared. -/
theorem meaning_accepted {a : Attempt} (ha : a ∈ accepted (c.attempts settings)) :
    s.meaning a.id = ⟨a.id, a.space, a.path⟩ := by
  have hpath := h.paths a (mem_of_mem_accepted ha) (Or.inr ha)
  simp [Session.meaning, h.classify_accepted hwf ha, hpath]

theorem knows_accepted {a : Attempt} (ha : a ∈ accepted (c.attempts settings)) :
    s.Knows (s.meaning a.id) := by
  rw [h.meaning_accepted hwf ha]
  exact ⟨h.classify_accepted hwf ha, h.paths a (mem_of_mem_accepted ha) (Or.inr ha)⟩

end Relied

include h in
/-- The children of a container are what was accepted in it, in the order of declaration. -/
theorem childrenOf_eq (container : NodeId) :
    s.tables.childrenOf container = (accepted (c.attempts settings)).filterMap fun a =>
      if a.container = some container then some ⟨a.name, a.id⟩ else none := by
  unfold Tables.childrenOf
  rw [h.children, List.filterMap_filterMap]
  refine List.filterMap_congr fun a _ => ?_
  unfold Attempt.child?
  cases a.container with
  | none => simp
  | some own => by_cases hown : own = container <;> simp [hown]

include h in
/-- The children of a container that have a given name, in the order of declaration. -/
theorem childrenNamed_eq (scope : NodeId) (name : String) :
    s.tables.childrenNamed scope name = (accepted (c.attempts settings)).filterMap fun a =>
      if a.container = some scope ∧ a.name = name then some a.id else none := by
  unfold Tables.childrenNamed
  rw [h.childrenOf_eq, List.filterMap_filterMap]
  refine List.filterMap_congr fun a _ => ?_
  by_cases hscope : a.container = some scope <;> by_cases hname : a.name = name <;>
    simp [hscope, hname]

include h in
theorem mem_childrenNamed {child scope : NodeId} {name : String} :
    child ∈ s.tables.childrenNamed scope name ↔
      ∃ a ∈ accepted (c.attempts settings), a.container = some scope ∧ a.name = name ∧
        a.id = child := by
  rw [h.childrenNamed_eq, List.mem_filterMap]
  simp only [Option.ite_none_right_eq_some, Option.some.injEq, and_assoc]

include hwf h

/-- A container has a canonical path, whether its name was taken or not. -/
theorem container_named {id : NodeId} {kind : ContainerKind}
    (hget : s.tables.containers.get? id = some kind) : (s.tables.paths.get? id).isSome := by
  rcases h.contained id kind hget with ⟨rfl, -⟩ | ⟨a, ha, rfl, hkind⟩
  · rw [h.rootNamed]
    rfl
  · have hvis := ((c.nested hwf settings).origin a ha).vis_of_kind hkind
    rw [h.paths a ha (Or.inl hvis)]
    rfl

/-- Whatever a rib holds after the first pass was attempted, or is a primitive type. -/
theorem knows_binding {space : Namespace} {owner : NodeId} {key : CanonicalPath} {b : Binding}
    (hb : (s.scope space).bindingIn? owner key = some b) : s.Knows (s.meaning b.id) := by
  by_cases howner : owner = s.builtins.prelude
  · rw [howner, h.prelude] at hb
    cases space with
    | name => cases hb
    | type =>
        obtain ⟨p, hp, rfl⟩ := Option.map_eq_some_iff.mp hb
        have hmem : p ∈ s.builtins.primitives := List.mem_of_find?_eq_some hp
        have hprim : p.2 ∈ s.builtins.primitives.map Prod.snd := List.mem_map_of_mem hmem
        have hdeclared : p.2 ∈ (s.scope .type).declared :=
          (h.declared .type p.2).mpr (Or.inr ⟨rfl, hprim⟩)
        obtain ⟨path, -, hpath⟩ := h.builtinPaths p.2 (List.mem_append_left _ hprim)
        refine Session.knows_meaning ?_ (Option.isSome_iff_exists.mpr ⟨path, hpath⟩)
        have htypes : s.types.wasDeclared p.2 = true := decide_eq_true hdeclared
        change (s.classify p.2).isSome
        unfold Session.classify
        rw [htypes]
        split <;> rfl
  · rw [h.ribs space owner key howner] at hb
    obtain ⟨a, ha, rfl⟩ := Option.map_eq_some_iff.mp hb
    exact h.knows_accepted hwf (mem_accepted_of_firstFor ha)

theorem settled : s.Settled where
  containersNamed _ _ hget := h.container_named hwf hget
  childrenKnown scope name child hchild := by
    obtain ⟨a, ha, -, -, rfl⟩ := h.mem_childrenNamed.mp hchild
    exact h.knows_accepted hwf ha
  parentsModules := h.parents
  builtinsNamed id hid :=
    have ⟨path, _, hpath⟩ := h.builtinPaths id hid
    Option.isSome_iff_exists.mpr ⟨path, hpath⟩
  bindingsKnown _ _ _ _ hb := h.knows_binding hwf hb
  rootModule := h.rootModule

/-- Nothing is bound in the rib of a node that is no module. -/
theorem vacant {id : NodeId} (hid : id ∈ itemsEntryIds c.items ++ itemsBodyIds c.items) :
    s.Vacant id := by
  obtain ⟨hroot, hnodup⟩ := List.nodup_cons.mp hwf.nodup_parts
  have hnodes : id ∈ c.nodeIds := by
    refine List.mem_cons_of_mem _ ((itemsNodeIds_perm c.items).mem_iff.mpr ?_)
    refine (List.mem_append.mp hid).elim (fun hin => List.mem_append_left _ ?_)
      (List.mem_append_right _)
    exact (itemsDeclaredIds_perm c.items).mem_iff.mpr (List.mem_append_right _ hin)
  -- Everything that is bound was attempted in a module, and `id` is none of the modules.
  intro space key
  rw [h.ribs space id key (h.ne_prelude hwf hnodes)]
  refine Option.map_eq_none_iff.mpr (Option.eq_none_iff_forall_not_mem.mpr fun a ha => ?_)
  have hmodule : a.module = id := (isFor_of_firstFor ha).1
  rcases itemsAttempts_module c.items a (mem_of_firstFor ha) with heq | hin
  · exact hroot (List.mem_append_right _ (by rwa [← heq, hmodule]))
  · exact (List.nodup_append.mp hnodup).2.2 _ hin id hid hmodule

theorem prepared : s.Prepared (itemsContainers c.items) (itemsEntryIds c.items)
    (itemsBodyIds c.items) where
  containers p hp := by
    obtain ⟨a, ha, hid, hkind⟩ := exists_attempt_of_mem_itemsContainers c.items p hp
    rw [← hid]
    exact h.containers a ha p.2 hkind
  entries id hid := h.vacant hwf (List.mem_append_left _ hid)
  bodies id hid := ⟨h.unused id hid, h.vacant hwf (List.mem_append_right _ hid)⟩
  flat id hid := by
    obtain ⟨hroot, hnodup⟩ := List.nodup_cons.mp hwf.nodup_parts
    have hentry : id ∈ itemsEntryIds c.items ++ itemsBodyIds c.items :=
      List.mem_append_left _ hid
    refine Bool.eq_false_iff.mpr fun hmodule => ?_
    rcases List.mem_cons.mp (h.mem_of_isModule hmodule) with rfl | hin
    · exact hroot (List.mem_append_right _ hentry)
    · exact (List.nodup_append.mp hnodup).2.2 id hin id hentry rfl

/-! ### Where the second pass starts -/

/-- Once the prelude and the crate root are open, the session stands for the inside of the crate
root, and all of the tree is as the first pass has left it. -/
theorem waits : Waits s (.inside [c.node.id]) (itemsNodeIds c.items)
    ((s.openFrame s.builtins.prelude).openModule c.node.id) where
  stands :=
    { builtins := rfl
      root := rfl
      tables := .refl s.tables
      modules := by
        change c.node.id :: s.modules.opened = [c.node.id]
        rw [h.modules]
        rfl
      outermost := congrArg some h.root.symm
      areModules := fun m hm => by
        rw [List.mem_singleton.mp hm, ← h.root]
        exact h.rootModule
      opened := fun space => by
        rw [Session.scope_openModule, Session.scope_openFrame, Scope.opened_push,
          Scope.opened_push, h.closed]
        rfl
      nodup := by
        have hne : c.node.id ≠ s.builtins.prelude := h.ne_prelude hwf List.mem_cons_self
        simpa [Env.owners, Env.inside] using hne
      ribs := fun space o ho => by
        rw [Session.scope_openModule, Session.scope_openFrame]
        refine Scope.isSome_rib?_push ((List.mem_cons.mp ho).imp_right fun ho => ?_)
        exact Scope.isSome_rib?_push (Or.inl (List.mem_singleton.mp ho))
      frames := fun _ hf => nomatch hf
      members := fun o ho space key => by
        rw [Session.scope_openModule, Session.scope_openFrame, Scope.bindingIn?_push,
          Scope.bindingIn?_push]
      locals := fun _ hf => nomatch hf
      introduced := fun _ hf => nomatch hf
      fresh := fun _ hf => nomatch hf
      own := fun _ hf => nomatch hf
      knows := fun m hm => hm.congr rfl rfl
      offers := fun m hm => hm.congr rfl rfl rfl rfl }
  nodup := (List.nodup_cons.mp hwf.1).2
  apart id hid hin := by
    rcases List.mem_cons.mp hin with heq | hin
    · exact (List.nodup_cons.mp hwf.1).1 (heq ▸ hid)
    · exact h.ne_prelude hwf (List.mem_cons_of_mem _ hid) (List.mem_singleton.mp hin)
  enclosed _ hextent := nomatch hextent
  kept id _ space key := by
    rw [Session.scope_openModule, Session.scope_openFrame, Scope.bindingIn?_push,
      Scope.bindingIn?_push]
  unused id _ hunused := hunused.congr
    (fun space => by
      rw [Session.scope_openModule, Session.scope_openFrame, Scope.declared_push,
        Scope.declared_push]) rfl rfl

end Crate.FirstPass

/-! ### The session after the second pass -/

/-- What the second pass leaves behind, `base` being the session it started in. -/
structure Crate.SecondPass (c : Crate) (base s : Session) : Prop where
  closed : ∀ space, (s.scope space).opened = []
  modules : s.modules = .empty
  limit : s.errors.limit = base.errors.limit
  paths : ∀ id path, base.tables.paths.get? id = some path → s.tables.paths.get? id = some path
  /-- Nothing outside the bodies has been given a name. -/
  spares : base.Spares (itemsBodyIds c.items) s
  ribs : ∀ module ∈ c.node.id :: itemsModuleIds c.items, ∀ space key,
    (s.scope space).bindingIn? module key = (base.scope space).bindingIn? module key
  tables : Session.SameDeclarations base.tables s.tables
  knows : ∀ m, base.Knows m → s.Knows m
  /-- All that has been entered and reported is what has been found out. -/
  ledger : s.ledger = base.ledger.noteAll base (c.read base).findings
  uses : List.Subperm ((c.read base).findings.filterMap Finding.use?) (itemsNodeIds c.items)
  traced : Traced base (itemsNodeIds c.items) (c.read base).findings

/-- The declarations of a crate are in place, and its items can be resolved. -/
structure Crate.Declared (c : Crate) (base : Session) : Prop where
  settled : base.Settled
  prepared : base.Prepared (itemsContainers c.items) (itemsEntryIds c.items)
    (itemsBodyIds c.items)
  waits : Waits base (.inside [c.node.id]) (itemsNodeIds c.items)
    ((base.openFrame base.builtins.prelude).openModule c.node.id)
  closed : ∀ space, (base.scope space).opened = []
  modules : base.modules = .empty
  root : base.root = c.node.id

theorem Crate.FirstPass.inPlace {c : Crate} {settings : Settings} {base : Session}
    (h : c.FirstPass settings base) (hwf : c.WellFormed) : c.Declared base where
  settled := h.settled hwf
  prepared := h.prepared hwf
  waits := h.waits hwf
  closed := h.closed
  modules := h.modules
  root := h.root

/-- Resolving the items succeeds where their declarations are in place. -/
theorem Crate.Declared.exists_secondPass {c : Crate} {base : Session} (h : c.Declared base) :
    ∃ s, Runs c.resolveItems base () s ∧ c.SecondPass base s := by
  obtain ⟨_, s, hrun, hleaves, hstands, -, hstep⟩ :=
    agrees_items h.settled c.items h.prepared h.waits
  have hopened : ∀ space, (s.scope space).opened = [c.node.id, base.builtins.prelude] :=
    fun space => by
      rw [hstep.grows.opened, Session.scope_openModule, Session.scope_openFrame, Scope.opened_push,
        Scope.opened_push, h.closed]
  have hmodules : s.modules.opened = [c.node.id] := by
    rw [hstep.grows.modules]
    change c.node.id :: base.modules.opened = [c.node.id]
    rw [h.modules]
    rfl
  have hmodule : Runs (inModule c.node.id (NameResolution.resolveItems c.items))
      (base.openFrame base.builtins.prelude) () s.withoutModule :=
    hrun.inModule (fun space => by rw [hopened]; rfl) (by rw [hmodules]; rfl)
  have hframe : Runs (inFrame base.builtins.prelude
      (inModule c.node.id (NameResolution.resolveItems c.items))) base ()
      s.withoutModule.withoutFrame :=
    hmodule.inFrame fun space => by
      rw [Session.scope_withoutModule]
      change (s.scope space).opened.tail.head? = some base.builtins.prelude
      rw [hopened]
      rfl
  have hleft := hleaves.inModule hstands
  refine ⟨s.withoutModule.withoutFrame, Runs.get_bind (h.root ▸ hframe), fun space => ?_, ?_,
    hstep.grows.limit, hstep.grows.paths, hleft.spares.inFrame, fun module hmodule space key => ?_,
    hstep.tables, fun m hm => (hstands.knows m hm).congr rfl rfl, hstep.ledger, hstep.uses,
    hstep.traced⟩
  · rw [Session.scope_withoutFrame, Session.scope_withoutModule]
    change (s.scope space).opened.tail.tail = []
    rw [hopened]
    rfl
  · change (⟨s.modules.opened.tail⟩ : ModuleStack) = ⟨[]⟩
    rw [hmodules]
    rfl
  · rw [Session.scope_withoutFrame]
    exact hleft.ribs module hmodule space key

/-- Resolving the items of a well-formed crate succeeds. -/
theorem Crate.FirstPass.exists_secondPass {c : Crate} {settings : Settings} {base : Session}
    (h : c.FirstPass settings base) (hwf : c.WellFormed) :
    ∃ s, Runs c.resolveItems base () s ∧ c.SecondPass base s := (h.inPlace hwf).exists_secondPass

end NameResolution
