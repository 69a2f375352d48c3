import NameResolution.Proofs.HomeModules
import NameResolution.Proofs.UniquePaths

/-!
# NameResolution.Proofs.RibPaths

**The two names of a declaration agree** (`Crate.ribs_agree_with_paths`). A declaration is
bound under its key in the rib of its module, and a key starts afresh in every module; its
canonical path starts at the crate root. Once a crate has been resolved, the canonical path
of whatever a rib holds is that of the module with the key behind it, identities and texts
alike, and the module is its recorded parent.

A declaration that was refused as a duplicate has its canonical path all the same. An
implementation of a trait that was refused has none, and neither have its items.
-/

namespace NameResolution

open Resolution

namespace Crate

variable {c : Crate} {settings : Settings}

/-- A module that hosts attempts has the canonical path that they go on from. -/
theorem FirstPass.path_of_hosts {s : Session} (h : c.FirstPass settings s) (hwf : c.WellFormed)
    {module : NodeId} {path : CanonicalPath} (hhosts : Hosts (c.attempts settings) c.node.id
      (Session.rootPathFor c settings) module path) :
    s.tables.paths.get? module = some path := by
  rcases hhosts with ⟨rfl, rfl⟩ | ⟨m, hm, hkind, rfl, rfl⟩
  · rw [← h.root, ← h.rootPath]
    exact h.rootNamed
  · exact h.paths m hm (Or.inl (((c.nested hwf settings).origin m hm).vis_of_kind hkind))

/-- Every module hosts what is attempted in it. -/
theorem exists_hosts (settings : Settings) {module : NodeId}
    (hmodule : module ∈ c.node.id :: itemsModuleIds c.items) :
    ∃ path, Hosts (c.attempts settings) c.node.id (Session.rootPathFor c settings) module path := by
  rcases List.mem_cons.mp hmodule with rfl | hmodule
  · exact ⟨_, Or.inl ⟨rfl, rfl⟩⟩
  · have hcontainer := mem_itemsContainers_of_module c.items hmodule
    obtain ⟨a, ha, hid, hkind⟩ :
        ∃ a ∈ c.attempts settings, a.id = module ∧ a.kind = some .module :=
      exists_attempt_of_mem_itemsContainers c.items _ hcontainer
    exact ⟨a.path, Or.inr ⟨a, ha, hkind, hid, rfl⟩⟩

/-- The canonical path of an attempt is that of its module with the key behind it. -/
theorem FirstPass.path_of_attempt {s : Session} (h : c.FirstPass settings s) (hwf : c.WellFormed)
    {a : Attempt} (ha : a ∈ c.attempts settings)
    (hnamed : a.vis.isSome ∨ a ∈ accepted (c.attempts settings)) :
    ∃ path, s.tables.paths.get? a.module = some path ∧
      s.tables.paths.get? a.id = some (path ++ a.key) := by
  obtain ⟨path, hhosts, hpath⟩ := c.attempts_located settings a ha
  exact ⟨path, h.path_of_hosts hwf hhosts, hpath ▸ h.paths a ha hnamed⟩

/-- Whatever is bound in the rib of a module when a well-formed crate has been resolved, in either
namespace, has the canonical path of the module with its key behind it, and the module is its
parent. All declarations that were attempted have such a path, also those that were refused. The
implementations of traits whose projections were not accepted and their items have none. -/
theorem ribs_agree_with_paths (hwf : c.WellFormed) (settings : Settings) :
    ∃ s, Runs (c.run settings) (.start c settings) () s ∧ c.resolve settings = .ok s.finish ∧
      (∀ module ∈ c.node.id :: itemsModuleIds c.items, ∃ path,
        s.tables.paths.get? module = some path ∧
        ∀ space key b, (s.scope space).bindingIn? module key = some b →
          s.tables.paths.get? b.id = some (path ++ b.path) ∧
          s.tables.parents.get? b.id = some module) ∧
      (∀ a ∈ c.attempts settings, a.vis.isSome → ∃ path,
        s.tables.paths.get? a.module = some path ∧
        s.tables.paths.get? a.id = some (path ++ a.key)) ∧
      ∀ t ∈ c.traitImpls, (∀ a ∈ accepted (c.attempts settings), a.id ≠ t.1.id) →
        ∀ id ∈ t.2.ownIds t.1, s.tables.paths.get? id = none := by
  have hbase := c.firstPass hwf settings
  obtain ⟨s₂, s, hs, hrun, htables, hscopes, -⟩ := c.exists_run hwf settings
  refine ⟨s, hrun, resolve_of_runs hrun, fun module hmodule => ?_, fun a ha hvis => ?_,
    fun t ht hrefused id hid => ?_⟩
  · obtain ⟨path, hhosts⟩ := c.exists_hosts settings hmodule
    have hpath := hbase.path_of_hosts hwf hhosts
    rw [htables]
    refine ⟨path, hs.paths _ _ hpath, fun space key b hb => ?_⟩
    -- The second pass has added nothing, so the binding is that of the first attempt.
    rw [hscopes, hs.ribs module hmodule,
      hbase.ribs space module key (hbase.ne_prelude hwf (mem_nodeIds_of_module hmodule))] at hb
    obtain ⟨a, ha, rfl⟩ := Option.map_eq_some_iff.mp hb
    obtain ⟨rfl, -, -⟩ := isFor_of_firstFor ha
    have hmem := mem_of_firstFor ha
    obtain ⟨around, haround, hown⟩ :=
      hbase.path_of_attempt hwf hmem (Or.inr (mem_accepted_of_firstFor ha))
    obtain rfl : around = path := Option.some.inj (haround.symm.trans hpath)
    refine ⟨hs.paths _ _ hown, ?_⟩
    rw [hs.tables.parents]
    exact c.homed_registered hwf settings a hmem
  · obtain ⟨path, hmodule, hown⟩ := hbase.path_of_attempt hwf ha (Or.inl hvis)
    rw [htables]
    exact ⟨path, hs.paths _ _ hmodule, hs.paths _ _ hown⟩
  · have hout : id ∉ itemsBodyIds c.items := fun hin => by
      have hdeclared := itemsOwnIds_subset c.items ht hid
      exact (List.nodup_append.mp (List.nodup_cons.mp hwf.nodup).2).2.2 id hdeclared id hin rfl
    rw [htables]
    exact (hs.spares id hout (c.unused_registered hwf settings ht hrefused hid)).pathless

/-- A module that declares a struct `S` twice and implements a trait `T` for it twice. -/
def withRefusals : Crate where
  node := ⟨⟨0⟩, ⟨0, 99⟩⟩
  items :=
    let node (id offset : Nat) : Node := ⟨⟨id⟩, ⟨offset, 1⟩⟩
    let name (text : String) (offset : Nat) : Ident := ⟨text, ⟨offset, 1⟩⟩
    let path (id offset : Nat) (text : String) : Path :=
      ⟨node id offset, [⟨node (id + 1) offset, .ident text, none⟩]⟩
    let struct (id offset : Nat) : Item :=
      ⟨node id offset, .ownModule, .struct ⟨name "S" (offset + 7), .none, []⟩⟩
    let implementation (id offset : Nat) : Item :=
      ⟨node id offset, .ownModule, .traitImpl ⟨.none, path (id + 1) (offset + 5) "T",
        .path (node (id + 3) (offset + 11)) (path (id + 4) (offset + 11) "S"),
        [⟨node (id + 6) (offset + 15), .ownModule,
          .function ⟨name "f" (offset + 18), .none, none, [], none, none⟩⟩]⟩⟩
    [⟨node 1 0, .ownModule, .module (name "m" 4)
      [struct 2 8, struct 3 18, ⟨node 4 28, .ownModule, .trait ⟨name "T" 34, .none, [], []⟩⟩,
        implementation 5 40, implementation 12 70]⟩]
  idBound := ⟨19⟩

/-- The second struct has the path of the module with its name behind it, and so has the function of
the first implementation. The second implementation and its function have no path. -/
theorem ribs_agree_with_paths_withRefusals :
    withRefusals.WellFormed ∧ ∃ s path, Runs (withRefusals.run {}) (.start withRefusals {}) () s ∧
      s.tables.paths.get? ⟨1⟩ = some path ∧
      s.tables.paths.get? ⟨3⟩ = some (path ++ .single ⟨3⟩ "S") ∧
      s.tables.paths.get? ⟨11⟩ = some (path ++ ⟨[(⟨5⟩, "<S as T>"), (⟨11⟩, "f")]⟩) ∧
      s.tables.paths.get? ⟨12⟩ = none ∧ s.tables.paths.get? ⟨18⟩ = none := by
  have hwf : withRefusals.WellFormed := by decide
  obtain ⟨s, hrun, -, hribs, hattempts, himpls⟩ := ribs_agree_with_paths hwf {}
  obtain ⟨path, hmodule, -⟩ := hribs ⟨1⟩ (by decide)
  -- Both declarations are attempted in the module.
  have hpath : ∀ id key, (∃ a ∈ withRefusals.attempts {}, a.vis.isSome ∧ a.module = ⟨1⟩ ∧
      a.id = id ∧ a.key = key) → s.tables.paths.get? id = some (path ++ key) := by
    rintro _ _ ⟨a, ha, hvis, hin, rfl, rfl⟩
    obtain ⟨around, haround, hown⟩ := hattempts a ha hvis
    rw [hin, hmodule] at haround
    rw [hown, Option.some.inj haround]
  -- The second implementation is the one that is not accepted.
  have hrefused : ∃ t ∈ withRefusals.traitImpls,
      (∀ a ∈ accepted (withRefusals.attempts {}), a.id ≠ t.1.id) ∧
        ⟨12⟩ ∈ t.2.ownIds t.1 ∧ ⟨18⟩ ∈ t.2.ownIds t.1 := by
    refine ⟨_, List.mem_cons_of_mem _ List.mem_cons_self, ?_⟩
    decide +kernel
  obtain ⟨t, ht, hnot, himpl, hfunction⟩ := hrefused
  exact ⟨hwf, s, path, hrun, hmodule, hpath _ _ (by decide +kernel), hpath _ _ (by decide +kernel),
    himpls t ht hnot _ himpl, himpls t ht hnot _ hfunction⟩

end Crate

end NameResolution
