import NameResolution.Proofs.Completion
import NameResolution.Proofs.ParentModules
import NameResolution.Proofs.SiteNodes
import NameResolution.Proofs.Lexical.Entries
import NameResolution.Proofs.Lexical.LocalNames
import NameResolution.Proofs.Lexical.SegmentUses

/-!
# NameResolution.Proofs.ClosedEntries

**Every entry of the tables of resolved nodes is closed** (`Crate.entries_closed`): it is
made for a site of the crate and leads to something that the crate declares or that is
built in, which has a canonical path. A path is entered among the names exactly if what it
leads to is a module or a value.

What belongs to a namespace in the end did so after the first pass, or has introduced its
own name since, or is a type that `Self` stands for (`Session.Introduced.classified`).
So it does not matter for a path what `Self` has been bound to when it is classified.
-/

namespace NameResolution

open Resolution

/-- The crate itself, what a node of it declares or introduces, and the built-in types. -/
inductive Crate.Declares (c : Crate) (settings : Settings) : NodeId → Prop
  | root : Declares c settings c.node.id
  | attempted {a : Attempt} (ha : a ∈ c.attempts settings) : Declares c settings a.id
  | introduced {b : Binder} (hb : b ∈ c.binders) : Declares c settings b.id
  | builtin {id : NodeId} (hid : id ∈ (Builtins.allocate (.startingAt c.idBound)).1.types) :
      Declares c settings id

/-- A declaration has been bound in a namespace under its own name. An item or a member has been if
it was the first one of its name, and a binder if it has got its canonical path. -/
def Crate.BoundIn (c : Crate) (settings : Settings) (t : Tables) (space : Namespace)
    (decl : NodeId) : Prop :=
  (∃ a ∈ accepted (c.attempts settings), a.id = decl ∧ a.space = space) ∨
    ∃ b ∈ c.binders, b.id = decl ∧ b.space = space ∧ t.paths.get? decl = some b.path

/-! ### What belongs to a namespace -/

/-- A module, what a scope has declared, and nothing else belongs to a namespace. -/
theorem Session.classify_eq_some {s : Session} {id : NodeId} {space : Namespace}
    (h : s.classify id = some space) :
    id ∈ (s.scope space).declared ∨ space = .name ∧ s.tables.isModule id = true := by
  unfold classify at h
  split at h
  · next hname =>
    cases h
    rcases Bool.or_eq_true_iff.mp hname with hdeclared | hmodule
    · exact Or.inl (of_decide_eq_true hdeclared)
    · exact Or.inr ⟨rfl, hmodule⟩
  · split at h
    · next htype =>
      cases h
      exact Or.inl (of_decide_eq_true htype)
    · cases h

namespace Crate.FirstPass

variable {c : Crate} {settings : Settings} {base : Session} (h : c.FirstPass settings base)

include h

/-- After the first pass, modules, what was declared first of its name and primitive types belong to
a namespace. -/
theorem of_classify {id : NodeId} {space : Namespace} (hclass : base.classify id = some space) :
    (space = .name ∧ id ∈ c.node.id :: itemsModuleIds c.items) ∨
      (∃ a ∈ accepted (c.attempts settings), a.id = id ∧ a.space = space) ∨
        space = .type ∧ id ∈ base.builtins.types := by
  rcases Session.classify_eq_some hclass with hdeclared | ⟨hspace, hmodule⟩
  · rcases (h.declared space id).mp hdeclared with ⟨a, ha, hspace, hid⟩ | ⟨hspace, hprimitive⟩
    · exact Or.inr (Or.inl ⟨a, ha, hid, hspace⟩)
    · exact Or.inr (Or.inr ⟨hspace, List.mem_append_left _ hprimitive⟩)
  · exact Or.inl ⟨hspace, h.isModule_iff.mp hmodule⟩

theorem declares_builtin {id : NodeId} (hid : id ∈ base.builtins.types) :
    c.Declares settings id := .builtin (h.builtins ▸ hid)

theorem declares_container {id : NodeId} (hid : base.tables.isContainer id = true) :
    c.Declares settings id := by
  obtain ⟨kind, hkind⟩ := Option.isSome_iff_exists.mp hid
  rcases h.contained id kind hkind with ⟨rfl, -⟩ | ⟨a, ha, rfl, -⟩
  · exact h.root ▸ .root
  · exact .attempted ha

theorem declares_nameable {id : NodeId} (hid : base.Nameable id) : c.Declares settings id :=
  hid.elim h.declares_container h.declares_builtin

theorem declares_of_classify {id : NodeId} {space : Namespace}
    (hclass : base.classify id = some space) : c.Declares settings id := by
  rcases h.of_classify hclass with ⟨-, hmodule⟩ | ⟨a, ha, rfl, -⟩ | ⟨-, hbuiltin⟩
  · have hknown := h.isModule_iff.mpr hmodule
    refine h.declares_container ?_
    unfold Tables.isModule at hknown
    rw [beq_iff_eq] at hknown
    simp [Tables.isContainer, hknown]
  · exact .attempted (mem_of_mem_accepted ha)
  · exact h.declares_builtin hbuiltin

/-- No binder has a canonical path after the first pass. -/
theorem pathless_binder {b : Binder} (hb : b ∈ c.binders) : base.tables.paths.get? b.id = none :=
  (h.unused b.id (c.mem_bodyIds_of_binder hb)).pathless

end Crate.FirstPass

/-! ### What belongs to a namespace after the second pass -/

section Introduced

variable {c : Crate} {settings : Settings} {base s : Session} {bs : List Binder}
  (hbase : c.FirstPass settings base) (hs : base.Introduced bs s) (hsub : bs ⊆ c.binders)

include hbase hs hsub

theorem Session.Introduced.declares {id : NodeId} {space : Namespace}
    (hclass : s.classify id = some space) : c.Declares settings id := by
  rcases hs.classified id space hclass with hfirst | ⟨b, hb, rfl, -⟩ | ⟨-, hnameable⟩
  · exact hbase.declares_of_classify hfirst
  · exact .introduced (hsub hb)
  · exact hbase.declares_nameable hnameable

/-- A binder that has got its canonical path belongs to the namespace of its name. -/
theorem Session.Introduced.classify_binder (hwf : c.WellFormed) {b : Binder} (hb : b ∈ c.binders)
    {path : CanonicalPath} (hpath : s.tables.paths.get? b.id = some path) :
    s.classify b.id = some b.space := by
  rcases hs.get?_paths hpath with ⟨own, hown, hid, -⟩ | hfirst
  · have hsame : own = b := List.inj_on_of_nodup_map (c.nodup_binders hwf) (hsub hown) hb hid
    exact hsame ▸ hs.known own hown
  · rw [hbase.pathless_binder hb] at hfirst
    cases hfirst

/-- What belongs to the names is a module or has been bound there under its own name, whatever
`Self` has been bound to. -/
theorem Session.Introduced.name_iff (hwf : c.WellFormed) (hknows : ∀ m, base.Knows m → s.Knows m)
    {m : Meaning} (hm : s.Knows m) :
    m.space = .name ↔ m.decl ∈ c.node.id :: itemsModuleIds c.items ∨
      c.BoundIn settings s.tables .name m.decl := by
  have hclass := hm.classified
  constructor
  · intro hspace
    rw [hspace] at hclass
    rcases hs.classified m.decl .name hclass with hfirst | ⟨b, hb, hid, hname⟩ | ⟨hname, -⟩
    · rcases hbase.of_classify hfirst with ⟨-, hmodule⟩ | hbound | ⟨hname, -⟩
      · exact Or.inl hmodule
      · exact Or.inr (Or.inl hbound)
      · cases hname
    · rcases hs.get?_paths hm.named with ⟨own, hown, hid', hpath⟩ | hfirst
      · have hsame : own = b := List.inj_on_of_nodup_map hs.nodup hown hb (hid'.trans hid.symm)
        refine Or.inr (Or.inr ⟨b, hsub hb, hid, hname, ?_⟩)
        rw [hm.named, ← hpath, hsame]
      · rw [← hid, hbase.pathless_binder (hsub hb)] at hfirst
        cases hfirst
    · cases hname
  · intro hname
    have hnames : s.classify m.decl = some .name := by
      rcases hname with hmodule | ⟨a, ha, hid, hspace⟩ | ⟨b, hb, hid, hspace, hpath⟩
      · have hmodule := hbase.isModule_iff.mpr hmodule
        have hknown := (hknows _ ((hbase.settled hwf).knows_module hmodule)).classified
        have hfirst : base.classify m.decl = some .name := by simp [Session.classify, hmodule]
        simpa [Session.meaning, hfirst] using hknown
      · have hknown := (hknows _ (hbase.knows_accepted hwf ha)).classified
        rw [hbase.meaning_accepted hwf ha] at hknown
        rw [← hid, ← hspace]
        exact hknown
      · rw [← hid] at hpath ⊢
        rw [← hspace]
        exact hs.classify_binder hbase hsub hwf hb hpath
    rw [hclass] at hnames
    exact Option.some.inj hnames

end Introduced

/-! ### What findings enter -/

/-- What is entered in the tables leads to something that the crate declares. -/
theorem Finding.Closed.declares {c : Crate} {settings : Settings} {base s : Session}
    {bs : List Binder} (hbase : c.FirstPass settings base) (hs : base.Introduced bs s)
    (hsub : bs ⊆ c.binders) (hpaths : ∀ id path, base.tables.paths.get? id = some path →
      s.tables.paths.get? id = some path)
    {f : Finding} (hf : f.Closed base s) {space : Namespace} {use decl : NodeId}
    (hentry : f.entryIn? space = some (use, decl)) :
    c.Declares settings decl ∧ ∃ path, s.tables.paths.get? decl = some path := by
  have hknown : ∀ m, s.Knows m → m.decl = decl →
      c.Declares settings decl ∧ ∃ path, s.tables.paths.get? decl = some path := fun m hm hdecl =>
    hdecl ▸ ⟨hs.declares hbase hsub hm.classified, m.path, hm.named⟩
  rcases Finding.of_entryIn? hentry with ⟨node, name, here, rfl, -⟩ | rfl
  · obtain ⟨m, hm, hdecl⟩ := hf
    exact hknown m hm hdecl
  · rcases hf with ⟨path, hm⟩ | ⟨-, hbuiltin⟩
    · exact hknown _ hm rfl
    · obtain ⟨path, -, hpath⟩ := hbase.builtinPaths decl hbuiltin
      exact ⟨hbase.declares_builtin hbuiltin, path, hpaths decl path hpath⟩

/-- A path or a type is entered among the names exactly if it leads to a module or a value. -/
theorem Finding.Closed.name_iff {c : Crate} (hwf : c.WellFormed) {settings : Settings}
    {base s : Session} {bs : List Binder} (hbase : c.FirstPass settings base)
    (hs : base.Introduced bs s) (hsub : bs ⊆ c.binders) (hknows : ∀ m, base.Knows m → s.Knows m)
    {space : Namespace} {use decl : NodeId} (hf : (Finding.resolved space use decl).Closed base s) :
    space = .name ↔ decl ∈ c.node.id :: itemsModuleIds c.items ∨
      c.BoundIn settings s.tables .name decl := by
  rcases hf with ⟨path, hm⟩ | ⟨rfl, hbuiltin⟩
  · exact hs.name_iff hbase hsub hwf hknows hm
  · -- No node of the tree is a built-in type.
    have hapart : decl ∉ c.nodeIds := fun hnode =>
      (Builtins.apart_of_lt (hwf.2 decl hnode)).1 (hbase.builtins ▸ hbuiltin)
    have mem_node : ∀ {id}, id ∈ itemsDeclaredIds c.items ++ itemsBodyIds c.items →
        id ∈ c.nodeIds := fun hin =>
      List.mem_cons_of_mem _ ((itemsNodeIds_perm c.items).mem_iff.mpr hin)
    refine ⟨nofun, fun hname => absurd ?_ hapart⟩
    rcases hname with hmodule | ⟨a, ha, rfl, -⟩ | ⟨b, hb, rfl, -⟩
    · exact Crate.mem_nodeIds_of_module hmodule
    · exact mem_node (List.mem_append_left _
        ((itemsAttempts_ids c.items).subset (List.mem_map_of_mem (mem_of_mem_accepted ha))))
    · exact mem_node (List.mem_append_right _ (c.mem_bodyIds_of_binder hb))

/-- What is entered is entered for a site. It is entered for one that is no segment when a path or a
type is resolved. -/
theorem Crate.exists_site_of_entry {c : Crate} (hwf : c.WellFormed) (base : Session) {f : Finding}
    (hf : f ∈ (c.read base).findings) {space : Namespace} {use decl : NodeId}
    (hentry : f.entryIn? space = some (use, decl)) :
    (∃ x ∈ c.sites, x.site.id = use) ∧
      (NoSegment base.root c.sites use → f = .resolved space use decl) := by
  have horder := c.inOrder base
  rcases Finding.of_entryIn? hentry with ⟨node, name, here, rfl, rfl⟩ | rfl
  · have hplaced : (⟨node, name, here⟩ : SegmentUse) ∈ placedSegments base.root c.sites :=
      horder.segments.subset (List.mem_map.mpr
        ⟨(⟨node, name, here⟩, decl), List.mem_filterMap.mpr ⟨_, hf, rfl⟩, rfl⟩)
    obtain ⟨x, hx, -, hid⟩ := exists_site_of_placed hplaced
    exact ⟨⟨x, hx, hid⟩, fun hno => absurd rfl (hno.node_ne (c.nodup_sites hwf) hplaced)⟩
  · obtain ⟨x, hx, -, hid⟩ := horder.others space use decl hf
    exact ⟨⟨x, hx, hid⟩, fun _ => rfl⟩

/-- **Every entry of the tables of resolved nodes is closed.** Resolving a well-formed crate
succeeds, and each entry in the result is made for a segment, a path or a type of the crate. What it
leads to is the crate itself, is declared or introduced by a node of it or is built in, and it has a
canonical path. If the entry is made for a path, it is among the names exactly if the declaration is
a module or has been bound among the names under its own name. -/
theorem Crate.entries_closed {c : Crate} (hwf : c.WellFormed) (settings : Settings) :
    ∃ r, c.resolve settings = .ok r ∧
      ∀ space use decl, (use, decl) ∈ (r.tables.entered space).entries →
        (∃ x ∈ c.sites, x.site.id = use) ∧ c.Declares settings decl ∧
        (∃ path, r.tables.paths.get? decl = some path) ∧
        ∀ x ∈ c.sites, ∀ p gates, x.site = .path p gates → p.node.id = use →
          (space = .name ↔ decl ∈ c.node.id :: itemsModuleIds c.items ∨
            c.BoundIn settings r.tables .name decl) := by
  obtain ⟨s, r, h⟩ := c.exists_outcome hwf settings
  have hbase := c.firstPass hwf settings
  obtain ⟨added, hadded, hs⟩ := c.exists_proceeds_of_runs hwf h.runs
  have hsub : added ⊆ c.binders := hadded.subset
  refine ⟨r, h.resolve, fun space use decl hmem => ?_⟩
  rw [h.tables] at hmem ⊢
  rw [h.secondPass.entries_entered hbase, List.mem_reverse, List.mem_filterMap] at hmem
  obtain ⟨f, hf, hentry⟩ := hmem
  have hclosed := hs.closed f hf
  obtain ⟨hdeclares, hpath⟩ :=
    hclosed.declares hbase hs.introduced hsub h.secondPass.paths hentry
  obtain ⟨hsite, hresolved⟩ := c.exists_site_of_entry hwf (c.registered settings) hf hentry
  refine ⟨hsite, hdeclares, hpath, fun x hx p gates hp huse => ?_⟩
  have hno : NoSegment (c.registered settings).root c.sites use :=
    ⟨x, hx, by simp only [PlacedSite.segment?, hp], (congrArg Site.id hp).trans huse⟩
  obtain rfl := hresolved hno
  exact Finding.Closed.name_iff hwf hbase hs.introduced hsub h.secondPass.knows hclosed

/-- An implementation for a module, with an alias for `Self` in it. -/
def Crate.withModuleAsSelf : Crate where
  node := ⟨⟨0⟩, ⟨0, 40⟩⟩
  items :=
    let node (id offset : Nat) : Node := ⟨⟨id⟩, ⟨offset, 1⟩⟩
    let name (text : String) (offset : Nat) : Ident := ⟨text, ⟨offset, 1⟩⟩
    let type (id offset : Nat) (text : String) : Ty :=
      .path (node id offset) ⟨node (id + 1) offset, [⟨node (id + 2) offset, .ident text, none⟩]⟩
    [⟨node 1 0, .ownModule, .module (name "m" 4) []⟩,
      ⟨node 2 10, .ownModule, .inherentImpl ⟨.none, type 3 15 "m",
        [⟨node 6 20, .ownModule, .typeAlias ⟨name "A" 25, .none, type 7 29 "Self"⟩⟩]⟩⟩]
  idBound := ⟨10⟩

/-- The segment `Self` is found among the types, which it has been bound in, but the path leads to a
module and is entered among the names. -/
theorem Crate.entries_closed_withModuleAsSelf :
    withModuleAsSelf.WellFormed ∧ ∃ r, withModuleAsSelf.resolve {} = .ok r ∧
      r.tables.types.entries = [(⟨9⟩, ⟨1⟩)] ∧ (⟨8⟩, ⟨1⟩) ∈ r.tables.names.entries ∧
      withModuleAsSelf.Declares {} ⟨1⟩ ∧ ∃ path, r.tables.paths.get? ⟨1⟩ = some path := by
  have hwf : withModuleAsSelf.WellFormed := by decide
  obtain ⟨r, hr, hclosed⟩ := entries_closed hwf {}
  have hrun : (withModuleAsSelf.resolve {}).toOption.map
      (fun r => (r.tables.types.entries, r.tables.names.entries)) =
        some ([(⟨9⟩, ⟨1⟩)], [(⟨8⟩, ⟨1⟩), (⟨4⟩, ⟨1⟩), (⟨5⟩, ⟨1⟩)]) := by
    decide +kernel
  rw [hr] at hrun
  obtain ⟨htypes, hnames⟩ := Prod.mk.inj (Option.some.inj hrun)
  have hentry : (⟨8⟩, ⟨1⟩) ∈ r.tables.names.entries := hnames ▸ List.mem_cons_self
  obtain ⟨-, hdeclares, hpath, -⟩ := hclosed .name ⟨8⟩ ⟨1⟩ hentry
  exact ⟨hwf, r, hr, htypes, hentry, hdeclares, hpath⟩

end NameResolution
