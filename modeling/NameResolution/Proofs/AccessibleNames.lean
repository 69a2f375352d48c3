import NameResolution.Proofs.ChildTables
import NameResolution.Proofs.ClosedEntries
import NameResolution.Proofs.ParentPaths
import NameResolution.Proofs.PrivateUses
import NameResolution.Proofs.ReportSettings
import NameResolution.Proofs.Lexical.SegmentSites

/-!
# NameResolution.Proofs.AccessibleNames

**What is found lexically can be seen** (`Crate.first_segments_accessible`). The first segment
of a path leads to a module around the path, to something declared in one of these, or to a
name without a visibility (`PathSegment.Begins`). The parent of a declaration is the module
whose code can see it in any case, and the modules around a path are closed under parents.
So that module is among them, and if the parent of that module may see the declaration, it
is too.

`Self` is different, as an implementation can be for a type that cannot be seen from there.
-/

namespace NameResolution

open Resolution

/-- A segment is the first one of the path at a site. -/
def Crate.Starts (c : Crate) (x : PlacedSite) (seg : PathSegment) : Prop :=
  x ∈ c.sites ∧ ∃ p gates rest, x.site = .path p gates ∧ p.segments = seg :: rest

/-! ### Which segments come first -/

namespace Crate

variable {c : Crate} {x : PlacedSite} {seg : PathSegment}

/-- What the first segment of a path is resolved to is what it leads to, in an environment inside
the modules around the path. -/
theorem SecondPass.begins {settings : Settings} {s : Session} (hwf : c.WellFormed)
    (hs : c.SecondPass (c.registered settings) s) (hstarts : c.Starts x seg) {decl : NodeId}
    (hdecl : s.tables.resolved? seg.node.id = some decl) :
    ∃ p prefer env, c.LooksUp settings x p prefer env ∧
      seg.Begins (c.registered settings) env decl ∧
      ∃ f ∈ (c.read (c.registered settings)).findings, f.segment?.map Prod.snd = some decl := by
  obtain ⟨hx, p, gates, rest, hsite, hsegments⟩ := hstarts
  have hseg : seg ∈ p.segments := hsegments ▸ List.mem_cons_self
  have hown := PlacedSite.mem_onPath hsite hseg
  obtain ⟨f, hf, hentry⟩ := (hs.resolved?_eq_some hwf (c.firstPass hwf settings)).mp hdecl
  cases f with
  | segment space node name found here =>
      obtain ⟨hid, rfl⟩ : node.id = seg.node.id ∧ found = decl :=
        Prod.mk.inj (Option.some.inj hentry)
      obtain ⟨q, prefer, env, outcome, before, seg', rest', hvisit, hq, rfl, hbegins⟩ :=
        (c.visits (c.registered settings)).segments _ _ _ _ _ hf
      obtain ⟨y, hlook⟩ := c.exists_looksUp_of_visit hvisit
      obtain ⟨gates', hsite'⟩ := hlook.site
      have hseg' : seg' ∈ q.segments := hq ▸ List.mem_append_right _ List.mem_cons_self
      -- The node says which path this is, and that the segment is the first one.
      obtain rfl : x = y :=
        c.eq_of_onPath hwf hx hlook.mem_sites hown (PlacedSite.mem_onPath hsite' hseg') hid.symm
      obtain ⟨rfl, -⟩ := Site.path.inj (hsite.symm.trans hsite')
      have hsame : seg' = seg :=
        List.inj_on_of_nodup_map (c.nodup_segments hwf hx hsite) hseg' hseg hid
      subst hsame
      have hnil : before = [] := by
        have hnodup := (c.nodup_segments hwf hx hsite).of_map
        cases before with
        | nil => rfl
        | cons first before =>
            rw [hq] at hsegments hnodup
            have hfirst : first = seg' := (List.cons.inj hsegments).1
            rw [hfirst] at hnodup
            exact absurd (List.mem_append_right _ List.mem_cons_self)
              (List.nodup_cons.mp hnodup).1
      exact ⟨p, prefer, env, hlook, hbegins hnil, _, hf, rfl⟩
  | resolved space use found =>
      obtain ⟨rfl, rfl⟩ : use = seg.node.id ∧ found = decl :=
        Prod.mk.inj (Option.some.inj hentry)
      -- A node of a segment is that of no other site.
      have hplaced : (⟨seg.node, seg.ident.text, x.modules.headD (c.registered settings).root⟩ :
          SegmentUse) ∈ placedSegments (c.registered settings).root c.sites :=
        List.mem_filterMap.mpr ⟨_, c.mem_sites_of_onPath hx hown, rfl⟩
      have hno := (c.inOrder (c.registered settings)).others _ _ _ hf
      exact absurd rfl (hno.node_ne (c.nodup_sites hwf) hplaced)
  | qualified use path => cases hentry
  | error e => cases hentry
  | visit path prefer env outcome => cases hentry

/-! ### What declarations can be seen from -/

section Visible

variable {settings : Settings} {decl : NodeId} {d : DeclVisibility} (hwf : c.WellFormed)
  (hd : c.visibilityOf? settings decl = some d)

include hd

theorem exists_attempt_of_visibility :
    ∃ a ∈ c.attempts settings, a.id = decl ∧ a.module = d.module := by
  obtain ⟨a, hfind, hvis⟩ := Option.bind_eq_some_iff.mp hd
  obtain ⟨vis, -, rfl⟩ := Option.map_eq_some_iff.mp hvis
  have hid := List.find?_some hfind
  exact ⟨a, List.mem_of_find?_eq_some hfind, of_decide_eq_true hid, rfl⟩

include hwf

/-- What has a visibility is declared in its parent. -/
theorem parent_of_visibility :
    (c.registered settings).tables.parents.get? decl = some d.module := by
  obtain ⟨a, ha, rfl, hmodule⟩ := exists_attempt_of_visibility hd
  rw [c.homed_registered hwf settings a ha, hmodule]

/-- Code in the module of a declaration, or in a module inside it, can see the declaration. -/
theorem sees_of_mem (hx : x ∈ c.sites) (hmodule : d.module ∈ x.modules) :
    c.sees x.modules d = true := by
  have hwithin := c.visibleWithin_registered hwf settings hd
  unfold Tables.visibleWithin at hwithin
  unfold sees
  rw [← hwithin]
  cases d.vis with
  | everywhere => rfl
  | ownCrate => rfl
  | ownModule => exact decide_eq_true hmodule
  | parentModule =>
      refine decide_eq_true ?_
      cases hparent : (c.registered settings).tables.parents.get? d.module with
      | none => exact hmodule
      | some outer => exact (c.chained_site hwf settings hx).mem_of_parent hmodule hparent

/-- The modules around a point can be seen from there. -/
theorem sees_of_around (hx : x ∈ c.sites) (hdecl : decl ∈ x.modules) :
    c.sees x.modules d = true :=
  c.sees_of_mem hwf hd hx
    ((c.chained_site hwf settings hx).mem_of_parent hdecl (c.parent_of_visibility hwf hd))

end Visible

/-! ### Names without a visibility -/

section Local

variable {settings : Settings} {decl : NodeId}

/-- Only a binder belongs to a namespace in the end without having had a meaning after the first
pass. -/
theorem FirstPass.exists_binder_of_fresh {base s : Session} {bs : List Binder}
    (hbase : c.FirstPass settings base) (hwf : c.WellFormed) (hs : base.Introduced bs s)
    {space : Namespace} (hclass : s.classify decl = some space)
    (hfresh : ∀ m, base.Offers m → m.decl ≠ decl) : ∃ b ∈ bs, b.id = decl := by
  have hsettled := hbase.settled hwf
  rcases hs.classified decl space hclass with hfirst | ⟨b, hb, hid, -⟩ | ⟨-, hcontainer | hbuiltin⟩
  · rcases hbase.of_classify hfirst with ⟨-, hmodule⟩ | ⟨a, ha, rfl, -⟩ | ⟨-, hbuiltin⟩
    · have hknown := hsettled.knows_module (hbase.isModule_iff.mpr hmodule)
      exact absurd rfl (hfresh _ hknown.offers)
    · exact absurd rfl (hfresh _ (hbase.knows_accepted hwf ha).offers)
    · exact absurd rfl (hfresh _ (hsettled.offers_builtin hbuiltin))
  · exact ⟨b, hb, hid⟩
  · obtain ⟨kind, hkind⟩ := Option.isSome_iff_exists.mp hcontainer
    exact absurd rfl (hfresh _ (hsettled.offers_container hkind))
  · exact absurd rfl (hfresh _ (hsettled.offers_builtin hbuiltin))

/-- No binder has a visibility. -/
theorem visibility_binder (hwf : c.WellFormed) {b : Binder} (hb : b ∈ c.binders) :
    c.visibilityOf? settings b.id = none := by
  by_contra hsome
  obtain ⟨d, hd⟩ := Option.ne_none_iff_exists'.mp hsome
  obtain ⟨a, ha, hid, -⟩ := exists_attempt_of_visibility hd
  have hdeclared := (itemsAttempts_ids c.items).subset (List.mem_map_of_mem ha)
  rw [hid] at hdeclared
  exact (List.nodup_append.mp (List.nodup_cons.mp hwf.nodup).2).2.2 b.id hdeclared b.id
    (c.mem_bodyIds_of_binder hb) rfl

/-- No primitive type has a visibility. -/
theorem visibility_prelude (hwf : c.WellFormed) {space : Namespace} {name : String} {m : Meaning}
    (hm : Env.findMember? (c.registered settings) space (c.registered settings).builtins.prelude
      name = some m) : c.visibilityOf? settings m.decl = none := by
  have hbase := c.firstPass hwf settings
  have hbuiltin : m.decl ∈ (c.registered settings).builtins.types := by
    obtain ⟨b, hb, rfl⟩ := Option.map_eq_some_iff.mp hm
    rw [hbase.prelude] at hb
    cases space with
    | name => cases hb
    | type =>
        obtain ⟨primitive, hfind, rfl⟩ := Option.map_eq_some_iff.mp hb
        exact List.mem_append_left _ (List.mem_map_of_mem (List.mem_of_find?_eq_some hfind))
  by_contra hsome
  obtain ⟨d, hd⟩ := Option.ne_none_iff_exists'.mp hsome
  obtain ⟨a, ha, hid, -⟩ := exists_attempt_of_visibility hd
  have hdeclared := (itemsAttempts_ids c.items).subset (List.mem_map_of_mem ha)
  rw [hid] at hdeclared
  have hlt := hwf.lt_of_mem (List.mem_append_left _ hdeclared)
  rw [hbase.builtins] at hbuiltin
  exact (Builtins.apart_of_lt hlt).1 hbuiltin

end Local

/-! ### First segments -/

/-- What is bound in the rib of a module is declared in it. -/
theorem FirstPass.parent_of_member {settings : Settings} (hwf : c.WellFormed) {module : NodeId}
    (hmodule : module ∈ c.nodeIds) {space : Namespace} {name : String} {m : Meaning}
    (hm : Env.findMember? (c.registered settings) space module name = some m) :
    (c.registered settings).tables.parents.get? m.decl = some module := by
  have hbase := c.firstPass hwf settings
  obtain ⟨b, hb, rfl⟩ := Option.map_eq_some_iff.mp hm
  rw [hbase.ribs space module _ (hbase.ne_prelude hwf hmodule)] at hb
  obtain ⟨a, ha, rfl⟩ := Option.map_eq_some_iff.mp hb
  obtain ⟨rfl, -, -⟩ := isFor_of_firstFor ha
  exact c.homed_registered hwf settings a (mem_of_firstFor ha)

/-- A child of a module is declared in it. -/
theorem FirstPass.parent_of_child {settings : Settings} (hwf : c.WellFormed) {module decl : NodeId}
    (hmodule : module ∈ c.node.id :: itemsModuleIds c.items) {name : String}
    (hchild : decl ∈ (c.registered settings).tables.childrenNamed module name) :
    (c.registered settings).tables.parents.get? decl = some module := by
  obtain ⟨a, ha, hcontainer, -, rfl⟩ := (c.firstPass hwf settings).mem_childrenNamed.mp hchild
  have hmem := mem_of_mem_accepted ha
  obtain ⟨path, hhosts⟩ := c.exists_hosts settings hmodule
  rw [← ((c.nested hwf settings).key_of_module hmem hhosts hcontainer).1]
  exact c.homed_registered hwf settings a hmem

section FirstSegments

variable {settings : Settings} {s : Session} (hwf : c.WellFormed)
  (hruns : Runs c.resolveItems (c.registered settings) () s)

include hwf hruns

/-- A local name other than `Self` around a path that a segment is resolved to belongs to a
binder. -/
theorem LooksUp.exists_binder_of_local {p : Path} {prefer : Namespace} {env : Env}
    (hlook : c.LooksUp settings x p prefer env) {frame : Frame} (hframe : frame ∈ env.frames)
    {space : Namespace} {l : LocalName} (hl : l ∈ frame.locals space) (hnot : l.name ≠ "Self")
    {f : Finding} (hf : f ∈ (c.read (c.registered settings)).findings)
    (hfound : f.segment?.map Prod.snd = some l.meaning.decl) :
    ∃ b ∈ c.binders, b.id = l.meaning.decl := by
  obtain ⟨_, _, s', -, hready, -⟩ := hlook.exists_ready hwf
  have hfresh := hready.stands.fresh frame hframe space l hl hnot
  obtain ⟨added, hadded, hproceeds⟩ := c.exists_proceeds_of_runs hwf hruns
  have hclosed := hproceeds.closed f hf
  cases f with
  | segment space node name found here =>
      obtain ⟨m, hm, hdecl⟩ := hclosed
      obtain rfl : found = l.meaning.decl := Option.some.inj hfound
      rw [← hdecl] at hfresh ⊢
      obtain ⟨b, hb, hid⟩ := (c.firstPass hwf settings).exists_binder_of_fresh hwf
        hproceeds.introduced hm.classified hfresh
      exact ⟨b, hadded.subset hb, hid⟩
  | _ => cases hfound

namespace SecondPass

variable (hs : c.SecondPass (c.registered settings) s)

include hs

/-- What the first segment of a path leads to can be seen from there, unless the segment is
`Self`. -/
theorem sees_first (hstarts : c.Starts x seg) (hself : seg.ident ≠ .ident "Self")
    {decl : NodeId} (hdecl : s.tables.resolved? seg.node.id = some decl) {d : DeclVisibility}
    (hd : c.visibilityOf? settings decl = some d) : c.sees x.modules d = true := by
  have hbase := c.firstPass hwf settings
  obtain ⟨p, prefer, env, hlook, hbegins, f, hf, hfound⟩ := hs.begins hwf hstarts hdecl
  have hx := hlook.mem_sites
  have hnests := hlook.nests hwf
  have hparent := c.parent_of_visibility hwf hd
  obtain ⟨up, hmodules⟩ := hnests.exists_here
  have hhere : env.here (c.registered settings) ∈ env.modules :=
    hmodules ▸ List.mem_cons_self
  have hmodule {module : NodeId} (hin : module ∈ env.modules) :
      module ∈ c.node.id :: itemsModuleIds c.items :=
    hbase.isModule_iff.mp (hnests.areModules module hin)
  -- What is declared in one of the modules around can be seen.
  have hmember {module : NodeId} (hin : module ∈ env.modules)
      (hown : (c.registered settings).tables.parents.get? decl = some module) :
      c.sees x.modules d = true := by
    rw [hparent] at hown
    cases hown
    exact c.sees_of_mem hwf hd hx (hlook.modules ▸ hin)
  cases hbegins with
  | root =>
      rw [hbase.root, c.parents_root hwf settings] at hparent
      cases hparent
  | here => exact c.sees_of_around hwf hd hx (hlook.modules ▸ hhere)
  | parent hup =>
      unfold Env.parentModule? at hup
      rw [if_pos rfl] at hup
      exact c.sees_of_around hwf hd hx (hlook.modules ▸ List.mem_of_getElem? hup)
  | child hchild => exact hmember hhere (FirstPass.parent_of_child hwf (hmodule hhere) hchild)
  | @found space name m hname hfind =>
      rcases Env.find?_inv hfind with ⟨frame, hframe, l, hl, rfl⟩ | ⟨module, hin, hm⟩
      · -- The name is a local one, so it has been introduced by a binder.
        exfalso
        obtain ⟨hlocal, hspelled⟩ := Frame.of_find? hl
        have hnot : l.name ≠ "Self" := by
          intro heq
          rcases hname with hident | hreceiver
          · exact hself (by rw [hident, ← hspelled, heq])
          · rw [← hspelled, heq] at hreceiver
            exact absurd hreceiver (by decide)
        obtain ⟨b, hb, hid⟩ :=
          hlook.exists_binder_of_local hwf hruns hframe hlocal hnot hf hfound
        rw [← hid, visibility_binder hwf hb] at hd
        cases hd
      · rcases List.mem_append.mp hin with hin | hin
        · exact hmember hin
            (FirstPass.parent_of_member hwf (mem_nodeIds_of_module (hmodule hin)) hm)
        · cases List.mem_singleton.mp hin
          rw [visibility_prelude hwf hm] at hd
          cases hd

end SecondPass

end FirstSegments

/-- Each error about privacy is about a segment that cannot see what it is resolved to. -/
theorem Outcome.exists_hiddenUse {settings : Settings} {s : Session} {r : ResolvedCrate}
    (h : c.Outcome settings s r) (hwf : c.WellFormed) {e : ResolveError} (he : e ∈ r.errors)
    (hprivate : e.isPrivate = true) :
    ∃ y ∈ c.sites, ∃ seg, y.site = .segment seg ∧ c.hiddenUse? settings r y = some e := by
  have huse : e ∈ s.tables.privateUses := by
    refine (h.reported e he).resolve_left fun hin => ?_
    rw [h.secondPass.not_isPrivate hwf hin] at hprivate
    cases hprivate
  rw [h.secondPass.privateUses_eq hwf h.tables] at huse
  obtain ⟨⟨modules, site⟩, hy, hhidden⟩ := List.mem_filterMap.mp huse
  cases site with
  | path p gates => cases hhidden
  | type use => cases hhidden
  | segment seg => exact ⟨_, hy, seg, rfl, hhidden⟩

/-- A segment that can see what it is resolved to is not reported. -/
theorem hiddenUse?_of_sees {settings : Settings} {r : ResolvedCrate} {modules : List NodeId}
    (hsees : ∀ decl d, r.declarationOf? seg.node.id = some decl →
      c.visibilityOf? settings decl = some d → c.sees modules d = true) :
    c.hiddenUse? settings r ⟨modules, .segment seg⟩ = none := by
  by_contra hsome
  obtain ⟨e, he⟩ := Option.ne_none_iff_exists'.mp hsome
  obtain ⟨decl, hdecl, hrest⟩ := Option.bind_eq_some_iff.mp he
  obtain ⟨d, hd, hseen⟩ := Option.bind_eq_some_iff.mp hrest
  rw [if_pos (hsees decl d hdecl hd)] at hseen
  cases hseen

/-- **What is found lexically can be seen.** Whatever the first segment of a path in a well-formed
crate is resolved to can be seen from the path, unless the segment is `Self`. So no error about
privacy is about such a segment: each is about the segment of a site that cannot see what the
segment is resolved to, and if that is the first segment of a path, it is `Self`. -/
theorem first_segments_accessible (hwf : c.WellFormed) (settings : Settings) :
    ∃ r, c.resolve settings = .ok r ∧
      (∀ x seg, c.Starts x seg → seg.ident ≠ .ident "Self" →
        ∀ decl d, r.declarationOf? seg.node.id = some decl →
          c.visibilityOf? settings decl = some d → c.sees x.modules d = true) ∧
      ∀ e ∈ r.errors, e.isPrivate = true →
        ∃ y ∈ c.sites, ∃ used, y.site = .segment used ∧ c.hiddenUse? settings r y = some e ∧
          ∀ x seg, c.Starts x seg → seg.node.id = used.node.id → seg.ident = .ident "Self" := by
  obtain ⟨s, r, h⟩ := c.exists_outcome hwf settings
  have hsees : ∀ x seg, c.Starts x seg → seg.ident ≠ .ident "Self" →
      ∀ decl d, r.declarationOf? seg.node.id = some decl →
        c.visibilityOf? settings decl = some d → c.sees x.modules d = true := by
    intro x seg hstarts hself decl d hdecl hd
    unfold ResolvedCrate.declarationOf? at hdecl
    rw [h.tables] at hdecl
    exact h.secondPass.sees_first hwf h.runs hstarts hself hdecl hd
  refine ⟨r, h.resolve, hsees, ?_⟩
  intro e he hprivate
  obtain ⟨y, hy, used, hused, hhidden⟩ := h.exists_hiddenUse hwf he hprivate
  refine ⟨y, hy, used, hused, hhidden, ?_⟩
  intro x seg hstarts hid
  by_contra hself
  obtain ⟨hx, p, gates, rest, hsite, hsegments⟩ := id hstarts
  -- The segment has only one site, so it is the one that the error is about.
  have hseg : seg ∈ p.segments := hsegments ▸ List.mem_cons_self
  have hown := c.mem_sites_of_onPath hx (PlacedSite.mem_onPath hsite hseg)
  have hsame : ⟨x.modules, .segment seg⟩ = y := by
    refine List.inj_on_of_nodup_map (c.nodup_sites hwf) hown hy ?_
    rw [hused]
    exact hid
  rw [← hsame, hiddenUse?_of_sees (hsees x seg hstarts hself)] at hhidden
  cases hhidden

/-- A module `a` with a module `b` inside it that declares a struct `S` for `a`, and a struct `T` of
the crate root, declared for the parent that the root does not have. At the root, `S` is
implemented with a function that returns `Self`, and inside `b` there is an alias for `T`. -/
def withHiddenSelf : Crate where
  node := ⟨⟨0⟩, ⟨0, 90⟩⟩
  items :=
    let node (id offset : Nat) : Node := ⟨⟨id⟩, ⟨offset, 1⟩⟩
    let name (text : String) (offset : Nat) : Ident := ⟨text, ⟨offset, 1⟩⟩
    let segment (id offset : Nat) (text : String) : PathSegment :=
      ⟨node id offset, .ident text, none⟩
    let struct (id offset : Nat) (text : String) : Item :=
      ⟨node id offset, .parentModule, .struct ⟨name text offset, .none, []⟩⟩
    let path (id offset : Nat) (segments : List PathSegment) : Ty :=
      .path (node id offset) ⟨node (id + 1) offset, segments⟩
    [⟨node 1 0, .ownModule, .module (name "a" 2)
        [⟨node 2 4, .ownModule, .module (name "b" 6)
          [struct 3 10 "S", ⟨node 4 20, .ownModule,
            .typeAlias ⟨name "U" 22, .none, path 5 24 [segment 7 26 "T"]⟩⟩]⟩]⟩,
      struct 8 30 "T",
      ⟨node 9 40, .ownModule, .inherentImpl ⟨.none,
        path 10 42 [segment 12 44 "a", segment 13 46 "b", segment 14 48 "S"],
        [⟨node 15 50, .ownModule, .function ⟨name "f" 52, .none, none, [],
          some (path 16 54 [segment 18 56 "Self"]), none⟩⟩]⟩⟩]
  idBound := ⟨19⟩

/-- The path from the root cannot see `b` and `S`, and neither can `Self`, which stands for `S`.
The first segments of the other paths can see what they lead to, as `T` can be seen from all of the
crate. -/
theorem first_segments_accessible_withHiddenSelf :
    withHiddenSelf.WellFormed ∧ ∃ r, withHiddenSelf.resolve {} = .ok r ∧
      r.errors = [.privateItem "b" ⟨46, 1⟩ ⟨6, 1⟩, .privateItem "S" ⟨48, 1⟩ ⟨10, 1⟩,
        .privateItem "Self" ⟨56, 1⟩ ⟨10, 1⟩] ∧
      r.declarationOf? ⟨7⟩ = some ⟨8⟩ ∧
      withHiddenSelf.visibilityOf? {} ⟨8⟩ = some ⟨.parentModule, ⟨0⟩, ⟨30, 1⟩⟩ ∧
      withHiddenSelf.sees [⟨2⟩, ⟨1⟩, ⟨0⟩] ⟨.parentModule, ⟨0⟩, ⟨30, 1⟩⟩ = true := by
  have hwf : withHiddenSelf.WellFormed := by decide
  obtain ⟨r, hr, hsees, -⟩ := first_segments_accessible hwf {}
  have hdecl : r.declarationOf? ⟨7⟩ = some ⟨8⟩ := of_resolve hr (by decide +kernel)
  have hvis : withHiddenSelf.visibilityOf? {} ⟨8⟩ = some ⟨.parentModule, ⟨0⟩, ⟨30, 1⟩⟩ := by
    decide +kernel
  let seg : PathSegment := ⟨⟨⟨7⟩, ⟨26, 1⟩⟩, .ident "T", none⟩
  let x : PlacedSite := ⟨[⟨2⟩, ⟨1⟩, ⟨0⟩], .path ⟨⟨⟨6⟩, ⟨24, 1⟩⟩, [seg]⟩ []⟩
  have hx : withHiddenSelf.sites[1]? = some x := rfl
  have hstarts : withHiddenSelf.Starts x seg :=
    ⟨List.mem_of_getElem? hx, _, _, _, rfl, rfl⟩
  exact ⟨hwf, r, hr, of_resolve hr (by decide +kernel), hdecl, hvis,
    hsees x seg hstarts (by simp [seg]) _ _ hdecl hvis⟩

end Crate

end NameResolution
