import NameResolution.Proofs.Completion
import NameResolution.Proofs.Lexical.Lookups
import NameResolution.Proofs.Lexical.SegmentSites

/-!
# NameResolution.Proofs.VisitedPaths

**Which paths the second pass comes to, and what is reported about these.** A path is looked
up unless it stands inside another one, where the second pass may turn back before it gets
there. A path that is skipped leaves no trace: neither it nor any of its segments is resolved
(`Crate.SecondPass.looksUpOrSkips`).

What is reported about a path that is looked up is what reading it finds out. Resolving the
path adds just that to the reports, from every session in which its nodes are still to be
worked on, and it is there in one piece in the end (`Crate.Reports`).
-/

namespace NameResolution

open Resolution

/-! ### Nodes of a path -/

/-- The nodes of the path itself and of its segments. -/
def Path.ownIds (p : Path) : List NodeId := p.node.id :: p.segments.map (·.node.id)

section Sites

variable {c : Crate} {settings : Settings} {x y : PlacedSite} {p q : Path} {gates gates' : List Gate}
  {id : NodeId}

/-- The nodes of a path have sites of their own, that of the path and those of its segments. -/
theorem Path.site_of_mem_ownIds (hx : x ∈ c.sites) (hsite : x.site = .path p gates)
    (hid : id ∈ p.ownIds) : ∃ z ∈ c.sites, z.site.id = id ∧ (z = x ∨ z ∈ x.onPath) := by
  rcases List.mem_cons.mp hid with rfl | hid
  · exact ⟨x, hx, by rw [hsite]; rfl, Or.inl rfl⟩
  · obtain ⟨seg, hseg, rfl⟩ := List.mem_map.mp hid
    have hpath := PlacedSite.mem_onPath hsite hseg
    exact ⟨_, Crate.mem_sites_of_onPath hx hpath, rfl, Or.inr hpath⟩

/-- Paths that have a node in common stand at the same site. -/
theorem Crate.eq_of_ownIds (hwf : c.WellFormed) (hx : x ∈ c.sites) (hy : y ∈ c.sites)
    (hxsite : x.site = .path p gates) (hysite : y.site = .path q gates') (hp : id ∈ p.ownIds)
    (hq : id ∈ q.ownIds) : x = y := by
  obtain ⟨z, hz, hzid, hzx⟩ := Path.site_of_mem_ownIds hx hxsite hp
  obtain ⟨z', hz', hzid', hzy⟩ := Path.site_of_mem_ownIds hy hysite hq
  obtain rfl : z = z' :=
    List.inj_on_of_nodup_map (c.nodup_sites hwf) hz hz' (hzid.trans hzid'.symm)
  rcases hzx with rfl | hzx
  · rcases hzy with rfl | hzy
    · rfl
    · obtain ⟨seg, hseg⟩ := PlacedSite.site_of_onPath hzy
      cases hxsite.symm.trans hseg
  · rcases hzy with rfl | hzy
    · obtain ⟨seg, hseg⟩ := PlacedSite.site_of_onPath hzx
      cases hysite.symm.trans hseg
    · exact eq_of_onPath hwf hx hy hzx hzy rfl

/-- The node of a type that is built in is not that of a path. -/
theorem Crate.type_not_mem_ownIds (hwf : c.WellFormed) (hx : x ∈ c.sites) (hy : y ∈ c.sites)
    (hxsite : x.site = .path p gates) (hysite : y.site = .type id) : id ∉ p.ownIds := by
  intro hid
  obtain ⟨z, hz, hzid, hzx⟩ := Path.site_of_mem_ownIds hx hxsite hid
  have hyid : y.site.id = id := by rw [hysite]; rfl
  obtain rfl : z = y :=
    List.inj_on_of_nodup_map (c.nodup_sites hwf) hz hy (hzid.trans hyid.symm)
  rcases hzx with rfl | hzx
  · cases hxsite.symm.trans hysite
  · obtain ⟨seg, hseg⟩ := PlacedSite.site_of_onPath hzx
    cases hysite.symm.trans hseg

end Sites

/-! ### Paths that are skipped -/

/-- Neither the path nor any of its segments is resolved. -/
def Path.Untouched (t : Tables) (p : Path) : Prop := ∀ id ∈ p.ownIds, t.resolved? id = none

/-- Every path of a crate is looked up, or else it stands inside another path and is left alone. -/
def Crate.LooksUpOrSkips (c : Crate) (settings : Settings) (t : Tables) : Prop :=
  ∀ x ∈ c.sites, ∀ p gates, x.site = .path p gates →
    (∃ prefer env, c.LooksUp settings x p prefer env) ∨ gates ≠ [] ∧ p.Untouched t

/-- What is entered is entered for a path that is looked up, or for a type that is built in. -/
theorem Crate.exists_looksUp_of_entry {c : Crate} {settings : Settings} {f : Finding}
    {id decl : NodeId} (hf : f ∈ (c.read (c.registered settings)).findings)
    (hentry : f.entry? = some (id, decl)) :
    (∃ y q prefer env, c.LooksUp settings y q prefer env ∧ id ∈ q.ownIds) ∨
      ∃ y ∈ c.sites, y.site = .type id := by
  have hvisits := c.visits (c.registered settings)
  cases f with
  | segment space node name _ here =>
      cases hentry
      obtain ⟨q, prefer, env, outcome, before, seg, rest, hvisit, hsegments, rfl, -⟩ :=
        hvisits.segments space node name decl here hf
      obtain ⟨y, hlook⟩ := exists_looksUp_of_visit hvisit
      refine Or.inl ⟨y, q, prefer, env, hlook, List.mem_cons_of_mem _ (List.mem_map_of_mem ?_)⟩
      simp [hsegments]
  | resolved space _ _ =>
      cases hentry
      rcases hvisits.names space id decl hf with ⟨q, prefer, env, outcome, hvisit, rfl⟩ | htype
      · obtain ⟨y, hlook⟩ := exists_looksUp_of_visit hvisit
        exact Or.inl ⟨y, q, prefer, env, hlook, List.mem_cons_self⟩
      · exact Or.inr htype
  | qualified use path => cases hentry
  | error e => cases hentry
  | visit path prefer env outcome => cases hentry

namespace Crate

variable {c : Crate} {settings : Settings} {s : Session} {x : PlacedSite} {p : Path}
  {prefer : Namespace} {env : Env}

/-- A path that is looked up is resolved to what its reading says. -/
theorem SecondPass.resolved?_of_looksUp (hwf : c.WellFormed)
    (hs : c.SecondPass (c.registered settings) s) (hlook : c.LooksUp settings x p prefer env) :
    s.tables.resolved? p.node.id =
      (p.read (c.registered settings) env prefer).value.map Meaning.decl := by
  obtain ⟨outcome, hvisit⟩ := hlook.visit
  rw [hs.resolved?_of_visit hwf (c.firstPass hwf settings) hvisit,
    (hs.traced _ _ _ _ hvisit).value]

/-- A path is looked up if a node of it is resolved. -/
theorem SecondPass.exists_looksUp_of_resolved (hwf : c.WellFormed)
    (hs : c.SecondPass (c.registered settings) s) {gates : List Gate} (hx : x ∈ c.sites)
    (hsite : x.site = .path p gates) {id decl : NodeId} (hid : id ∈ p.ownIds)
    (hresolved : s.tables.resolved? id = some decl) :
    ∃ prefer env, c.LooksUp settings x p prefer env := by
  obtain ⟨f, hf, hentry⟩ := (hs.resolved?_eq_some hwf (c.firstPass hwf settings)).mp hresolved
  rcases exists_looksUp_of_entry hf hentry with ⟨y, q, prefer, env, hlook, hq⟩ | ⟨y, hy, htype⟩
  · obtain ⟨gates', hqsite⟩ := hlook.site
    obtain rfl := eq_of_ownIds hwf hx hlook.mem_sites hsite hqsite hid hq
    cases hsite.symm.trans hqsite
    exact ⟨prefer, env, hlook⟩
  · exact absurd hid (type_not_mem_ownIds hwf hx hy hsite htype)

/-- A path that is not looked up is inside another one, and it is left alone. -/
theorem SecondPass.looksUpOrSkips (hwf : c.WellFormed)
    (hs : c.SecondPass (c.registered settings) s) : c.LooksUpOrSkips settings s.tables := by
  intro x hx p gates hsite
  by_cases huntouched : p.Untouched s.tables
  · cases gates with
    | nil => exact Or.inl (c.exists_looksUp_of_open settings hx hsite)
    | cons gate gates => exact Or.inr ⟨List.cons_ne_nil gate gates, huntouched⟩
  · obtain ⟨id, hid, hsome⟩ : ∃ id ∈ p.ownIds, s.tables.resolved? id ≠ none := by
      simpa [Path.Untouched] using huntouched
    obtain ⟨decl, hresolved⟩ := Option.ne_none_iff_exists'.mp hsome
    exact Or.inl (hs.exists_looksUp_of_resolved hwf hx hsite hid hresolved)

end Crate

/-- The path `keyword::S`. -/
def Path.toSkip (keyword : PathIdent) : Path :=
  ⟨⟨⟨4⟩, ⟨6, 1⟩⟩, [⟨⟨⟨2⟩, ⟨2, 1⟩⟩, keyword, none⟩, ⟨⟨⟨3⟩, ⟨4, 1⟩⟩, .ident "S", none⟩]⟩

/-- A struct `S` with a field of the type `Lost::X<keyword::S>`. The path of that type fails at its
first segment, and the second pass does not come to the arguments of the next one. -/
def Crate.withSkippedPath (keyword : PathIdent) : Crate where
  node := ⟨⟨0⟩, ⟨0, 20⟩⟩
  items :=
    let node (id : Nat) : Node := ⟨⟨id⟩, ⟨2 * id - 2, 1⟩⟩
    let args : GenericArgs := ⟨[.path (node 5) (.toSkip keyword)], ⟨12, 1⟩⟩
    let path : Path :=
      ⟨node 7, [⟨node 1, .ident "Lost", none⟩, ⟨node 6, .ident "X", some args⟩]⟩
    [⟨node 10, .ownModule, .struct ⟨⟨"S", ⟨18, 1⟩⟩, .none,
      [⟨node 9, .ownModule, ⟨"f", ⟨16, 1⟩⟩, .path (node 8) path⟩]⟩⟩]
  idBound := ⟨11⟩

/-- The path is that of a type among the arguments of a path that stands inside no other one. So it
prefers types. -/
def Crate.HasArgument (c : Crate) (modules : List NodeId) (p : Path) : Prop :=
  ∃ before seg args node, ⟨modules, .path p [.args before seg]⟩ ∈ c.sites ∧
    seg.generics = some args ∧ .path node p ∈ args.types

theorem Crate.hasArgument_withSkippedPath (keyword : PathIdent) :
    (withSkippedPath keyword).HasArgument [⟨0⟩] (.toSkip keyword) :=
  ⟨_, _, _, ⟨⟨5⟩, ⟨8, 1⟩⟩, List.mem_of_getElem? (i := 3) rfl, rfl, List.mem_singleton_self _⟩

/-! ### Reports -/

/-- What is reported while a path is read, the arguments of its segments included. -/
def Path.errors (base : Session) (env : Env) (prefer : Namespace) (p : Path) : List ResolveError :=
  (p.read base env prefer).findings.filterMap Finding.error?

/-- What is reported about a path that is looked up in an environment. -/
structure Crate.Reports (c : Crate) (settings : Settings) (s : Session) (p : Path)
    (prefer : Namespace) (env : Env) : Prop where
  /-- When the second pass comes to the path, its nodes are still to be worked on, and the tables
  are what has been found out before. What is reported about the path comes next. -/
  comes : ∃ before after start rest, (c.read (c.registered settings)).findings =
      before ++ (p.read (c.registered settings) env prefer).findings ++ after ∧
    Ready (c.registered settings) env p.nodeIds start ∧
    start.ledger = (c.registered settings).ledger.noteAll (c.registered settings) before ∧
    s.errors.reported =
      start.errors.reported ++ p.errors (c.registered settings) env prefer ++ rest
  /-- From every session in which its nodes are still to be worked on, resolving the path adds just
  that to the reports. -/
  adds : ∀ start, Ready (c.registered settings) env p.nodeIds start → ∃ after,
    Runs (p.resolve prefer) start
      ((p.read (c.registered settings) env prefer).value.map Meaning.decl) after ∧
    after.errors.reported = start.errors.reported ++ p.errors (c.registered settings) env prefer

namespace Crate

variable {c : Crate} {settings : Settings} {s : Session} {x : PlacedSite} {p : Path}
  {prefer : Namespace} {env : Env}

/-- When the second pass comes to a path that is looked up, its nodes are still to be worked on, and
the tables are what has been found out before. -/
theorem LooksUp.exists_ready (hwf : c.WellFormed) (hlook : c.LooksUp settings x p prefer env) :
    ∃ before after s, (c.read (c.registered settings)).findings =
        before ++ (p.read (c.registered settings) env prefer).findings ++ after ∧
      Ready (c.registered settings) env p.nodeIds s ∧
      s.ledger = (c.registered settings).ledger.noteAll (c.registered settings) before := by
  obtain ⟨_, _, hs, -⟩ := c.exists_run hwf settings
  obtain ⟨outcome, hvisit⟩ := hlook.visit
  obtain ⟨-, ⟨s, hready⟩, before, after, -, hfindings, -⟩ := hs.traced _ _ _ _ hvisit
  exact ⟨before, after, _, hfindings, hready.withLedger _, rfl⟩

/-- What is found out about a path that is looked up is among what is found out in the crate. -/
theorem LooksUp.findings_subset (hwf : c.WellFormed) (hlook : c.LooksUp settings x p prefer env) :
    (p.read (c.registered settings) env prefer).findings ⊆
      (c.read (c.registered settings)).findings := by
  obtain ⟨before, after, _, hfindings, -⟩ := hlook.exists_ready hwf
  rw [hfindings]
  exact fun _ hf => List.mem_append_left _ (List.mem_append_right _ hf)

/-- What is reported about a path that is looked up is what is found out while it is read. -/
theorem LooksUp.reports (hlook : c.LooksUp settings x p prefer env) (hwf : c.WellFormed)
    {s s' : Session} (hs : c.SecondPass (c.registered settings) s)
    (hreported : s.errors.reported <+: s'.errors.reported) : c.Reports settings s' p prefer env where
  comes := by
    obtain ⟨before, after, start, hfindings, hready, hledger⟩ := hlook.exists_ready hwf
    obtain ⟨later, hlater⟩ := hreported
    have hstart : start.errors.reported =
        (c.registered settings).errors.reported ++ before.filterMap Finding.error? := by
      change start.ledger.reported = (c.registered settings).ledger.reported ++ _
      rw [hledger, Ledger.reported_noteAll]
    refine ⟨before, after, start, after.filterMap Finding.error? ++ later, hfindings, hready,
      hledger, ?_⟩
    rw [← hlater, hs.reported, hfindings, hstart]
    simp only [List.filterMap_append, List.append_assoc, Path.errors]
  adds start hready := by
    obtain ⟨decl, after, hrun, ⟨rfl, -⟩, -, -, hstep⟩ :=
      p.agrees ((c.firstPass hwf settings).settled hwf) prefer hready
    refine ⟨after, hrun, ?_⟩
    change after.ledger.reported = start.ledger.reported ++ _
    rw [hstep.ledger, Ledger.reported_noteAll]
    rfl

/-- What is reported about a path is reported in one go. -/
theorem Reports.reported (h : c.Reports settings s p prefer env) :
    p.errors (c.registered settings) env prefer <:+: s.errors.reported := by
  obtain ⟨_, _, start, rest, -, -, -, hreported⟩ := h.comes
  exact ⟨_, rest, hreported.symm⟩

end Crate

end NameResolution
