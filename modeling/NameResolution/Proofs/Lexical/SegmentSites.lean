import Mathlib.Data.List.Pairwise
import NameResolution.Proofs.SiteNodes
import NameResolution.Proofs.Lexical.PathSteps

/-!
# NameResolution.Proofs.Lexical.SegmentSites

**Every segment of a path has a site of its own.** The segments of all paths among the sites
of a crate are sites of it themselves, and no two of them are the same one
(`Crate.onPaths_subperm`). So the node of a segment says to which path the segment belongs
(`Crate.eq_of_onPath`) and where in that path it stands (`Crate.nodup_segments`).
-/

namespace NameResolution

/-- The sites of the segments of a path, if the site is that of a path. -/
def PlacedSite.onPath (x : PlacedSite) : List PlacedSite :=
  match x.site with
  | .path p _ => p.segments.map fun seg => ⟨x.modules, .segment seg⟩
  | .segment _ | .type _ => []

theorem PlacedSite.mem_onPath {x : PlacedSite} {p : Path} {gates : List Gate} {seg : PathSegment}
    (hsite : x.site = .path p gates) (hseg : seg ∈ p.segments) :
    ⟨x.modules, .segment seg⟩ ∈ x.onPath := by
  unfold onPath
  rw [hsite]
  exact List.mem_map_of_mem hseg

/-- What is on a path is a segment. -/
theorem PlacedSite.site_of_onPath {x z : PlacedSite} (hz : z ∈ x.onPath) :
    ∃ seg, z.site = .segment seg := by
  unfold onPath at hz
  split at hz
  · obtain ⟨seg, -, rfl⟩ := List.mem_map.mp hz
    exact ⟨seg, rfl⟩
  · cases hz
  · cases hz

/-- The segments of the paths among some sites are among them, each as often as it belongs to a
path. -/
def HoldsSegments (l : List PlacedSite) : Prop := List.Subperm (l.flatMap PlacedSite.onPath) l

namespace HoldsSegments

variable {l l₁ l₂ : List PlacedSite} {modules : List NodeId} {seg : PathSegment}
  {segs : List PathSegment}

theorem append (h₁ : HoldsSegments l₁) (h₂ : HoldsSegments l₂) : HoldsSegments (l₁ ++ l₂) := by
  unfold HoldsSegments
  rw [List.flatMap_append]
  exact List.Subperm.append h₁ h₂

/-- Sites that are no paths ask for nothing. -/
theorem add {x : PlacedSite} (h : HoldsSegments l) (hx : x.onPath = []) :
    HoldsSegments (l ++ [x]) := by
  unfold HoldsSegments
  rw [List.flatMap_append, List.flatMap_singleton, hx, List.append_nil]
  exact h.trans (List.sublist_append_left _ _).subperm

/-- Gates are in front of paths only. -/
theorem behind {l : List Site} (h : HoldsSegments (l.map (.mk modules))) (gate : Gate) :
    HoldsSegments ((l.map (Site.behind gate)).map (.mk modules)) := by
  let put (x : PlacedSite) : PlacedSite := ⟨x.modules, x.site.behind gate⟩
  have hput : (l.map (Site.behind gate)).map (.mk modules) = (l.map (.mk modules)).map put := by
    rw [List.map_map, List.map_map]
    rfl
  have hsame (x : PlacedSite) : (put x).onPath = x.onPath.map put := by
    obtain ⟨around, site⟩ := x
    cases site with
    | path p gates => simp [PlacedSite.onPath, put, Site.behind]
    | segment seg => rfl
    | type use => rfl
  unfold HoldsSegments
  rw [hput, List.flatMap_map, List.flatMap_congr fun x _ => hsame x, ← List.map_flatMap]
  obtain ⟨found, hperm, hsub⟩ := h
  exact ⟨found.map put, hperm.map put, hsub.map put⟩

theorem arguments (gate : Gate)
    (hargs : ∀ args, seg.generics = some args → HoldsSegments (args.sites.map (.mk modules))) :
    HoldsSegments (((optionalSites GenericArgs.sites seg.generics).map (Site.behind gate)).map
      (.mk modules)) := by
  refine behind ?_ gate
  cases hgenerics : seg.generics with
  | none => exact List.nil_subperm
  | some args => exact hargs args hgenerics

theorem appended (gate : Gate)
    (hargs : ∀ args, seg.generics = some args → HoldsSegments (args.sites.map (.mk modules))) :
    HoldsSegments ((seg.sites gate).map (.mk modules)) := by
  rw [seg.sites_eq, List.map_append]
  exact (arguments gate hargs).add rfl

theorem appendedAll (gate : Gate)
    (hargs : ∀ seg ∈ segs, ∀ args, seg.generics = some args →
      HoldsSegments (args.sites.map (.mk modules))) :
    HoldsSegments ((appendedSites gate segs).map (.mk modules)) := by
  induction segs with
  | nil => exact List.nil_subperm
  | cons seg rest ih =>
      obtain ⟨hseg, hrest⟩ := List.forall_mem_cons.mp hargs
      rw [appendedSites, List.map_append]
      exact (appended gate hseg).append (ih hrest)

/-- The segments of a path are there in addition to those of the paths in their arguments. -/
theorem segments (before : List PathSegment)
    (hargs : ∀ seg ∈ segs, ∀ args, seg.generics = some args →
      HoldsSegments (args.sites.map (.mk modules))) :
    List.Subperm
      (((segmentsSites before segs).map (.mk modules)).flatMap PlacedSite.onPath ++
        segs.map fun seg => ⟨modules, .segment seg⟩)
      ((segmentsSites before segs).map (.mk modules)) := by
  induction segs generalizing before with
  | nil => exact List.nil_subperm
  | cons seg rest ih =>
      obtain ⟨hseg, hrest⟩ := List.forall_mem_cons.mp hargs
      let own : PlacedSite := ⟨modules, .segment seg⟩
      let inside := ((optionalSites GenericArgs.sites seg.generics).map
        (Site.behind (.args before seg))).map (PlacedSite.mk modules)
      let later := (segmentsSites (before ++ [seg]) rest).map (PlacedSite.mk modules)
      have hsites : (segmentsSites before (seg :: rest)).map (.mk modules) =
          inside ++ own :: later := by
        rw [segmentsSites, seg.sites_eq, List.map_append, List.map_append, List.append_assoc]
        rfl
      have hperm : List.Perm
          (inside.flatMap PlacedSite.onPath ++ later.flatMap PlacedSite.onPath ++
            own :: rest.map fun seg => ⟨modules, .segment seg⟩)
          (inside.flatMap PlacedSite.onPath ++ own ::
            (later.flatMap PlacedSite.onPath ++ rest.map fun seg => ⟨modules, .segment seg⟩)) := by
        rw [List.append_assoc]
        exact List.perm_middle.append_left _
      rw [hsites, List.flatMap_append, List.flatMap_cons, List.map_cons]
      exact hperm.subperm.trans (List.Subperm.append (arguments (.args before seg) hseg)
        ((List.subperm_cons own).mpr (ih (before ++ [seg]) hrest)))

theorem path (p : Path)
    (hargs : ∀ seg ∈ p.segments, ∀ args, seg.generics = some args →
      HoldsSegments (args.sites.map (.mk modules))) :
    HoldsSegments (p.sites.map (.mk modules)) := by
  obtain ⟨node, segs⟩ := p
  unfold HoldsSegments
  rw [Path.sites, List.map_append, List.flatMap_append, List.map_singleton,
    List.flatMap_singleton]
  exact (segments [] hargs).trans (List.sublist_append_left _ _).subperm

theorem qualified (p : QualifiedPath)
    (hself : HoldsSegments (p.qualifier.selfTy.sites.map (.mk modules)))
    (htrait : ∀ asTrait, p.qualifier.asTrait = some asTrait →
      HoldsSegments (asTrait.sites.map (.mk modules)))
    (hargs : ∀ seg ∈ p.associated :: p.rest, ∀ args, seg.generics = some args →
      HoldsSegments (args.sites.map (.mk modules))) :
    HoldsSegments (p.sites.map (.mk modules)) := by
  obtain ⟨node, ⟨head, selfTy, asTrait⟩, associated, rest⟩ := p
  obtain ⟨hassociated, hrest⟩ := List.forall_mem_cons.mp hargs
  have hhead : HoldsSegments ((Qualifier.sites ⟨head, selfTy, asTrait⟩).map (.mk modules)) := by
    cases asTrait with
    | none => exact hself
    | some traitPath =>
        rw [Qualifier.sites, List.map_append]
        exact append hself ((htrait traitPath rfl).behind _)
  rw [QualifiedPath.sites, List.map_append, List.map_append]
  exact hhead.append ((appended _ hassociated).append (appendedAll _ hrest))

end HoldsSegments

theorem Session.holdsSegments (base : Session) :
    Traversal base base [] fun {_} _ _ l => HoldsSegments l where
  pure _ := List.nil_subperm
  bind h₁ h₂ := h₁.append h₂
  introduce _ _ _ _ _ := List.nil_subperm
  builtin _ _ _ _ := List.nil_subperm
  path _ _ p _ hargs := .path p hargs
  qualified _ p _ hself htrait hargs := .qualified p hself htrait hargs

namespace Crate

variable {c : Crate} {x y z : PlacedSite}

/-- The segments of all paths of a crate are sites of it. -/
theorem onPaths_subperm (c : Crate) : List.Subperm (c.sites.flatMap PlacedSite.onPath) c.sites :=
  (Session.start c {}).holdsSegments.crate c

/-- A segment of a path has a site in the modules around the path. -/
theorem mem_sites_of_onPath (hx : x ∈ c.sites) (hz : z ∈ x.onPath) : z ∈ c.sites :=
  c.onPaths_subperm.subset (List.mem_flatMap.mpr ⟨x, hx, hz⟩)

variable (hwf : c.WellFormed)

include hwf

theorem nodup_onPaths : (c.sites.flatMap PlacedSite.onPath).Nodup := by
  obtain ⟨l, hperm, hsub⟩ := c.onPaths_subperm
  exact hperm.nodup_iff.mp ((c.nodup_sites hwf).of_map.sublist hsub)

/-- Sites of segments that have the same node are the same. -/
theorem eq_of_onPath (hx : x ∈ c.sites) (hy : y ∈ c.sites) {z' : PlacedSite} (hz : z ∈ x.onPath)
    (hz' : z' ∈ y.onPath) (hid : z.site.id = z'.site.id) : x = y := by
  have hsame : z = z' := List.inj_on_of_nodup_map (c.nodup_sites hwf)
    (mem_sites_of_onPath hx hz) (mem_sites_of_onPath hy hz') hid
  subst hsame
  have hapart := (List.nodup_flatMap.mp (c.nodup_onPaths hwf)).2
  have hsymm : Std.Symm (Function.onFun List.Disjoint PlacedSite.onPath) :=
    ⟨fun _ _ h _ hx hy => h hy hx⟩
  by_contra hne
  exact hapart.forall hx hy hne hz hz'

/-- The segments of a path have different nodes. -/
theorem nodup_segments (hx : x ∈ c.sites) {p : Path} {gates : List Gate}
    (hsite : x.site = .path p gates) : (p.segments.map fun seg => seg.node.id).Nodup := by
  have hpath : x.onPath = p.segments.map fun seg => ⟨x.modules, .segment seg⟩ := by
    unfold PlacedSite.onPath
    rw [hsite]
  have hids : (x.onPath.map fun z => z.site.id).Nodup := by
    have hnodup := (List.nodup_flatMap.mp (c.nodup_onPaths hwf)).1 x hx
    refine hnodup.map_on fun z hz z' hz' hid => ?_
    exact List.inj_on_of_nodup_map (c.nodup_sites hwf)
      (mem_sites_of_onPath hx hz) (mem_sites_of_onPath hx hz') hid
  rwa [hpath, List.map_map] at hids

end Crate

end NameResolution
