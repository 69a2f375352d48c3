import NameResolution.Proofs.Lexical.PathSteps
import NameResolution.Proofs.Lexical.Replay

/-!
# NameResolution.Proofs.Lexical.SegmentUses

**Segments are resolved in the order of the tree.** A `SegmentUse` is all that a finding
about a segment says apart from the declaration. Those of the second pass are, in order,
some of the segments of the crate, each with the module around it (`Crate.inOrder`). None of
the errors that the second pass finds is about a declaration that cannot be seen.
-/

namespace NameResolution

/-- A segment as it is used. -/
structure SegmentUse where
  node : Node
  name : String
  /-- The module around the segment. -/
  here : NodeId

/-- The segment that a finding is about, and the declaration that it is resolved to. -/
def Finding.segment? : Finding → Option (SegmentUse × NodeId)
  | .segment _ node name decl here => some (⟨node, name, here⟩, decl)
  | .resolved _ _ _ | .qualified _ _ | .error _ | .visit _ _ _ _ => none

/-- The segments that findings are about, in order. -/
def segmentUses (findings : List Finding) : List SegmentUse :=
  (findings.filterMap Finding.segment?).map Prod.fst

/-- The segment that is resolved at a site. -/
def PlacedSite.segment? (root : NodeId) (x : PlacedSite) : Option SegmentUse :=
  match x.site with
  | .segment seg => some ⟨seg.node, seg.ident.text, x.modules.headD root⟩
  | .path _ _ | .type _ => none

/-- The segments among sites, in order. -/
def placedSegments (root : NodeId) (l : List PlacedSite) : List SegmentUse :=
  l.filterMap (PlacedSite.segment? root)

@[simp] theorem segmentUses_append (l₁ l₂ : List Finding) :
    segmentUses (l₁ ++ l₂) = segmentUses l₁ ++ segmentUses l₂ := by
  simp [segmentUses]

@[simp] theorem placedSegments_append (root : NodeId) (l₁ l₂ : List PlacedSite) :
    placedSegments root (l₁ ++ l₂) = placedSegments root l₁ ++ placedSegments root l₂ := by
  simp [placedSegments]

/-- Gates are in front of paths only. -/
theorem placedSegments_behind (root : NodeId) (modules : List NodeId) (gate : Gate)
    (l : List Site) :
    placedSegments root ((l.map (Site.behind gate)).map (.mk modules)) =
      placedSegments root (l.map (.mk modules)) := by
  unfold placedSegments
  rw [List.map_map, List.filterMap_map, List.filterMap_map]
  exact List.filterMap_congr fun s _ => by cases s <;> rfl

/-- The node is that of a site which is no segment. -/
def NoSegment (root : NodeId) (l : List PlacedSite) (use : NodeId) : Prop :=
  ∃ x ∈ l, x.segment? root = none ∧ x.site.id = use

theorem NoSegment.mono {root use : NodeId} {l₁ l₂ : List PlacedSite} (h : NoSegment root l₁ use)
    (hl : l₁ ⊆ l₂) : NoSegment root l₂ use :=
  let ⟨x, hx, hnone, huse⟩ := h
  ⟨x, hl hx, hnone, huse⟩

theorem NoSegment.behind {root use : NodeId} {modules : List NodeId} {l : List Site}
    (h : NoSegment root (l.map (.mk modules)) use) (gate : Gate) :
    NoSegment root ((l.map (Site.behind gate)).map (.mk modules)) use := by
  obtain ⟨x, hx, hnone, huse⟩ := h
  obtain ⟨s, hs, rfl⟩ := List.mem_map.mp hx
  refine ⟨⟨modules, s.behind gate⟩, List.mem_map_of_mem (List.mem_map_of_mem hs), ?_,
    (s.id_behind gate).trans huse⟩
  cases s with
  | segment seg => cases hnone
  | path p gates => rfl
  | type use => rfl

/-- A segment is placed at a site of its own node. -/
theorem exists_site_of_placed {root : NodeId} {l : List PlacedSite} {u : SegmentUse}
    (hu : u ∈ placedSegments root l) :
    ∃ x ∈ l, x.segment? root = some u ∧ x.site.id = u.node.id := by
  obtain ⟨⟨modules, site⟩, hx, hsome⟩ := List.mem_filterMap.mp hu
  refine ⟨⟨modules, site⟩, hx, hsome, ?_⟩
  cases site <;> cases hsome
  rfl

/-- Where all sites have nodes of their own, one that is no segment shares its node with none. -/
theorem NoSegment.node_ne {root use : NodeId} {l : List PlacedSite} (h : NoSegment root l use)
    (hnodup : (l.map fun x => x.site.id).Nodup) {u : SegmentUse} (hu : u ∈ placedSegments root l) :
    use ≠ u.node.id := by
  intro heq
  obtain ⟨x, hx, hnone, huse⟩ := h
  obtain ⟨y, hy, hsome, hid⟩ := exists_site_of_placed hu
  have hsame : x = y :=
    List.inj_on_of_nodup_map hnodup hx hy (huse.trans (heq.trans hid.symm))
  rw [hsame, hsome] at hnone
  cases hnone

/-- What is found out about some part is about its segments, in order, and no error in it is about
a declaration that cannot be seen. -/
structure InOrder (base : Session) {α : Type} (r : Reading α) (l : List PlacedSite) : Prop where
  segments : List.Sublist (segmentUses r.findings) (placedSegments base.root l)
  others : ∀ space use decl, .resolved space use decl ∈ r.findings → NoSegment base.root l use
  errors : ∀ f ∈ r.findings, ∀ e, f.error? = some e → e.isPrivate = false

namespace InOrder

variable {base : Session} {α β : Type} {r : Reading α} {l l₁ l₂ : List PlacedSite}

theorem pure (a : α) (l : List PlacedSite) : InOrder base (Pure.pure a : Reading α) l :=
  ⟨List.nil_sublist _, fun _ _ _ hf => (nomatch hf), fun _ hf => nomatch hf⟩

theorem bind {next : α → Reading β} (h₁ : InOrder base r l₁) (h₂ : InOrder base (next r.value) l₂) :
    InOrder base (r >>= next) (l₁ ++ l₂) where
  segments := by
    rw [Reading.findings_bind, segmentUses_append, placedSegments_append]
    exact h₁.segments.append h₂.segments
  others space use decl hf := by
    rw [Reading.findings_bind, List.mem_append] at hf
    exact hf.elim (fun hf => (h₁.others space use decl hf).mono (List.subset_append_left _ _))
      fun hf => (h₂.others space use decl hf).mono (List.subset_append_right _ _)
  errors f hf := by
    rw [Reading.findings_bind, List.mem_append] at hf
    exact hf.elim (h₁.errors f) (h₂.errors f)

/-- What comes after looks at no segment. -/
theorem last {next : α → Reading β} (h₁ : InOrder base r l) (h₂ : InOrder base (next r.value) []) :
    InOrder base (r >>= next) l := by
  have hbind := h₁.bind h₂
  rwa [List.append_nil] at hbind

/-- More sites in front make no difference. -/
theorem right (h : InOrder base r l₂) (l₁ : List PlacedSite) : InOrder base r (l₁ ++ l₂) where
  segments := by
    rw [placedSegments_append]
    exact h.segments.trans (List.sublist_append_right _ _)
  others space use decl hf := (h.others space use decl hf).mono (List.subset_append_right _ _)
  errors := h.errors

/-- A finding that resolves nothing and is no error. -/
theorem quiet {f : Finding} (hentry : f.entry? = none) (herror : f.error? = none)
    (l : List PlacedSite) : InOrder base (.note f) l where
  segments := by
    have hsegment : f.segment? = none := by cases f <;> first | rfl | cases hentry
    simp [segmentUses, hsegment]
  others space use decl hf := by
    cases List.mem_singleton.mp hf
    cases hentry
  errors g hg e he := by
    cases List.mem_singleton.mp hg
    rw [herror] at he
    cases he

/-- A site that is no segment is resolved. -/
theorem resolved (space : Namespace) (decl : NodeId) {x : PlacedSite}
    (hx : x.segment? base.root = none) :
    InOrder base (.note (.resolved space x.site.id decl)) [x] where
  segments := List.nil_sublist _
  others _ _ _ hf := by
    cases List.mem_singleton.mp hf
    exact ⟨x, List.mem_singleton_self x, hx, rfl⟩
  errors g hg e he := by
    cases List.mem_singleton.mp hg
    cases he

theorem error {e : ResolveError} (he : e.isPrivate = false) (l : List PlacedSite) :
    InOrder base (.note (.error e)) l where
  segments := List.nil_sublist _
  others _ _ _ hf := nomatch List.mem_singleton.mp hf
  errors g hg e' he' := by
    cases List.mem_singleton.mp hg
    cases he'
    exact he

theorem stopWith {e : ResolveError} (he : e.isPrivate = false) (l : List PlacedSite) :
    InOrder base (.stopWith e : Reading (Option α)) l := by
  have herror : InOrder base (.note (.error e)) l := error he l
  exact ⟨herror.segments, herror.others, herror.errors⟩

theorem behind {env : Env} {l : List Site} (h : InOrder base r (l.map (.mk env.modules)))
    (gate : Gate) : InOrder base r ((l.map (Site.behind gate)).map (.mk env.modules)) :=
  ⟨by rw [placedSegments_behind]; exact h.segments,
    fun space use decl hf => (h.others space use decl hf).behind gate, h.errors⟩

/-! ### Segments -/

section Segments

variable {env : Env} {seg : PathSegment}

theorem readTo (env : Env) (seg : PathSegment) (space : Namespace) (decl : NodeId) :
    InOrder base (seg.readTo base env space decl) [⟨env.modules, .segment seg⟩] where
  segments := List.Sublist.refl _
  others _ _ _ hf := nomatch List.mem_singleton.mp hf
  errors f hf := by
    cases List.mem_singleton.mp hf
    exact fun e he => nomatch he

theorem steps {r : Reading (Option Spot)} (h : seg.Steps base env r) :
    InOrder base r [⟨env.modules, .segment seg⟩] := by
  cases h with
  | onto space m scope _ =>
      have hread : InOrder base (seg.readTo base env space m.decl) _ := readTo env seg space m.decl
      exact ⟨hread.segments, hread.others, hread.errors⟩
  | stop e he => exact stopWith he _

theorem genericArgs
    (hargs : ∀ args, seg.generics = some args →
      InOrder base (args.read base env) (args.sites.map (.mk env.modules))) :
    InOrder base (readGenericArgs base env seg.generics)
      ((optionalSites GenericArgs.sites seg.generics).map (.mk env.modules)) := by
  cases hgenerics : seg.generics with
  | none => exact pure _ _
  | some args => exact hargs args hgenerics

theorem comes {spot : Spot} {r : Reading (Option Spot)} (h : seg.Comes base env spot r)
    (hargs : ∀ args, seg.generics = some args →
      InOrder base (args.read base env) (args.sites.map (.mk env.modules))) (gate : Gate) :
    InOrder base r ((seg.sites gate).map (.mk env.modules)) := by
  rw [PathSegment.sites_eq, List.map_append]
  cases h with
  | deferred _ => exact pure _ _
  | keyword _ hstep => exact (steps hstep).right _
  | name _ hstep => exact ((genericArgs hargs).behind gate).bind (steps hstep)

theorem appended (gate : Gate) (path : CanonicalPath)
    (hargs : ∀ args, seg.generics = some args →
      InOrder base (args.read base env) (args.sites.map (.mk env.modules))) :
    InOrder base (seg.readAppended base env path) ((seg.sites gate).map (.mk env.modules)) := by
  rw [PathSegment.sites_eq, List.map_append, PathSegment.readAppended_eq]
  split
  · exact stopWith rfl _
  · exact ((genericArgs hargs).behind gate).bind (pure _ _)

end Segments

/-! ### Paths -/

section Paths

variable {env : Env}

theorem walk (prefer : Namespace) (single : Bool) :
    ∀ (segments : List PathSegment) (spot : Spot) (before : List PathSegment),
      (∀ seg ∈ segments, ∀ args, seg.generics = some args →
        InOrder base (args.read base env) (args.sites.map (.mk env.modules))) →
      InOrder base (readSegments base env prefer single spot segments)
        ((segmentsSites before segments).map (.mk env.modules))
  | [], _, _, _ => pure _ _
  | seg :: rest, spot, before, hargs => by
      obtain ⟨hseg, hrest⟩ := List.forall_mem_cons.mp hargs
      rw [segmentsSites, List.map_append, readSegments_cons]
      refine (comes (seg.comes base env prefer single spot rest.isEmpty) hseg _).bind ?_
      unfold readOnward
      split
      · exact pure _ _
      · exact walk prefer single rest _ _ hrest

theorem appendedAll (gate : Gate) :
    ∀ (segments : List PathSegment) (path : CanonicalPath),
      (∀ seg ∈ segments, ∀ args, seg.generics = some args →
        InOrder base (args.read base env) (args.sites.map (.mk env.modules))) →
      InOrder base (readAppendedSegments base env path segments)
        ((appendedSites gate segments).map (.mk env.modules))
  | [], _, _ => pure _ _
  | seg :: rest, path, hargs => by
      obtain ⟨hseg, hrest⟩ := List.forall_mem_cons.mp hargs
      rw [appendedSites, List.map_append, readAppendedSegments]
      refine (appended gate path hseg).bind ?_
      split
      · exact pure _ _
      · exact appendedAll gate rest _ hrest

theorem path (env : Env) (prefer : Namespace) (p : Path)
    (hargs : ∀ seg ∈ p.segments, ∀ args, seg.generics = some args →
      InOrder base (args.read base env) (args.sites.map (.mk env.modules))) :
    InOrder base (p.read base env prefer) (p.sites.map (.mk env.modules)) := by
  obtain ⟨node, segments⟩ := p
  rw [Path.sites, List.map_append, Path.read]
  refine last ?_ ((quiet rfl rfl []).bind (pure _ _))
  let site : PlacedSite := ⟨env.modules, .path ⟨node, segments⟩ []⟩
  have hend (space : Namespace) (m : Meaning) : InOrder base (do
      Reading.note (.resolved space node.id m.decl)
      return some m) [site] :=
    have hresolved : InOrder base (.note (.resolved space site.site.id m.decl)) [site] :=
      resolved space m.decl rfl
    hresolved.last (pure _ [])
  unfold readWhole
  split
  · next seg m hreceiver =>
    -- The segment of a receiver is resolved, but its arguments are not looked at.
    have hsegment : InOrder base (do
        seg.readTo base env .name m.decl
        Reading.note (.resolved .name node.id m.decl)
        return some m) ([⟨env.modules, .segment seg⟩] ++ [site]) :=
      (readTo env seg .name m.decl).bind (hend .name m)
    obtain ⟨rfl, -⟩ := env.receiver?_eq_some base hreceiver
    rw [segmentsSites, segmentsSites, List.append_nil, PathSegment.sites_eq, List.map_append,
      List.append_assoc]
    exact hsegment.right _
  · refine bind (walk prefer (segments.length == 1) segments ⟨env.here base, none⟩ [] hargs) ?_
    split
    · exact pure _ _
    · exact hend _ _

theorem qualified (env : Env) (p : QualifiedPath)
    (hself : InOrder base (p.qualifier.selfTy.read base env)
      (p.qualifier.selfTy.sites.map (.mk env.modules)))
    (htrait : ∀ asTrait, p.qualifier.asTrait = some asTrait →
      InOrder base (asTrait.read base env .type) (asTrait.sites.map (.mk env.modules)))
    (hargs : ∀ seg ∈ p.associated :: p.rest, ∀ args, seg.generics = some args →
      InOrder base (args.read base env) (args.sites.map (.mk env.modules))) :
    InOrder base (p.read base env) (p.sites.map (.mk env.modules)) := by
  obtain ⟨node, ⟨head, selfTy, asTrait⟩, associated, rest⟩ := p
  obtain ⟨hassociated, hrest⟩ := List.forall_mem_cons.mp hargs
  have hhead : InOrder base (Qualifier.read base env ⟨head, selfTy, asTrait⟩)
      ((Qualifier.sites ⟨head, selfTy, asTrait⟩).map (.mk env.modules)) := by
    cases asTrait with
    | none =>
        refine hself.last ?_
        split <;> exact pure _ _
    | some traitPath =>
        rw [Qualifier.sites, List.map_append]
        refine hself.bind ?_
        split
        · exact pure _ _
        · refine last ((htrait traitPath rfl).behind _) ?_
          split <;> exact pure _ _
  rw [QualifiedPath.sites, List.map_append, List.map_append, QualifiedPath.read]
  refine hhead.bind ?_
  split
  · exact pure _ _
  · refine (appended _ _ hassociated).bind ?_
    split
    · exact pure _ _
    · refine last (appendedAll _ rest _ hrest) ?_
      split
      · exact pure _ _
      · exact (quiet rfl rfl []).bind (pure _ [])

end Paths

end InOrder

theorem Session.inOrder (base : Session) :
    Traversal base base [] fun {_} r _ l => InOrder base r l where
  pure a := .pure a []
  bind h₁ h₂ := h₁.bind h₂
  introduce env space l complaint hcomplaint := by
    have hpublic : ∀ b earlier, (complaint b earlier).isPrivate = false := by
      rcases List.mem_pair.mp hcomplaint with rfl | rfl <;> exact fun _ _ => rfl
    unfold Env.readNew
    split
    · exact (InOrder.error (hpublic _ _) []).last (.pure _ _)
    · exact .pure _ _
  builtin modules use pick _ := by
    let site : PlacedSite := ⟨modules, .type use⟩
    have hresolved : InOrder base (.note (.resolved .type site.site.id (pick base.builtins)))
        [site] := .resolved .type _ rfl
    exact hresolved.last (.pure _ _)
  path env prefer p _ hargs := .path env prefer p hargs
  qualified env p _ hself htrait hargs := .qualified env p hself htrait hargs

/-- The segments of a crate are resolved in order, each in the module around it. -/
theorem Crate.inOrder (c : Crate) (base : Session) : InOrder base (c.read base) c.sites :=
  base.inOrder.crate c

end NameResolution
