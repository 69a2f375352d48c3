import NameResolution.Proofs.Completion
import NameResolution.Proofs.ParentModules
import NameResolution.Proofs.SiteNodes
import NameResolution.Proofs.Lexical.SegmentUses

/-!
# NameResolution.Proofs.PrivateUses

**The report on privacy is sound and complete** (`Crate.private_uses_exact`). The resolution
looks at use sites that it has recorded, at visibilities that it has recorded, and follows
recorded parents. The tree says the same without any of that: a segment stands inside the
modules around it, a declaration has the visibility that was attempted with it, and one can
see the other if the outermost module that may is among the modules around the segment
(`Crate.sees`).
-/

namespace NameResolution

/-! ### What the tree says -/

/-- The visibility with which something was declared, if it has one. -/
def Crate.visibilityOf? (c : Crate) (settings : Settings) (decl : NodeId) : Option DeclVisibility :=
  ((c.attempts settings).find? fun a => decide (a.id = decl)).bind Attempt.visibility?

/-- The outermost module from which a declaration can be seen, or none if all of the crate can see
it. -/
def Crate.visibleWithin (c : Crate) (d : DeclVisibility) : Option NodeId :=
  match d.vis with
  | .everywhere | .ownCrate => none
  | .ownModule => some d.module
  | .parentModule => some ((c.parent? d.module).getD d.module)

/-- Whether code can see a declaration, given all the modules around the code. -/
def Crate.sees (c : Crate) (modules : List NodeId) (d : DeclVisibility) : Bool :=
  match c.visibleWithin d with
  | none => true
  | some outermost => decide (outermost ∈ modules)

/-- The error for a site, if it is a segment that was resolved to a declaration that cannot be seen
from there. -/
def Crate.hiddenUse? (c : Crate) (settings : Settings) (r : ResolvedCrate) (x : PlacedSite) :
    Option ResolveError :=
  match x.site with
  | .segment seg => do
    let d ← c.visibilityOf? settings (← r.declarationOf? seg.node.id)
    if c.sees x.modules d then none
    else some (.privateItem seg.ident.text seg.node.span d.span)
  | .path _ _ | .type _ => none

/-! ### Visibilities -/

/-- What was entered for a declaration is what was attempted with it. -/
theorem lookup_seen {l : List Attempt} (hnodup : (l.map Attempt.id).Nodup) (decl : NodeId) :
    (l.filterMap Attempt.seen?).lookup decl =
      (l.find? fun a => decide (a.id = decl)).bind Attempt.visibility? := by
  induction l with
  | nil => rfl
  | cons a l ih =>
      obtain ⟨hout, hrest⟩ := List.nodup_cons.mp hnodup
      have hseen : a.seen? = a.visibility?.map (a.id, ·) := rfl
      by_cases hid : a.id = decl
      · have hnone : l.find? (fun b => decide (b.id = decl)) = none :=
          List.find?_eq_none.mpr fun b hb heq =>
            hout (List.mem_map.mpr ⟨b, hb, (of_decide_eq_true heq).trans hid.symm⟩)
        have hlater : (l.filterMap Attempt.seen?).lookup decl = none := by
          rw [ih hrest, hnone]
          rfl
        rw [List.find?_cons, decide_eq_true hid, List.filterMap_cons, hseen]
        cases hvis : a.visibility? with
        | none => rw [Option.bind_some, hvis]; exact hlater
        | some d => simp [hid, hvis]
      · rw [List.find?_cons, decide_eq_false hid, List.filterMap_cons, hseen]
        cases hvis : a.visibility? with
        | none => exact ih hrest
        | some d => simpa [List.lookup_cons, beq_false_of_ne (Ne.symm hid)] using ih hrest

section Registered

variable {c : Crate} (hwf : c.WellFormed) (settings : Settings)

include hwf

theorem Crate.visibilities_registered (decl : NodeId) :
    (c.registered settings).tables.visibilities.get? decl = c.visibilityOf? settings decl := by
  have hnodup := (List.nodup_cons.mp (c.nested hwf settings).nodup).2
  have hkeys : (((c.attempts settings).filterMap Attempt.seen?).map Prod.fst).Nodup := by
    refine hnodup.sublist ?_
    generalize c.attempts settings = l
    induction l with
    | nil => exact .slnil
    | cons a l ih =>
        rw [List.filterMap_cons]
        unfold Attempt.seen?
        cases a.visibility? with
        | none => exact ih.cons _
        | some d => exact ih.cons_cons _
  unfold Register.get? visibilityOf?
  rw [(c.firstPass hwf settings).visibilities, lookup_perm (List.reverse_perm _)
    ((List.reverse_perm _).map _ |>.nodup_iff.mpr hkeys), lookup_seen hnodup]

theorem Crate.visibleWithin_registered {decl : NodeId} {d : DeclVisibility}
    (hd : c.visibilityOf? settings decl = some d) :
    (c.registered settings).tables.visibleWithin d = c.visibleWithin d := by
  obtain ⟨a, ha, hvis⟩ := Option.bind_eq_some_iff.mp hd
  have hmodule : d.module ∈ c.node.id :: itemsModuleIds c.items := by
    obtain ⟨vis, -, rfl⟩ := Option.map_eq_some_iff.mp hvis
    exact List.mem_cons.mpr (itemsAttempts_module c.items a (List.mem_of_find?_eq_some ha))
  unfold Tables.visibleWithin visibleWithin
  cases d.vis <;> simp only [c.parents_registered hwf settings hmodule]

end Registered

/-! ### The modules around a site -/

/-- The parents that are recorded lead through the modules around a site. -/
theorem Crate.chained_site {c : Crate} (hwf : c.WellFormed) (settings : Settings) {x : PlacedSite}
    (hx : x ∈ c.sites) : Chained (c.registered settings).tables.parents.get? x.modules :=
  itemsSites_modules (Chained (c.registered settings).tables.parents.get?) c.items
    (.root (c.parents_root hwf settings))
    (fun _ hp _ hrest => .step (c.parents_nesting hwf settings hp) hrest) x hx

namespace Session.SameDeclarations

variable {t t' : Tables} (h : SameDeclarations t t')

include h

theorem enclosing (id : NodeId) : t'.enclosing id = t.enclosing id := by
  have hwalk : ∀ (n : Nat) (id : NodeId), t'.enclosingUpTo n id = t.enclosingUpTo n id := by
    intro n
    induction n with
    | zero => exact fun _ => rfl
    | succ n ih =>
        intro id
        rw [Tables.enclosingUpTo, Tables.enclosingUpTo, h.parents]
        split
        · rfl
        · rw [ih]
  unfold Tables.enclosing
  rw [hwalk, h.parents]

end Session.SameDeclarations

/-! ### The segments that were resolved -/

/-- Some of the elements, in order, each with what a function says of it, are all of those that the
function says anything of. -/
theorem eq_filterMap_of_sublist {α β : Type} {found : α → Option β} :
    ∀ {l : List α} {pairs : List (α × β)}, List.Sublist (pairs.map Prod.fst) l → l.Nodup →
      (∀ p ∈ pairs, found p.1 = some p.2) →
      (∀ a ∈ l, a ∉ pairs.map Prod.fst → found a = none) →
      pairs = l.filterMap fun a => (found a).map (a, ·)
  | [], pairs, hsub, _, _, _ => List.map_eq_nil_iff.mp (List.sublist_nil.mp hsub)
  | a :: l, pairs, hsub, hnodup, hfound, hmissing => by
      obtain ⟨hout, hrest⟩ := List.nodup_cons.mp hnodup
      rcases List.sublist_cons_iff.mp hsub with hsub | ⟨firsts, hfirsts, hsub⟩
      · have hnone : found a = none :=
          hmissing a List.mem_cons_self fun hin => hout (hsub.subset hin)
        rw [List.filterMap_cons, hnone]
        exact eq_filterMap_of_sublist hsub hrest hfound fun b hb =>
          hmissing b (List.mem_cons_of_mem _ hb)
      · obtain ⟨p, pairs, rfl, rfl, rfl⟩ := List.map_eq_cons_iff.mp hfirsts
        have hsome := hfound p List.mem_cons_self
        have hlater := eq_filterMap_of_sublist hsub hrest
          (fun q hq => hfound q (List.mem_cons_of_mem _ hq)) fun b hb hnot => by
            refine hmissing b (List.mem_cons_of_mem _ hb) fun hin => ?_
            rcases List.mem_cons.mp hin with rfl | hin
            · exact hout hb
            · exact hnot hin
        rw [List.filterMap_cons, hsome]
        exact congrArg (p :: ·) hlater

/-- The segments among sites are nodes of theirs. -/
theorem placedSegments_ids (root : NodeId) : ∀ l : List PlacedSite,
    List.Sublist ((placedSegments root l).map fun u => u.node.id) (l.map fun x => x.site.id)
  | [] => .slnil
  | ⟨_, .segment _⟩ :: l => (placedSegments_ids root l).cons_cons _
  | ⟨_, .path _ _⟩ :: l => (placedSegments_ids root l).cons _
  | ⟨_, .type _⟩ :: l => (placedSegments_ids root l).cons _

theorem Finding.entry?_of_segment? {f : Finding} {p : SegmentUse × NodeId}
    (h : f.segment? = some p) : f.entry? = some (p.1.node.id, p.2) := by
  cases f <;> cases h
  rfl

namespace Crate.SecondPass

variable {c : Crate} {settings : Settings} {s : Session} (hwf : c.WellFormed)
  (hs : c.SecondPass (c.registered settings) s)

include hwf hs

/-- The segments that findings are about are, in order, those of the crate that are resolved. -/
theorem resolvedSegments :
    (c.read (c.registered settings)).findings.filterMap Finding.segment? =
      (placedSegments c.node.id c.sites).filterMap fun u =>
        (s.tables.resolved? u.node.id).map (u, ·) := by
  have hpass := c.firstPass hwf settings
  have horder := c.inOrder (c.registered settings)
  rw [← hpass.root]
  have hnodup := c.nodup_sites hwf
  have hkeys := hnodup.sublist (placedSegments_ids (c.registered settings).root c.sites)
  refine eq_filterMap_of_sublist horder.segments hkeys.of_map (fun p hp => ?_) fun u hu hnot => ?_
  · obtain ⟨f, hf, hsegment⟩ := List.mem_filterMap.mp hp
    exact hs.resolved?_of_found hwf hpass hf (Finding.entry?_of_segment? hsegment)
  · refine hs.resolved?_of_no_entry hpass fun f hf decl hentry => ?_
    cases f with
    | segment space node name decl here =>
        have hfound : (⟨node, name, here⟩ : SegmentUse) ∈
            segmentUses (c.read (c.registered settings)).findings :=
          List.mem_map.mpr ⟨(⟨node, name, here⟩, decl),
            List.mem_filterMap.mpr ⟨_, hf, rfl⟩, rfl⟩
        have hsame : (⟨node, name, here⟩ : SegmentUse) = u :=
          List.inj_on_of_nodup_map hkeys (horder.segments.subset hfound) hu
            (congrArg Prod.fst (Option.some.inj hentry))
        exact hnot (hsame ▸ hfound)
    | resolved space use decl =>
        exact (horder.others space use decl hf).node_ne hnodup hu
          (congrArg Prod.fst (Option.some.inj hentry))
    | qualified use path => cases hentry
    | error e => cases hentry
    | visit path prefer env outcome => cases hentry

/-- What the tables say of a declaration that is to be seen from a module is what the tree says. -/
theorem isVisible_of_chained {module : NodeId} {around : List NodeId}
    (hchain : Chained (c.registered settings).tables.parents.get? (module :: around))
    {decl : NodeId} {d : DeclVisibility} (hd : c.visibilityOf? settings decl = some d) :
    s.tables.isVisible d module = c.sees (module :: around) d := by
  have hwithin : s.tables.visibleWithin d = c.visibleWithin d := by
    rw [← c.visibleWithin_registered hwf settings hd]
    unfold Tables.visibleWithin
    rw [hs.tables.parents]
  have henclosing := (hs.tables.enclosing module).trans (Tables.enclosing_eq hchain)
  unfold Tables.isVisible sees Tables.isWithin
  rw [hwithin]
  cases c.visibleWithin d <;> simp only [henclosing]

/-- What the tables say of a use is what the tree says. -/
theorem isVisible_eq {x : PlacedSite} (hx : x ∈ c.sites) {decl : NodeId} {d : DeclVisibility}
    (hd : c.visibilityOf? settings decl = some d) :
    s.tables.isVisible d (x.modules.headD c.node.id) = c.sees x.modules d := by
  have hchain := c.chained_site hwf settings hx
  cases hmodules : x.modules with
  | nil => rw [hmodules] at hchain; cases hchain
  | cons module around => exact hs.isVisible_of_chained hwf (hmodules ▸ hchain) hd

/-- The use sites that are looked at are the segments that findings are about. Those of a
declaration without a visibility are no use sites, and would not be reported. -/
theorem privateUses_eq_findings :
    s.tables.privateUses =
      ((c.read (c.registered settings)).findings.filterMap Finding.segment?).filterMap fun p =>
        s.tables.privateUse? ⟨p.1.node.id, p.2, p.1.here, p.1.name, p.1.node.span⟩ := by
  unfold Tables.privateUses
  rw [hs.useSites (c.firstPass hwf settings), List.filterMap_filterMap, List.filterMap_filterMap]
  refine List.filterMap_congr fun f _ => ?_
  cases f with
  | segment space node name decl here =>
      have hsame : s.tables.visibilities = (c.registered settings).tables.visibilities :=
        hs.tables.visibilities
      simp only [Finding.useSite?, Finding.segment?, Option.bind_some]
      cases hd : (c.registered settings).tables.visibilities.get? decl with
      | none => simp [Tables.privateUse?, hsame, hd]
      | some d => rfl
  | resolved space use decl => rfl
  | qualified use path => rfl
  | error e => rfl
  | visit path prefer env outcome => rfl

/-- The use sites that are reported are those that the tree says cannot see their declaration. -/
theorem privateUses_eq {r : ResolvedCrate} (htables : r.tables = s.tables) :
    s.tables.privateUses = c.sites.filterMap (c.hiddenUse? settings r) := by
  rw [hs.privateUses_eq_findings hwf, hs.resolvedSegments hwf, List.filterMap_filterMap]
  unfold placedSegments
  rw [List.filterMap_filterMap]
  refine List.filterMap_congr fun x hx => ?_
  have hvisible : ∀ decl d, c.visibilityOf? settings decl = some d →
      s.tables.isVisible d (x.modules.headD c.node.id) = c.sees x.modules d :=
    fun _ _ hd => hs.isVisible_eq hwf hx hd
  obtain ⟨modules, site⟩ := x
  cases site with
  | path p gates => rfl
  | type use => rfl
  | segment seg =>
      simp only [PlacedSite.segment?, hiddenUse?, Option.bind_some, ResolvedCrate.declarationOf?,
        htables]
      cases s.tables.resolved? seg.node.id with
      | none => rfl
      | some decl =>
          simp only [Tables.privateUse?, hs.tables.visibilities,
            c.visibilities_registered hwf settings, Option.map_some, Option.bind_some,
            Option.bind_eq_bind]
          cases hd : c.visibilityOf? settings decl with
          | none => rfl
          | some d => simp only [hvisible decl d hd, Option.bind_some]

end Crate.SecondPass

/-! ### Whole crates -/

/-- **The report on privacy is exact.** If uses are to be checked and all errors are kept, resolving
a well-formed crate reports the uses of declarations that cannot be seen after everything else: in
order, one error for each segment of the crate that was resolved to a declaration with a visibility
which the modules around the segment may not see. That visibility is the one with which it was
declared, which for a variant or a trait item is the one of its enum or trait. -/
theorem Crate.private_uses_exact {c : Crate} (hwf : c.WellFormed) {settings : Settings}
    (hprivacy : settings.checkPrivacy = true) (hlimit : settings.maxDiagnostics = 0) :
    ∃ r others, c.resolve settings = .ok r ∧
      r.errors = others ++ c.sites.filterMap (c.hiddenUse? settings r) ∧
      (∀ e ∈ others, e.isPrivate = false) ∧
      ∀ a ∈ c.attempts settings, c.visibilityOf? settings a.id = a.visibility? ∧
        ∀ b ∈ c.attempts settings, a.container = some b.id → b.kind ≠ some .module →
          a.vis = b.vis ∧ a.module = b.module := by
  have hnested := c.nested hwf settings
  have hpass := c.firstPass hwf settings
  obtain ⟨s, r, h⟩ := c.exists_outcome hwf settings
  refine ⟨r, s.errors.reported, h.resolve, ?_, fun e he => ?_, fun a ha => ⟨?_, fun b hb => ?_⟩⟩
  · rw [h.errors hlimit, if_pos hprivacy, h.secondPass.privateUses_eq hwf h.tables]
  · rw [h.secondPass.reported, List.mem_append, List.mem_filterMap] at he
    rcases he with he | ⟨f, hf, herror⟩
    · cases e with
      | privateItem name span declared => exact nomatch hpass.unchecked _ he
      | _ => rfl
    · exact (c.inOrder (c.registered settings)).errors f hf e herror
  · unfold visibilityOf?
    cases hfind : (c.attempts settings).find? fun b => decide (b.id = a.id) with
    | none => exact absurd (decide_eq_true rfl) (List.find?_eq_none.mp hfind a ha)
    | some b =>
        have hid := List.find?_some hfind
        rw [hnested.eq_of_id (List.mem_of_find?_eq_some hfind) ha (of_decide_eq_true hid)]
        rfl
  · exact hnested.sameVis ha hb

/-- A module `a` with a private module `b` inside it that declares a struct `S` for its parent. Both
`a` and the crate root have an alias for the struct. -/
def Crate.withHiddenStruct : Crate where
  node := ⟨⟨0⟩, ⟨0, 60⟩⟩
  items :=
    let node (id offset : Nat) : Node := ⟨⟨id⟩, ⟨offset, 1⟩⟩
    let name (text : String) (offset : Nat) : Ident := ⟨text, ⟨offset, 1⟩⟩
    let segment (id offset : Nat) (text : String) : PathSegment :=
      ⟨node id offset, .ident text, none⟩
    let typeAlias (id offset : Nat) (text : String) (segments : List PathSegment) : Item :=
      ⟨node id offset, .ownModule, .typeAlias ⟨name text offset, .none,
        .path (node (id + 1) offset) ⟨node (id + 2) offset, segments⟩⟩⟩
    [⟨node 1 0, .ownModule, .module (name "a" 2)
        [⟨node 2 4, .ownModule, .module (name "b" 6)
          [⟨node 3 8, .parentModule, .struct ⟨name "S" 10, .none, []⟩⟩]⟩,
        typeAlias 4 12 "Inside" [segment 7 14 "b", segment 8 16 "S"]]⟩,
      typeAlias 9 20 "Outside" [segment 12 22 "a", segment 13 24 "b", segment 14 26 "S"]]
  idBound := ⟨15⟩

/-- Both segments after the first one cannot be seen from the crate root. -/
theorem Crate.private_uses_withHiddenStruct :
    withHiddenStruct.WellFormed ∧ ∃ r others,
      withHiddenStruct.resolve {} = .ok r ∧
      r.errors = others ++ [.privateItem "b" ⟨24, 1⟩ ⟨6, 1⟩, .privateItem "S" ⟨26, 1⟩ ⟨10, 1⟩] ∧
      ∀ e ∈ others, e.isPrivate = false := by
  have hwf : withHiddenStruct.WellFormed := by decide
  obtain ⟨r, others, hr, herrors, hothers, -⟩ :=
    @private_uses_exact withHiddenStruct hwf {} rfl rfl
  have hrun : (withHiddenStruct.resolve {}).toOption.map (fun r =>
      withHiddenStruct.sites.filterMap (withHiddenStruct.hiddenUse? {} r)) =
        some [.privateItem "b" ⟨24, 1⟩ ⟨6, 1⟩, .privateItem "S" ⟨26, 1⟩ ⟨10, 1⟩] := by
    decide +kernel
  rw [hr] at hrun
  exact ⟨hwf, r, others, hr, Option.some.inj hrun ▸ herrors, hothers⟩

end NameResolution
