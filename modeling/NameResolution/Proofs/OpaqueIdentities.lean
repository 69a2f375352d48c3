import NameResolution.Proofs.ReportSettings
import NameResolution.Proofs.RelabelledPasses

/-!
# NameResolution.Proofs.OpaqueIdentities

**Identities are opaque** (`Crate.resolve_renamed`). A crate whose identities are replaced
one for one is resolved to the result of the crate itself with the same identities
replaced, and with the same errors; the built-in types, which take their identities from the
bound on, correspond to each other.

A run over a relabelled crate ends in the relabelled session (`Crate.exists_relabelled_ending`).
That needs a relabelling which keeps *all* identities apart, while a renaming need only keep
apart those of the crate. `Crate.extendRenaming` extends it: identities of built-in types go to
identities of built-in types, and what occurs nowhere goes beyond them.
-/

namespace NameResolution

open Resolution

variable {ρ : Relabelling} {c : Crate} {settings : Settings}

/-! ### The start of a resolution -/

/-- The number of identities that are taken for the built-in types and the prelude. -/
def Builtins.count : Nat := primitiveNames.length + 4

/-- The identities of the built-in types go to those that are taken from another bound. -/
def Relabelling.ShiftsBuiltins (ρ : Relabelling) (old new : NodeId) : Prop :=
  ∀ i < Builtins.count, ρ.node ⟨old.value + i⟩ = ⟨new.value + i⟩

theorem Builtins.relabel_allocate {old new : NodeId} (h : ρ.ShiftsBuiltins old new) :
    (allocate (.startingAt old)).1.relabel ρ = (allocate (.startingAt new)).1 := by
  have hnode (i : Nat) (hi : i < count) : ρ.node ⟨old.value + i⟩ = ⟨new.value + i⟩ := h i hi
  have hprimitives : (List.range primitiveNames.length).map (fun i => ρ.node ⟨old.value + i⟩) =
      (List.range primitiveNames.length).map fun i => ⟨new.value + i⟩ :=
    List.map_congr_left fun i hi =>
      hnode i (Nat.lt_of_lt_of_le (List.mem_range.mp hi) (Nat.le_add_right _ 4))
  unfold allocate relabel
  simp only [IdSupply.freshMany, IdSupply.fresh, IdSupply.startingAt, IdSupply.bound]
  rw [← List.zip_map_right, List.map_map]
  simp only [Function.comp_def, hprimitives, Nat.add_assoc]
  rw [hnode _ (by decide), hnode _ (by decide), hnode _ (by decide), hnode _ (by decide)]

theorem Session.start_relabel {bound : NodeId} (h : ρ.ShiftsBuiltins c.idBound bound) :
    Session.start (c.relabel ρ bound) settings = (Session.start c settings).relabel ρ := by
  have hbuiltins := Builtins.relabel_allocate h
  have hroot : Session.rootPathFor (c.relabel ρ bound) settings =
      (Session.rootPathFor c settings).relabel ρ := by
    unfold Session.rootPathFor
    rw [apply_ite (CanonicalPath.relabel ρ)]
    rfl
  unfold Session.start Session.relabel
  rw [hroot, hbuiltins]
  rfl

/-! ### The privacy check -/

/-- As long as visibilities stay as they are, so do the uses that are not allowed. -/
theorem Tables.privateUses_relabel (hρ : Function.Injective ρ.node) (hvis : ρ.vis = id)
    (t : Tables) : (t.relabel ρ).privateUses = t.privateUses := by
  have hvisible (d : DeclVisibility) (module : NodeId) :
      (t.relabel ρ).isVisible (d.relabel ρ) (ρ.node module) = t.isVisible d module := by
    obtain ⟨vis, home, span⟩ := d
    have hparent : ((t.relabel ρ).parents.get? (ρ.node home)).getD (ρ.node home) =
        ρ.node ((t.parents.get? home).getD home) := by
      rw [t.get?_parents_relabel hρ]
      cases t.parents.get? home <;> rfl
    unfold isVisible visibleWithin
    simp only [DeclVisibility.relabel, hvis, id_eq]
    cases vis with
    | everywhere | ownCrate => rfl
    | ownModule => exact t.isWithin_relabel hρ module home
    | parentModule =>
        simp only [hparent]
        exact t.isWithin_relabel hρ module _
  have hsite (site : UseSite) :
      (t.relabel ρ).privateUse? (site.relabel ρ) = t.privateUse? site := by
    have hget : (t.relabel ρ).visibilities.get? (site.relabel ρ).decl =
        (t.visibilities.get? site.decl).map (DeclVisibility.relabel ρ) :=
      t.get?_visibilities_relabel hρ site.decl
    unfold privateUse?
    rw [hget]
    cases t.visibilities.get? site.decl with
    | none => rfl
    | some d =>
        simp only [Option.map_some]
        rw [show (site.relabel ρ).module = ρ.node site.module from rfl, hvisible]
        rfl
  unfold privateUses
  have hsites : (t.relabel ρ).useSites = t.useSites.map (UseSite.relabel ρ) := rfl
  rw [hsites, List.filterMap_map]
  exact List.filterMap_congr fun site _ => hsite site

/-! ### A whole run -/

namespace Crate

/-- Resolving a relabelled crate ends as resolving the crate itself does, in the relabelled
session. Only the uses that are not allowed may be others. -/
theorem exists_relabelled_ending (hwf : c.WellFormed) {bound : NodeId}
    (hwf' : (c.relabel ρ bound).WellFormed) (hρ : Function.Injective ρ.node)
    (hshift : ρ.ShiftsBuiltins c.idBound bound) (settings : Settings) :
    ∃ s errors errors', c.SecondPass (c.registered settings) s ∧
      c.resolve settings = .ok (Session.finish { s with errors }) ∧
      (c.relabel ρ bound).resolve settings =
        .ok (Session.finish { s.relabel ρ with errors := errors' }) ∧
      errors.limit = settings.maxDiagnostics ∧ errors'.limit = settings.maxDiagnostics ∧
      errors.reported =
        s.errors.reported ++ (if settings.checkPrivacy then s.tables.privateUses else []) ∧
      errors'.reported = s.errors.reported ++
        (if settings.checkPrivacy then (s.tables.relabel ρ).privateUses else []) := by
  obtain ⟨s, errors, hrun, hs, hend, hlimit, hreported⟩ := c.exists_ending hwf settings
  obtain ⟨s', errors', hrun', -, hend', hlimit', hreported'⟩ :=
    (c.relabel ρ bound).exists_ending hwf' settings
  have hpasses : SameAnswer ρ (do seed; c.declare) (do seed; (c.relabel ρ bound).declare) :=
    (Relabelling.seed hρ).bind_eq fun _ => Relabelling.crate_declare hρ c bound
  obtain ⟨hregistered, -⟩ := hpasses (Session.start_relabel hshift)
    (c.runs_firstPass hwf settings) ((c.relabel ρ bound).runs_firstPass hwf' settings)
  obtain ⟨rfl, -⟩ := Relabelling.crate_resolveItems hρ c bound hregistered hrun hrun'
  exact ⟨s, errors, errors', hs, resolve_of_runs hend, resolve_of_runs hend', hlimit, hlimit',
    hreported, hreported'⟩

/-! ### Renamings -/

/-- The crate with other identities, and with another bound. -/
def renamed (c : Crate) (f : NodeId → NodeId) (bound : NodeId) : Crate :=
  c.relabel ⟨f, id⟩ bound

/-- A renaming of the identities of a crate, extended to all identities. The built-in types keep
their distance to the bound. -/
def extendRenaming (c : Crate) (f : NodeId → NodeId) (bound : NodeId) (id : NodeId) : NodeId :=
  if id ∈ c.nodeIds then f id
  else if c.idBound.value ≤ id.value ∧ id.value < c.idBound.value + Builtins.count then
    ⟨bound.value + (id.value - c.idBound.value)⟩
  else ⟨bound.value + Builtins.count + id.value⟩

section Renaming

variable {f : NodeId → NodeId} {bound : NodeId}

theorem extendRenaming_of_mem {id : NodeId} (h : id ∈ c.nodeIds) :
    c.extendRenaming f bound id = f id :=
  if_pos h

theorem extendRenaming_shiftsBuiltins (hwf : c.WellFormed) :
    Relabelling.ShiftsBuiltins ⟨c.extendRenaming f bound, id⟩ c.idBound bound := by
  intro i hi
  have hnew : (⟨c.idBound.value + i⟩ : NodeId) ∉ c.nodeIds := fun hmem =>
    Nat.not_lt.mpr (Nat.le_add_right c.idBound.value i) (hwf.2 _ hmem)
  simp only [extendRenaming, if_neg hnew]
  rw [if_pos ⟨Nat.le_add_right _ i, Nat.add_lt_add_left hi _⟩, Nat.add_sub_cancel_left]

/-- A renaming that keeps the identities of a crate apart, and below the new bound, keeps all of
them apart once it is extended. -/
theorem extendRenaming_injective
    (hinj : ∀ id ∈ c.nodeIds, ∀ id' ∈ c.nodeIds, f id = f id' → id = id')
    (hbound : ∀ id ∈ c.nodeIds, (f id).value < bound.value) :
    Function.Injective (c.extendRenaming f bound) := by
  rintro ⟨id⟩ ⟨id'⟩ h
  have hvalue := congrArg NodeId.value h
  unfold extendRenaming at h hvalue
  by_cases hmem : (⟨id⟩ : NodeId) ∈ c.nodeIds <;> by_cases hmem' : (⟨id'⟩ : NodeId) ∈ c.nodeIds
  · rw [if_pos hmem, if_pos hmem'] at h
    exact hinj _ hmem _ hmem' h
  · have hlt := hbound _ hmem
    rw [if_pos hmem, if_neg hmem'] at hvalue
    split at hvalue <;> simp only at hvalue <;> omega
  · have hlt := hbound _ hmem'
    rw [if_neg hmem, if_pos hmem'] at hvalue
    split at hvalue <;> simp only at hvalue <;> omega
  · rw [if_neg hmem, if_neg hmem'] at hvalue
    refine congrArg NodeId.mk ?_
    split at hvalue <;> split at hvalue <;> simp only at * <;> omega

end Renaming

/-- **Identities are opaque.** Let `f` keep the identities of a well-formed crate apart, and let all
of these go below a new bound. Then the crate is resolved, and the renamed crate to the renamed
result: the same errors are kept, and everything else is the same up to a one-to-one renaming that
agrees with `f` on the crate and that takes the identities of the built-in types, counted from one
bound, to those counted from the other. -/
theorem resolve_renamed (hwf : c.WellFormed) (f : NodeId → NodeId) (bound : NodeId)
    (hinj : ∀ id ∈ c.nodeIds, ∀ id' ∈ c.nodeIds, f id = f id' → id = id')
    (hbound : ∀ id ∈ c.nodeIds, (f id).value < bound.value) (settings : Settings) :
    ∃ g : NodeId → NodeId, Function.Injective g ∧ (∀ id ∈ c.nodeIds, g id = f id) ∧
      (∀ i < Builtins.count, g ⟨c.idBound.value + i⟩ = ⟨bound.value + i⟩) ∧
      ∃ r, c.resolve settings = .ok r ∧
        (c.renamed f bound).resolve settings = .ok (r.relabel ⟨g, id⟩) := by
  let g := c.extendRenaming f bound
  have hg : Function.Injective g := extendRenaming_injective hinj hbound
  have hshift : Relabelling.ShiftsBuiltins ⟨g, id⟩ c.idBound bound :=
    extendRenaming_shiftsBuiltins hwf
  have hagree : Relabelling.AgreeOn ⟨f, id⟩ ⟨g, id⟩ c.nodeIds :=
    ⟨rfl, fun _ hid => (extendRenaming_of_mem hid).symm⟩
  have hrenamed : c.renamed f bound = c.relabel ⟨g, id⟩ bound := c.relabel_congr bound hagree
  have hwf' : (c.relabel ⟨g, id⟩ bound).WellFormed :=
    hrenamed ▸ hwf.relabel ⟨f, id⟩ hinj hbound
  refine ⟨g, hg, fun _ hid => extendRenaming_of_mem hid, hshift, ?_⟩
  obtain ⟨s, errors, errors', -, hr, hr', hlimit, hlimit', hreported, hreported'⟩ :=
    exists_relabelled_ending hwf hwf' hg hshift settings
  rw [Tables.privateUses_relabel hg rfl, ← hreported] at hreported'
  have herrors : errors' = errors :=
    congrArg₂ Collector.mk (hlimit'.trans hlimit.symm) hreported'
  refine ⟨_, hr, ?_⟩
  rw [hrenamed, hr', herrors]
  rfl

/-- Counted backwards, the identities lead to the same two uses that are not allowed. -/
theorem resolve_renamed_withHiddenStruct :
    withHiddenStruct.WellFormed ∧ ∃ g r, g ⟨14⟩ = ⟨6⟩ ∧ g ⟨15⟩ = ⟨30⟩ ∧
      withHiddenStruct.resolve {} = .ok r ∧
      (withHiddenStruct.renamed (fun id => ⟨20 - id.value⟩) ⟨30⟩).resolve {} =
        .ok (r.relabel ⟨g, id⟩) ∧
      r.errors = [.privateItem "b" ⟨24, 1⟩ ⟨6, 1⟩, .privateItem "S" ⟨26, 1⟩ ⟨10, 1⟩] := by
  have hwf : withHiddenStruct.WellFormed := by decide
  obtain ⟨g, -, hg, hbuiltins, r, hr, hr'⟩ :=
    resolve_renamed hwf (fun id => ⟨20 - id.value⟩) ⟨30⟩ (by decide) (by decide) {}
  refine ⟨hwf, g, r, hg ⟨14⟩ (by decide), hbuiltins 0 (by decide), hr, hr', ?_⟩
  exact of_resolve hr (by decide +kernel)

end Crate

end NameResolution
