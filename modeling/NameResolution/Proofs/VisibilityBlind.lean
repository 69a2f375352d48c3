import NameResolution.Proofs.OpaqueIdentities

/-!
# NameResolution.Proofs.VisibilityBlind

**Visibility never influences what a name is resolved to**
(`Crate.visibility_decides_reports_alone`). Two crates that are the same once everything in
them can be seen everywhere (`Crate.unrestricted`) have the same result, apart from the
visibilities that are noted and from the errors about uses that are not allowed.

Making everything visible is a relabelling that replaces no identity, so both results are
compared with that of the unrestricted crate.
-/

namespace NameResolution

/-- No identity is replaced, and everything can be seen everywhere. -/
def Relabelling.unrestricted : Relabelling := ⟨id, fun _ => .everywhere⟩

/-- The crate in which everything can be seen everywhere. -/
def Crate.unrestricted (c : Crate) : Crate := c.relabel .unrestricted c.idBound

/-! ### Results without visibilities -/

/-- What is entered under each identity, without visibilities: where each declaration lives and
where its name is. -/
def Tables.homes (t : Tables) : List (NodeId × NodeId × Span) :=
  t.visibilities.entries.map fun (id, d) => (id, d.module, d.span)

theorem CanonicalPath.relabel_unrestricted (p : CanonicalPath) : p.relabel .unrestricted = p :=
  congrArg CanonicalPath.mk (List.map_id p.segments)

theorem Register.relabel_unrestricted {α : Type} {f : α → α} (hf : ∀ a, f a = a)
    (r : Register α) : r.relabel .unrestricted f = r :=
  congrArg Register.mk
    (List.map_id'' (fun entry => congrArg (entry.1, ·) (hf entry.2)) r.entries)

theorem Builtins.relabel_unrestricted (b : Builtins) : b.relabel .unrestricted = b :=
  congrArg (fun primitives => { b with primitives })
    (List.map_id'' (fun _ => rfl) b.primitives)

/-- Apart from visibilities, tables stay as they are when everything is made visible. -/
theorem Tables.relabel_unrestricted (t : Tables) :
    t.relabel .unrestricted =
      { t with visibilities := (t.relabel .unrestricted).visibilities } := by
  unfold relabel
  rw [Tables.mk.injEq]
  exact ⟨t.paths.relabel_unrestricted CanonicalPath.relabel_unrestricted,
    t.parents.relabel_unrestricted fun _ => rfl, List.map_id'' (fun _ => rfl) t.nested,
    List.map_id'' (fun _ => rfl) t.childEntries, t.containers.relabel_unrestricted fun _ => rfl,
    t.names.relabel_unrestricted fun _ => rfl, t.types.relabel_unrestricted fun _ => rfl,
    t.qualified.relabel_unrestricted CanonicalPath.relabel_unrestricted, rfl,
    List.map_id'' (fun _ => rfl) t.useSites⟩

/-- Making everything visible does not change where a declaration lives. -/
theorem Tables.homes_relabel_unrestricted (t : Tables) :
    (t.relabel .unrestricted).homes = t.homes :=
  List.map_map

/-- Tables that are the same once everything is made visible are the same apart from
visibilities. -/
theorem Tables.eq_of_relabel_unrestricted {t t' : Tables}
    (h : t'.relabel .unrestricted = t.relabel .unrestricted) :
    t' = { t with visibilities := t'.visibilities } ∧ t'.homes = t.homes := by
  refine ⟨?_, ?_⟩
  · rw [t.relabel_unrestricted, t'.relabel_unrestricted, Tables.mk.injEq] at h
    obtain ⟨hpaths, hparents, hnested, hchildren, hcontainers, hnames, htypes, hqualified, -,
      hsites⟩ := h
    rw [Tables.mk.injEq]
    exact ⟨hpaths, hparents, hnested, hchildren, hcontainers, hnames, htypes, hqualified, rfl,
      hsites⟩
  · rw [← t.homes_relabel_unrestricted, ← t'.homes_relabel_unrestricted, h]

/-! ### Two crates -/

namespace Crate

variable {c c' : Crate} {settings : Settings}

/-- Visibilities have no part in whether a crate is well formed. -/
theorem wellFormed_unrestricted : c.unrestricted.WellFormed ↔ c.WellFormed := by
  have hids : c.unrestricted.nodeIds = c.nodeIds :=
    (c.nodeIds_relabel .unrestricted c.idBound).trans (List.map_id _)
  unfold WellFormed
  rw [hids]
  rfl

/-- A crate is resolved as its unrestricted version is, but for visibilities and for the errors
about them. -/
theorem exists_resolve_unrestricted (hwf : c.WellFormed) (hall : settings.maxDiagnostics = 0) :
    ∃ r ru, c.resolve settings = .ok r ∧ c.unrestricted.resolve settings = .ok ru ∧
      ru.root = r.root ∧ ru.builtins = r.builtins ∧
      ru.tables = r.tables.relabel .unrestricted ∧ r.dropped = 0 ∧
      ru.errors.filter (!·.isPrivate) = r.errors.filter (!·.isPrivate) := by
  obtain ⟨s, errors, errors', hs, hr, hr', hlimit, hlimit', hreported, hreported'⟩ :=
    exists_relabelled_ending hwf (wellFormed_unrestricted.mpr hwf) Function.injective_id
      (fun _ _ => rfl) settings
  have hkept := Collector.kept_eq_reported (hlimit.trans hall)
  have hkept' := Collector.kept_eq_reported (hlimit'.trans hall)
  -- Whatever the privacy check reports is left out again.
  have hprivate (t : Tables) :
      (if settings.checkPrivacy then t.privateUses else []).filter (!·.isPrivate) = [] := by
    split
    · exact List.filter_eq_nil_iff.mpr fun e he => by
        simp [Tables.isPrivate_of_privateUses he]
    · rfl
  refine ⟨_, _, hr, hr', rfl, s.builtins.relabel_unrestricted, rfl,
    Collector.dropped_eq_zero (hlimit.trans hall), ?_⟩
  change errors'.kept.filter _ = errors.kept.filter _
  rw [hkept, hkept', hreported, hreported', List.filter_append, List.filter_append, hprivate,
    hprivate]

/-- **Visibility never influences what a name is resolved to.** Two crates that differ in nothing
but visibilities are both resolved, a well-formed one to the same tables as the other, the
visibilities in them apart, and if all errors are kept, to the same errors, those about uses that
are not allowed apart. -/
theorem visibility_decides_reports_alone (hwf : c.WellFormed)
    (hsame : c.unrestricted = c'.unrestricted) (hall : settings.maxDiagnostics = 0) :
    ∃ r r', c.resolve settings = .ok r ∧ c'.resolve settings = .ok r' ∧
      r'.root = r.root ∧ r'.builtins = r.builtins ∧
      r'.tables = { r.tables with visibilities := r'.tables.visibilities } ∧
      r'.tables.homes = r.tables.homes ∧ r.dropped = 0 ∧ r'.dropped = 0 ∧
      r'.errors.filter (!·.isPrivate) = r.errors.filter (!·.isPrivate) := by
  have hwf' : c'.WellFormed :=
    wellFormed_unrestricted.mp (hsame ▸ wellFormed_unrestricted.mpr hwf)
  obtain ⟨r, ru, hr, hru, hroot, hbuiltins, htables, hdropped, herrors⟩ :=
    exists_resolve_unrestricted hwf hall
  obtain ⟨r', ru', hr', hru', hroot', hbuiltins', htables', hdropped', herrors'⟩ :=
    exists_resolve_unrestricted hwf' hall
  obtain rfl : ru = ru' := Except.ok.inj (hru.symm.trans (hsame ▸ hru'))
  obtain ⟨heq, hhomes⟩ := Tables.eq_of_relabel_unrestricted (htables'.symm.trans htables)
  exact ⟨r, r', hr, hr', hroot'.symm.trans hroot, hbuiltins'.symm.trans hbuiltins, heq, hhomes,
    hdropped, hdropped', herrors'.symm.trans herrors⟩

/-- With everything visible the two uses are allowed, and they lead to the same struct as before. -/
theorem visibility_withHiddenStruct :
    withHiddenStruct.WellFormed ∧
      withHiddenStruct.unrestricted = withHiddenStruct.unrestricted.unrestricted ∧
      ∃ r r', withHiddenStruct.resolve {} = .ok r ∧
        withHiddenStruct.unrestricted.resolve {} = .ok r' ∧
        r'.tables.types = r.tables.types ∧ r'.tables.useSites = r.tables.useSites ∧
        r.errors = [.privateItem "b" ⟨24, 1⟩ ⟨6, 1⟩, .privateItem "S" ⟨26, 1⟩ ⟨10, 1⟩] ∧
        r'.errors = [] := by
  have hwf : withHiddenStruct.WellFormed := by decide
  have hsame : withHiddenStruct.unrestricted = withHiddenStruct.unrestricted.unrestricted := rfl
  obtain ⟨r, r', hr, hr', -, -, htables, -⟩ :=
    @visibility_decides_reports_alone _ _ {} hwf hsame rfl
  have htypes := congrArg Tables.types htables
  have hsites := congrArg Tables.useSites htables
  exact ⟨hwf, hsame, r, r', hr, hr', htypes, hsites, of_resolve hr (by decide +kernel),
    of_resolve hr' (by decide +kernel)⟩

end Crate

end NameResolution
