import NameResolution.Proofs.Lexical.Visits

/-!
# NameResolution.Proofs.Lexical.Lookups

**Which paths are looked up, and from where.** A path is looked up where it stands: from
inside the modules around its site (`Crate.exists_looksUp_of_visit`). A path in the arguments
of another one, or in a path that starts from a type, is behind a gate, and the second pass
may turn back before it gets there. Every other path is looked up
(`Crate.exists_looksUp_of_open`).
-/

namespace NameResolution

/-- The second pass looks up the path at a site, in an environment and with one of the namespaces
preferred. -/
structure Crate.LooksUp (c : Crate) (settings : Settings) (x : PlacedSite) (p : Path)
    (prefer : Namespace) (env : Env) : Prop where
  mem_sites : x ∈ c.sites
  site : ∃ gates, x.site = .path p gates
  modules : env.modules = x.modules
  visit : ∃ outcome, .visit p prefer env outcome ∈ (c.read (c.registered settings)).findings

/-- Wherever a path is visited, it is looked up. -/
theorem Crate.exists_looksUp_of_visit {c : Crate} {settings : Settings} {p : Path}
    {prefer : Namespace} {env : Env} {outcome : Option Meaning}
    (h : .visit p prefer env outcome ∈ (c.read (c.registered settings)).findings) :
    ∃ x, c.LooksUp settings x p prefer env := by
  obtain ⟨-, x, hx, hmodules, hsite⟩ :=
    (c.visits (c.registered settings)).visits p prefer env outcome h
  exact ⟨x, hx, hsite, hmodules.symm, outcome, h⟩

/-- The node and the spelling of the path that a finding visits, with what it is looked up in. -/
def Finding.visited? : Finding → Option (NodeId × List PathIdent × Namespace × Env)
  | .visit p prefer env _ => some (p.node.id, p.segments.map PathSegment.ident, prefer, env)
  | .segment _ _ _ _ _ | .resolved _ _ _ | .qualified _ _ | .error _ => none

/-! ### Paths that are behind no gate -/

section Open

variable {p : Path} {gate : Gate}

theorem Site.behind_ne_open (s : Site) : s.behind gate ≠ .path p [] := by
  cases s <;> simp [behind]

theorem PathSegment.sites_ne_open (seg : PathSegment) : ∀ s ∈ seg.sites gate, s ≠ .path p [] := by
  intro s hs
  rw [seg.sites_eq] at hs
  rcases List.mem_append.mp hs with hs | hs
  · obtain ⟨inner, -, rfl⟩ := List.mem_map.mp hs
    exact inner.behind_ne_open
  · rw [List.mem_singleton.mp hs]
    simp

theorem segmentsSites_ne_open (segments before : List PathSegment) :
    ∀ s ∈ segmentsSites before segments, s ≠ .path p [] := by
  induction segments generalizing before with
  | nil => simp [segmentsSites]
  | cons seg rest ih =>
      intro s hs
      rcases List.mem_append.mp hs with hs | hs
      · exact seg.sites_ne_open s hs
      · exact ih (before ++ [seg]) s hs

theorem appendedSites_ne_open (segments : List PathSegment) :
    ∀ s ∈ appendedSites gate segments, s ≠ .path p [] := by
  induction segments with
  | nil => simp [appendedSites]
  | cons seg rest ih =>
      intro s hs
      rcases List.mem_append.mp hs with hs | hs
      · exact seg.sites_ne_open s hs
      · exact ih s hs

/-- Only the path itself is behind no gate. -/
theorem Path.eq_of_open {q : Path} (h : .path p [] ∈ q.sites) : p = q := by
  obtain ⟨node, segments⟩ := q
  rcases List.mem_append.mp h with h | h
  · exact absurd rfl (segmentsSites_ne_open segments [] _ h)
  · cases List.mem_singleton.mp h
    rfl

/-- Behind no gate there is only what belongs to the type that the path starts from. -/
theorem QualifiedPath.mem_selfTy_sites_of_open {q : QualifiedPath} (h : .path p [] ∈ q.sites) :
    .path p [] ∈ q.qualifier.selfTy.sites := by
  obtain ⟨node, ⟨head, selfTy, asTrait⟩, associated, rest⟩ := q
  rcases List.mem_append.mp h with h | h
  · cases asTrait with
    | none => exact h
    | some traitPath =>
        rcases List.mem_append.mp h with h | h
        · exact h
        · obtain ⟨inner, -, hinner⟩ := List.mem_map.mp h
          exact absurd hinner inner.behind_ne_open
  · rcases List.mem_append.mp h with h | h
    · exact absurd rfl (associated.sites_ne_open _ h)
    · exact absurd rfl (appendedSites_ne_open rest _ h)

end Open

/-- The paths behind no gate are visited, in the modules around them. -/
def VisitsOpen {α : Type} (r : Reading α) (l : List PlacedSite) : Prop :=
  ∀ x ∈ l, ∀ p, x.site = .path p [] →
    ∃ prefer env outcome, .visit p prefer env outcome ∈ r.findings ∧ env.modules = x.modules

namespace VisitsOpen

variable {α β : Type} {r : Reading α} {next : α → Reading β} {l l₁ l₂ : List PlacedSite}

theorem mono {r' : Reading β} (h : VisitsOpen r l) (hfindings : r.findings ⊆ r'.findings) :
    VisitsOpen r' l := by
  intro x hx p hsite
  obtain ⟨prefer, env, outcome, hvisit, hmodules⟩ := h x hx p hsite
  exact ⟨prefer, env, outcome, hfindings hvisit, hmodules⟩

theorem bind (h₁ : VisitsOpen r l₁) (h₂ : VisitsOpen (next r.value) l₂) :
    VisitsOpen (r >>= next) (l₁ ++ l₂) := by
  intro x hx
  rcases List.mem_append.mp hx with hx | hx
  · exact h₁.mono (List.subset_append_left _ _) x hx
  · exact h₂.mono (List.subset_append_right _ _) x hx

theorem path (base : Session) (env : Env) (prefer : Namespace) (p : Path) :
    VisitsOpen (p.read base env prefer) (p.sites.map (.mk env.modules)) := by
  intro x hx q hsite
  obtain ⟨s, hs, rfl⟩ := List.mem_map.mp hx
  change s = .path q [] at hsite
  obtain rfl := Path.eq_of_open (hsite ▸ hs)
  exact ⟨prefer, env, _, q.visit_mem_read, rfl⟩

/-- The type that a path starts from is read in any case. -/
theorem qualified {base : Session} {env : Env} {p : QualifiedPath}
    (hself : VisitsOpen (p.qualifier.selfTy.read base env)
      (p.qualifier.selfTy.sites.map (.mk env.modules))) :
    VisitsOpen (p.read base env) (p.sites.map (.mk env.modules)) := by
  have hread : (p.qualifier.selfTy.read base env).findings ⊆ (p.read base env).findings := by
    obtain ⟨node, ⟨head, selfTy, asTrait⟩, associated, rest⟩ := p
    rw [QualifiedPath.read, Qualifier.read, Reading.findings_bind, Reading.findings_bind,
      List.append_assoc]
    exact List.subset_append_left _ _
  intro x hx q hsite
  obtain ⟨s, hs, rfl⟩ := List.mem_map.mp hx
  change s = .path q [] at hsite
  have hin := QualifiedPath.mem_selfTy_sites_of_open (hsite ▸ hs)
  exact (hself.mono hread) ⟨env.modules, .path q []⟩ (List.mem_map_of_mem hin) q rfl

end VisitsOpen

theorem Session.visitsOpen (base : Session) :
    Traversal base base [] fun {_} r _ l => VisitsOpen r l where
  pure _ := fun _ hx => nomatch hx
  bind h₁ h₂ := h₁.bind h₂
  introduce _ _ _ _ _ := fun _ hx => nomatch hx
  builtin _ _ _ _ x hx p hsite := by
    cases List.mem_singleton.mp hx
    cases hsite
  path env prefer p _ _ := .path base env prefer p
  qualified _ _ _ hself _ _ := .qualified hself

/-- A path that is behind no gate is looked up. -/
theorem Crate.exists_looksUp_of_open (c : Crate) (settings : Settings) {x : PlacedSite}
    (hx : x ∈ c.sites) {p : Path} (hsite : x.site = .path p []) :
    ∃ prefer env, c.LooksUp settings x p prefer env := by
  obtain ⟨prefer, env, outcome, hvisit, hmodules⟩ :=
    (c.registered settings).visitsOpen.crate c x hx p hsite
  exact ⟨prefer, env, hx, ⟨[], hsite⟩, hmodules, outcome, hvisit⟩

end NameResolution
