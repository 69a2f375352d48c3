import NameResolution.Proofs.Lexical.Replay

/-!
# NameResolution.Proofs.Completion

**Resolving a well-formed crate never fails** (`Crate.resolve_succeeds`). The passes
succeed one after the other (`Crate.exists_ending`), whatever the crate gets wrong: a name
that is declared twice, a segment that could not be read, a path without segments or one
that leads nowhere is reported at most. What is done after the second pass adds reports
and leaves the tables as they are.
-/

namespace NameResolution

open Resolution

namespace Resolution

variable {α β γ : Type} {s s' : Session}

/-- It does not matter how three actions in a row are grouped. -/
theorem Runs.regroup {act : Resolution α} {next : α → Resolution β} {last : β → Resolution γ}
    {c : γ} (h : Runs ((act >>= next) >>= last) s c s') :
    Runs (act >>= fun a => next a >>= last) s c s' := by
  rwa [bind_assoc] at h

/-- Reporting errors one after the other changes nothing but the errors. -/
theorem runs_reports : ∀ (es : List ResolveError) (s : Session), ∃ errors,
    Runs (es.forM report) s () { s with errors } ∧ errors.limit = s.errors.limit ∧
      errors.reported = s.errors.reported ++ es
  | [], s => ⟨s.errors, Runs.pure () s, rfl, (List.append_nil _).symm⟩
  | e :: es, s => by
      obtain ⟨errors, hrun, hlimit, hreported⟩ := runs_reports es (s.reporting e)
      refine ⟨errors, (runs_report e s).bind hrun, hlimit, ?_⟩
      rw [hreported]
      exact List.append_assoc s.errors.reported [e] es

/-- Once every module has been left, nothing is wrong with the stack of modules. -/
theorem runs_expectNoModule (h : s.modules = .empty) : Runs expectNoModule s () s := by
  refine Runs.get_bind ?_
  rw [h]
  exact Runs.pure () s

end Resolution

/-- All of a resolution of a well-formed crate succeeds. After the second pass nothing changes but
the errors: the uses that are not allowed are reported if that is asked for. -/
theorem Crate.exists_ending {c : Crate} (hwf : c.WellFormed) (settings : Settings) :
    ∃ s errors, Runs c.resolveItems (c.registered settings) () s ∧
      c.SecondPass (c.registered settings) s ∧
      Runs (c.run settings) (.start c settings) () { s with errors } ∧
      errors.limit = settings.maxDiagnostics ∧
      errors.reported =
        s.errors.reported ++ if settings.checkPrivacy then s.tables.privateUses else [] := by
  obtain ⟨s, hrun, hs⟩ := (c.firstPass hwf settings).exists_secondPass hwf
  have hlimit : s.errors.limit = settings.maxDiagnostics :=
    hs.limit.trans (c.firstPass hwf settings).limit
  -- After the second pass, use sites are checked if that is asked for.
  have hlast : ∃ errors, Runs
      (do
        if settings.checkPrivacy then reportPrivateUses
        expectNoModule) s () { s with errors } ∧
      errors.limit = settings.maxDiagnostics ∧
      errors.reported =
        s.errors.reported ++ if settings.checkPrivacy then s.tables.privateUses else [] := by
    by_cases hprivacy : settings.checkPrivacy = true
    · obtain ⟨errors, hreports, hsame, hreported⟩ := runs_reports s.tables.privateUses s
      have hprivate : Runs reportPrivateUses s () { s with errors } := Runs.get_bind hreports
      rw [if_pos hprivacy, if_pos hprivacy]
      exact ⟨errors, hprivate.bind (runs_expectNoModule hs.modules), hsame.trans hlimit, hreported⟩
    · rw [if_neg hprivacy, if_neg hprivacy]
      exact ⟨s.errors, runs_expectNoModule hs.modules, hlimit, (List.append_nil _).symm⟩
  obtain ⟨errors, hlast, hsame, hreported⟩ := hlast
  have hfirst := c.runs_firstPass hwf settings
  exact ⟨s, errors, hrun, hs, (hfirst.bind (hrun.bind hlast)).regroup, hsame, hreported⟩

theorem Crate.exists_passes {c : Crate} (hwf : c.WellFormed) (settings : Settings) :
    ∃ s s', Runs c.resolveItems (c.registered settings) () s ∧
      c.SecondPass (c.registered settings) s ∧
      Runs (c.run settings) (.start c settings) () s' ∧ s'.tables = s.tables ∧
      (∀ space, s'.scope space = s.scope space) ∧ s'.errors.limit = settings.maxDiagnostics ∧
      s'.errors.reported =
        s.errors.reported ++ if settings.checkPrivacy then s.tables.privateUses else [] := by
  obtain ⟨s, errors, hrun, hs, hend, hlimit, hreported⟩ := c.exists_ending hwf settings
  exact ⟨s, { s with errors }, hrun, hs, hend, rfl, fun space => by cases space <;> rfl, hlimit,
    hreported⟩

theorem Crate.exists_run {c : Crate} (hwf : c.WellFormed) (settings : Settings) :
    ∃ s s', c.SecondPass (c.registered settings) s ∧
      Runs (c.run settings) (.start c settings) () s' ∧ s'.tables = s.tables ∧
      (∀ space, s'.scope space = s.scope space) ∧ s'.errors.limit = settings.maxDiagnostics ∧
      s'.errors.reported =
        s.errors.reported ++ if settings.checkPrivacy then s.tables.privateUses else [] :=
  have ⟨s, s', _, h⟩ := c.exists_passes hwf settings
  ⟨s, s', h⟩

/-- What the session has in the end is the result. -/
theorem Crate.resolve_of_runs {c : Crate} {settings : Settings} {s : Session}
    (hrun : Runs (c.run settings) (.start c settings) () s) :
    c.resolve settings = .ok s.finish := by
  unfold Crate.resolve
  rw [hrun]
  rfl

/-- What holds of a result can be found out by resolving the crate. -/
@[elab_as_elim]
theorem Crate.of_resolve {c : Crate} {settings : Settings} {motive : ResolvedCrate → Prop}
    [DecidablePred motive] {r : ResolvedCrate} (hr : c.resolve settings = .ok r)
    (h : (c.resolve settings).toOption.any (fun r => decide (motive r)) = true) : motive r := by
  rw [hr] at h
  exact of_decide_eq_true h

/-- A result without errors is that of a session in which nothing was reported. -/
theorem Session.hasErrors_finish {s : Session} :
    s.finish.hasErrors = false ↔ s.errors.reported = [] := by
  unfold ResolvedCrate.hasErrors Session.finish Collector.dropped Collector.kept
  split
  · simp
  · next hlimit =>
    simp only [Bool.or_eq_false_iff, Bool.not_eq_eq_eq_not, Bool.not_false, List.isEmpty_iff,
      decide_eq_false_iff_not]
    constructor
    · rintro ⟨hkept, -⟩
      exact (List.take_eq_nil_iff.mp hkept).resolve_left hlimit
    · intro hreported
      simp [hreported]

/-- The errors that are kept have been reported. -/
theorem Collector.kept_subset (c : Collector) : c.kept ⊆ c.reported := by
  unfold Collector.kept
  split
  · exact List.Subset.refl _
  · exact List.take_subset _ _

/-- What comes out of resolving a crate, in terms of what its two passes leave behind. -/
structure Crate.Outcome (c : Crate) (settings : Settings) (s : Session) (r : ResolvedCrate) :
    Prop where
  runs : Runs c.resolveItems (c.registered settings) () s
  secondPass : c.SecondPass (c.registered settings) s
  resolve : c.resolve settings = .ok r
  tables : r.tables = s.tables
  errors : settings.maxDiagnostics = 0 → r.errors =
    s.errors.reported ++ if settings.checkPrivacy then s.tables.privateUses else []
  /-- Whatever is reported in the end is reported by a pass or about a use that is not allowed. -/
  reported : ∀ e ∈ r.errors, e ∈ s.errors.reported ∨ e ∈ s.tables.privateUses
  /-- Without errors, neither of the passes has reported any. -/
  clean : r.hasErrors = false → (c.registered settings).errors.reported = [] ∧
    (c.read (c.registered settings)).findings.filterMap Finding.error? = []

theorem Crate.exists_outcome {c : Crate} (hwf : c.WellFormed) (settings : Settings) :
    ∃ s r, c.Outcome settings s r := by
  obtain ⟨s, s', hruns, hs, hrun, htables, -, hlimit, hreported⟩ := c.exists_passes hwf settings
  refine ⟨s, s'.finish, hruns, hs, resolve_of_runs hrun, htables, fun hzero => ?_, fun e he => ?_,
    fun hclean => ?_⟩
  · exact (Collector.kept_eq_reported (hlimit.trans hzero)).trans hreported
  · have hin := s'.errors.kept_subset he
    rw [hreported] at hin
    refine (List.mem_append.mp hin).imp_right fun hprivate => ?_
    split at hprivate
    · exact hprivate
    · cases hprivate
  · rw [Session.hasErrors_finish.mp hclean] at hreported
    have hnone := (List.append_eq_nil_iff.mp hreported.symm).1
    rw [hs.reported] at hnone
    exact List.append_eq_nil_iff.mp hnone

/-- **Resolving a well-formed crate never fails**, whatever the settings: no violation of what the
resolver takes for granted can come about. -/
theorem Crate.resolve_succeeds {c : Crate} (hwf : c.WellFormed) (settings : Settings) :
    ∃ r, c.resolve settings = .ok r := by
  obtain ⟨_, s, -, hrun, -⟩ := c.exists_run hwf settings
  exact ⟨s.finish, resolve_of_runs hrun⟩

/-- Two functions of one name. The first one returns a type with a segment that could not be read;
its body repeats a local name and has a path without segments and one that leads nowhere. -/
def Crate.withOddities : Crate where
  node := ⟨⟨0⟩, ⟨0, 80⟩⟩
  items :=
    let node (id offset : Nat) : Node := ⟨⟨id⟩, ⟨offset, 1⟩⟩
    let x (id offset : Nat) : Pattern := .binding (node id offset) ⟨"x", ⟨offset, 1⟩⟩ false
    let function (id offset : Nat) (ret : Option Ty) (body : Option Block) : Item :=
      ⟨node id offset, .ownModule,
        .function ⟨⟨"f", ⟨offset + 3, 1⟩⟩, .none, none, [], ret, body⟩⟩
    [function 1 0 (some (.path (node 2 10) ⟨node 3 10, [⟨node 4 10, .malformed, none⟩]⟩))
        (some ⟨node 5 12,
          [.bind (node 6 14) (x 7 18) none (some (.path (node 8 22) ⟨node 9 22, []⟩)),
            .bind (node 10 25) (x 11 29) none none],
          some (.path (node 12 40) ⟨node 13 40, [⟨node 14 40, .ident "y", none⟩]⟩)⟩),
      function 15 60 none none]
  idBound := ⟨16⟩

theorem Crate.resolve_withOddities :
    withOddities.WellFormed ∧ ∃ r, withOddities.resolve {} = .ok r := by
  have hwf : withOddities.WellFormed := by decide
  exact ⟨hwf, resolve_succeeds hwf {}⟩

end NameResolution
