import NameResolution.Proofs.CoupledPasses
import NameResolution.Proofs.PrivateUses

/-!
# NameResolution.Proofs.ReportSettings

**How many errors are kept, and whether privacy is checked, decides about reports alone**
(`Crate.reporting_only_filters`). No action ever looks at the errors that have been reported,
so two runs that differ in the limit have the same session at every point, the limit apart
(`Session.SameButLimit`), and the privacy check comes after both passes.

A collector stores all that is reported and cuts it off when it is read. That comes to the
same as keeping an error only while there is room and counting it otherwise
(`Collector.kept_push`, `Collector.dropped_push`).
-/

namespace NameResolution

open Resolution

/-! ### Keeping errors as they come -/

namespace Collector

variable {c : Collector}

/-- An error is kept if there is no limit or fewer errors are kept than it allows. -/
theorem kept_push (c : Collector) (e : ResolveError) :
    (c.push e).kept =
      if c.limit = 0 ∨ c.kept.length < c.limit then c.kept ++ [e] else c.kept := by
  unfold kept
  rw [limit_push, reported_push]
  by_cases hzero : c.limit = 0
  · simp [hzero]
  · simp only [hzero, if_false, false_or, List.length_take]
    by_cases hroom : c.reported.length < c.limit
    · have hmin : min c.limit c.reported.length < c.limit := by omega
      have hall : c.reported.take c.limit = c.reported := List.take_of_length_le (by omega)
      have hnew : (c.reported ++ [e]).take c.limit = c.reported ++ [e] :=
        List.take_of_length_le (by simp; omega)
      rw [if_pos hmin, hall, hnew]
    · have hmin : ¬ min c.limit c.reported.length < c.limit := by omega
      rw [if_neg hmin, List.take_append_of_le_length (by omega)]

/-- An error that is not kept is counted. -/
theorem dropped_push (c : Collector) (e : ResolveError) :
    (c.push e).dropped =
      if c.limit = 0 ∨ c.kept.length < c.limit then c.dropped else c.dropped + 1 := by
  have hle : c.kept.length ≤ c.reported.length := by
    unfold kept
    by_cases hzero : c.limit = 0
    · simp [hzero]
    · simp only [hzero, if_false, List.length_take]
      omega
  unfold dropped
  rw [kept_push, reported_push, List.length_append, List.length_singleton]
  by_cases hroom : c.limit = 0 ∨ c.kept.length < c.limit
  · rw [if_pos hroom, if_pos hroom, List.length_append, List.length_singleton]
    omega
  · rw [if_neg hroom, if_neg hroom]
    omega

theorem dropped_eq_zero (h : c.limit = 0) : c.dropped = 0 := by
  unfold dropped
  rw [kept_eq_reported h, Nat.sub_self]

end Collector

/-! ### Sessions that differ in the limit -/

namespace Session

/-- The same session with another limit on the errors that are kept. -/
def limited (s : Session) (limit : Nat) : Session := { s with errors := { s.errors with limit } }

/-- The second session is the first one with a given limit. -/
def SameButLimit (limit : Nat) (s s' : Session) : Prop := s' = s.limited limit

namespace SameButLimit

variable {limit : Nat}

theorem sameView {s s' : Session} (h : SameButLimit limit s s') : s.SameView s' := by
  subst h
  exact ⟨rfl, rfl, fun space => by cases space <;> rfl, rfl, rfl, rfl, rfl, fun _ => rfl,
    fun _ => rfl⟩

/-- Nothing that is done to a session depends on the limit. -/
theorem lockstep : Session.Lockstep (SameButLimit limit) where
  sameView := sameView
  reporting h e := by subst h; rfl
  withBinding h space owner b := by subst h; cases space <;> rfl
  openFrame h owner := by subst h; rfl
  openModule h module := by subst h; rfl
  withoutFrame h := by subst h; rfl
  withoutModule h := by subst h; rfl
  plain h _ _ := by subst h; rfl

theorem registering : Session.Registering .empty (SameButLimit limit) where
  toLockstep := lockstep
  setVisibility h id v := by subst h; rfl
  withPath h id path _ := by subst h; rfl

theorem coupling : Session.Coupling True (SameButLimit limit) where
  toLockstep := lockstep
  paths h _ := by subst h; rfl
  withPath h id path _ := by subst h; rfl
  setQualified h use path path' hsame := by
    subst h
    rw [hsame trivial]
    rfl

theorem prelude {s s' : Session} (h : SameButLimit limit s s') :
    SameButLimit limit s.openPrelude s'.openPrelude ∧
      SameButLimit limit s.closePrelude.2 s'.closePrelude.2 := by
  subst h
  exact ⟨rfl, rfl⟩

/-- The canonical path of the crate root is that of the other session. -/
theorem seed : Steady (SameButLimit limit) seed := by
  rw [seed_eq]
  refine .withSession fun s s' h => ?_
  subst h
  refine (lockstep.updateTables (.markContainer _ _)).bind_eq fun _ => ?_
  refine (coupling.setPath s.root s.rootPath).bind_eq fun _ => ?_
  exact coupling.seedBuiltins (fun _ _ h => h.prelude.1) (fun _ _ h => h.prelude.2) s.builtins

theorem declare (c : Crate) : Steady (SameButLimit limit) c.declare := by
  refine .withSession fun s s' h => ?_
  subst h
  exact lockstep.inCrate (registering.items (.ofModule s.rootPath) c.items)

theorem passes (c : Crate) :
    Steady (SameButLimit limit) (do NameResolution.seed; c.declare) :=
  seed.bind_eq fun _ => declare c

end SameButLimit

/-- Settings that agree on how names are written start from the same session, the limit apart. -/
theorem start_limited (c : Crate) {settings settings' : Settings}
    (hname : settings'.crateName = settings.crateName)
    (hfront : settings'.prefixCrateName = settings.prefixCrateName) :
    SameButLimit settings'.maxDiagnostics (.start c settings) (.start c settings') := by
  unfold SameButLimit limited start rootPathFor
  rw [hname, hfront]
  rfl

end Session

/-! ### Two resolutions -/

/-- The uses that are not allowed are reported as such. -/
theorem Tables.isPrivate_of_privateUses {t : Tables} {e : ResolveError} (h : e ∈ t.privateUses) :
    e.isPrivate = true := by
  obtain ⟨site, -, hsite⟩ := List.mem_filterMap.mp h
  unfold Tables.privateUse? at hsite
  split at hsite
  · cases hsite
  · split at hsite
    · cases hsite
    · cases hsite
      rfl

namespace Crate

variable {c : Crate}

/-- Neither pass reports a use that is not allowed. -/
theorem SecondPass.not_isPrivate {settings : Settings} {s : Session} (hwf : c.WellFormed)
    (h : c.SecondPass (c.registered settings) s) {e : ResolveError}
    (he : e ∈ s.errors.reported) : e.isPrivate = false := by
  rw [h.reported, List.mem_append, List.mem_filterMap] at he
  rcases he with he | ⟨f, hf, herror⟩
  · cases e with
    | privateItem name span declared => exact nomatch (c.firstPass hwf settings).unchecked _ he
    | _ => rfl
  · exact (c.inOrder (c.registered settings)).errors f hf e herror

/-- **Settings that differ in the limit and in the privacy check lead to the same tables.** A
well-formed crate is resolved under both. If the first settings keep all errors and the second ones,
with the same privacy check, keep `n` of them, these are the first `n`, and all the others are
counted. And if both keep all errors but only the second ones check privacy, the errors about uses
that are not allowed come after those of the first settings, none of which is about such a use. -/
theorem reporting_only_filters (hwf : c.WellFormed) {settings settings' : Settings}
    (hname : settings'.crateName = settings.crateName)
    (hfront : settings'.prefixCrateName = settings.prefixCrateName) :
    ∃ r r', c.resolve settings = .ok r ∧ c.resolve settings' = .ok r' ∧
      r'.root = r.root ∧ r'.builtins = r.builtins ∧ r'.tables = r.tables ∧
      (settings.maxDiagnostics = 0 → 0 < settings'.maxDiagnostics →
        settings'.checkPrivacy = settings.checkPrivacy →
          r.dropped = 0 ∧ r'.errors = r.errors.take settings'.maxDiagnostics ∧
            r'.dropped = (r.errors.drop settings'.maxDiagnostics).length) ∧
      (settings.maxDiagnostics = 0 → settings'.maxDiagnostics = 0 →
        settings.checkPrivacy = false → settings'.checkPrivacy = true →
          r'.errors = r.errors ++ r'.tables.privateUses ∧
            (∀ e ∈ r.errors, e.isPrivate = false) ∧
            ∀ e ∈ r'.tables.privateUses, e.isPrivate = true) := by
  obtain ⟨s, errors, hrun, hs, hend, hlimit, hreported⟩ := c.exists_ending hwf settings
  obtain ⟨s', errors', hrun', hs', hend', hlimit', hreported'⟩ := c.exists_ending hwf settings'
  obtain ⟨hregistered, -⟩ := Session.SameButLimit.passes c
    (Session.start_limited c hname hfront) (c.runs_firstPass hwf settings)
    (c.runs_firstPass hwf settings')
  obtain ⟨hsame, -⟩ := Session.SameButLimit.coupling.crate c hregistered hrun hrun'
  have htables : s'.tables = s.tables := by rw [hsame]; rfl
  have hbefore : s'.errors.reported = s.errors.reported := by rw [hsame]; rfl
  rw [htables, hbefore] at hreported'
  refine ⟨_, _, resolve_of_runs hend, resolve_of_runs hend', by rw [hsame]; rfl,
    by rw [hsame]; rfl, htables, fun hzero hpos hprivacy => ?_, fun hzero hzero' hoff hon => ?_⟩
  · have hall : errors'.reported = errors.reported := by rw [hreported', hreported, hprivacy]
    have hkept : errors'.kept = errors.reported.take settings'.maxDiagnostics := by
      unfold Collector.kept
      rw [hlimit', hall, if_neg (Nat.ne_of_gt hpos)]
    change errors.dropped = 0 ∧ errors'.kept = errors.kept.take _ ∧
      errors'.dropped = (errors.kept.drop _).length
    rw [Collector.kept_eq_reported (hlimit.trans hzero)]
    refine ⟨Collector.dropped_eq_zero (hlimit.trans hzero), hkept, ?_⟩
    unfold Collector.dropped
    rw [hkept, hall, List.length_take, List.length_drop]
    omega
  · change errors'.kept = errors.kept ++ s'.tables.privateUses ∧
      (∀ e ∈ errors.kept, e.isPrivate = false) ∧ ∀ e ∈ s'.tables.privateUses, e.isPrivate = true
    rw [Collector.kept_eq_reported (hlimit.trans hzero),
      Collector.kept_eq_reported (hlimit'.trans hzero'), hreported, hreported', hoff, hon, htables]
    simp only [Bool.false_eq_true, if_false, if_true, List.append_nil, true_and]
    exact ⟨fun e he => hs.not_isPrivate hwf he, fun e he => Tables.isPrivate_of_privateUses he⟩

/-- Of the two uses that are not allowed, one is kept and the other one is counted. -/
theorem reporting_withHiddenStruct :
    withHiddenStruct.WellFormed ∧ ∃ r r', withHiddenStruct.resolve {} = .ok r ∧
      withHiddenStruct.resolve { maxDiagnostics := 1 } = .ok r' ∧ r'.tables = r.tables ∧
      r.errors = [.privateItem "b" ⟨24, 1⟩ ⟨6, 1⟩, .privateItem "S" ⟨26, 1⟩ ⟨10, 1⟩] ∧
      r'.errors = [.privateItem "b" ⟨24, 1⟩ ⟨6, 1⟩] ∧ r'.dropped = 1 := by
  have hwf : withHiddenStruct.WellFormed := by decide
  obtain ⟨r, r', hr, hr', -, -, htables, hlimited, -⟩ :=
    @reporting_only_filters withHiddenStruct hwf {} { maxDiagnostics := 1 } rfl rfl
  obtain ⟨-, hkept, hdropped⟩ := hlimited rfl Nat.one_pos rfl
  have herrors : r.errors =
      [.privateItem "b" ⟨24, 1⟩ ⟨6, 1⟩, .privateItem "S" ⟨26, 1⟩ ⟨10, 1⟩] :=
    of_resolve hr (by decide +kernel)
  simp only [herrors] at hkept hdropped
  exact ⟨hwf, r, r', hr, hr', htables, herrors, hkept, hdropped⟩

end Crate

end NameResolution
