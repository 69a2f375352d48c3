import NameResolution.Proofs.PassRules
import NameResolution.Proofs.Execution

/-!
# NameResolution.Proofs.StableRelations

**What every action keeps to, whatever becomes of it.** `Resolution.Keeps R` says that the
session that an action leaves behind is related by `R` to the one it started from, also if
it ends with a violation. A relation for which this goes along with sequencing and holds of
reporting, naming and binding is `Session.Stable`. What remains to be said of it is which
changes of the tables it allows, and for declarations this is all there is
(`Session.Stable.declarationParts`).

So a fact about both passes takes a relation and one lemma for each kind of change to a
session, and no induction over actions.
-/

namespace NameResolution

open Resolution

/-- A canonical path that is entered is new or stands there already. -/
theorem Tables.eq_of_setPath {t t' : Tables} {id : NodeId} {path : CanonicalPath}
    (h : t.setPath id path = .ok t') : t' = t ∨ t' = { t with paths := t.paths.set id path } := by
  unfold Tables.setPath at h
  split at h
  · cases h
    exact Or.inr rfl
  · split at h
    · cases h
      exact Or.inl rfl
    · cases h

/-- Whatever becomes of an action, the sessions before and after it are related. -/
def Resolution.Keeps (R : Session → Session → Prop) {α : Type} (act : Resolution α) : Prop :=
  ∀ s : Session, R s (act.exec s).2

/-- What succeeds relates the sessions before and after it. -/
theorem Resolution.Runs.keeps {R : Session → Session → Prop} {act : Resolution α} {s s' : Session}
    {a : α} (h : Runs act s a s') (hact : Keeps R act) : R s s' := by
  have hkeeps := hact s
  rwa [h] at hkeeps

namespace Resolution.Keeps

variable {R : Session → Session → Prop} {act : Resolution α}

/-- An action inside a frame keeps to what it keeps to by itself once the frame is closed. -/
theorem inFrame {owner : NodeId} (h : Keeps R act)
    (hclose : ∀ {s s₁ : Session}, R (s.openFrame owner) s₁ → R s s₁.withoutFrame) :
    Keeps R (Resolution.inFrame owner act) := by
  intro s
  change R s ((act.exec (s.openFrame owner)).2.closeFrame owner).2
  rw [Session.snd_closeFrame]
  exact hclose (h (s.openFrame owner))

theorem inModule {module : NodeId} (h : Keeps R act)
    (hclose : ∀ {s s₁ : Session}, R (s.openModule module) s₁ → R s s₁.withoutModule) :
    Keeps R (Resolution.inModule module act) := by
  intro s
  change R s ((act.exec (s.openModule module)).2.closeModule module).2
  rw [Session.snd_closeModule]
  exact hclose (h (s.openModule module))

end Resolution.Keeps

/-- A relation between an earlier and a later session that holds whatever has been reported, named
and bound in between. -/
structure Session.Stable (R : Session → Session → Prop) : Prop where
  refl : ∀ s : Session, R s s
  trans : ∀ {s s₁ s₂ : Session}, R s s₁ → R s₁ s₂ → R s s₂
  reporting : ∀ (s : Session) (e : ResolveError), R s (s.reporting e)
  withPath : ∀ (s : Session) (id : NodeId) (path : CanonicalPath), R s (s.withPath id path)
  withBinding : ∀ (s : Session) (space : Namespace) (owner : NodeId) (b : Binding),
    R s (s.withBinding space owner b)

/-- The tables say the same about parents and nested modules. -/
structure Tables.SameNesting (t t' : Tables) : Prop where
  parents : t'.parents = t.parents
  nested : t'.nested = t.nested

namespace Session.Stable

variable {R : Session → Session → Prop} (stable : Session.Stable R) {α β : Type}

include stable

theorem pure (a : α) : Keeps R (Pure.pure a : Resolution α) := fun s => stable.refl s

theorem throw (v : Violation) : Keeps R (MonadExcept.throw v : Resolution α) :=
  fun s => stable.refl s

theorem bind {act : Resolution α} {next : α → Resolution β} (h₁ : Keeps R act)
    (h₂ : ∀ a, Keeps R (next a)) : Keeps R (act >>= next) := by
  intro s
  have hact := h₁ s
  rw [exec_bind]
  rcases hrun : act.exec s with ⟨_ | a, s₁⟩ <;> rw [hrun] at hact
  · exact hact
  · exact stable.trans hact (h₂ a s₁)

theorem get : Keeps R (MonadState.get : Resolution Session) := fun s => stable.refl s

omit stable in
/-- Going on with what the session holds. -/
theorem withSession {f : Session → Resolution α} (h : ∀ s : Session, R s ((f s).exec s).2) :
    Keeps R (MonadState.get >>= f) := by
  intro s
  rw [exec_bind]
  exact h s

theorem ofExcept (r : Except Violation α) : Keeps R (Resolution.ofExcept r) :=
  fun s => stable.refl s

theorem report (e : ResolveError) : Keeps R (Resolution.report e) := fun s => stable.reporting s e

omit stable in
theorem updateTables {f : Tables → Tables} (h : ∀ s : Session, R s (s.withTables (f s.tables))) :
    Keeps R (Resolution.updateTables f) := h

theorem currentModule : Keeps R Resolution.currentModule :=
  stable.bind stable.get fun s => stable.ofExcept s.modules.current

theorem setPath (id : NodeId) (path : CanonicalPath) : Keeps R (Resolution.setPath id path) := by
  refine withSession fun s => ?_
  rw [exec_bind, exec_ofExcept]
  cases hset : s.tables.setPath id path with
  | error v => exact stable.refl s
  | ok t =>
      rcases Tables.eq_of_setPath hset with rfl | rfl
      · exact stable.refl s
      · exact stable.withPath s id path

theorem makeBinding (space : Namespace) (b : Binding) (shadow : Bool)
    (complaint : Binding → Binding → ResolveError) :
    Keeps R (Resolution.makeBinding space b shadow complaint) := by
  refine withSession fun s => ?_
  rw [exec_bind, exec_ofExcept]
  cases hinsert : (s.scope space).insert b shadow with
  | error v => exact stable.refl s
  | ok insertion =>
      cases insertion with
      | added scope =>
          obtain ⟨owner, rfl⟩ := Scope.eq_bindIn_of_insert hinsert
          exact stable.withBinding s space owner b
      | duplicate earlier => exact stable.reporting s (complaint b earlier)

/-- Declarations keep to a stable relation if it allows for any tables that say the same about
parents and nested modules, and for the parents of some nodes. -/
theorem declarationParts {placed : NodeId → Prop}
    (hsame : ∀ (s : Session) (t : Tables), s.tables.SameNesting t → R s (s.withTables t))
    (hparent : ∀ (s : Session) (id module : NodeId), placed id →
      R s (s.withTables { s.tables with parents := s.tables.parents.set id module })) :
    DeclarationParts placed (@Keeps R) where
  pure := stable.pure
  bind := stable.bind
  report := stable.report
  currentModule := stable.currentModule
  makeBinding := stable.makeBinding
  addChild parent child := updateTables fun s => hsame s _ (by
    unfold Tables.addChild
    split <;> exact ⟨rfl, rfl⟩)
  setVisibility _ _ := updateTables fun s => hsame s _ ⟨rfl, rfl⟩
  setPath := stable.setPath
  markContainer _ _ := updateTables fun s => hsame s _ ⟨rfl, rfl⟩
  setParent id module hid := updateTables fun s => hparent s id module hid

end Session.Stable

end NameResolution
