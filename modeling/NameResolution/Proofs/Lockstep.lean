import NameResolution.Proofs.StableRelations
import NameResolution.Resolve.Item

/-!
# NameResolution.Proofs.Lockstep

**Two runs side by side.** `Resolution.InStep R A` relates two actions: if both succeed from
sessions that are related by `R`, they leave related sessions behind and give answers that
are related by `A`. It composes as the actions do, so two runs of a pass are compared action
by action.

What keeps the runs together is that they see the same when they look around
(`Session.SameView`). A relation that says so and that both passes keep, canonical paths and
visibilities apart, is a `Session.Lockstep`. What is entered of these is up to what extends
it. A `Session.Coupling` is kept by all that is done inside the items. It leaves open whether
the two runs know the same canonical paths or only paths of the same declarations
(`PathsMatch`), since no decision depends on more.
-/

namespace NameResolution

open Resolution

/-! ### Two actions -/

namespace Resolution

/-- Where both actions succeed from related sessions, they leave related sessions behind and answer
alike. -/
def InStep {α α' : Type} (R : Session → Session → Prop) (A : α → α' → Prop)
    (act : Resolution α) (act' : Resolution α') : Prop :=
  ∀ ⦃s s' s₁ s₁' : Session⦄ ⦃a : α⦄ ⦃a' : α'⦄,
    R s s' → Runs act s a s₁ → Runs act' s' a' s₁' → R s₁ s₁' ∧ A a a'

/-- Two runs of one action from related sessions stay related and give the same answer. -/
abbrev Steady {α : Type} (R : Session → Session → Prop) (act : Resolution α) : Prop :=
  InStep R Eq act act

namespace InStep

variable {α α' β β' : Type} {R : Session → Session → Prop} {A : α → α' → Prop} {B : β → β' → Prop}
  {act : Resolution α} {act' : Resolution α'}

theorem pure {a : α} {a' : α'} (h : A a a') : InStep R A (Pure.pure a) (Pure.pure a') := by
  intro s s' s₁ s₁' b b' hs hrun hrun'
  obtain ⟨rfl, rfl⟩ := hrun.eq (Runs.pure a s)
  obtain ⟨rfl, rfl⟩ := hrun'.eq (Runs.pure a' s')
  exact ⟨hs, h⟩

theorem throw (v v' : Violation) :
    InStep R A (MonadExcept.throw v : Resolution α) (MonadExcept.throw v' : Resolution α') := by
  intro s s' s₁ s₁' a a' _ hrun _
  cases congrArg Prod.fst hrun

theorem bind {next : α → Resolution β} {next' : α' → Resolution β'} (h : InStep R A act act')
    (hnext : ∀ a a', A a a' → InStep R B (next a) (next' a')) :
    InStep R B (act >>= next) (act' >>= next') := by
  intro s s' s₂ s₂' b b' hs hrun hrun'
  obtain ⟨a, s₁, hact, hrest⟩ := hrun.bind_inv
  obtain ⟨a', s₁', hact', hrest'⟩ := hrun'.bind_inv
  obtain ⟨hs₁, ha⟩ := h hs hact hact'
  exact hnext a a' ha hs₁ hrest hrest'

/-- Two actions with one answer, and what each of them goes on with. -/
theorem bind_eq {act act' : Resolution α} {next : α → Resolution β} {next' : α → Resolution β'}
    (h : InStep R Eq act act') (hnext : ∀ a, InStep R B (next a) (next' a)) :
    InStep R B (act >>= next) (act' >>= next') := by
  refine h.bind fun a a' ha => ?_
  subst ha
  exact hnext a

theorem map {f : α → β} {f' : α' → β'} (h : InStep R A act act')
    (hf : ∀ a a', A a a' → B (f a) (f' a')) : InStep R B (f <$> act) (f' <$> act') := by
  rw [map_eq_pure_bind, map_eq_pure_bind]
  exact h.bind fun a a' ha => pure (hf a a' ha)

theorem mono {A' : α → α' → Prop} (h : InStep R A act act') (hA : ∀ a a', A a a' → A' a a') :
    InStep R A' act act' := by
  intro s s' s₁ s₁' a a' hs hrun hrun'
  obtain ⟨hs₁, ha⟩ := h hs hrun hrun'
  exact ⟨hs₁, hA a a' ha⟩

theorem discard (h : InStep R A act act') : InStep R Eq (discard act) (discard act') :=
  h.map fun _ _ _ => rfl

/-- Going on with what the two sessions hold. -/
theorem withSession {f : Session → Resolution β} {f' : Session → Resolution β'}
    (h : ∀ s s', R s s' → InStep R B (f s) (f' s')) : InStep R B (get >>= f) (get >>= f') := by
  intro s s' s₁ s₁' b b' hs hrun hrun'
  exact h s s' hs hs hrun.get_bind_inv hrun'.get_bind_inv

theorem ofExcept {r : Except Violation α} {r' : Except Violation α'}
    (h : ∀ a a', r = .ok a → r' = .ok a' → A a a') :
    InStep R A (Resolution.ofExcept r) (Resolution.ofExcept r') := by
  intro s s' s₁ s₁' a a' hs hrun hrun'
  have hresult : (r, s) = (.ok a, s₁) := hrun
  have hresult' : (r', s') = (.ok a', s₁') := hrun'
  obtain ⟨hr, rfl⟩ := Prod.mk.inj hresult
  obtain ⟨hr', rfl⟩ := Prod.mk.inj hresult'
  exact ⟨hs, h a a' hr hr'⟩

theorem updateTables {f f' : Tables → Tables}
    (h : ∀ s s', R s s' → R (s.withTables (f s.tables)) (s'.withTables (f' s'.tables))) :
    InStep R Eq (Resolution.updateTables f) (Resolution.updateTables f') := by
  intro s s' s₁ s₁' a a' hs hrun hrun'
  obtain ⟨-, rfl⟩ := hrun.eq (runs_updateTables f s)
  obtain ⟨-, rfl⟩ := hrun'.eq (runs_updateTables f' s')
  exact ⟨h s s' hs, rfl⟩

/-- Two actions between steps that keep the sessions related. -/
theorem between {opening opening' : Session → Session}
    {closing closing' : Session → Except Violation Unit × Session} (h : InStep R A act act')
    (hopen : ∀ s s', R s s' → R (opening s) (opening' s'))
    (hclose : ∀ s s', R s s' → R (closing s).2 (closing' s').2) :
    InStep R A (Resolution.between opening closing act)
      (Resolution.between opening' closing' act') := by
  intro s s' s₂ s₂' a a' hs hrun hrun'
  obtain ⟨s₁, hact, hclosed⟩ := hrun.between_inv
  obtain ⟨s₁', hact', hclosed'⟩ := hrun'.between_inv
  obtain ⟨hs₁, ha⟩ := h (hopen s s' hs) hact hact'
  have hs₂ := hclose s₁ s₁' hs₁
  rw [hclosed, hclosed'] at hs₂
  exact ⟨hs₂, ha⟩

/-- Two loops stay together if their bodies do. -/
theorem forM_map {γ γ' : Type} {g : γ → γ'} {f : γ → Resolution Unit} {f' : γ' → Resolution Unit} :
    ∀ {l : List γ}, (∀ x ∈ l, InStep R Eq (f x) (f' (g x))) →
      InStep R Eq (l.forM f) ((l.map g).forM f')
  | [], _ => pure rfl
  | x :: l, h => by
      refine (h x List.mem_cons_self).bind_eq fun _ => ?_
      exact forM_map fun y hy => h y (List.mem_cons_of_mem x hy)

theorem forM {γ : Type} {f f' : γ → Resolution Unit} {l : List γ}
    (h : ∀ x ∈ l, InStep R Eq (f x) (f' x)) : InStep R Eq (l.forM f) (l.forM f') := by
  have hmap : InStep R Eq (l.forM f) ((l.map id).forM f') := forM_map h
  rwa [List.map_id] at hmap

end InStep

/-! ### What single actions do -/

variable {s s₁ : Session}

/-- Where a binding is asked for, it is made in some rib, or the name was there already. -/
theorem Runs.makeBinding_inv {space : Namespace} {b : Binding} {shadow : Bool}
    {complaint : Binding → Binding → ResolveError} {made : Bool}
    (h : Runs (makeBinding space b shadow complaint) s made s₁) :
    (∃ owner, (s.scope space).insert b shadow = .ok (.added ((s.scope space).bindIn owner b)) ∧
      made = true ∧ s₁ = s.withBinding space owner b) ∨
    ∃ earlier, (s.scope space).insert b shadow = .ok (.duplicate earlier) ∧
      made = false ∧ s₁ = s.reporting (complaint b earlier) := by
  unfold Runs makeBinding at h
  rw [exec_bind, exec_get] at h
  simp only [exec_bind, exec_ofExcept] at h
  cases hinsert : (s.scope space).insert b shadow with
  | error v => rw [hinsert] at h; cases h
  | ok insertion =>
      rw [hinsert] at h
      cases insertion with
      | added scope =>
          obtain ⟨owner, rfl⟩ := Scope.eq_bindIn_of_insert hinsert
          exact Or.inl ⟨owner, rfl, by cases h; exact ⟨rfl, rfl⟩⟩
      | duplicate earlier => exact Or.inr ⟨earlier, rfl, by cases h; exact ⟨rfl, rfl⟩⟩

/-- A canonical path is entered where there was none, and is otherwise the one that was there. -/
theorem Runs.setPath_inv {id : NodeId} {path : CanonicalPath} {u : Unit}
    (h : Runs (setPath id path) s u s₁) :
    s.tables.paths.get? id = none ∧ s₁ = s.withPath id path ∨
      (s.tables.paths.get? id).isSome ∧ s₁ = s := by
  unfold Runs setPath at h
  rw [exec_bind, exec_get] at h
  simp only [exec_bind, exec_ofExcept, exec_set] at h
  unfold Tables.setPath at h
  cases hpath : s.tables.paths.get? id with
  | none =>
      simp only [hpath] at h
      exact Or.inl ⟨rfl, by cases h; rfl⟩
  | some existing =>
      simp only [hpath] at h
      by_cases hsame : existing.SameText path
      · rw [if_pos hsame] at h
        exact Or.inr ⟨rfl, by cases h; rfl⟩
      · rw [if_neg hsame] at h
        cases h

end Resolution

/-! ### What is seen of a session -/

/-- All that decisions depend on is the same in two sessions. Of canonical paths and visibilities it
only matters for which declarations there are any. -/
structure Session.SameView (s s' : Session) : Prop where
  builtins : s.builtins = s'.builtins
  root : s.root = s'.root
  scope : ∀ space, s.scope space = s'.scope space
  modules : s.modules = s'.modules
  parents : s.tables.parents = s'.tables.parents
  childEntries : s.tables.childEntries = s'.tables.childEntries
  containers : s.tables.containers = s'.tables.containers
  visible : ∀ id, (s.tables.visibilities.get? id).isSome = (s'.tables.visibilities.get? id).isSome
  named : ∀ id, (s.tables.paths.get? id).isSome = (s'.tables.paths.get? id).isSome

namespace Session.SameView

variable {s s' : Session} (view : s.SameView s')

include view

theorem isContainer (id : NodeId) : s.tables.isContainer id = s'.tables.isContainer id := by
  unfold Tables.isContainer
  rw [view.containers]

theorem isModule (id : NodeId) : s.tables.isModule id = s'.tables.isModule id := by
  unfold Tables.isModule
  rw [view.containers]

theorem childrenNamed (parent : NodeId) (name : String) :
    s.tables.childrenNamed parent name = s'.tables.childrenNamed parent name := by
  unfold Tables.childrenNamed Tables.childrenOf
  rw [view.childEntries]

theorem classify (id : NodeId) : s.classify id = s'.classify id := by
  have hnames := view.scope .name
  have htypes := view.scope .type
  simp only [scope_name, scope_type] at hnames htypes
  unfold Session.classify
  rw [hnames, htypes, view.isModule]

theorem findLexical? (prefer : Namespace) (key : CanonicalPath) :
    s.findLexical? prefer key = s'.findLexical? prefer key := by
  unfold Session.findLexical?
  rw [view.scope, view.scope]

theorem pickChild? (prefer : Namespace) (isLast : Bool) (candidates : List NodeId) :
    s.pickChild? prefer isLast candidates = s'.pickChild? prefer isLast candidates := by
  unfold Session.pickChild?
  simp only [view.classify, view.isContainer]

theorem parentModule? (here module : NodeId) :
    s.parentModule? here module = s'.parentModule? here module := by
  unfold Session.parentModule?
  rw [view.modules, view.parents]

theorem isDeferred (pos : Position) : s.isDeferred pos = s'.isDeferred pos := by
  unfold Session.isDeferred
  cases pos.reached with
  | none => rfl
  | some decl => simp only [view.isContainer]

theorem advance (pos : Position) (decl : NodeId) : s.advance pos decl = s'.advance pos decl := by
  unfold Session.advance
  rw [view.isContainer]

end Session.SameView

/-! ### Relations that both passes keep -/

/-- The tables with other canonical paths and visibilities. -/
def Tables.respelled (t : Tables) (paths qualified : Register CanonicalPath)
    (visibilities : Register DeclVisibility) : Tables :=
  { t with paths, qualified, visibilities }

/-- A change of the tables that has nothing to do with canonical paths and visibilities. -/
def Tables.Plain (f : Tables → Tables) : Prop :=
  ∀ t paths qualified visibilities,
    f (t.respelled paths qualified visibilities) = (f t).respelled paths qualified visibilities

namespace Tables

theorem Plain.setResolved (space : Namespace) (use decl : NodeId) :
    Plain (·.setResolved space use decl) := by
  intro t paths qualified visibilities
  cases space <;> rfl

theorem Plain.addUseSite (site : UseSite) : Plain (·.addUseSite site) :=
  fun _ _ _ _ => rfl

theorem Plain.addChild (parent : NodeId) (child : Child) : Plain (·.addChild parent child) := by
  intro t paths qualified visibilities
  by_cases hmem : (parent, child) ∈ t.childEntries <;>
    simp [Tables.addChild, Tables.respelled, hmem]

end Tables

/-- A relation between the sessions of two runs that see the same. It is kept by reporting, by
binding, by entering and leaving frames and modules, and by plain changes of the tables. -/
structure Session.Lockstep (R : Session → Session → Prop) : Prop where
  sameView : ∀ {s s'}, R s s' → s.SameView s'
  reporting : ∀ {s s'}, R s s' → ∀ e, R (s.reporting e) (s'.reporting e)
  withBinding : ∀ {s s'}, R s s' → ∀ space owner b,
    R (s.withBinding space owner b) (s'.withBinding space owner b)
  openFrame : ∀ {s s'}, R s s' → ∀ owner, R (s.openFrame owner) (s'.openFrame owner)
  openModule : ∀ {s s'}, R s s' → ∀ module, R (s.openModule module) (s'.openModule module)
  withoutFrame : ∀ {s s'}, R s s' → R s.withoutFrame s'.withoutFrame
  withoutModule : ∀ {s s'}, R s s' → R s.withoutModule s'.withoutModule
  plain : ∀ {s s'}, R s s' → ∀ {f : Tables → Tables}, Tables.Plain f →
    R (s.withTables (f s.tables)) (s'.withTables (f s'.tables))

namespace Session.Lockstep

variable {R : Session → Session → Prop} (lock : Session.Lockstep R) {α α' : Type}
  {A : α → α' → Prop} {act : Resolution α} {act' : Resolution α'}

include lock

theorem report (e : ResolveError) : Steady R (Resolution.report e) := by
  intro s s' s₁ s₁' a a' hs hrun hrun'
  obtain ⟨-, rfl⟩ := hrun.eq (runs_report e s)
  obtain ⟨-, rfl⟩ := hrun'.eq (runs_report e s')
  exact ⟨lock.reporting hs e, rfl⟩

theorem stopWith (e : ResolveError) : Steady R (stopWith e : Resolution (Option α)) :=
  (lock.report e).bind_eq fun _ => .pure rfl

theorem currentModule : Steady R Resolution.currentModule := by
  refine .withSession fun s s' hs => .ofExcept fun here here' h h' => ?_
  rw [(lock.sameView hs).modules] at h
  exact Except.ok.inj (h.symm.trans h')

theorem rootModule : Steady R Resolution.rootModule := by
  refine .withSession fun s s' hs => .ofExcept fun root root' h h' => ?_
  rw [(lock.sameView hs).modules] at h
  exact Except.ok.inj (h.symm.trans h')

/-- Since both runs see the same symbol tables, a binding is made in both or refused in both. -/
theorem makeBinding (space : Namespace) (b : Binding) (shadow : Bool)
    (complaint : Binding → Binding → ResolveError) :
    Steady R (Resolution.makeBinding space b shadow complaint) := by
  intro s s' s₁ s₁' made made' hs hrun hrun'
  have hscope := (lock.sameView hs).scope space
  rcases hrun.makeBinding_inv with ⟨owner, hadded, rfl, rfl⟩ | ⟨earlier, hduplicate, rfl, rfl⟩ <;>
    rcases hrun'.makeBinding_inv with
      ⟨owner', hadded', rfl, rfl⟩ | ⟨earlier', hduplicate', rfl, rfl⟩
  · have hsame : (s.scope space).bindIn owner b = (s'.scope space).bindIn owner' b := by
      rw [hscope] at hadded
      rw [hscope]
      exact Insertion.added.inj (Except.ok.inj (hadded.symm.trans hadded'))
    have hbinding : s'.withBinding space owner' b = s'.withBinding space owner b := by
      unfold Session.withBinding
      rw [← hsame, hscope]
    exact ⟨hbinding ▸ lock.withBinding hs space owner b, rfl⟩
  · rw [hscope, hduplicate'] at hadded
    cases hadded
  · rw [hscope, hadded'] at hduplicate
    cases hduplicate
  · rw [hscope, hduplicate'] at hduplicate
    cases hduplicate
    exact ⟨lock.reporting hs _, rfl⟩

/-- Since both runs have canonical paths for the same declarations, a path is entered in both or in
none of them. -/
theorem setPath {id : NodeId} {path path' : CanonicalPath}
    (h : ∀ {s s'}, R s s' → s.tables.paths.get? id = none →
      R (s.withPath id path) (s'.withPath id path')) :
    InStep R Eq (Resolution.setPath id path) (Resolution.setPath id path') := by
  intro s s' s₁ s₁' u u' hs hrun hrun'
  have hnamed := (lock.sameView hs).named id
  rcases hrun.setPath_inv with ⟨hnone, rfl⟩ | ⟨hsome, rfl⟩ <;>
    rcases hrun'.setPath_inv with ⟨hnone', rfl⟩ | ⟨hsome', rfl⟩
  · exact ⟨h hs hnone, rfl⟩
  · rw [hnone, hsome'] at hnamed
    cases hnamed
  · rw [hnone', hsome] at hnamed
    cases hnamed
  · exact ⟨hs, rfl⟩

theorem updateTables {f : Tables → Tables} (h : Tables.Plain f) :
    Steady R (Resolution.updateTables f) :=
  .updateTables fun _ _ hs => lock.plain hs h

theorem inFrame (owner : NodeId) (h : InStep R A act act') :
    InStep R A (Resolution.inFrame owner act) (Resolution.inFrame owner act') := by
  refine h.between (fun s s' hs => lock.openFrame hs owner) fun s s' hs => ?_
  rw [Session.snd_closeFrame, Session.snd_closeFrame]
  exact lock.withoutFrame hs

theorem inModule (module : NodeId) (h : InStep R A act act') :
    InStep R A (Resolution.inModule module act) (Resolution.inModule module act') := by
  refine h.between (fun s s' hs => lock.openModule hs module) fun s s' hs => ?_
  rw [Session.snd_closeModule, Session.snd_closeModule]
  exact lock.withoutModule hs

theorem inCrate (h : InStep R A act act') :
    InStep R A (Resolution.inCrate act) (Resolution.inCrate act') := by
  refine .withSession fun s s' hs => ?_
  rw [(lock.sameView hs).builtins, (lock.sameView hs).root]
  exact lock.inFrame _ (lock.inModule _ h)

end Session.Lockstep

/-! ### Relations that the first pass keeps -/

/-- A relation between the sessions of two runs that is kept by declarations if the second run puts
`front` before every canonical path. -/
structure Session.Registering (front : CanonicalPath) (R : Session → Session → Prop) : Prop
    extends Session.Lockstep R where
  setVisibility : ∀ {s s'}, R s s' → ∀ id v,
    R (s.withTables { s.tables with visibilities := s.tables.visibilities.set id v })
      (s'.withTables { s'.tables with visibilities := s'.tables.visibilities.set id v })
  withPath : ∀ {s s'}, R s s' → ∀ id path, s.tables.paths.get? id = none →
    R (s.withPath id path) (s'.withPath id (front ++ path))

/-! ### Relations that the second pass keeps -/

/-- Two canonical paths are both there or both missing, and the same path if `exact` is asked
for. -/
structure PathsMatch (exact : Prop) (path path' : Option CanonicalPath) : Prop where
  isSome : path.isSome = path'.isSome
  eq : exact → path = path'

namespace PathsMatch

variable {exact : Prop} {path path' : Option CanonicalPath}

theorem refl (path : Option CanonicalPath) : PathsMatch exact path path := ⟨rfl, fun _ => rfl⟩

theorem none : PathsMatch exact none none := refl _

theorem some {p p' : CanonicalPath} (h : exact → p = p') : PathsMatch exact (some p) (some p') :=
  ⟨rfl, fun hexact => congrArg Option.some (h hexact)⟩

theorem map (h : PathsMatch exact path path') (f : CanonicalPath → CanonicalPath) :
    PathsMatch exact (path.map f) (path'.map f) where
  isSome := by rw [Option.isSome_map, Option.isSome_map, h.isSome]
  eq hexact := congrArg (Option.map f) (h.eq hexact)

/-- Matching paths are both missing, or both there and the same as far as this is asked for. -/
theorem cases (h : PathsMatch exact path path') :
    path = .none ∧ path' = .none ∨
      ∃ p p', path = .some p ∧ path' = .some p' ∧ (exact → p = p') := by
  have hisSome := h.isSome
  cases path with
  | none =>
      cases path' with
      | none => exact Or.inl ⟨rfl, rfl⟩
      | some p' => cases hisSome
  | some p =>
      cases path' with
      | none => cases hisSome
      | some p' => exact Or.inr ⟨p, p', rfl, rfl, fun hexact => Option.some.inj (h.eq hexact)⟩

end PathsMatch

/-- A relation between the sessions of two runs that is kept by all that is done inside the items.
With `exact`, the two runs know the same canonical paths. -/
structure Session.Coupling (exact : Prop) (R : Session → Session → Prop) : Prop
    extends Session.Lockstep R where
  paths : ∀ {s s'}, R s s' → exact → s.tables.paths = s'.tables.paths
  withPath : ∀ {s s'}, R s s' → ∀ id path, s.tables.paths.get? id = none →
    R (s.withPath id path) (s'.withPath id path)
  setQualified : ∀ {s s'}, R s s' → ∀ use path path', (exact → path = path') →
    R (s.withTables { s.tables with qualified := s.tables.qualified.set use path })
      (s'.withTables { s'.tables with qualified := s'.tables.qualified.set use path' })

namespace Session.Coupling

variable {exact : Prop} {R : Session → Session → Prop} (coupling : Session.Coupling exact R)

include coupling

theorem get?_paths {s s' : Session} (hs : R s s') (id : NodeId) :
    PathsMatch exact (s.tables.paths.get? id) (s'.tables.paths.get? id) where
  isSome := (coupling.sameView hs).named id
  eq hexact := by rw [coupling.paths hs hexact]

theorem setPath (id : NodeId) (path : CanonicalPath) : Steady R (Resolution.setPath id path) :=
  coupling.toLockstep.setPath fun hs hnone => coupling.withPath hs id path hnone

theorem record (space : Namespace) (use decl : NodeId) :
    Steady R (updateTables (·.setResolved space use decl)) :=
  coupling.updateTables (.setResolved space use decl)

/-- Whether a use is kept for the privacy check depends on whether the declaration has a visibility,
and not on which. -/
theorem bindSegment (node : Node) (name : String) (space : Namespace) (decl here : NodeId) :
    Steady R (Resolution.bindSegment node name space decl here) := by
  refine .updateTables fun s s' hs => ?_
  have hresolved := coupling.plain hs (.setResolved space node.id decl)
  have hvisible := (coupling.sameView hresolved).visible decl
  simp only [tables_withTables] at hvisible ⊢
  cases hdecl : (s.tables.setResolved space node.id decl).visibilities.get? decl <;>
    cases hdecl' : (s'.tables.setResolved space node.id decl).visibilities.get? decl <;>
    rw [hdecl, hdecl'] at hvisible
  case none.none => exact hresolved
  case some.some => exact coupling.plain hresolved (.addUseSite _)
  all_goals cases hvisible

theorem recordPath (path decl : NodeId) : Steady R (recordPath path decl) := by
  refine .withSession fun s s' hs => ?_
  rw [(coupling.sameView hs).classify]
  cases s'.classify decl with
  | none => exact .throw _ _
  | some space => exact coupling.record space path decl

theorem pathOf (decl : NodeId) :
    InStep R (fun p p' => exact → p = p') (pathOf decl) (NameResolution.pathOf decl) := by
  refine .withSession fun s s' hs => ?_
  rcases (coupling.get?_paths hs decl).cases with ⟨hnone, hnone'⟩ | ⟨p, p', hsome, hsome', hsame⟩
  · rw [hnone, hnone']
    exact .throw _ _
  · rw [hsome, hsome']
    exact .pure hsame

/-! ### One step along a path -/

variable (w : Walk) (pos : Position) (seg : PathSegment)

theorem bindTo (space : Namespace) (decl here : NodeId) :
    Steady R (seg.bindTo space decl here) :=
  coupling.bindSegment _ _ _ _ _

theorem enterModule (module : NodeId) : Steady R (enterModule w seg module) :=
  (coupling.bindTo seg .name module w.here).bind_eq fun _ => .pure rfl

theorem enterDeclaration (space : Namespace) (decl : NodeId) :
    Steady R (enterDeclaration w pos seg space decl) := by
  refine (coupling.bindTo seg space decl w.here).bind_eq fun _ => .withSession fun s s' hs => ?_
  rw [(coupling.sameView hs).advance]
  exact .pure rfl

theorem unlessDeferred {step : Resolution (Option Position)} (h : Steady R step) :
    Steady R (unlessDeferred pos step) := by
  refine .withSession fun s s' hs => ?_
  rw [(coupling.sameView hs).isDeferred]
  by_cases hdeferred : s'.isDeferred pos
  · rw [if_pos hdeferred]
    exact .pure rfl
  · rw [if_neg hdeferred]
    exact h

theorem followFirst (module : NodeId) : Steady R (followFirst w pos seg module) := by
  unfold NameResolution.followFirst
  by_cases hreached : pos.reached.isSome
  · rw [if_pos hreached]
    exact coupling.stopWith _
  · rw [if_neg hreached]
    exact coupling.enterModule w seg module

theorem followSuper : Steady R (followSuper w pos seg) := by
  refine .withSession fun s s' hs => ?_
  have view := coupling.sameView hs
  rw [view.isModule, view.parentModule?]
  by_cases hroot : pos.scope = w.root
  · rw [if_pos hroot]
    exact coupling.stopWith _
  · rw [if_neg hroot]
    by_cases hmodule : s'.tables.isModule pos.scope
    · rw [if_pos hmodule]
      cases s'.parentModule? w.here pos.scope with
      | none => exact coupling.stopWith _
      | some parent => exact coupling.enterModule w seg parent
    · rw [if_neg hmodule]
      exact coupling.stopWith _

theorem followName (name : String) (isLast : Bool) :
    Steady R (followName w pos seg name isLast) := by
  refine .withSession fun s s' hs => ?_
  have view := coupling.sameView hs
  simp only [view.childrenNamed, view.pickChild?, view.classify, view.findLexical?]
  generalize (if w.single = true then none
    else s'.pickChild? w.prefer isLast (s'.tables.childrenNamed pos.scope name)) = child
  cases child with
  | some child =>
      simp only
      cases s'.classify child with
      | none => exact .throw _ _
      | some space => exact coupling.enterDeclaration w pos seg space child
  | none =>
      by_cases hreached : pos.reached.isSome
      · simp only [hreached, if_true]
        exact coupling.stopWith _
      · simp only [hreached, Bool.false_eq_true, if_false]
        cases s'.findLexical? w.prefer (.single seg.node.id name) with
        | none => exact coupling.stopWith _
        | some found => exact coupling.enterDeclaration w pos seg found.1 found.2

theorem receiver? (segments : List PathSegment) : Steady R (receiver? w segments) := by
  unfold NameResolution.receiver?
  split
  · next seg _ =>
    by_cases hself : seg.ident = .selfModule
    · rw [if_pos hself]
      refine .withSession fun s s' hs => ?_
      have hnames := (coupling.sameView hs).scope .name
      simp only [scope_name] at hnames
      rw [hnames]
      cases s'.names.lookup? (.single seg.node.id "self") with
      | none => exact .pure rfl
      | some receiver =>
          exact (coupling.bindTo seg .name receiver w.here).bind_eq fun _ => .pure rfl
    · rw [if_neg hself]
      exact .pure rfl
  · exact .pure rfl

end Session.Coupling

end NameResolution
