import NameResolution.Session
import NameResolution.Proofs.SymbolTable

/-!
# NameResolution.Proofs.Execution

**Actions that succeed.** `Resolution.Runs act s a s'` says that an action on a session
`s` answers `a` and leaves `s'` behind. There is one rule for each of the few actions of
`NameResolution.Session`, and rules for composition, so a pass is followed step by step
without ever unfolding the monad:

* `Runs.bind`, `Runs.map` and `Runs.discard` compose;
* `Runs.inFrame` and `Runs.inModule` say that a frame is closed under the name it was
  opened with, provided that the action inside left the stacks as it found them;
* `runs_makeBinding_added` and `runs_makeBinding_refused` are the two ends of a binding.
-/

namespace NameResolution

/-- Leaving a module takes the innermost one off the stack, even if another one was expected. -/
theorem ModuleStack.snd_pop (s : ModuleStack) (module : NodeId) :
    (s.pop module).2 = ⟨s.opened.tail⟩ := by
  obtain ⟨opened⟩ := s
  cases opened <;> rfl

/-! ### Sessions -/

namespace Session

@[simp] theorem scope_name (s : Session) : s.scope .name = s.names := rfl

@[simp] theorem scope_type (s : Session) : s.scope .type = s.types := rfl

/-- Replacing a symbol table leaves that of the other namespace alone. -/
theorem scope_withScope (s : Session) (space x : Namespace) (sc : Scope) :
    (s.withScope space sc).scope x = if x = space then sc else s.scope x := by
  cases space <;> cases x <;> rfl

@[simp] theorem tables_withScope (s : Session) (space : Namespace) (sc : Scope) :
    (s.withScope space sc).tables = s.tables := by
  cases space <;> rfl

@[simp] theorem errors_withScope (s : Session) (space : Namespace) (sc : Scope) :
    (s.withScope space sc).errors = s.errors := by
  cases space <;> rfl

@[simp] theorem modules_withScope (s : Session) (space : Namespace) (sc : Scope) :
    (s.withScope space sc).modules = s.modules := by
  cases space <;> rfl

@[simp] theorem root_withScope (s : Session) (space : Namespace) (sc : Scope) :
    (s.withScope space sc).root = s.root := by
  cases space <;> rfl

@[simp] theorem rootPath_withScope (s : Session) (space : Namespace) (sc : Scope) :
    (s.withScope space sc).rootPath = s.rootPath := by
  cases space <;> rfl

@[simp] theorem builtins_withScope (s : Session) (space : Namespace) (sc : Scope) :
    (s.withScope space sc).builtins = s.builtins := by
  cases space <;> rfl

/-- The session with other tables. -/
def withTables (s : Session) (t : Tables) : Session := { s with tables := t }

/-- The session in which an error has been reported. -/
def reporting (s : Session) (e : ResolveError) : Session := { s with errors := s.errors.push e }

@[simp] theorem scope_withTables (s : Session) (t : Tables) (space : Namespace) :
    (s.withTables t).scope space = s.scope space := by
  cases space <;> rfl

@[simp] theorem tables_withTables (s : Session) (t : Tables) : (s.withTables t).tables = t := rfl

@[simp] theorem scope_reporting (s : Session) (e : ResolveError) (space : Namespace) :
    (s.reporting e).scope space = s.scope space := by
  cases space <;> rfl

@[simp] theorem errors_reporting (s : Session) (e : ResolveError) :
    (s.reporting e).errors = s.errors.push e := rfl

@[simp] theorem scope_openFrame (s : Session) (owner : NodeId) (space : Namespace) :
    (s.openFrame owner).scope space = (s.scope space).push owner := by
  cases space <;> rfl

@[simp] theorem scope_openModule (s : Session) (module : NodeId) (space : Namespace) :
    (s.openModule module).scope space = (s.scope space).push module := by
  cases space <;> rfl

/-- The session in which a declaration has a canonical path. -/
def withPath (s : Session) (id : NodeId) (path : CanonicalPath) : Session :=
  s.withTables { s.tables with paths := s.tables.paths.set id path }

/-- The session in which a name has a binding in the rib of a node. -/
def withBinding (s : Session) (space : Namespace) (owner : NodeId) (b : Binding) : Session :=
  s.withScope space ((s.scope space).bindIn owner b)

/-- The session with the innermost rib of both namespaces closed. -/
def withoutFrame (s : Session) : Session :=
  { s with
    names := { s.names with opened := s.names.opened.tail }
    types := { s.types with opened := s.types.opened.tail } }

/-- The session with the innermost module left and its frame closed. -/
def withoutModule (s : Session) : Session :=
  { s.withoutFrame with modules := ⟨s.modules.opened.tail⟩ }

/-- Leaving a module closes its frame. -/
theorem withoutFrame_eq_withoutModule {s s' : Session} {module : NodeId}
    (h : s'.modules = (s.openModule module).modules) :
    ({ s' with modules := s.modules } : Session).withoutFrame = s'.withoutModule := by
  unfold withoutModule
  rw [h]
  rfl

/-- In an existing rib, a binding changes the meaning of its own name and no other. -/
theorem bindingIn?_withBinding {s : Session} {space : Namespace} {owner : NodeId}
    (h : ((s.scope space).rib? owner).isSome) (b : Binding) (x : Namespace) (o : NodeId)
    (key : CanonicalPath) :
    ((s.withBinding space owner b).scope x).bindingIn? o key =
      if x = space ∧ o = owner ∧ b.path.SameText key then some b
      else (s.scope x).bindingIn? o key := by
  rw [withBinding, scope_withScope]
  by_cases hx : x = space
  · subst hx
    rw [if_pos rfl, Scope.bindingIn?_bindIn h]
    simp
  · rw [if_neg hx, if_neg fun hboth => hx hboth.1]

@[simp] theorem opened_withBinding (s : Session) (space : Namespace) (owner : NodeId)
    (b : Binding) (x : Namespace) :
    ((s.withBinding space owner b).scope x).opened = (s.scope x).opened := by
  rw [withBinding, scope_withScope]
  split
  · next hx => rw [Scope.opened_bindIn, hx]
  · rfl

/-- A binding is made in a rib that is there. -/
theorem isSome_rib?_withBinding (s : Session) (space : Namespace) (owner : NodeId) (b : Binding)
    (x : Namespace) (o : NodeId) :
    (((s.withBinding space owner b).scope x).rib? o).isSome = ((s.scope x).rib? o).isSome := by
  rw [withBinding, scope_withScope]
  split
  · next hx => rw [Scope.isSome_rib?_bindIn, hx]
  · rfl

/-- What a binding stands for counts as declared. -/
theorem declared_withBinding (s : Session) (space : Namespace) (owner : NodeId) (b : Binding)
    (x : Namespace) :
    ((s.withBinding space owner b).scope x).declared =
      if x = space then b.id :: (s.scope x).declared else (s.scope x).declared := by
  rw [withBinding, scope_withScope]
  by_cases hx : x = space
  · subst hx
    rw [if_pos rfl, if_pos rfl, Scope.declared_bindIn]
  · rw [if_neg hx, if_neg hx]

@[simp] theorem scope_withoutFrame (s : Session) (space : Namespace) :
    s.withoutFrame.scope space =
      { s.scope space with opened := (s.scope space).opened.tail } := by
  cases space <;> rfl

@[simp] theorem scope_withoutModule (s : Session) (space : Namespace) :
    s.withoutModule.scope space =
      { s.scope space with opened := (s.scope space).opened.tail } := by
  cases space <;> rfl

theorem closeFrame_eq {s : Session} {owner : NodeId}
    (h : ∀ space, (s.scope space).opened.head? = some owner) :
    s.closeFrame owner = (.ok (), s.withoutFrame) := by
  obtain ⟨names, hn⟩ := List.head?_eq_some_iff.mp (h .name)
  obtain ⟨types, ht⟩ := List.head?_eq_some_iff.mp (h .type)
  simp only [scope_name, scope_type] at hn ht
  unfold closeFrame withoutFrame
  rw [Scope.pop_cons hn, Scope.pop_cons ht, hn, ht]
  rfl

/-- Whatever comes of closing it, the innermost rib is closed. -/
theorem snd_closeFrame (s : Session) (owner : NodeId) :
    (s.closeFrame owner).2 = s.withoutFrame := by
  unfold closeFrame withoutFrame
  rw [← Scope.snd_pop s.names owner, ← Scope.snd_pop s.types owner]

theorem snd_closeModule (s : Session) (module : NodeId) :
    (s.closeModule module).2 = s.withoutModule := by
  calc (s.closeModule module).2
      = { (s.closeFrame module).2 with
          modules := ((s.closeFrame module).2.modules.pop module).2 } := rfl
    _ = { s.withoutFrame with modules := (s.modules.pop module).2 } := by
        rw [snd_closeFrame]
        rfl
    _ = s.withoutModule := by rw [ModuleStack.snd_pop]; rfl

theorem closeModule_eq {s : Session} {module : NodeId}
    (h : ∀ space, (s.scope space).opened.head? = some module)
    (hm : s.modules.opened.head? = some module) :
    s.closeModule module = (.ok (), s.withoutModule) := by
  obtain ⟨outer, hm⟩ := List.head?_eq_some_iff.mp hm
  have hframe : s.withoutFrame.modules.opened = module :: outer := hm
  unfold closeModule withoutModule
  rw [closeFrame_eq h]
  simp only [ModuleStack.pop, hframe, hm, if_true]
  rfl

end Session

namespace Resolution

variable {α β : Type}

/-- The action succeeds on `s` with the answer `a` and leaves `s'` behind. -/
def Runs (act : Resolution α) (s : Session) (a : α) (s' : Session) : Prop :=
  act.exec s = (.ok a, s')

variable {act : Resolution α} {s s₁ s₂ : Session} {a : α} {b : β}

/-! ### Composition -/

theorem Runs.pure (a : α) (s : Session) : Runs (Pure.pure a) s a s := rfl

theorem Runs.bind {next : α → Resolution β} (h₁ : Runs act s a s₁) (h₂ : Runs (next a) s₁ b s₂) :
    Runs (act >>= next) s b s₂ := by
  unfold Runs at *
  rw [exec_bind, h₁]
  exact h₂

/-- What is read from the session is known to what follows. -/
theorem Runs.get_bind {next : Session → Resolution β} (h : Runs (next s) s b s₂) :
    Runs (get >>= next) s b s₂ := by
  unfold Runs at *
  rw [exec_bind, exec_get]
  exact h

theorem Runs.ofExcept_bind {r : Except Violation α} {next : α → Resolution β} (hr : r = .ok a)
    (h : Runs (next a) s b s₂) : Runs (ofExcept r >>= next) s b s₂ := by
  subst hr
  unfold Runs at *
  rw [exec_bind, exec_ofExcept]
  exact h

theorem Runs.map {f : α → β} (h : Runs act s a s₁) : Runs (f <$> act) s (f a) s₁ := by
  rw [map_eq_pure_bind]
  exact Runs.bind h (Runs.pure _ _)

theorem Runs.discard (h : Runs act s a s₁) : Runs (discard act) s () s₁ := Runs.map h

theorem Runs.set_bind {next : Unit → Resolution β} (h : Runs (next ()) s₁ b s₂) :
    Runs ((set s₁ : Resolution Unit) >>= next) s b s₂ := by
  unfold Runs at *
  rw [exec_bind, exec_set]
  exact h

/-! ### Reporting and recording -/

theorem runs_report (e : ResolveError) (s : Session) :
    Runs (report e) s () (s.reporting e) := rfl

theorem runs_updateTables (f : Tables → Tables) (s : Session) :
    Runs (updateTables f) s () (s.withTables (f s.tables)) := rfl

/-- A declaration without a canonical path can be given one. -/
theorem runs_setPath {id : NodeId} (h : s.tables.paths.get? id = none) (path : CanonicalPath) :
    Runs (setPath id path) s () (s.withPath id path) := by
  have hset : s.tables.setPath id path =
      .ok { s.tables with paths := s.tables.paths.set id path } := by
    simp [Tables.setPath, h]
  exact Runs.get_bind (Runs.ofExcept_bind hset (Runs.set_bind (Runs.pure _ _)))

theorem runs_currentModule {here : NodeId} (h : s.modules.opened.head? = some here) :
    Runs currentModule s here s := by
  have hcurrent : s.modules.current = .ok here := by
    simp [ModuleStack.current, h]
  exact Runs.get_bind (by unfold Runs; rw [exec_ofExcept, hcurrent])

theorem runs_rootModule {root : NodeId} (h : s.modules.opened.getLast? = some root) :
    Runs rootModule s root s := by
  have hroot : s.modules.root = .ok root := by
    simp [ModuleStack.root, h]
  exact Runs.get_bind (by unfold Runs; rw [exec_ofExcept, hroot])

/-! ### Bindings -/

/-- A name that the innermost rib does not hold, or one that may be shadowed, is bound. -/
theorem runs_makeBinding_added {space : Namespace} {owner : NodeId} {b : Binding} {shadow : Bool}
    (h : (s.scope space).opened.head? = some owner)
    (hnew : shadow = true ∨ (s.scope space).bindingIn? owner b.path = none)
    (complaint : Binding → Binding → ResolveError) :
    Runs (makeBinding space b shadow complaint) s true (s.withBinding space owner b) := by
  obtain ⟨outer, hopened⟩ := List.head?_eq_some_iff.mp h
  have hinsert : (s.scope space).insert b shadow =
      .ok (.added ((s.scope space).bindIn owner b)) := by
    rw [Scope.insert_cons hopened]
    rcases hnew with rfl | hnone
    · -- With shadowing, it makes no difference what the rib holds.
      split
      · contradiction
      · rfl
    · rw [hnone]
  exact Runs.get_bind (Runs.ofExcept_bind hinsert (Runs.set_bind (Runs.pure _ _)))

/-- A name that the innermost rib holds already is complained about. -/
theorem runs_makeBinding_refused {space : Namespace} {owner : NodeId} {b earlier : Binding}
    (h : (s.scope space).opened.head? = some owner)
    (hearlier : (s.scope space).bindingIn? owner b.path = some earlier)
    (complaint : Binding → Binding → ResolveError) :
    Runs (makeBinding space b false complaint) s false (s.reporting (complaint b earlier)) := by
  obtain ⟨outer, hopened⟩ := List.head?_eq_some_iff.mp h
  have hinsert : (s.scope space).insert b false = .ok (.duplicate earlier) := by
    rw [Scope.insert_cons hopened, hearlier]
  exact Runs.get_bind (Runs.ofExcept_bind hinsert (Runs.bind (runs_report _ _) (Runs.pure _ _)))

/-! ### Frames -/

/-- An action between two steps succeeds if it does so itself and the closing step does too. -/
theorem Runs.between {opening : Session → Session}
    {closing : Session → Except Violation Unit × Session} (h : Runs act (opening s) a s₁)
    (hclose : closing s₁ = (.ok (), s₂)) : Runs (between opening closing act) s a s₂ := by
  unfold Runs at *
  rw [exec_between, h]
  simp only [hclose]
  rfl

/-- A frame is closed again once the action inside has left it innermost. -/
theorem Runs.inFrame {owner : NodeId} (h : Runs act (s.openFrame owner) a s₁)
    (hopened : ∀ space, (s₁.scope space).opened.head? = some owner) :
    Runs (inFrame owner act) s a s₁.withoutFrame :=
  Runs.between h (Session.closeFrame_eq hopened)

/-- A module is left again once the action inside has left it innermost. -/
theorem Runs.inModule {module : NodeId} (h : Runs act (s.openModule module) a s₁)
    (hopened : ∀ space, (s₁.scope space).opened.head? = some module)
    (hmodules : s₁.modules.opened.head? = some module) :
    Runs (inModule module act) s a s₁.withoutModule :=
  Runs.between h (Session.closeModule_eq hopened hmodules)

/-! ### Taking runs apart -/

/-- Of two actions in a row that succeed, the first one does. -/
theorem Runs.bind_inv {next : α → Resolution β} (h : Runs (act >>= next) s b s₂) :
    ∃ a s₁, Runs act s a s₁ ∧ Runs (next a) s₁ b s₂ := by
  unfold Runs at *
  rw [exec_bind] at h
  rcases hact : act.exec s with ⟨_ | a, s₁⟩ <;> rw [hact] at h
  · cases h
  · exact ⟨a, s₁, rfl, h⟩

/-- What is read from the session is the session. -/
theorem Runs.get_bind_inv {next : Session → Resolution β} (h : Runs (get >>= next) s b s₂) :
    Runs (next s) s b s₂ := by
  unfold Runs at *
  rwa [exec_bind, exec_get] at h

theorem Runs.eq (h : Runs act s a s₂) {a₁ : α} (h₁ : Runs act s a₁ s₁) : a₁ = a ∧ s₁ = s₂ := by
  have heq := h₁.symm.trans h
  exact ⟨Except.ok.inj (congrArg Prod.fst heq), congrArg Prod.snd heq⟩

/-- An action between two steps that succeeds does so by itself, and the closing step does too. -/
theorem Runs.between_inv {opening : Session → Session}
    {closing : Session → Except Violation Unit × Session}
    (h : Runs (Resolution.between opening closing act) s a s₂) :
    ∃ s₁, Runs act (opening s) a s₁ ∧ closing s₁ = (.ok (), s₂) := by
  unfold Runs at *
  rw [exec_between] at h
  rcases hact : act.exec (opening s) with ⟨_ | a₁, s₁⟩ <;> rw [hact] at h
  · cases congrArg Prod.fst h
  · obtain ⟨hresult, hs'⟩ := Prod.mk.injEq .. ▸ h
    refine ⟨s₁, ?_, Prod.ext ?_ hs'⟩
    · cases hclose : (closing s₁).1 with
      | error v => rw [hclose] at hresult; cases hresult
      | ok u => rw [hclose] at hresult; cases hresult; rfl
    · cases hclose : (closing s₁).1 with
      | error v => rw [hclose] at hresult; cases hresult
      | ok u => rfl

/-- An action inside a frame that succeeds does so by itself, and then the frame is closed. -/
theorem Runs.inFrame_inv {owner : NodeId} (h : Runs (Resolution.inFrame owner act) s a s₂) :
    ∃ s₁, Runs act (s.openFrame owner) a s₁ ∧ s₂ = s₁.withoutFrame := by
  obtain ⟨s₁, hrun, hclose⟩ := Runs.between_inv h
  exact ⟨s₁, hrun, (congrArg Prod.snd hclose).symm.trans (s₁.snd_closeFrame owner)⟩

/-- An action inside a module that succeeds does so by itself, and then the module is left. -/
theorem Runs.inModule_inv {module : NodeId} (h : Runs (Resolution.inModule module act) s a s₂) :
    ∃ s₁, Runs act (s.openModule module) a s₁ ∧ s₂ = s₁.withoutModule := by
  obtain ⟨s₁, hrun, hclose⟩ := Runs.between_inv h
  exact ⟨s₁, hrun, (congrArg Prod.snd hclose).symm.trans (s₁.snd_closeModule module)⟩

end Resolution

end NameResolution
